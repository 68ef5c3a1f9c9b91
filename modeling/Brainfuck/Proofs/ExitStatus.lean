import Brainfuck.Proofs.Working

/-!
# Exit status and order of work

The exit status tells in which of four ways the work has gone before any execution, and how its
executions have ended: there is a reason for each (`exits_iff`). Main statement: what the statuses
stand for, that there is none if and only if an execution never ends, and that files are written
before anything is executed (`exit_status_and_order_of_work`).
-/
namespace Brainfuck
namespace CommandLine

variable {σ : Type}

/-- The work ends with an exit status, if its executions are given steps enough. -/
def Exits (system : FileSystem σ) (files : σ) (o : Options) (input : Input) (output : Output)
    (status : Nat) : Prop :=
  ∃ bound outcome files', ((watching system bound).work o input output files).2 =
    some (outcome, files') ∧ outcome.exitStatus = status

variable {system : FileSystem σ} {files : σ} {o : Options} {input : Input} {output : Output}

theorem Exits.unique {status status' : Nat} (exits : Exits system files o input output status)
    (exits' : Exits system files o input output status') : status = status' := by
  obtain ⟨bound, outcome, last, ended, rfl⟩ := exits
  obtain ⟨bound', outcome', last', ended', rfl⟩ := exits'
  have more := work_mono ended bound'
  have more' := work_mono ended' bound
  rw [Nat.add_comm, more] at more'
  rw [more', ended'] at ended
  cases ended
  rfl

/-- Why the work ends with an exit status. -/
inductive Reason (system : FileSystem σ) (files : σ) (o : Options) (input : Input)
    (output : Output) : Nat → Prop
  | halted {source : String} {code : Code} : Prepared system files o source code →
      Session.RoundsTo o.rounds (o.session source input output) (.ok ()) →
      Reason system files o input output 0
  | unread : (∀ source, ¬ Reads system files o source) → Reason system files o input output 1
  | unwritable {source path : String} {code : Code} {e : FileError} :
      Reads system files o source → compile o.flags source = .ok code → o.emit = some path →
      system.write files path ⟨code.bytes.toArray⟩ = .error e →
      Reason system files o input output 1
  | malformed {source : String} {e : CompileError} : Reads system files o source →
      compile o.flags source = .error e → Reason system files o input output 2
  | faulted {source : String} {code : Code} {fault : Fault} : Prepared system files o source code →
      Session.RoundsTo o.rounds (o.session source input output) (.error (.crashed fault)) →
      Reason system files o input output 3

theorem Reason.le_three {status : Nat} (reason : Reason system files o input output status) :
    status ≤ 3 := by
  cases reason <;> omega

section

variable (allocatable : o.cells ≤ Session.maxCells) {source : String} {code : Code}

include allocatable

theorem exits_of_unread (unread : ∀ source, ¬ Reads system files o source) :
    Exits system files o input output 1 := by
  have went := works system 0 files input output allocatable
  generalize done : (watching system 0).work o input output files = r at went
  cases went with
  | unreadable => exact ⟨0, _, _, by rw [done], rfl⟩
  | malformed _ reads => exact absurd reads (unread _)
  | unwritable _ reads => exact absurd reads (unread _)
  | executed _ _ reads => exact absurd reads (unread _)

theorem exits_of_malformed {e : CompileError} (reads : Reads system files o source)
    (refused : compile o.flags source = .error e) : Exits system files o input output 2 := by
  have went := works system 0 files input output allocatable
  generalize done : (watching system 0).work o input output files = r at went
  cases went with
  | unreadable _ unread => exact absurd reads (unread _)
  | malformed => exact ⟨0, _, _, by rw [done], rfl⟩
  | unwritable _ reads' compiled =>
    obtain rfl := reads.unique reads'
    cases refused.symm.trans compiled
  | executed _ _ reads' compiled =>
    obtain rfl := reads.unique reads'
    cases refused.symm.trans compiled

theorem exits_of_unwritable {path : String} {e : FileError} (reads : Reads system files o source)
    (compiled : compile o.flags source = .ok code) (named : o.emit = some path)
    (refused : system.write files path ⟨code.bytes.toArray⟩ = .error e) :
    Exits system files o input output 1 := by
  obtain ⟨before, after, answer, done, ⟨path', e', _, _, rfl⟩ | ⟨emits, _⟩⟩ :=
    works_of_compiled allocatable reads compiled 0 input output
  · exact ⟨0, _, _, by rw [done], rfl⟩
  · obtain ⟨files', written⟩ := emits path named
    cases refused.symm.trans written

/-- Work that is prepared ends as its executions do. -/
theorem exits_iff_of_prepared (prepared : Prepared system files o source code) (status : Nat) :
    Exits system files o input output status ↔
      ∃ result, Session.RoundsTo o.rounds (o.session source input output) result ∧
        (Outcome.ofRounds result).exitStatus = status := by
  constructor
  · rintro ⟨bound, outcome, last, ended, status⟩
    obtain ⟨files', answered⟩ := answer_of_prepared allocatable prepared bound input output
    rw [ended] at answered
    obtain ⟨result, rounds, same⟩ := Option.map_eq_some_iff.mp answered.symm
    cases same
    exact ⟨result, Session.roundsTo_iff.mpr ⟨bound, rounds⟩, status⟩
  · rintro ⟨result, rounds, status⟩
    obtain ⟨bound, ended⟩ := Session.roundsTo_iff.mp rounds
    obtain ⟨files', answered⟩ := answer_of_prepared allocatable prepared bound input output
    rw [ended] at answered
    exact ⟨bound, _, _, answered, status⟩

/-- The work ends with a status if and only if there is a reason for it. -/
theorem exits_iff (status : Nat) :
    Exits system files o input output status ↔ Reason system files o input output status := by
  constructor
  · intro exits
    rcases ways system files o with unread | ⟨source, e, reads, refused⟩ |
      ⟨source, code, path, e, reads, compiled, named, refused⟩ | ⟨source, code, prepared⟩
    · obtain rfl := exits.unique (exits_of_unread allocatable unread)
      exact .unread unread
    · obtain rfl := exits.unique (exits_of_malformed allocatable reads refused)
      exact .malformed reads refused
    · obtain rfl := exits.unique (exits_of_unwritable allocatable reads compiled named refused)
      exact .unwritable reads compiled named refused
    · obtain ⟨result, rounds, rfl⟩ := (exits_iff_of_prepared allocatable prepared status).mp exits
      rcases prepared.rounds_cases rounds with rfl | ⟨fault, rfl⟩
      · exact .halted prepared rounds
      · exact .faulted prepared rounds
  · intro reason
    cases reason with
    | halted prepared rounds =>
      exact (exits_iff_of_prepared allocatable prepared 0).mpr ⟨_, rounds, rfl⟩
    | unread unread => exact exits_of_unread allocatable unread
    | unwritable reads compiled named refused =>
      exact exits_of_unwritable allocatable reads compiled named refused
    | malformed reads refused => exact exits_of_malformed allocatable reads refused
    | faulted prepared rounds =>
      exact (exits_iff_of_prepared allocatable prepared 3).mpr ⟨_, rounds, rfl⟩

/-- The work has no exit status if and only if it is prepared and an execution never ends. -/
theorem not_exits_iff :
    (∀ status, ¬ Exits system files o input output status) ↔
      ∃ source code, Prepared system files o source code ∧
        ∀ result, ¬ Session.RoundsTo o.rounds (o.session source input output) result := by
  constructor
  · intro endless
    rcases ways system files o with unread | ⟨source, e, reads, refused⟩ |
      ⟨source, code, path, e, reads, compiled, named, refused⟩ | ⟨source, code, prepared⟩
    · exact absurd (exits_of_unread allocatable unread) (endless 1)
    · exact absurd (exits_of_malformed allocatable reads refused) (endless 2)
    · exact absurd (exits_of_unwritable allocatable reads compiled named refused) (endless 1)
    · refine ⟨source, code, prepared, ?_⟩
      intro result rounds
      exact endless _ ((exits_iff_of_prepared allocatable prepared _).mpr ⟨result, rounds, rfl⟩)
  · rintro ⟨source, code, prepared, endless⟩ status exits
    obtain ⟨result, rounds, _⟩ := (exits_iff_of_prepared allocatable prepared status).mp exits
    exact endless result rounds

end

/-- Which exit status there is, and in which order the work is done, over any files, input and
output, if the tape asked for is not too large. The status is one if the source cannot be read, or
if it compiles and the file asked for cannot be written; two if the source is read and does not
compile; three if everything is prepared and the first execution that does not halt ends in a fault;
zero if all executions that are asked for halt. There is no status if and only if an execution never
ends. The error of a session that has finished before does not come up. A file is written if and
only if the source is read and compiles and a file is asked for, with the bytes of the code, and
before anything is executed. A command is asked for if it is named, and the run also if none is; an
optimization is done if it is named or all are. How often and in which order commands and
optimizations are named makes no difference, whatever host does the work. -/
theorem exit_status_and_order_of_work (system : FileSystem σ) (files : σ) (o : Options)
    (input : Input) (output : Output) (allocatable : o.cells ≤ Session.maxCells) :
    (Exits system files o input output 1 ↔
      (∀ source, ¬ Reads system files o source) ∨
      ∃ source code path e, Reads system files o source ∧ compile o.flags source = .ok code ∧
        o.emit = some path ∧ system.write files path ⟨code.bytes.toArray⟩ = .error e) ∧
    (Exits system files o input output 2 ↔
      ∃ source e, Reads system files o source ∧ compile o.flags source = .error e) ∧
    (Exits system files o input output 3 ↔
      ∃ source code fault, Prepared system files o source code ∧
        Session.RoundsTo o.rounds (o.session source input output) (.error (.crashed fault))) ∧
    (Exits system files o input output 0 ↔
      ∃ source code, Prepared system files o source code ∧
        Session.RoundsTo o.rounds (o.session source input output) (.ok ())) ∧
    (∀ status, Exits system files o input output status →
      status ≤ 3 ∧ ∀ other, Exits system files o input output other → other = status) ∧
    ((∀ status, ¬ Exits system files o input output status) ↔
      ∃ source code, Prepared system files o source code ∧
        ∀ result, ¬ Session.RoundsTo o.rounds (o.session source input output) result) ∧
    (∀ bound, let done := (watching system bound).work o input output files
      (∀ outcome files' phase, done.2 = some (outcome, files') →
        outcome ≠ .failed (.program (.finished phase))) ∧
      (∀ path contents, .write path contents ∈ done.1 ↔
        ∃ source code, Reads system files o source ∧ compile o.flags source = .ok code ∧
          o.emit = some path ∧ contents = ⟨code.bytes.toArray⟩) ∧
      done.1.Pairwise fun d e => e.isWrite = true → d.executes = false) ∧
    (∀ c, o.asks c = true ↔ c ∈ o.commands ∨ o.commands = [] ∧ c = .run) ∧
    ((o.flags.coalesceRuns = true ↔
        o.allOptimizations = true ∨ .coalesceRuns ∈ o.optimizations) ∧
      (o.flags.stripCommentBlock = true ↔
        o.allOptimizations = true ∨ .commentBlock ∈ o.optimizations)) ∧
    ∀ (commands : List Command) (optimizations : List Optimization),
      (∀ c, c ∈ commands ↔ c ∈ o.commands) → (∀ x, x ∈ optimizations ↔ x ∈ o.optimizations) →
      ∀ (m : Type → Type) [Monad m] (host : Host m),
        host.work { o with commands := commands, optimizations := optimizations } input output =
          host.work o input output := by
  have reasons : ∀ status, Exits system files o input output status ↔
      Reason system files o input output status := exits_iff allocatable
  refine ⟨(reasons 1).trans ⟨?_, ?_⟩, (reasons 2).trans ⟨?_, ?_⟩, (reasons 3).trans ⟨?_, ?_⟩,
    (reasons 0).trans ⟨?_, ?_⟩, ?_, not_exits_iff allocatable, ?_, o.asks_iff, o.flags_iff, ?_⟩
  · intro reason
    cases reason with
    | unread unread => exact .inl unread
    | unwritable reads compiled named refused =>
      exact .inr ⟨_, _, _, _, reads, compiled, named, refused⟩
  · rintro (unread | ⟨source, code, path, e, reads, compiled, named, refused⟩)
    · exact .unread unread
    · exact .unwritable reads compiled named refused
  · intro reason
    cases reason with
    | malformed reads refused => exact ⟨_, _, reads, refused⟩
  · rintro ⟨source, e, reads, refused⟩
    exact .malformed reads refused
  · intro reason
    cases reason with
    | faulted prepared rounds => exact ⟨_, _, _, prepared, rounds⟩
  · rintro ⟨source, code, fault, prepared, rounds⟩
    exact .faulted prepared rounds
  · intro reason
    cases reason with
    | halted prepared rounds => exact ⟨_, _, prepared, rounds⟩
  · rintro ⟨source, code, prepared, rounds⟩
    exact .halted prepared rounds
  · intro status exits
    exact ⟨((reasons status).mp exits).le_three, fun other exits' => exits'.unique exits⟩
  · intro bound done
    have went : Works system bound files o input output done :=
      works system bound files input output allocatable
    refine ⟨?_, write_mem_iff allocatable bound, went.pairwise⟩
    intro outcome files' phase ended
    have same : done = (done.1, some (outcome, files')) := Prod.ext rfl ended
    rw [same] at went
    exact went.not_finished phase
  · intro commands optimizations sameCommands sameOptimizations m _ host
    exact work_naming sameCommands sameOptimizations host input output

/-- Files whose paths are their names, all of which can be written. -/
def FileSystem.byName : FileSystem Directory where
  read files path := (files.find? path).elim (.error .notFound) .ok
  write files path contents := .ok (files.put path contents)

/-- The trace reads a zero and halts; the run goes on with the byte after it, and faults. -/
theorem exit_status_and_order_of_work_of_second_fault :
    Exits .byName ⟨[("left.bf", ",[<]".toUTF8)]⟩
      { file := some "left.bf", commands := [.run, .trace], emit := some "left.bin", cells := 2 }
      ⟨[.byte 0, .byte 1]⟩ (.scripted [] []) 3 := by
  obtain ⟨_, _, three, _⟩ := exit_status_and_order_of_work .byName ⟨[("left.bf", ",[<]".toUTF8)]⟩
    { file := some "left.bf", commands := [.run, .trace], emit := some "left.bin", cells := 2 }
    ⟨[.byte 0, .byte 1]⟩ (.scripted [] []) (by decide)
  have compiled : compile .plain ",[<]" = .ok _ := rfl
  refine three.mpr ⟨",[<]", _, ⟨.beforeFirstCell 0 1, 2⟩, ⟨.file rfl rfl rfl, compiled, ?_⟩, ?_⟩
  · rintro path ⟨⟩
    exact ⟨_, rfl⟩
  · exact Session.roundsTo_iff.mpr ⟨9, rfl⟩

end CommandLine
end Brainfuck
