import Brainfuck.Proofs.ExitStatus
import Brainfuck.Proofs.Leftover
import Brainfuck.Proofs.Printing

/-!
# The printout

A session that has been executed and set back goes on over what is left of the input as a fresh one
would (`Resumes`), so what an execution puts out is told by a fresh session (`Part`), whatever was
executed before it. Main statement: the work puts out the tokens, the listing and what the trace and
the run write, in this order and as far as it goes, and quiet changes nothing but notes
(`printout_of_work`).
-/
namespace Brainfuck
namespace CommandLine

variable {σ : Type}

/-! ### Going on over what is left -/

/-- What an execution that may be wanted is to put out, over an input and an output that takes
everything: nothing if it is not wanted, and else what a fresh session puts out. It leaves an input
and has a result. -/
inductive Part (o : Options) (source : String) (input : Input) :
    Bool → List UInt8 → Input → Except SessionError Unit → Prop
  | skipped : Part o source input false [] input (.ok ())
  | executed {result : Except SessionError Unit} {t : Session} :
      (o.session source input (.scripted [] [])).RunsTo (result, t) →
      Part o source input true t.machine.store.output.taken.toList t.machine.store.input result

/-- A session that has its code goes on over an input as the one asked for would, but for what has
been put out before. -/
def Resumes (o : Options) (source : String) (code : Code) (input : Input) (s : Session) : Prop :=
  ∃ earlier, s = ((o.session source input (.scripted [] [])).holding code).following earlier

section Resumes

variable {o : Options} {source : String} {code : Code} {input : Input} {s t : Session}
  {bound : Nat} {result : Except SessionError Unit}

theorem untried_session (compiled : compile o.flags source = .ok code) (input : Input)
    (output : Output) : (o.session source input output).Untried code :=
  ⟨rfl, rfl, compiled⟩

theorem resumes_holding (o : Options) (source : String) (code : Code) (input : Input) :
    Resumes o source code input ((o.session source input (.scripted [] [])).holding code) :=
  ⟨.scripted [] [], rfl⟩

/-- Made anew over another input, the session asked for is the one asked for over that input. -/
theorem withInput_anew_session (o : Options) (source : String) (input rest : Input) :
    ((o.session source input (.scripted [] [])).anew.withInput rest) =
      o.session source rest (.scripted [] []) := by
  have cells : Tape.blank (Tape.blank o.cells).size = .blank o.cells := Tape.blank_size o.cells
  simp only [Options.session, Session.fresh, Session.ofSource, Session.resize, Session.mapStore,
    Session.withFlags, Session.withStrategy, Session.withLimit, Session.anew, Session.withInput,
    Store.resize, Store.mapStreams, Machine.start, Output.scripted, cells, id]

/-- Set back after an execution, the session goes on over what is left of the input. -/
theorem resumes_reset (compiled : compile o.flags source = .ok code)
    (ran : (o.session source input (.scripted [] [])).run bound = some (result, t))
    (earlier : Output) :
    Resumes o source code t.machine.store.input (t.following earlier).reset := by
  obtain ⟨given, anew⟩ :=
    Session.anew_of_run (untried_session compiled input _).active ⟨rfl, rfl⟩ ran
  rw [withInput_anew_session] at anew
  refine ⟨(t.following earlier).machine.store.output, ?_⟩
  rw [← anew]
  exact Session.reset_of_code given

theorem Resumes.active (resumes : Resumes o source code input s) : s.Active code := by
  obtain ⟨earlier, rfl⟩ := resumes
  exact ⟨rfl, rfl⟩

theorem Resumes.run_eq (compiled : compile o.flags source = .ok code)
    (resumes : Resumes o source code input s) (bound : Nat) :
    ∃ earlier, s.machine.store.output.taken = earlier.taken ∧
      s.run bound = ((o.session source input (.scripted [] [])).run bound).map
        fun r => (r.1, r.2.following earlier) := by
  obtain ⟨earlier, rfl⟩ := resumes
  refine ⟨earlier, ?_, ?_⟩
  · exact Array.append_empty
  · rw [Session.run_following, (untried_session compiled input _).run_holding]

theorem writtenBeyond_following (earlier : Output) (t : Session) :
    writtenBeyond earlier.taken.size (t.following earlier) =
      t.machine.store.output.taken.toList := by
  obtain ⟨source, flags, code?, phase, ip, steps, strategy, limit, tape, input, output⟩ := t
  simp [writtenBeyond, Session.following, Machine.following, Store.following, Output.following]

/-- How the work goes on after an execution with some result: not if it has failed, and else over
what is left of the input. -/
def GoesOn (o : Options) (source : String) (code : Code) (rest : Input) :
    Except SessionError Unit → Except SessionError Session → Prop
  | .error e, next => next = .error e
  | .ok (), next => ∃ t, next = .ok t ∧ Resumes o source code rest t

/-- An execution that is wanted puts out what it is to put out. -/
theorem Resumes.part_of_run (compiled : compile o.flags source = .ok code)
    (resumes : Resumes o source code input s)
    (ran : (o.session source input (.scripted [] [])).run bound = some (result, t)) :
    ∃ next, part true bound s = some (t.machine.store.output.taken.toList, next) ∧
      GoesOn o source code t.machine.store.input result next := by
  obtain ⟨earlier, before, run⟩ := resumes.run_eq compiled bound
  refine ⟨result.map fun _ => (t.following earlier).reset, ?_, ?_⟩
  · simp only [part, if_true, run, ran, Option.map_some, before, writtenBeyond_following]
  · cases result with
    | error e => rfl
    | ok => exact ⟨_, rfl, resumes_reset compiled ran earlier⟩

theorem Resumes.exists_of_part (compiled : compile o.flags source = .ok code)
    (resumes : Resumes o source code input s) {wanted : Bool} {bytes : List UInt8}
    {next : Except SessionError Session} (parted : part wanted bound s = some (bytes, next)) :
    ∃ rest result, Part o source input wanted bytes rest result ∧
      GoesOn o source code rest result next := by
  cases wanted with
  | false =>
    cases parted
    exact ⟨input, .ok (), .skipped, s, rfl, resumes⟩
  | true =>
    cases ran : (o.session source input (.scripted [] [])).run bound with
    | none =>
      obtain ⟨earlier, _, run⟩ := resumes.run_eq compiled bound
      simp [part, run, ran] at parted
    | some r =>
      obtain ⟨result, t⟩ := r
      obtain ⟨next', parted', goesOn⟩ := resumes.part_of_run compiled ran
      cases parted.symm.trans parted'
      exact ⟨_, result, .executed ⟨bound, ran⟩, goesOn⟩

theorem Resumes.exists_part (compiled : compile o.flags source = .ok code)
    (resumes : Resumes o source code input s) {wanted : Bool} {bytes : List UInt8} {rest : Input}
    (given : Part o source input wanted bytes rest result) :
    ∃ bound next, part wanted bound s = some (bytes, next) ∧
      GoesOn o source code rest result next := by
  cases given with
  | skipped => exact ⟨0, _, rfl, s, rfl, resumes⟩
  | executed runs =>
    obtain ⟨bound, ran⟩ := runs
    obtain ⟨next, parted, goesOn⟩ := resumes.part_of_run compiled ran
    exact ⟨bound, next, parted, goesOn⟩

theorem part_mono {wanted : Bool} {r : List UInt8 × Except SessionError Session}
    (parted : part wanted bound s = some r) (more : Nat) :
    part wanted (bound + more) s = some r := by
  cases wanted with
  | false => exact parted
  | true =>
    obtain ⟨last, ran, same⟩ := Option.map_eq_some_iff.mp parted
    exact Option.map_eq_some_iff.mpr ⟨last, Session.run_mono ran more, same⟩

end Resumes

/-- What the executions that are asked for are to put out: what the trace writes, and then what the
run writes, which goes on with the input where the trace has ended, if that has not failed. -/
inductive Executions (o : Options) (source : String) (input : Input) : List UInt8 → Prop
  | failed {traced : List UInt8} {rest : Input} {e : SessionError} :
      Part o source input (o.asks .trace) traced rest (.error e) →
      Executions o source input traced
  | both {traced ran : List UInt8} {rest rest' : Input} {result : Except SessionError Unit} :
      Part o source input (o.asks .trace) traced rest (.ok ()) →
      Part o source rest (o.asks .run) ran rest' result →
      Executions o source input (traced ++ ran)

/-- What the work is to put out over an input, once it has read its source: the tokens, and if the
source compiles the listing, and if any file asked for can be written what the executions write. -/
inductive Printout (system : FileSystem σ) (files : σ) (o : Options) (source : String)
    (input : Input) : List UInt8 → Prop
  | malformed {e : CompileError} : compile o.flags source = .error e →
      Printout system files o source input (o.shown .tokens (tokenDump source))
  | unwritable {path : String} {code : Code} {e : FileError} :
      compile o.flags source = .ok code → o.emit = some path →
      system.write files path ⟨code.bytes.toArray⟩ = .error e →
      Printout system files o source input
        (o.shown .tokens (tokenDump source) ++ o.shown .bytecode code.listing)
  | executed {code : Code} {bytes : List UInt8} :
      compile o.flags source = .ok code → Emits system files o code →
      Executions o source input bytes →
      Printout system files o source input
        (o.shown .tokens (tokenDump source) ++ o.shown .bytecode code.listing ++ bytes)

section Whole

variable {system : FileSystem σ} {bound : Nat} {files : σ} {o : Options} {source : String}
  {input : Input} {code : Code} {s : Session} {bytes : List UInt8}

theorem executions_of_prints (compiled : compile o.flags source = .ok code)
    (resumes : Resumes o source code input s) {r : Outcome × σ}
    (prints : ((watching system bound).execute o s).prints bound files = some (bytes, r)) :
    Executions o source input bytes := by
  rw [execute_prints resumes.active] at prints
  obtain ⟨⟨traced, next⟩, parted, later⟩ := Option.bind_eq_some_iff.mp prints
  obtain ⟨rest, result, given, goesOn⟩ := resumes.exists_of_part compiled parted
  cases result with
  | error e =>
    obtain rfl := goesOn
    cases later
    exact .failed given
  | ok =>
    obtain ⟨t, rfl, resumes'⟩ := goesOn
    obtain ⟨r', ended, same⟩ := Option.map_eq_some_iff.mp later
    obtain ⟨⟨ran, next'⟩, parted', same'⟩ := Option.map_eq_some_iff.mp ended
    cases same'
    cases same
    obtain ⟨rest', result', given', _⟩ := resumes'.exists_of_part compiled parted'
    exact .both given given'

theorem exists_prints_of_executions (compiled : compile o.flags source = .ok code)
    (resumes : Resumes o source code input s) (executions : Executions o source input bytes) :
    ∃ bound, ∀ (system : FileSystem σ) (files : σ), ∃ outcome,
      ((watching system bound).execute o s).prints bound files = some (bytes, outcome, files) := by
  cases executions with
  | @failed _ _ e given =>
    obtain ⟨bound, next, parted, goesOn⟩ := resumes.exists_part compiled given
    obtain rfl := goesOn
    refine ⟨bound, fun system files => ⟨.failed (.program e), ?_⟩⟩
    rw [execute_prints resumes.active, parted]
    rfl
  | both given given' =>
    obtain ⟨bound, next, parted, t, rfl, resumes'⟩ := resumes.exists_part compiled given
    obtain ⟨bound', next', parted', _⟩ := resumes'.exists_part compiled given'
    have first := part_mono parted bound'
    have second := part_mono parted' bound
    rw [Nat.add_comm] at second
    refine ⟨bound + bound', fun system files => ⟨.ofRounds (next'.map fun _ => ()), ?_⟩⟩
    rw [execute_prints resumes.active, first, Option.bind_some]
    dsimp only
    rw [second]
    rfl

theorem writes_silent (o : Options) (code : Code) (bound : Nat) :
    ∀ d ∈ o.writes code, d.printed bound = [] := by
  intro d member
  obtain ⟨path, _, rfl⟩ := mem_writes.mp member
  rfl

/-- What the work puts out before any execution. -/
theorem work_prints (allocatable : o.cells ≤ Session.maxCells) (reads : Reads system files o source)
    (output : Output) : ((watching system bound).work o input output).prints bound files =
      behind (o.shown .tokens (tokenDump source))
        (((watching system bound).compileAndGo o (o.session source input output)).prints bound
          files) := by
  have sourced : Does Deed.Tacit ((watching system bound).source o) files
      (some (.ok source, files)) := by
    rcases source_does system bound files o with ⟨source', reads', does⟩ | ⟨_, _, unread, _⟩
    · obtain rfl := reads.unique reads'
      exact does
    · exact absurd reads (unread source)
  have given : o.session? source input output = some (o.session source input output) := by
    rw [Options.session?, Session.resize?, if_pos allocatable]
    rfl
  rw [Host.work, sourced.prints_bind]
  dsimp only
  rw [Watched.prints_bind (printIf_prints .tokens _), given]

theorem compileAndGo_prints_of_refused {e : CompileError}
    (refused : compile o.flags source = .error e) (output : Output) :
    ((watching system bound).compileAndGo o (o.session source input output)).prints bound files =
      some ([], .failed (.program (.malformed e)), files) := by
  rcases compile_session source o input output with
    ⟨code, t, compiled, _⟩ | ⟨e', t, refused', given⟩
  · cases refused.symm.trans compiled
  · cases refused.symm.trans refused'
    rw [Host.compileAndGo, (say_does _).prints_bind, given]
    exact Watched.prints_pure bound _ files

theorem compileAndGo_prints (compiled : compile o.flags source = .ok code)
    (system : FileSystem σ) (bound : Nat) (files : σ) (input : Input) (output : Output) :
    (∃ path e, o.emit = some path ∧ system.write files path ⟨code.bytes.toArray⟩ = .error e ∧
      ((watching system bound).compileAndGo o (o.session source input output)).prints bound files =
        some (o.shown .bytecode code.listing, .failed (.unwritable path e), files)) ∨
    Emits system files o code ∧ ∃ files',
      ((watching system bound).compileAndGo o (o.session source input output)).prints bound files =
        behind (o.shown .bytecode code.listing)
          (((watching system bound).execute o
            ((o.session source input output).holding code)).prints bound files') := by
  have untried : (o.session source input output).Untried code := untried_session compiled _ _
  rw [Host.compileAndGo, (say_does _).prints_bind, untried.compile_eq]
  dsimp only
  rw [(say_does _).prints_bind, Watched.prints_bind (printIf_prints .bytecode _)]
  have silent := writes_silent o code bound
  rcases emit_cases system bound files o code with
    ⟨emits, log, files', tacit, emitted⟩ | ⟨path, e, named, refused, emitted⟩
  · have does : Does (fun d => d.printed bound = []) ((watching system bound).emit o code) files
        (some (.ok (), files')) :=
      ⟨_, List.forall_mem_append.mpr ⟨silent, fun d member => (tacit d member).printed_eq bound⟩,
        emitted⟩
    refine .inr ⟨emits, files', ?_⟩
    rw [Watched.prints_bind does.prints_eq, behind_nil]
  · have does : Does (fun d => d.printed bound = []) ((watching system bound).emit o code) files
        (some (.error (.unwritable path e), files)) := ⟨_, silent, emitted⟩
    refine .inl ⟨path, e, named, refused, ?_⟩
    rw [Watched.prints_bind does.prints_eq]
    simp [Watched.prints_pure]

def Prints (system : FileSystem σ) (files : σ) (o : Options) (input : Input)
    (bytes : List UInt8) : Prop :=
  ∃ bound outcome files', let done := (watching system bound).work o input (.scripted [] []) files
    done.2 = some (outcome, files') ∧ done.1.flatMap (Deed.printed bound) = bytes

theorem prints_iff : Prints system files o input bytes ↔ ∃ bound outcome files',
    ((watching system bound).work o input (.scripted [] [])).prints bound files =
      some (bytes, outcome, files') := by
  constructor
  · rintro ⟨bound, outcome, files', ended, printed⟩
    exact ⟨bound, outcome, files', Option.map_eq_some_iff.mpr ⟨_, ended, by rw [printed]⟩⟩
  · rintro ⟨bound, outcome, files', prints⟩
    obtain ⟨_, ended, same⟩ := Option.map_eq_some_iff.mp prints
    cases same
    exact ⟨bound, outcome, files', ended, rfl⟩

/-- The work puts out what it is to put out. -/
theorem prints_iff_printout (allocatable : o.cells ≤ Session.maxCells)
    (reads : Reads system files o source) (bytes : List UInt8) :
    Prints system files o input bytes ↔ Printout system files o source input bytes := by
  rw [prints_iff]
  simp only [work_prints allocatable reads]
  constructor
  · rintro ⟨bound, outcome, files', prints⟩
    obtain ⟨⟨later, r⟩, done, same⟩ := Option.map_eq_some_iff.mp prints
    cases same
    cases compiled : compile o.flags source with
    | error e =>
      cases (compileAndGo_prints_of_refused compiled _).symm.trans done
      rw [List.append_nil]
      exact .malformed compiled
    | ok code =>
      rcases compileAndGo_prints compiled system bound files input (.scripted [] []) with
        ⟨path, e, named, refused, ends⟩ | ⟨emits, last, goes⟩
      · cases ends.symm.trans done
        exact .unwritable compiled named refused
      · rw [goes] at done
        obtain ⟨⟨bytes, r⟩, executed, same⟩ := Option.map_eq_some_iff.mp done
        cases same
        rw [← List.append_assoc]
        exact .executed compiled emits
          (executions_of_prints compiled (resumes_holding o source code input) executed)
  · intro printout
    cases printout with
    | @malformed e refused =>
      refine ⟨0, .failed (.program (.malformed e)), files, ?_⟩
      rw [compileAndGo_prints_of_refused refused, behind_some, List.append_nil]
    | unwritable compiled named refused =>
      rcases compileAndGo_prints compiled system 0 files input (.scripted [] []) with
        ⟨path, e, _, _, ends⟩ | ⟨emits, _⟩
      · refine ⟨0, .failed (.unwritable path e), files, ?_⟩
        rw [ends, behind_some]
      · obtain ⟨_, written⟩ := emits _ named
        cases refused.symm.trans written
    | executed compiled emits executions =>
      obtain ⟨bound, executes⟩ :=
        exists_prints_of_executions compiled (resumes_holding o source _ input) executions
      rcases compileAndGo_prints compiled system bound files input (.scripted [] []) with
        ⟨_, _, named, refused, _⟩ | ⟨_, last, goes⟩
      · obtain ⟨_, written⟩ := emits _ named
        cases refused.symm.trans written
      · obtain ⟨outcome, executed⟩ := executes system last
        refine ⟨bound, outcome, last, ?_⟩
        rw [goes, executed, behind_some, behind_some, List.append_assoc]

/-! ### There is one printout -/

theorem Part.unique {wanted : Bool} {bytes' : List UInt8} {rest rest' : Input}
    {result result' : Except SessionError Unit}
    (given : Part o source input wanted bytes rest result)
    (given' : Part o source input wanted bytes' rest' result') :
    bytes = bytes' ∧ rest = rest' ∧ result = result' := by
  cases given with
  | skipped =>
    cases given'
    exact ⟨rfl, rfl, rfl⟩
  | executed runs =>
    cases given' with
    | executed runs' =>
      obtain ⟨_, run⟩ := runs
      obtain ⟨_, run'⟩ := runs'
      cases Session.run_unique run run'
      exact ⟨rfl, rfl, rfl⟩

theorem Executions.unique {bytes' : List UInt8} (executions : Executions o source input bytes)
    (executions' : Executions o source input bytes') : bytes = bytes' := by
  cases executions with
  | failed given =>
    cases executions' with
    | failed given' => exact (given.unique given').1
    | both given' => cases (given.unique given').2.2
  | both given later =>
    cases executions' with
    | failed given' => cases (given.unique given').2.2
    | both given' later' =>
      obtain ⟨rfl, rfl, _⟩ := given.unique given'
      rw [(later.unique later').1]

theorem Printout.unique {bytes' : List UInt8}
    (printout : Printout system files o source input bytes)
    (printout' : Printout system files o source input bytes') : bytes = bytes' := by
  cases printout with
  | malformed refused =>
    cases printout' with
    | malformed => rfl
    | unwritable compiled => cases refused.symm.trans compiled
    | executed compiled => cases refused.symm.trans compiled
  | unwritable compiled named refused =>
    cases printout' with
    | malformed refused' => cases compiled.symm.trans refused'
    | unwritable compiled' =>
      cases compiled.symm.trans compiled'
      rfl
    | executed compiled' emits =>
      cases compiled.symm.trans compiled'
      obtain ⟨_, written⟩ := emits _ named
      cases refused.symm.trans written
  | executed compiled emits executions =>
    cases printout' with
    | malformed refused' => cases compiled.symm.trans refused'
    | unwritable compiled' named refused =>
      cases compiled.symm.trans compiled'
      obtain ⟨_, written⟩ := emits _ named
      cases refused.symm.trans written
    | executed compiled' _ executions' =>
      cases compiled.symm.trans compiled'
      rw [executions.unique executions']

end Whole

/-- What the work puts out over any files and input and an output that takes everything, if the
source is read and the tape asked for is not too large. If it ends it puts out the tokens if asked
for, even if the source does not compile, then the listing if asked for, then what the trace writes
if asked for, then what the run writes if asked for or if no command is; the listing and what comes
after it only if the source compiles, the executions only if any file asked for can be written, and
the run only if the trace has halted, as a fresh session over what is left of the input. It ends if
the executions do, and there is nothing else that it could put out. Quiet changes neither how the
work ends and the files after it nor what is put out nor the lines of a trace. A command is asked
for if it is named, and the run also if none is. All of this is what is recorded of work in a
directory. -/
theorem printout_of_work (system : FileSystem σ) (files : σ) (o : Options) (input : Input)
    {source : String} (allocatable : o.cells ≤ Session.maxCells)
    (reads : Reads system files o source) :
    (∀ bytes, Prints system files o input bytes ↔ Printout system files o source input bytes) ∧
    (∀ bytes bytes', Printout system files o source input bytes →
      Printout system files o source input bytes' → bytes = bytes') ∧
    (∀ (quiet : Bool) (bound : Nat),
      let done := (watching system bound).work o input (.scripted [] []) files
      let done' :=
        (watching system bound).work { o with quiet := quiet } input (.scripted [] []) files
      done'.2 = done.2 ∧
        done'.1.flatMap (Deed.printed bound) = done.1.flatMap (Deed.printed bound) ∧
        done'.1.flatMap (Deed.lines bound) = done.1.flatMap (Deed.lines bound)) ∧
    (∀ c, o.asks c = true ↔ c ∈ o.commands ∨ o.commands = [] ∧ c = .run) ∧
    ∀ (bound : Nat) (directory : Directory) (stdin : List UInt8),
      let done :=
        (watching .ofDirectories bound).work o ⟨stdin.map .byte⟩ (.scripted [] []) directory
      Record.ofOptions bound directory stdin o = done.2.map fun r =>
        (r.1, ⟨r.2, (done.1.flatMap (Deed.printed bound)).toArray,
          (done.1.flatMap (Deed.noted bound)).toArray⟩) :=
  ⟨prints_iff_printout allocatable reads, fun _ _ => Printout.unique,
    fun quiet bound => work_quiet system bound files o quiet input _, o.asks_iff,
    fun bound directory stdin => ofOptions_eq_work bound directory stdin o⟩

/-- The trace reads the first byte of the input and writes it, and the run the second. -/
theorem printout_of_work_of_both_executions :
    let o : Options :=
      { file := some "echo.bf", commands := [.run, .bytecode, .trace, .tokens], cells := 2,
        emit := some "echo.bin" }
    ∃ code, compile .plain ",." = .ok code ∧
      Prints .byName ⟨[("echo.bf", ",.".toUTF8)]⟩ o ⟨[.byte 65, .byte 66]⟩
        ((tokenDump ",.").toUTF8.data.toList ++ code.listing.toUTF8.data.toList ++
          ([65] ++ [66])) := by
  intro o
  have compiled : compile .plain ",." = .ok _ := rfl
  have reads : Reads .byName ⟨[("echo.bf", ",.".toUTF8)]⟩ o ",." := .file rfl rfl rfl
  have ran : (o.session ",." ⟨[.byte 65, .byte 66]⟩ (.scripted [] [])).run 9 =
    some (.ok (), _) := rfl
  have ran' : (o.session ",." ⟨[.byte 66]⟩ (.scripted [] [])).run 9 = some (.ok (), _) := rfl
  have traced : Part o ",." ⟨[.byte 65, .byte 66]⟩ true [65] ⟨[.byte 66]⟩ (.ok ()) :=
    .executed ⟨9, ran⟩
  have rest : Part o ",." ⟨[.byte 66]⟩ true [66] ⟨[]⟩ (.ok ()) := .executed ⟨9, ran'⟩
  have emits : Emits .byName ⟨[("echo.bf", ",.".toUTF8)]⟩ o ⟨#[.ofGlyph .read, .ofGlyph .write]⟩ :=
    fun path _ => ⟨_, rfl⟩
  have printout := (printout_of_work .byName _ o ⟨[.byte 65, .byte 66]⟩ (by decide) reads).1
  exact ⟨_, compiled, (printout _).mpr (.executed compiled emits (.both traced rest))⟩

end CommandLine
end Brainfuck
