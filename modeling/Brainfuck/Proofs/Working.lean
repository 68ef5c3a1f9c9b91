import Brainfuck.Proofs.Rounds
import Brainfuck.Proofs.SessionRun
import Brainfuck.Proofs.Watching

/-!
# How the work goes

Each part of the work comes to an answer by doing certain deeds only (`Does`): the source is read or
it cannot be (`source_does`), a file asked for is written first or it cannot be (`emit_cases`), and
the session is executed as often as asked for (`execute_does`). Main statements: the work goes one
of four ways (`works`), a file is written if and only if the source compiles and a file is asked for
(`write_mem_iff`), and before anything is executed (`Works.pairwise`).
-/
namespace Brainfuck
namespace CommandLine

variable {σ α β : Type}

/-- The source of the program: the demo if no file is named, or the text of the file. -/
inductive Reads (system : FileSystem σ) (files : σ) (o : Options) : String → Prop
  | demo : o.file = none → Reads system files o demoSource
  | file {path source : String} {bytes : ByteArray} : o.file = some path →
      system.read files path = .ok bytes → String.fromUTF8? bytes = some source →
      Reads system files o source

namespace Options

def session (o : Options) (source : String) (input : Input) (output : Output) : Session :=
  (Session.fresh source o.flags o.strategy o.cells input output).withLimit o.limit

def rounds (o : Options) : Nat :=
  [Command.trace, .run].countP o.asks

end Options

/-- How the work ends with the executions. -/
def Outcome.ofRounds : Except SessionError Unit → Outcome
  | .ok () => .done
  | .error e => .failed (.program e)

section Parts

variable {system : FileSystem σ} {bound : Nat} {files : σ} {o : Options} {code : Code} {s : Session}

theorem say_does (note : Note) :
    Does Deed.Tacit ((watching system bound).say o note) files (some ((), files)) := by
  unfold Host.say
  split
  · exact .pure ()
  · exact ⟨[.note note], List.forall_mem_singleton.mpr ⟨⟨rfl, rfl⟩, rfl⟩, rfl⟩

theorem printIf_does (command : Command) (text : Unit → String) :
    Does Deed.Aside ((watching system bound).printIf o command text) files
      (some ((), files)) := by
  unfold Host.printIf
  split
  · exact ⟨[.print (text ())], List.forall_mem_singleton.mpr ⟨rfl, rfl⟩, rfl⟩
  · exact .pure ()

theorem Reads.exists_bytes {path source : String} (reads : Reads system files o source)
    (named : o.file = some path) : ∃ bytes, system.read files path = .ok bytes ∧
      String.fromUTF8? bytes = some source := by
  cases reads with
  | demo unnamed => cases named.symm.trans unnamed
  | file named' read decoded =>
    cases named.symm.trans named'
    exact ⟨_, read, decoded⟩

/-- There is one source at most. -/
theorem Reads.unique {source source' : String} (reads : Reads system files o source)
    (reads' : Reads system files o source') : source = source' := by
  cases reads with
  | demo unnamed =>
    cases reads' with
    | demo => rfl
    | file named => cases unnamed.symm.trans named
  | file named read decoded =>
    obtain ⟨bytes, read', decoded'⟩ := reads'.exists_bytes named
    cases read.symm.trans read'
    exact Option.some.inj (decoded.symm.trans decoded')

/-- The source is read, or it cannot be; either way nothing else is done. -/
theorem source_does (system : FileSystem σ) (bound : Nat) (files : σ) (o : Options) :
    (∃ source, Reads system files o source ∧
      Does Deed.Tacit ((watching system bound).source o) files (some (.ok source, files))) ∨
    ∃ path e, (∀ source, ¬ Reads system files o source) ∧
      Does Deed.Tacit ((watching system bound).source o) files
        (some (.error (.unreadable path e), files)) := by
  unfold Host.source
  split
  · next unnamed => exact .inl ⟨demoSource, .demo unnamed, (say_does .demo).bind (.pure _)⟩
  · next path named =>
    have first : Does Deed.Tacit ((watching system bound).say o (.reading path)) files
        (some ((), files)) := say_does (.reading path)
    have read : Does Deed.Tacit ((watching system bound).readFile path) files
        (some (system.read files path, files)) :=
      ⟨[.read path], List.forall_mem_singleton.mpr ⟨⟨rfl, rfl⟩, rfl⟩, rfl⟩
    rcases answered : system.read files path with e | bytes
    · rw [answered] at read
      refine .inr ⟨path, e, ?_, first.bind (read.bind (.pure _))⟩
      intro source reads
      obtain ⟨bytes, read', _⟩ := reads.exists_bytes named
      cases answered.symm.trans read'
    · rw [answered] at read
      rcases decoded : String.fromUTF8? bytes with _ | source
      · refine .inr ⟨path, .notText, ?_, first.bind (read.bind ?_)⟩
        · intro source reads
          obtain ⟨bytes', read', decoded'⟩ := reads.exists_bytes named
          cases answered.symm.trans read'
          cases decoded.symm.trans decoded'
        · simp only [decoded]
          exact .pure _
      · refine .inl ⟨source, .file named answered decoded, first.bind (read.bind ?_)⟩
        simp only [decoded]
        exact .pure _

/-- The deeds that write the bytes of the code, if a file is named for them. -/
def Options.writes (o : Options) (code : Code) : List Deed :=
  (o.emit.map fun path => .write path ⟨code.bytes.toArray⟩).toList

/-- Any file asked for can be written with the bytes of the code. -/
def Emits (system : FileSystem σ) (files : σ) (o : Options) (code : Code) : Prop :=
  ∀ path, o.emit = some path → ∃ files', system.write files path ⟨code.bytes.toArray⟩ = .ok files'

/-- Any file asked for is written, or it cannot be; either way this is tried first. -/
theorem emit_cases (system : FileSystem σ) (bound : Nat) (files : σ) (o : Options) (code : Code) :
    (Emits system files o code ∧ ∃ log files', (∀ d ∈ log, d.Tacit) ∧
      (watching system bound).emit o code files = (o.writes code ++ log, some (.ok (), files'))) ∨
    ∃ path e, o.emit = some path ∧ system.write files path ⟨code.bytes.toArray⟩ = .error e ∧
      (watching system bound).emit o code files =
        (o.writes code, some (.error (.unwritable path e), files)) := by
  rcases named : o.emit with _ | path
  · left
    refine ⟨?_, [], files, List.forall_mem_nil _, ?_⟩
    · rw [Emits, named]
      nofun
    · simp only [Host.emit, Options.writes, named]
      rfl
  · simp only [Host.emit, Options.writes, named]
    rcases written : system.write files path ⟨code.bytes.toArray⟩ with e | files'
    · have tried : (watching system bound).writeFile path ⟨code.bytes.toArray⟩ files =
          ([.write path ⟨code.bytes.toArray⟩], some (.error e, files)) := by
        simp only [watching, written]
      exact .inr ⟨path, e, rfl, written, Watched.bind_of_some tried _⟩
    · left
      have tried : (watching system bound).writeFile path ⟨code.bytes.toArray⟩ files =
          ([.write path ⟨code.bytes.toArray⟩], some (.ok (), files')) := by
        simp only [watching, written]
      obtain ⟨log, tacit, noted⟩ : Does Deed.Tacit ((watching system bound).say o (.wrote path))
        files' (some ((), files')) := say_does (.wrote path)
      refine ⟨?_, log, files', tacit, ?_⟩
      · rintro path' same
        cases named.symm.trans same
        exact ⟨files', written⟩
      · rw [Watched.bind_of_some tried]
        dsimp only
        rw [Watched.bind_of_some noted]
        simp [Watched.pure_apply]

def Deed.Spares (d : Deed) : Prop :=
  d.isWrite = false

theorem trace_does (active : s.Active code) :
    Does Deed.Spares ((watching system bound).trace s) files
      ((s.run bound).map fun r => (r, files)) := by
  refine ⟨[.trace s], List.forall_mem_singleton.mpr rfl, ?_⟩
  rw [← active.map_trace bound #[], Option.map_map]
  rfl

theorem run_does (s : Session) : Does Deed.Spares ((watching system bound).run s) files
    ((s.run bound).map fun r => (r, files)) :=
  ⟨[.run s], List.forall_mem_singleton.mpr rfl, rfl⟩

theorem say_spares (note : Note) :
    Does Deed.Spares ((watching system bound).say o note) files (some ((), files)) :=
  (say_does note).mono fun _ tacit => tacit.1.1

def answered (goesOn : Session → α) : Except SessionError Unit × Session → Except Failure α
  | (.ok (), t) => .ok (goesOn t)
  | (.error e, _) => .error (.program e)

theorem noted_does {execution : Watched σ (Except SessionError Unit × Session)}
    {answer : Option (Except SessionError Unit × Session)}
    (does : Does Deed.Spares execution files (answer.map fun r => (r, files)))
    (first last : Note) (told : Session → Note) (goesOn : Session → α) :
    Does Deed.Spares ((watching system bound).noted o execution first last told goesOn) files
      (answer.map fun r => (answered goesOn r, files)) := by
  apply (say_spares first).bind
  rcases answer with _ | ⟨e | _, t⟩
  · exact does.bind_none _
  · exact does.bind ((say_spares .blank).bind (.pure _))
  · exact does.bind ((say_spares .blank).bind
      ((say_spares last).bind ((say_spares (told t)).bind (.pure _))))

theorem tracePart_does (active : s.Active code) (asked : o.asks .trace = true) :
    Does Deed.Spares ((watching system bound).tracePart o s) files
      ((s.run bound).map fun r => (answered Session.reset r, files)) := by
  rw [Host.tracePart_eq, if_pos asked]
  exact noted_does (trace_does active) _ _ _ _

theorem runPart_does (s : Session) (asked : o.asks .run = true) :
    Does Deed.Spares ((watching system bound).runPart o s) files
      ((s.run bound).map fun r => (answered (fun _ => ()) r, files)) := by
  rw [Host.runPart_eq, if_pos asked]
  exact noted_does (run_does s) _ _ _ _

/-- An execution fails, or the work goes on with what comes after the session is set back. -/
theorem Does.round {part : Watched σ (Except Failure α)} {goesOn : Session → α} {n : Nat}
    {next : Except Failure α → Watched σ Outcome}
    (does : Does Deed.Spares part files ((s.run bound).map fun r => (answered goesOn r, files)))
    (fails : ∀ failure, next (.error failure) = Pure.pure (.failed failure))
    (goes : ∀ t, Does Deed.Spares (next (.ok (goesOn t))) files
      ((t.reset.rounds bound n).map fun result => (.ofRounds result, files))) :
    Does Deed.Spares (part >>= next) files
      ((s.rounds bound (n + 1)).map fun result => (.ofRounds result, files)) := by
  rcases run : s.run bound with _ | ⟨e | _, t⟩
  · rw [run] at does
    rw [Session.rounds, run]
    exact does.bind_none _
  · rw [run] at does
    rw [Session.rounds_of_failed run]
    apply does.bind
    rw [answered, fails]
    exact .pure _
  · rw [run] at does
    rw [Session.rounds_of_halted run]
    exact does.bind (goes t)

/-- The last execution is a run, if one is asked for. -/
theorem lastPart_does (s : Session) :
    Does Deed.Spares (do return Host.ended (← (watching system bound).runPart o s)) files
      ((s.rounds bound (if o.asks .run then 1 else 0)).map fun result =>
        (.ofRounds result, files)) := by
  by_cases asked : o.asks .run = true
  · rw [if_pos asked]
    exact (runPart_does s asked).round (fun _ => rfl) fun _ => .pure _
  · rw [Host.runPart, if_neg asked, if_neg asked]
    exact (Does.pure (Except.ok ())).bind (.pure _)

/-- The executions asked for come one after the other, and nothing is written. -/
theorem execute_does (active : s.Active code) :
    Does Deed.Spares ((watching system bound).execute o s) files
      ((s.rounds bound o.rounds).map fun result => (.ofRounds result, files)) := by
  have count : o.rounds = (if o.asks .run then 1 else 0) + if o.asks .trace then 1 else 0 := by
    simp [Options.rounds, List.countP_cons]
  rw [count, Host.execute]
  by_cases asked : o.asks .trace = true
  · rw [if_pos asked]
    exact (tracePart_does active asked).round (fun _ => rfl) fun t => lastPart_does t.reset
  · rw [Host.tracePart, if_neg asked, if_neg asked]
    exact (Does.pure (Except.ok s)).bind (lastPart_does s)

end Parts

/-- The four ways in which the work goes. Nothing is written or executed before the code is
compiled, the file is written before anything is executed, and nothing is written after that. -/
inductive Works (system : FileSystem σ) (bound : Nat) (files : σ) (o : Options) (input : Input)
    (output : Output) : List Deed × Option (Outcome × σ) → Prop
  | unreadable {log : List Deed} {path : String} {e : FileError} : (∀ d ∈ log, d.Aside) →
      (∀ source, ¬ Reads system files o source) →
      Works system bound files o input output (log, some (.failed (.unreadable path e), files))
  | malformed {log : List Deed} {source : String} {e : CompileError} : (∀ d ∈ log, d.Aside) →
      Reads system files o source → compile o.flags source = .error e →
      Works system bound files o input output (log, some (.failed (.program (.malformed e)), files))
  | unwritable {log : List Deed} {source path : String} {code : Code} {e : FileError} :
      (∀ d ∈ log, d.Aside) → Reads system files o source → compile o.flags source = .ok code →
      o.emit = some path → system.write files path ⟨code.bytes.toArray⟩ = .error e →
      Works system bound files o input output
        (log ++ o.writes code, some (.failed (.unwritable path e), files))
  | executed {before after : List Deed} {source : String} {code : Code} {files' : σ} :
      (∀ d ∈ before, d.Aside) → (∀ d ∈ after, d.Spares) → Reads system files o source →
      compile o.flags source = .ok code → Emits system files o code →
      Works system bound files o input output (before ++ (o.writes code ++ after),
        ((o.session source input output).rounds bound o.rounds).map fun result =>
          (.ofRounds result, files'))

section Whole

variable {system : FileSystem σ} {bound : Nat} {files : σ} {o : Options} {input : Input}
  {output : Output} {code : Code} {source : String}

/-- What is done aside before the work makes no difference. -/
theorem Works.bind {x : Watched σ α} {a : α} {f : α → Watched σ Outcome}
    (first : Does Deed.Aside x files (some (a, files)))
    (later : Works system bound files o input output (f a files)) :
    Works system bound files o input output ((x >>= f) files) := by
  obtain ⟨log, aside, done⟩ := first
  rw [Watched.bind_of_some done]
  have both : ∀ {rest : List Deed}, (∀ d ∈ rest, d.Aside) → ∀ d ∈ log ++ rest, d.Aside :=
    fun aside' => List.forall_mem_append.mpr ⟨aside, aside'⟩
  generalize f a files = later' at later
  cases later with
  | unreadable aside' unread => exact .unreadable (both aside') unread
  | malformed aside' reads refused => exact .malformed (both aside') reads refused
  | unwritable aside' reads compiled named refused =>
    rw [← List.append_assoc]
    exact .unwritable (both aside') reads compiled named refused
  | executed aside' spares reads compiled emits =>
    rw [← List.append_assoc]
    exact .executed (both aside') spares reads compiled emits

/-- The session asked for compiles as its source does, and is executed as it would have been
without this. -/
theorem compile_session (source : String) (o : Options) (input : Input) (output : Output) :
    (∃ code t, compile o.flags source = .ok code ∧
      (o.session source input output).compile = (.ok code, t) ∧ t.Active code ∧
      ∀ bound n, t.rounds bound n = (o.session source input output).rounds bound n) ∨
    ∃ e t, compile o.flags source = .error e ∧
      (o.session source input output).compile = (.error e, t) := by
  rcases (o.session source input output).compile_cases with
    ⟨code, cached | ⟨_, compiled⟩, given⟩ | ⟨e, _, refused, given⟩
  · cases cached
  · exact .inl ⟨code, _, compiled, given, ⟨rfl, rfl⟩, Session.rounds_of_compile given rfl⟩
  · exact .inr ⟨e, _, refused, given⟩

theorem works_compileAndGo (reads : Reads system files o source) :
    Works system bound files o input output
      ((watching system bound).compileAndGo o (o.session source input output) files) := by
  apply Works.bind (say_does _).aside
  rcases compile_session source o input output with
    ⟨code, t, compiled, given, active, same⟩ | ⟨e, t, refused, given⟩
  · rw [given]
    apply Works.bind (say_does _).aside
    apply Works.bind (printIf_does .bytecode _)
    rcases emit_cases system bound files o code with
      ⟨emits, log, files', tacit, emitted⟩ | ⟨path, e, named, refused, emitted⟩
    · have executes : Does Deed.Spares ((watching system bound).execute o t) files' _ :=
        execute_does active
      obtain ⟨rest, spares, executed⟩ := executes
      have after : ∀ d ∈ log ++ rest, d.Spares :=
        List.forall_mem_append.mpr ⟨fun d member => (tacit d member).1.1, spares⟩
      rw [Watched.bind_of_some emitted]
      dsimp only
      rw [executed, same, List.append_assoc]
      exact .executed (List.forall_mem_nil _) after reads compiled emits
    · rw [Watched.bind_of_some emitted]
      dsimp only
      rw [Watched.pure_apply, List.append_nil, ← List.nil_append (o.writes code)]
      exact .unwritable (List.forall_mem_nil _) reads compiled named refused
  · rw [given]
    exact .malformed (List.forall_mem_nil _) reads refused

/-- The work goes one of the four ways, if the tape asked for is not too large. -/
theorem works (system : FileSystem σ) (bound : Nat) (files : σ) (input : Input) (output : Output)
    (allocatable : o.cells ≤ Session.maxCells) :
    Works system bound files o input output
      ((watching system bound).work o input output files) := by
  rcases source_does system bound files o with ⟨source, reads, does⟩ | ⟨path, e, unread, does⟩
  · apply Works.bind does.aside
    apply Works.bind (printIf_does .tokens _)
    have given : o.session? source input output = some (o.session source input output) := by
      rw [Options.session?, Session.resize?, if_pos allocatable]
      rfl
    simp only [given]
    exact works_compileAndGo reads
  · apply Works.bind does.aside
    exact .unreadable (List.forall_mem_nil _) unread

/-- A source that is read and compiles is written to any file asked for, if it can be, and then
executed. -/
theorem works_of_compiled (allocatable : o.cells ≤ Session.maxCells)
    (reads : Reads system files o source) (compiled : compile o.flags source = .ok code)
    (bound : Nat) (input : Input) (output : Output) :
    ∃ before after answer,
      (watching system bound).work o input output files =
        (before ++ (o.writes code ++ after), answer) ∧
      ((∃ path e, o.emit = some path ∧ system.write files path ⟨code.bytes.toArray⟩ = .error e ∧
          answer = some (.failed (.unwritable path e), files)) ∨
        Emits system files o code ∧ ∃ files',
          answer = ((o.session source input output).rounds bound o.rounds).map fun result =>
            (.ofRounds result, files')) := by
  have went := works system bound files input output allocatable
  generalize (watching system bound).work o input output files = r at went
  cases went with
  | unreadable _ unread => exact absurd reads (unread _)
  | malformed _ reads' refused =>
    obtain rfl := reads.unique reads'
    cases refused.symm.trans compiled
  | @unwritable before _ path _ e _ reads' compiled' named refused =>
    obtain rfl := reads.unique reads'
    cases compiled.symm.trans compiled'
    exact ⟨before, [], _, by rw [List.append_nil], .inl ⟨path, e, named, refused, rfl⟩⟩
  | @executed before after _ _ files' _ _ reads' compiled' emits =>
    obtain rfl := reads.unique reads'
    cases compiled.symm.trans compiled'
    exact ⟨before, after, _, rfl, .inr ⟨emits, files', rfl⟩⟩

theorem mem_writes {d : Deed} : d ∈ o.writes code ↔
    ∃ path, o.emit = some path ∧ .write path ⟨code.bytes.toArray⟩ = d := by
  simp only [Options.writes, Option.mem_toList, Option.map_eq_some_iff]

theorem executes_of_mem_writes {log : List Deed} (aside : ∀ d ∈ log, d.Aside) :
    ∀ d ∈ log ++ o.writes code, d.executes = false := by
  intro d member
  rcases List.mem_append.mp member with before | here
  · exact (aside d before).2
  · obtain ⟨path, _, rfl⟩ := mem_writes.mp here
    rfl

/-- Files are written before anything is executed. -/
theorem Works.pairwise {r : List Deed × Option (Outcome × σ)} {bound : Nat}
    (works : Works system bound files o input output r) :
    r.1.Pairwise fun d e => e.isWrite = true → d.executes = false := by
  have still : ∀ {log : List Deed}, (∀ d ∈ log, d.executes = false) →
      log.Pairwise fun d e => e.isWrite = true → d.executes = false :=
    fun still => List.pairwise_of_forall_mem_list fun d member _ _ _ => still d member
  cases works with
  | unreadable aside => exact still fun d member => (aside d member).2
  | malformed aside => exact still fun d member => (aside d member).2
  | unwritable aside => exact still (executes_of_mem_writes aside)
  | executed aside spares =>
    have spared : ∀ {e : Deed} {p : Prop}, e.Spares → e.isWrite = true → p :=
      fun spared write => absurd (spared.symm.trans write) Bool.false_ne_true
    rw [← List.append_assoc]
    apply List.pairwise_append.mpr
    refine ⟨still (executes_of_mem_writes aside), ?_, fun _ _ e later => spared (spares e later)⟩
    exact List.pairwise_of_forall_mem_list fun _ _ e later => spared (spares e later)

/-- A file is written if and only if the source compiles and a file is asked for. -/
theorem write_mem_iff (allocatable : o.cells ≤ Session.maxCells) (bound : Nat) (path : String)
    (contents : ByteArray) :
    .write path contents ∈ ((watching system bound).work o input output files).1 ↔
      ∃ source code, Reads system files o source ∧ compile o.flags source = .ok code ∧
        o.emit = some path ∧ contents = ⟨code.bytes.toArray⟩ := by
  constructor
  · intro member
    have went := works system bound files input output allocatable
    generalize (watching system bound).work o input output files = r at went member
    cases went with
    | unreadable aside => cases (aside _ member).1
    | malformed aside => cases (aside _ member).1
    | unwritable aside reads compiled =>
      rcases List.mem_append.mp member with before | here
      · cases (aside _ before).1
      · obtain ⟨path', named, same⟩ := mem_writes.mp here
        cases same
        exact ⟨_, _, reads, compiled, named, rfl⟩
    | executed aside spares reads compiled =>
      rcases List.mem_append.mp member with before | later
      · cases (aside _ before).1
      · rcases List.mem_append.mp later with here | after
        · obtain ⟨path', named, same⟩ := mem_writes.mp here
          cases same
          exact ⟨_, _, reads, compiled, named, rfl⟩
        · cases spares _ after
  · rintro ⟨source, code, reads, compiled, named, rfl⟩
    obtain ⟨before, after, answer, done, _⟩ :=
      works_of_compiled allocatable reads compiled bound input output
    rw [done]
    apply List.mem_append_right
    apply List.mem_append_left
    exact mem_writes.mpr ⟨path, named, rfl⟩

end Whole

/-- The source is read and compiled, and any file asked for can be written. -/
structure Prepared (system : FileSystem σ) (files : σ) (o : Options) (source : String)
    (code : Code) : Prop where
  reads : Reads system files o source
  compiled : compile o.flags source = .ok code
  emits : Emits system files o code

section

variable {system : FileSystem σ} {files : σ} {o : Options} {input : Input} {output : Output}
  {source : String} {code : Code}

/-- Before any execution there are four ways in which the work can go. -/
theorem ways (system : FileSystem σ) (files : σ) (o : Options) :
    (∀ source, ¬ Reads system files o source) ∨
    (∃ source e, Reads system files o source ∧ compile o.flags source = .error e) ∨
    (∃ source code path e, Reads system files o source ∧ compile o.flags source = .ok code ∧
      o.emit = some path ∧ system.write files path ⟨code.bytes.toArray⟩ = .error e) ∨
    ∃ source code, Prepared system files o source code := by
  by_cases read : ∃ source, Reads system files o source
  · obtain ⟨source, reads⟩ := read
    right
    cases compiled : compile o.flags source with
    | error e => exact .inl ⟨source, e, reads, compiled⟩
    | ok code =>
      right
      rcases emit_cases system 0 files o code with ⟨emits, _⟩ | ⟨path, e, named, refused, _⟩
      · exact .inr ⟨source, code, reads, compiled, emits⟩
      · exact .inl ⟨source, code, path, e, reads, compiled, named, refused⟩
  · exact .inl (not_exists.mp read)

theorem answer_of_prepared (allocatable : o.cells ≤ Session.maxCells)
    (prepared : Prepared system files o source code) (bound : Nat)
    (input : Input) (output : Output) :
    ∃ files', ((watching system bound).work o input output files).2 =
      ((o.session source input output).rounds bound o.rounds).map fun result =>
        (.ofRounds result, files') := by
  obtain ⟨reads, compiled, emits⟩ := prepared
  obtain ⟨before, after, answer, done, ⟨path, e, named, refused, _⟩ | ⟨_, files', answered⟩⟩ :=
    works_of_compiled allocatable reads compiled bound input output
  · obtain ⟨files', written⟩ := emits path named
    cases refused.symm.trans written
  · exact ⟨files', by rw [done, answered]⟩

/-- Executions of a session that compiles halt, or there is a fault. -/
theorem Prepared.rounds_cases (prepared : Prepared system files o source code) {n : Nat}
    {result : Except SessionError Unit}
    (rounds : Session.RoundsTo n (o.session source input output) result) :
    result = .ok () ∨ ∃ fault, result = .error (.crashed fault) := by
  obtain ⟨bound, ended⟩ := Session.roundsTo_iff.mp rounds
  rcases compile_session source o input output with
    ⟨code', t, _, given, active, same⟩ | ⟨e, _, refused, _⟩
  · rw [← same] at ended
    exact active.rounds_cases ended
  · cases refused.symm.trans prepared.compiled

/-- No session is executed that has finished before. -/
theorem Works.not_finished {bound : Nat} {log : List Deed} {outcome : Outcome} {files' : σ}
    (works : Works system bound files o input output (log, some (outcome, files')))
    (phase : Phase) : outcome ≠ .failed (.program (.finished phase)) := by
  rintro rfl
  generalize ended : (log, some (Outcome.failed (.program (.finished phase)), files')) = r at works
  cases works with
  | unreadable => cases ended
  | malformed => cases ended
  | unwritable => cases ended
  | @executed _ _ source code _ _ _ reads compiled emits =>
    have prepared : Prepared system files o source code := ⟨reads, compiled, emits⟩
    obtain ⟨result, rounds, same⟩ := Option.map_eq_some_iff.mp (Prod.mk.inj ended).2.symm
    rcases prepared.rounds_cases (Session.roundsTo_iff.mpr ⟨bound, rounds⟩) with rfl | ⟨fault, rfl⟩
    · cases same
    · cases same

end

end CommandLine
end Brainfuck
