import Brainfuck.CommandLine.Record
import Brainfuck.Proofs.Rounds

/-!
# Watching the work

The work is said once for all hosts, so hosts that answer alike do it alike (`Host.Alike.work`), and
it depends on commands and optimizations only as sets (`work_naming`). A watching host keeps a
log of what it is asked to do, also where an execution needs more steps than it is given. Main
statements: over the files of a directory it comes to what is recorded (`ofOptions_eq_work`), and
work that ends does not depend on the bound (`work_mono`).
-/
namespace Brainfuck
namespace CommandLine

section

variable {m n : Type → Type} [Monad m] [Monad n]

namespace Host

def noted {α : Type} (host : Host m) (o : Options)
    (execution : m (Except SessionError Unit × Session)) (first last : Note) (told : Session → Note)
    (goesOn : Session → α) : m (Except Failure α) := do
  host.say o first
  let (result, s) ← execution
  host.say o .blank
  match result with
  | .error e => return .error (.program e)
  | .ok () =>
    host.say o last
    host.say o (told s)
    return .ok (goesOn s)

theorem tracePart_eq (host : Host m) (o : Options) (s : Session) : host.tracePart o s =
    if o.asks .trace then
      host.noted o (host.trace s) (.starting "trace") (.finished "trace")
        (fun t => .plain t.summary) Session.reset
    else return .ok s := rfl

theorem runPart_eq (host : Host m) (o : Options) (s : Session) : host.runPart o s =
    if o.asks .run then
      host.noted o (host.run s) (.starting "bytecode-interpreter")
        (.finished "bytecode-interpreter")
        (fun t => .plain (t.summary ++ s!" after {t.machine.steps} steps")) fun _ => ()
    else return .ok () := rfl

end Host

/-- Hosts that answer alike, where being alike is kept when work is done in sequence. -/
structure Host.Alike (alike : ∀ {α : Type}, m α → n α → Prop) (host : Host m) (host' : Host n) :
    Prop where
  pure : ∀ {α : Type} (a : α), alike (pure a : m α) (pure a : n α)
  bind : ∀ {α β : Type} {x : m α} {y : n α} {f : α → m β} {g : α → n β},
    alike x y → (∀ a, alike (f a) (g a)) → alike (x >>= f) (y >>= g)
  readFile : ∀ path, alike (host.readFile path) (host'.readFile path)
  writeFile : ∀ path contents, alike (host.writeFile path contents) (host'.writeFile path contents)
  print : ∀ text, alike (host.print text) (host'.print text)
  note : ∀ note, alike (host.note note) (host'.note note)
  trace : ∀ s, alike (host.trace s) (host'.trace s)
  run : ∀ s, alike (host.run s) (host'.run s)

namespace Host.Alike

variable {alike : ∀ {α : Type}, m α → n α → Prop} {host : Host m} {host' : Host n}

theorem say (same : Alike @alike host host') (o : Options) (note : Note) :
    alike (host.say o note) (host'.say o note) := by
  unfold Host.say
  split
  · exact same.pure ()
  · exact same.note note

theorem printIf (same : Alike @alike host host') (o : Options) (command : Command)
    (text : Unit → String) :
    alike (host.printIf o command text) (host'.printIf o command text) := by
  unfold Host.printIf
  split
  · exact same.print (text ())
  · exact same.pure ()

theorem source (same : Alike @alike host host') (o : Options) :
    alike (host.source o) (host'.source o) := by
  unfold Host.source
  split
  · exact same.bind (same.say o .demo) fun _ => same.pure _
  · next path _ =>
    apply same.bind (same.say o (.reading path))
    intro _
    apply same.bind (same.readFile path)
    rintro (e | bytes)
    · exact same.pure _
    · dsimp only
      split
      · exact same.pure _
      · exact same.pure _

theorem emit (same : Alike @alike host host') (o : Options) (code : Code) :
    alike (host.emit o code) (host'.emit o code) := by
  unfold Host.emit
  split
  · exact same.pure _
  · next path _ =>
    apply same.bind (same.writeFile path _)
    rintro (e | _)
    · exact same.pure _
    · exact same.bind (same.say o (.wrote path)) fun _ => same.pure _

theorem noted {α : Type} (same : Alike @alike host host') (o : Options)
    {execution : m (Except SessionError Unit × Session)}
    {execution' : n (Except SessionError Unit × Session)} (executed : alike execution execution')
    (first last : Note) (told : Session → Note) (goesOn : Session → α) :
    alike (host.noted o execution first last told goesOn)
      (host'.noted o execution' first last told goesOn) := by
  apply same.bind (same.say o first)
  intro _
  apply same.bind executed
  rintro ⟨result, t⟩
  apply same.bind (same.say o .blank)
  intro _
  rcases result with e | _
  · exact same.pure _
  · exact same.bind (same.say o last) fun _ => same.bind (same.say o (told t)) fun _ => same.pure _

theorem tracePart (same : Alike @alike host host') (o : Options) (s : Session) :
    alike (host.tracePart o s) (host'.tracePart o s) := by
  rw [Host.tracePart_eq, Host.tracePart_eq]
  split
  · exact same.noted o (same.trace s) _ _ _ _
  · exact same.pure _

theorem runPart (same : Alike @alike host host') (o : Options) (s : Session) :
    alike (host.runPart o s) (host'.runPart o s) := by
  rw [Host.runPart_eq, Host.runPart_eq]
  split
  · exact same.noted o (same.run s) _ _ _ _
  · exact same.pure _

theorem execute (same : Alike @alike host host') (o : Options) (s : Session) :
    alike (host.execute o s) (host'.execute o s) := by
  apply same.bind (same.tracePart o s)
  rintro (failure | t)
  · exact same.pure _
  · exact same.bind (same.runPart o t) fun _ => same.pure _

theorem compileAndGo (same : Alike @alike host host') (o : Options) (s : Session) :
    alike (host.compileAndGo o s) (host'.compileAndGo o s) := by
  apply same.bind (same.say o _)
  intro _
  rcases s.compile with ⟨e | code, t⟩
  · exact same.pure _
  · apply same.bind (same.say o _)
    intro _
    apply same.bind (same.printIf o .bytecode _)
    intro _
    apply same.bind (same.emit o code)
    rintro (failure | _)
    · exact same.pure _
    · exact same.execute o t

/-- Hosts that answer alike do the work alike. -/
theorem work (same : Alike @alike host host') (o : Options) (input : Input) (output : Output) :
    alike (host.work o input output) (host'.work o input output) := by
  apply same.bind (same.source o)
  rintro (failure | source)
  · exact same.pure _
  · apply same.bind (same.printIf o .tokens _)
    intro _
    split
    · exact same.pure _
    · exact same.compileAndGo o _

end Host.Alike

end

namespace Options

variable {o : Options} {commands : List Command} {optimizations : List Optimization}

def naming (o : Options) (commands : List Command) (optimizations : List Optimization) : Options :=
  { o with commands := commands, optimizations := optimizations }

/-- A command is asked for if it is named; the run also if none is. -/
theorem asks_iff (o : Options) (c : Command) :
    o.asks c = true ↔ c ∈ o.commands ∨ o.commands = [] ∧ c = .run := by
  simp [asks]

/-- An optimization is done if it is named or if all are. -/
theorem flags_iff (o : Options) :
    (o.flags.coalesceRuns = true ↔
      o.allOptimizations = true ∨ .coalesceRuns ∈ o.optimizations) ∧
    (o.flags.stripCommentBlock = true ↔
      o.allOptimizations = true ∨ .commentBlock ∈ o.optimizations) := by
  cases every : o.allOptimizations with
  | true => simp [flags, every, Flags.all]
  | false => simp [flags, every]

/-- Which commands are asked for is a matter of which are named. -/
theorem asks_naming (same : ∀ c, c ∈ commands ↔ c ∈ o.commands) (c : Command) :
    (o.naming commands optimizations).asks c = o.asks c := by
  have empty : commands = [] ↔ o.commands = [] := by
    rw [List.eq_nil_iff_forall_not_mem, List.eq_nil_iff_forall_not_mem]
    simp only [same]
  rw [Bool.eq_iff_iff, asks_iff, asks_iff]
  exact or_congr (same c) (and_congr_left' empty)

theorem flags_naming (same : ∀ x, x ∈ optimizations ↔ x ∈ o.optimizations) :
    (o.naming commands optimizations).flags = o.flags := by
  have named : ∀ x, optimizations.contains x = o.optimizations.contains x := by
    intro x
    rw [Bool.eq_iff_iff, List.contains_iff_mem, List.contains_iff_mem, same]
  simp only [flags, naming, named]

end Options

/-- Commands and optimizations that are named in another order, or more than once, make no
difference to the work. -/
theorem work_naming {o : Options} {commands : List Command} {optimizations : List Optimization}
    (sameCommands : ∀ c, c ∈ commands ↔ c ∈ o.commands)
    (sameOptimizations : ∀ x, x ∈ optimizations ↔ x ∈ o.optimizations) {m : Type → Type} [Monad m]
    (host : Host m) (input : Input) (output : Output) :
    host.work (o.naming commands optimizations) input output = host.work o input output := by
  have asks : ∀ c, (o.naming commands optimizations).asks c = o.asks c :=
    Options.asks_naming sameCommands
  have flags : (o.naming commands optimizations).flags = o.flags :=
    Options.flags_naming sameOptimizations
  simp only [Host.work, Host.printIf, Host.compileAndGo, Host.execute, Host.tracePart, Host.runPart,
    Options.session?, asks, flags]
  rfl

structure FileSystem (σ : Type) where
  read : σ → String → Except FileError ByteArray
  write : σ → String → ByteArray → Except FileError σ

def FileSystem.ofDirectories : FileSystem Directory :=
  ⟨Directory.read, Directory.write⟩

inductive Deed
  | read (path : String)
  | write (path : String) (contents : ByteArray)
  | print (text : String)
  | note (note : Note)
  | trace (s : Session)
  | run (s : Session)

namespace Deed

def isWrite : Deed → Bool
  | write _ _ => true
  | _ => false

def executes : Deed → Bool
  | trace _ | run _ => true
  | _ => false

def isPrint : Deed → Bool
  | print _ => true
  | _ => false

/-- Neither a file is written nor a session executed. -/
def Aside (d : Deed) : Prop :=
  d.isWrite = false ∧ d.executes = false

/-- Nothing is printed either: a file is read or a note taken. -/
def Tacit (d : Deed) : Prop :=
  d.Aside ∧ d.isPrint = false

end Deed

def writtenBeyond (before : Nat) (s : Session) : List UInt8 :=
  (s.machine.store.output.taken.extract before).toList

namespace Deed

/-- The bytes that a deed puts out: those of a text, or those that an execution writes within the
bound on its instructions. -/
def printed (bound : Nat) : Deed → List UInt8
  | print text => text.toUTF8.data.toList
  | trace s => (s.trace bound #[]).elim [] fun r =>
      writtenBeyond s.machine.store.output.taken.size r.2.2
  | run s => (s.run bound).elim [] fun r => writtenBeyond s.machine.store.output.taken.size r.2
  | _ => []

def lines (bound : Nat) : Deed → List TraceLine
  | trace s => (s.trace bound #[]).elim [] fun r => r.1.toList
  | _ => []

/-- The notes that a deed leaves: its own, or the lines of a trace. -/
def noted (bound : Nat) : Deed → List Note
  | note n => [n]
  | d => (d.lines bound).map .step

end Deed

/-- Work over files that is watched: what is done, in order, and what it comes to with the files
after it, unless an execution is not given steps enough. -/
def Watched (σ α : Type) : Type :=
  σ → List Deed × Option (α × σ)

namespace Watched

variable {σ α β : Type}

instance : Monad (Watched σ) where
  pure a := fun files => ([], some (a, files))
  bind x f := fun files =>
    match x files with
    | (log, none) => (log, none)
    | (log, some (a, files)) => (log ++ (f a files).1, (f a files).2)

theorem pure_apply (a : α) (files : σ) : (pure a : Watched σ α) files = ([], some (a, files)) := rfl

theorem bind_of_some {x : Watched σ α} {files files' : σ} {log : List Deed} {a : α}
    (done : x files = (log, some (a, files'))) (f : α → Watched σ β) :
    (x >>= f) files = (log ++ (f a files').1, (f a files').2) := by
  change (match x files with | (log, none) => _ | (log, some (a, files)) => _) = _
  rw [done]

theorem bind_of_none {x : Watched σ α} {files : σ} {log : List Deed} (stuck : x files = (log, none))
    (f : α → Watched σ β) : (x >>= f) files = (log, none) := by
  change (match x files with | (log, none) => _ | (log, some (a, files)) => _) = _
  rw [stuck]

end Watched

section

variable {σ α β : Type}

/-- Work that comes to an answer by doing only what is allowed. -/
def Does (allowed : Deed → Prop) (x : Watched σ α) (files : σ) (answer : Option (α × σ)) : Prop :=
  ∃ log, (∀ d ∈ log, allowed d) ∧ x files = (log, answer)

namespace Does

variable {allowed : Deed → Prop} {x : Watched σ α} {files files' : σ} {a : α}

theorem pure (a : α) : Does allowed (Pure.pure a : Watched σ α) files (some (a, files)) :=
  ⟨[], List.forall_mem_nil _, rfl⟩

theorem bind {f : α → Watched σ β} {answer : Option (β × σ)}
    (first : Does allowed x files (some (a, files'))) (later : Does allowed (f a) files' answer) :
    Does allowed (x >>= f) files answer := by
  obtain ⟨log, inside, done⟩ := first
  obtain ⟨log', inside', done'⟩ := later
  refine ⟨log ++ log', List.forall_mem_append.mpr ⟨inside, inside'⟩, ?_⟩
  rw [Watched.bind_of_some done, done']

theorem bind_none (stuck : Does allowed x files none) (f : α → Watched σ β) :
    Does allowed (x >>= f) files none := by
  obtain ⟨log, inside, stuck⟩ := stuck
  exact ⟨log, inside, Watched.bind_of_none stuck f⟩

theorem mono {allowed' : Deed → Prop} {answer : Option (α × σ)} (does : Does allowed x files answer)
    (weaker : ∀ d, allowed d → allowed' d) : Does allowed' x files answer := by
  obtain ⟨log, inside, done⟩ := does
  exact ⟨log, fun d member => weaker d (inside d member), done⟩

theorem aside {answer : Option (α × σ)} (does : Does Deed.Tacit x files answer) :
    Does Deed.Aside x files answer :=
  does.mono fun _ tacit => tacit.1

end Does

end

variable {σ : Type}

def watching (system : FileSystem σ) (bound : Nat) : Host (Watched σ) where
  readFile path := fun files => ([.read path], some (system.read files path, files))
  writeFile path contents := fun files =>
    match system.write files path contents with
    | .error e => ([.write path contents], some (.error e, files))
    | .ok files => ([.write path contents], some (.ok (), files))
  print text := fun files => ([.print text], some ((), files))
  note n := fun files => ([.note n], some ((), files))
  trace s := fun files => ([.trace s], (Session.trace bound #[] s).map fun r => (r.2, files))
  run s := fun files => ([.run s], (s.run bound).map fun r => (r, files))

/-- A record with what some deeds have put out and noted, and the files after them. -/
def Record.including (bound : Nat) (log : List Deed) (files : Directory) (r : Record) : Record :=
  ⟨files, r.printed ++ (log.flatMap (Deed.printed bound)).toArray,
    r.notes ++ (log.flatMap (Deed.noted bound)).toArray⟩

theorem Record.including_nil (bound : Nat) (r : Record) :
    r.including bound [] r.directory = r := by
  simp [including]

theorem Record.including_append (bound : Nat) (log log' : List Deed) (files files' : Directory)
    (r : Record) : (r.including bound log files).including bound log' files' =
      r.including bound (log ++ log') files' := by
  simp only [including, List.flatMap_append, Array.append_assoc, List.append_toArray]

/-- A record is alike to watched work that comes to the same, and holds what comes out of it. -/
def Recorded (bound : Nat) {α : Type} (x : Record.Recorder α) (y : Watched Directory α) : Prop :=
  ∀ r : Record, x r = (y r.directory).2.map fun a =>
    (a.1, r.including bound (y r.directory).1 a.2)

theorem recorded_watching (bound : Nat) :
    Host.Alike (@Recorded bound) (Record.host bound) (watching .ofDirectories bound) where
  pure a r := by
    rw [Watched.pure_apply, Option.map_some, r.including_nil]
    rfl
  bind := by
    intro α β x y f g first later r
    have here := first r
    change (x r).bind (fun a => f a.1 a.2) = _
    rcases watched : y r.directory with ⟨log, _ | ⟨a, files⟩⟩
    · rw [here, Watched.bind_of_none watched, watched]
      rfl
    · rw [here, Watched.bind_of_some watched, watched]
      refine (later a (r.including bound log files)).trans ?_
      simp only [Record.including_append]
      rfl
  readFile path r := by
    simp [Record.host, watching, FileSystem.ofDirectories, Record.including, Deed.printed,
      Deed.noted, Deed.lines]
  writeFile path contents r := by
    simp only [Record.host, watching, FileSystem.ofDirectories]
    cases r.directory.write path contents with
    | error e => simp [Record.including, Deed.printed, Deed.noted, Deed.lines]
    | ok d => simp [Record.including, Deed.printed, Deed.noted, Deed.lines]
  print text r := by
    simp [Record.host, watching, Record.including, Deed.printed, Deed.noted, Deed.lines]
  note n r := by
    simp [Record.host, watching, Record.including, Deed.printed, Deed.noted]
  trace s r := by
    simp only [Record.host, watching]
    rcases traced : Session.trace bound #[] s with _ | ⟨lines, result, t⟩
    · rfl
    · simp only [Option.map_some, Record.including, Record.keep, Deed.printed, Deed.noted,
        Deed.lines, traced, writtenBeyond, List.flatMap_singleton, Option.elim_some,
        Array.toArray_toList, ← Array.toList_map]
  run s r := by
    simp only [Record.host, watching]
    rcases ran : s.run bound with _ | ⟨result, t⟩
    · rfl
    · simp only [Option.map_some, Record.including, Record.keep, Deed.printed, Deed.noted,
        Deed.lines, ran, writtenBeyond, List.flatMap_singleton, Option.elim_some,
        Array.toArray_toList, List.map_nil]

/-- What is recorded of options is what the watched work comes to, and what comes out of it. -/
theorem ofOptions_eq_work (bound : Nat) (directory : Directory) (input : List UInt8) (o : Options) :
    let done := (watching .ofDirectories bound).work o ⟨input.map .byte⟩ (.scripted [] []) directory
    Record.ofOptions bound directory input o = done.2.map fun r =>
      (r.1, ⟨r.2, (done.1.flatMap (Deed.printed bound)).toArray,
        (done.1.flatMap (Deed.noted bound)).toArray⟩) := by
  intro done
  have recorded := (recorded_watching bound).work o ⟨input.map .byte⟩ (.scripted [] [])
    ⟨directory, #[], #[]⟩
  simp only [Record.including, Array.empty_append] at recorded
  exact recorded

/-- Watched work that ends is done in the same way with other work in its place. -/
def Persists {α : Type} (x y : Watched σ α) : Prop :=
  ∀ files r, (x files).2 = some r → y files = x files

theorem persists_watching (system : FileSystem σ) (bound more : Nat) :
    Host.Alike (@Persists σ) (watching system bound) (watching system (bound + more)) where
  pure _ _ _ _ := rfl
  bind := by
    intro α β x y f g first later files r ended
    rcases done : x files with ⟨log, _ | ⟨a, files'⟩⟩
    · rw [Watched.bind_of_none done] at ended
      cases ended
    · have same : y files = (log, some (a, files')) := by
        rw [← done]
        exact first files (a, files') (by rw [done])
      rw [Watched.bind_of_some done] at ended ⊢
      rw [Watched.bind_of_some same, later a files' r ended]
  readFile _ _ _ _ := rfl
  writeFile _ _ _ _ _ := rfl
  print _ _ _ _ := rfl
  note _ _ _ _ := rfl
  trace s files r ended := by
    obtain ⟨last, traced, _⟩ := Option.map_eq_some_iff.mp ended
    simp only [watching, traced, Session.trace_mono traced more]
  run s files r ended := by
    obtain ⟨last, ran, _⟩ := Option.map_eq_some_iff.mp ended
    simp only [watching, ran, Session.run_mono ran more]

/-- Work that ends does so in the same way when its executions are given more steps. -/
theorem work_mono {system : FileSystem σ} {bound : Nat} {files : σ} {o : Options} {input : Input}
    {output : Output} {r : Outcome × σ}
    (ended : ((watching system bound).work o input output files).2 = some r) (more : Nat) :
    (watching system (bound + more)).work o input output files =
      (watching system bound).work o input output files :=
  (persists_watching system bound more).work o input output files r ended

end CommandLine
end Brainfuck
