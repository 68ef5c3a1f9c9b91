import Brainfuck.Proofs.Watching
import Brainfuck.Proofs.Working

/-!
# What is put out

What watched work puts out is what its parts do, one after the other (`Watched.prints_bind`), and
only prints and executions put out anything (`Deed.Tacit.printed_eq`). Main statement: the
executions that are asked for put out what they write, up to the first that fails
(`execute_prints`).
-/
namespace Brainfuck

/-!
### Quiet work

A host that takes no notes does the same work whether quiet is asked for or not
(`discreet_work_quiet`), and a watching host does the work of a discreet one, with notes in between
(`discreet_watching`). Main statement: quiet changes neither what the work comes to nor what comes
out of it nor the lines of a trace (`work_quiet`).
-/

namespace CommandLine

def Deed.isNote : Deed → Bool
  | note _ => true
  | _ => false

/-- What is done beside taking notes. -/
def withoutNotes (log : List Deed) : List Deed :=
  log.filter fun d => !d.isNote

variable {σ α β : Type}

/-- What comes out of deeds none of which is a note comes out of all of them. -/
theorem flatMap_withoutNotes {γ : Type} {f : Deed → List γ} (silent : ∀ n, f (.note n) = [])
    (log : List Deed) : (withoutNotes log).flatMap f = log.flatMap f := by
  induction log with
  | nil => rfl
  | cons d log ih =>
    rw [List.flatMap_cons]
    cases d with
    | note n =>
      rw [silent, List.nil_append]
      exact ih
    | _ => exact congrArg (f _ ++ ·) ih

def discreet (system : FileSystem σ) (bound : Nat) : Host (Watched σ) :=
  { watching system bound with note := fun _ => pure () }

/-- Work is done without notes as it is with them. -/
def SameButNotes (x y : Watched σ α) : Prop :=
  ∀ files, y files = (withoutNotes (x files).1, (x files).2)

theorem discreet_watching (system : FileSystem σ) (bound : Nat) :
    Host.Alike (@SameButNotes σ) (watching system bound) (discreet system bound) where
  pure _ _ := rfl
  bind := by
    intro α β x y f g first later files
    have here := first files
    rcases done : x files with ⟨log, _ | ⟨a, files'⟩⟩
    · rw [done] at here
      rw [Watched.bind_of_none done, Watched.bind_of_none here]
    · rw [done] at here
      rw [Watched.bind_of_some done, Watched.bind_of_some here, later a files', withoutNotes,
        withoutNotes, withoutNotes, List.filter_append]
  readFile _ _ := rfl
  writeFile path contents files := by
    simp only [discreet, watching]
    cases system.write files path contents with
    | error e => rfl
    | ok files' => rfl
  print _ _ := rfl
  note _ _ := rfl
  trace _ _ := rfl
  run _ _ := rfl

theorem discreet_say (system : FileSystem σ) (bound : Nat) (o : Options) (note : Note) :
    (discreet system bound).say o note = pure () := by
  unfold Host.say
  split <;> rfl

/-- Without notes quiet makes no difference. -/
theorem discreet_work_quiet (system : FileSystem σ) (bound : Nat) (o : Options) (quiet : Bool)
    (input : Input) (output : Output) :
    (discreet system bound).work { o with quiet := quiet } input output =
      (discreet system bound).work o input output := by
  simp only [Host.work, Host.source, Host.compileAndGo, Host.emit, Host.execute, Host.tracePart,
    Host.runPart, discreet_say]
  rfl

/-- Quiet changes nothing but notes: the work ends alike, with the same files, and it puts out the
same and leaves the same lines of a trace. -/
theorem work_quiet (system : FileSystem σ) (bound : Nat) (files : σ) (o : Options) (quiet : Bool)
    (input : Input) (output : Output) :
    let done := (watching system bound).work o input output files
    let done' := (watching system bound).work { o with quiet := quiet } input output files
    done'.2 = done.2 ∧
      done'.1.flatMap (Deed.printed bound) = done.1.flatMap (Deed.printed bound) ∧
      done'.1.flatMap (Deed.lines bound) = done.1.flatMap (Deed.lines bound) := by
  intro done done'
  have alike := discreet_watching system bound
  have same : (withoutNotes done'.1, done'.2) = (withoutNotes done.1, done.2) := by
    rw [← alike.work o input output files, ← discreet_work_quiet system bound o quiet,
      alike.work { o with quiet := quiet } input output files]
  obtain ⟨logs, ends⟩ := Prod.mk.inj same
  refine ⟨ends, ?_, ?_⟩
  · rw [← flatMap_withoutNotes (fun _ => rfl), logs, flatMap_withoutNotes fun _ => rfl]
  · rw [← flatMap_withoutNotes (fun _ => rfl), logs, flatMap_withoutNotes fun _ => rfl]

end CommandLine

/-! ### What is put out -/

namespace CommandLine

variable {σ α β : Type}

/-- What watched work puts out and comes to, if it ends. -/
def Watched.prints (bound : Nat) (x : Watched σ α) (files : σ) : Option (List UInt8 × α × σ) :=
  (x files).2.map fun r => ((x files).1.flatMap (Deed.printed bound), r)

/-- What is put out behind some bytes. -/
def behind {γ : Type} (bytes : List UInt8) (printed : Option (List UInt8 × γ)) :
    Option (List UInt8 × γ) :=
  printed.map fun r => (bytes ++ r.1, r.2)

@[simp] theorem behind_nil {γ : Type} (printed : Option (List UInt8 × γ)) :
    behind [] printed = printed := by
  simp [behind]

@[simp] theorem behind_some {γ : Type} (bytes bytes' : List UInt8) (c : γ) :
    behind bytes (some (bytes', c)) = some (bytes ++ bytes', c) := rfl

section

variable {bound : Nat} {files files' : σ} {bytes : List UInt8} {a : α} {x : Watched σ α}

theorem Watched.prints_pure (bound : Nat) (a : α) (files : σ) :
    (pure a : Watched σ α).prints bound files = some ([], a, files) := rfl

/-- What comes next is put out behind what there is. -/
theorem Watched.prints_bind (done : x.prints bound files = some (bytes, a, files'))
    (f : α → Watched σ β) :
    (x >>= f).prints bound files = behind bytes ((f a).prints bound files') := by
  obtain ⟨⟨a', last⟩, ended, same⟩ := Option.map_eq_some_iff.mp done
  cases same
  have all : x files = ((x files).1, some (a, files')) := Prod.ext rfl ended
  simp only [prints, bind_of_some all, List.flatMap_append, behind, Option.map_map]
  rfl

theorem Watched.prints_bind_none (endless : x.prints bound files = none) (f : α → Watched σ β) :
    (x >>= f).prints bound files = none := by
  have all : x files = ((x files).1, none) := Prod.ext rfl (Option.map_eq_none_iff.mp endless)
  simp only [prints, bind_of_none all, Option.map_none]

/-- Nothing is put out by deeds that put out nothing. -/
theorem Does.prints_eq {answer : Option (α × σ)}
    (does : Does (fun d => d.printed bound = []) x files answer) :
    x.prints bound files = answer.map fun r => ([], r) := by
  obtain ⟨log, silent, done⟩ := does
  rw [Watched.prints, done, List.flatMap_eq_nil_iff.mpr silent]

theorem Deed.Tacit.printed_eq {d : Deed} (tacit : d.Tacit) (bound : Nat) :
    d.printed bound = [] := by
  cases d with
  | read | write | note => rfl
  | print => cases tacit.2
  | trace => cases tacit.1.2
  | run => cases tacit.1.2

theorem Does.prints_bind (does : Does Deed.Tacit x files (some (a, files')))
    (f : α → Watched σ β) : (x >>= f).prints bound files = (f a).prints bound files' := by
  have silent := does.mono fun d tacit => tacit.printed_eq bound
  rw [Watched.prints_bind silent.prints_eq, behind_nil]

end

/-- The bytes of a text, if a command is asked for. -/
def Options.shown (o : Options) (command : Command) (text : String) : List UInt8 :=
  if o.asks command then text.toUTF8.data.toList else []

/-- An execution that may be wanted: the bytes that it puts out, and how to go on. -/
def part (wanted : Bool) (bound : Nat) (s : Session) :
    Option (List UInt8 × Except SessionError Session) :=
  if wanted then
    (s.run bound).map fun r =>
      (writtenBeyond s.machine.store.output.taken.size r.2, r.1.map fun _ => r.2.reset)
  else some ([], .ok s)

section Parts

variable {system : FileSystem σ} {bound : Nat} {files : σ} {o : Options} {code : Code} {s : Session}

theorem printIf_prints (command : Command) (text : Unit → String) :
    ((watching system bound).printIf o command text).prints bound files =
      some (o.shown command (text ()), (), files) := by
  unfold Host.printIf Options.shown
  split
  · simp [Watched.prints, watching, Deed.printed]
  · rfl

theorem trace_prints (active : s.Active code) :
    ((watching system bound).trace s).prints bound files = (s.run bound).map fun r =>
      (writtenBeyond s.machine.store.output.taken.size r.2, r, files) := by
  rw [← active.map_trace bound #[]]
  simp only [Watched.prints, watching, Deed.printed, List.flatMap_singleton, Option.map_map]
  cases s.trace bound #[] with
  | none => rfl
  | some r => rfl

theorem run_prints (s : Session) :
    ((watching system bound).run s).prints bound files = (s.run bound).map fun r =>
      (writtenBeyond s.machine.store.output.taken.size r.2, r, files) := by
  simp only [Watched.prints, watching, Deed.printed, List.flatMap_singleton, Option.map_map]
  cases s.run bound with
  | none => rfl
  | some r => rfl

/-- Nothing is put out by the notes around an execution. -/
theorem noted_prints {execution : Watched σ (Except SessionError Unit × Session)}
    {answer : Option (Except SessionError Unit × Session)}
    {written : Except SessionError Unit × Session → List UInt8}
    (printed : execution.prints bound files = answer.map fun r => (written r, r, files))
    (first last : Note) (told : Session → Note) (goesOn : Session → α) :
    ((watching system bound).noted o execution first last told goesOn).prints bound files =
      answer.map fun r => (written r, answered goesOn r, files) := by
  rw [Host.noted, (say_does first).prints_bind]
  rcases answer with _ | ⟨e | _, t⟩
  · rw [Watched.prints_bind_none printed]
    rfl
  · rw [Watched.prints_bind printed, (say_does .blank).prints_bind]
    simp [answered, Watched.prints_pure]
  · rw [Watched.prints_bind printed, (say_does .blank).prints_bind]
    dsimp only
    rw [(say_does last).prints_bind, (say_does (told t)).prints_bind]
    simp [answered, Watched.prints_pure]

theorem tracePart_prints (active : s.Active code) :
    ((watching system bound).tracePart o s).prints bound files =
      (part (o.asks .trace) bound s).map fun r => (r.1, r.2.mapError .program, files) := by
  rw [Host.tracePart_eq, part]
  split
  · rw [noted_prints (trace_prints active), Option.map_map]
    apply congrArg (Option.map · _)
    funext ⟨result, t⟩
    cases result <;> rfl
  · rfl

theorem runPart_prints (s : Session) :
    ((watching system bound).runPart o s).prints bound files =
      (part (o.asks .run) bound s).map fun r =>
        (r.1, (r.2.map fun _ => ()).mapError .program, files) := by
  rw [Host.runPart_eq, part]
  split
  · rw [noted_prints (run_prints s), Option.map_map]
    apply congrArg (Option.map · _)
    funext ⟨result, t⟩
    cases result <;> rfl
  · rfl

/-- The executions that are asked for put out what they write, up to the first that fails. -/
theorem execute_prints (active : s.Active code) :
    ((watching system bound).execute o s).prints bound files =
      (part (o.asks .trace) bound s).bind fun r =>
        match r.2 with
        | .error e => some (r.1, .failed (.program e), files)
        | .ok t => behind r.1 ((part (o.asks .run) bound t).map fun r' =>
            (r'.1, .ofRounds (r'.2.map fun _ => ()), files)) := by
  have first : ((watching system bound).tracePart o s).prints bound files = _ :=
    tracePart_prints active
  rw [Host.execute]
  rcases traced : part (o.asks .trace) bound s with _ | ⟨bytes, e | t⟩
  · rw [traced] at first
    exact Watched.prints_bind_none first _
  · rw [traced] at first
    rw [Watched.prints_bind first]
    exact congrArg (fun all => some (all, _, files)) (List.append_nil bytes)
  · rw [traced] at first
    have second : ((watching system bound).runPart o t).prints bound files = _ := runPart_prints t
    rw [Watched.prints_bind first]
    apply congrArg (behind bytes)
    rcases ran : part (o.asks .run) bound t with _ | ⟨bytes', result⟩
    · rw [ran] at second
      exact Watched.prints_bind_none second _
    · rw [ran] at second
      refine (Watched.prints_bind second _).trans ?_
      cases result with
      | error e => exact congrArg (fun all => some (all, _, files)) (List.append_nil bytes')
      | ok => exact congrArg (fun all => some (all, _, files)) (List.append_nil bytes')

end Parts

end CommandLine

end Brainfuck
