import Brainfuck.Proofs.Executing
import Brainfuck.Proofs.History

/-!
# Maps of the store that make no difference

A map of the store may change what no program notices. Then every operation comes to the same on the
mapped store, and the store after it is mapped likewise (`Store.Carries`), but for faults of kinds
that are excepted; and so it is with steps and runs. Where nothing is excepted, and new tapes come
to the same too (`Store.Indifferent`), a session over the mapped store answers every move alike.
Main statements: `Session.run_mapStore` and `Session.plays_of_indifferent`.
-/
namespace Brainfuck

/-- What something comes to on a mapped state, told by what it comes to on the state itself: the
same, and the state after it is mapped likewise. After an excepted error nothing is said. -/
def SameUnless {α ε σ : Type} (excepted : ε → Prop) (f : σ → σ) (r mapped : Except ε α × σ) :
    Prop :=
  (∃ e, r.1 = .error e ∧ excepted e) ∨ mapped = (r.1, f r.2)

/-- No operation notices the map, unless it fails in an excepted way. -/
structure Store.Carries (f : Store → Store) (excepted : FaultKind → Prop) : Prop where
  isZero : ∀ s, (f s).isZero = s.isZero
  add : ∀ amount s, (f s).add amount = f (s.add amount)
  subtract : ∀ amount s, (f s).subtract amount = f (s.subtract amount)
  right : ∀ distance s, SameUnless excepted f (s.right distance) ((f s).right distance)
  left : ∀ distance s, SameUnless excepted f (s.left distance) ((f s).left distance)
  read : ∀ s, SameUnless excepted f s.read (f s).read
  write : ∀ s, SameUnless excepted f s.write (f s).write
  flush : ∀ s, (f s).flush = (s.flush.1, f s.flush.2)

/-- No operation notices the map at all, nor does a new tape. -/
structure Store.Indifferent (f : Store → Store) : Prop extends
    Store.Carries f (fun _ => False) where
  reset : ∀ s, (f s).reset = f s.reset
  resize : ∀ cells s, (f s).resize cells = f (s.resize cells)

theorem SameUnless.eq {α ε σ : Type} {f : σ → σ} {r mapped : Except ε α × σ}
    (same : SameUnless (fun _ => False) f r mapped) : mapped = (r.1, f r.2) :=
  same.resolve_left nofun

section

variable {excepted : FaultKind → Prop} {f : Store → Store}

theorem SameUnless.andThenNext {r mapped : Except FaultKind Unit × Store}
    (same : SameUnless excepted f r mapped) (ip : Nat) :
    SameUnless excepted f (Brainfuck.andThenNext ip r) (Brainfuck.andThenNext ip mapped) := by
  obtain ⟨outcome, store⟩ := r
  rcases same with ⟨kind, rfl, known⟩ | rfl
  · exact .inl ⟨kind, rfl, known⟩
  · cases outcome with
    | error kind => exact .inr rfl
    | ok => exact .inr rfl

theorem Store.Carries.perform (carries : Store.Carries f excepted) (code : Code)
    (strategy : JumpStrategy) (ip : Nat) (op : Opcode) (operand : Nat) (store : Store) :
    SameUnless excepted f (Brainfuck.perform code strategy ip op operand store)
      (Brainfuck.perform code strategy ip op operand (f store)) := by
  cases op with
  | eof => exact .inr rfl
  | nop => exact .inr rfl
  | moveRight => exact (carries.right operand store).andThenNext ip
  | moveLeft => exact (carries.left operand store).andThenNext ip
  | add => exact .inr (by simp only [Brainfuck.perform, carries.add])
  | subtract => exact .inr (by simp only [Brainfuck.perform, carries.subtract])
  | read => exact (carries.read store).andThenNext ip
  | write => exact (carries.write store).andThenNext ip
  | jumpForward =>
    right
    simp only [Brainfuck.perform, carries.isZero]
    split <;> rfl
  | jumpBackward =>
    right
    simp only [Brainfuck.perform, carries.isZero]
    split <;> rfl

namespace Machine

def mapStore (f : Store → Store) : Machine → Machine
  | ⟨ip, steps, strategy, limit, store⟩ => ⟨ip, steps, strategy, limit, f store⟩

theorem step_mapStore (carries : Store.Carries f excepted) (code : Code) (m : Machine) :
    SameUnless (fun fault => excepted fault.kind) (mapStore f) (m.step code)
      ((m.mapStore f).step code) := by
  obtain ⟨ip, steps, strategy, limit, store⟩ := m
  simp only [mapStore, step]
  split
  · exact .inr rfl
  · next i _ =>
    split
    · exact .inr rfl
    · exact .inr rfl
    · next op _ _ =>
      split
      · exact .inr rfl
      · have same := carries.perform code strategy ip op i.operand store
        generalize perform code strategy ip op i.operand store = done at same ⊢
        obtain ⟨outcome, after⟩ := done
        rcases same with ⟨kind, rfl, known⟩ | same
        · exact .inl ⟨⟨kind, ip⟩, rfl, known⟩
        · rw [same]
          cases outcome with
          | error kind => exact .inr rfl
          | ok next => exact .inr rfl

theorem run_mapStore (carries : Store.Carries f excepted) (code : Code) (bound : Nat)
    (m : Machine) :
    (∃ fault last, m.run code bound = some (.error fault, last) ∧ excepted fault.kind) ∨
      (m.mapStore f).run code bound =
        (m.run code bound).map fun r => (r.1, r.2.mapStore f) := by
  induction bound generalizing m with
  | zero => exact .inr rfl
  | succ bound ih =>
    have first := step_mapStore carries code m
    rw [run_succ, run_succ]
    generalize m.step code = done at first ⊢
    obtain ⟨outcome, next⟩ := done
    rcases first with ⟨fault, rfl, known⟩ | same
    · exact .inl ⟨fault, next, rfl, known⟩
    · rw [same]
      match outcome with
      | .ok .going => exact ih next
      | .ok .halted => exact .inr rfl
      | .error fault => exact .inr rfl

end Machine

namespace Session

theorem compile_mapStore (f : Store → Store) (s : Session) :
    (s.mapStore f).compile = (s.compile.1, s.compile.2.mapStore f) := by
  obtain ⟨source, flags, code?, phase, machine⟩ := s
  cases code? with
  | some code => rfl
  | none =>
    simp only [mapStore, compile]
    split <;> rfl

theorem begin_mapStore (f : Store → Store) (s : Session) :
    (s.mapStore f).begin = (s.begin.1, s.begin.2.mapStore f) := by
  have same : (s.mapStore f).phase = s.phase := rfl
  simp only [begin, same, compile_mapStore]
  split
  · rfl
  · rcases s.compile with ⟨e | code, after⟩
    · rfl
    · rfl

theorem conclude_mapStore (carries : Store.Carries f excepted) (result : Except Fault Unit)
    (s : Session) : conclude result (s.mapStore f) =
      ((conclude result s).1, (conclude result s).2.mapStore f) := by
  obtain ⟨source, flags, code?, phase, ip, steps, strategy, limit, store⟩ := s
  simp only [mapStore, conclude, carries.flush]
  rcases store.flush with ⟨kind | _, flushed⟩
  · cases result with
    | error fault => rfl
    | ok => rfl
  · cases result with
    | error fault => rfl
    | ok => rfl

/-- A run of a session over the mapped store ends as that over the store itself, unless this ends in
an excepted fault. -/
theorem run_mapStore (carries : Store.Carries f excepted) (bound : Nat) (s : Session) :
    (∃ fault t, s.run bound = some (.error (.crashed fault), t) ∧ excepted fault.kind) ∨
      (s.mapStore f).run bound = (s.run bound).map fun r => (r.1, r.2.mapStore f) := by
  simp only [run, begin_mapStore]
  rcases s.begin with ⟨e | code, source, flags, code?, phase, machine⟩
  · exact .inr rfl
  · have same := Machine.run_mapStore carries code bound machine
    generalize reached : machine.run code bound = outcome at same
    rcases same with ⟨fault, last, rfl, known⟩ | same
    · left
      refine ⟨fault, closed ⟨source, flags, code?, phase, last⟩ .faulted, ?_, known⟩
      simp only [reached]
      rw [conclude_error]
    · right
      have mapped : (mapStore f ⟨source, flags, code?, phase, machine⟩) =
        ⟨source, flags, code?, phase, machine.mapStore f⟩ := rfl
      simp only [mapped, same, reached]
      cases outcome with
      | none => rfl
      | some r =>
        exact congrArg some (conclude_mapStore carries r.1 ⟨source, flags, code?, phase, r.2⟩)

end Session
end

namespace Store

def mapStreams (g : Input → Input) (h : Output → Output) : Store → Store
  | ⟨tape, input, output⟩ => ⟨tape, g input, h output⟩

section

variable {g : Input → Input} {h : Output → Output} (store : Store)

theorem right_mapStreams (distance : Nat) : (store.mapStreams g h).right distance =
    ((store.right distance).1, (store.right distance).2.mapStreams g h) := by
  obtain ⟨tape, input, output⟩ := store
  simp only [mapStreams, right]
  split <;> rfl

theorem left_mapStreams (distance : Nat) : (store.mapStreams g h).left distance =
    ((store.left distance).1, (store.left distance).2.mapStreams g h) := by
  obtain ⟨tape, input, output⟩ := store
  simp only [mapStreams, left]
  split <;> rfl

theorem read_mapStreams (read : ∀ input, (g input).read = (input.read.1, g input.read.2)) :
    (store.mapStreams g h).read = (store.read.1, store.read.2.mapStreams g h) := by
  obtain ⟨tape, input, output⟩ := store
  simp only [mapStreams, Store.read, read]
  rcases input.read with ⟨e | value, after⟩
  · rfl
  · rfl

theorem write_mapStreams (write : ∀ value output,
    (h output).write value = ((output.write value).1, h (output.write value).2)) :
    (store.mapStreams g h).write = (store.write.1, store.write.2.mapStreams g h) := by
  obtain ⟨tape, input, output⟩ := store
  simp only [mapStreams, Store.write, write]
  rcases output.write tape.current.toUInt8 with ⟨e | _, after⟩
  · rfl
  · rfl

theorem flush_mapStreams (flush : ∀ output, (h output).flush = (output.flush.1, h output.flush.2)) :
    (store.mapStreams g h).flush = (store.flush.1, store.flush.2.mapStreams g h) := by
  obtain ⟨tape, input, output⟩ := store
  simp only [mapStreams, Store.flush, flush]
  rcases output.flush with ⟨e | _, after⟩
  · rfl
  · rfl

end

/-- Streams can be exchanged for others of which every call comes to the same. -/
theorem indifferent_mapStreams {g : Input → Input} {h : Output → Output}
    (read : ∀ input, (g input).read = (input.read.1, g input.read.2))
    (write : ∀ value output,
      (h output).write value = ((output.write value).1, h (output.write value).2))
    (flush : ∀ output, (h output).flush = (output.flush.1, h output.flush.2)) :
    Indifferent (mapStreams g h) where
  isZero _ := rfl
  add _ _ := rfl
  subtract _ _ := rfl
  right distance store := .inr (store.right_mapStreams distance)
  left distance store := .inr (store.left_mapStreams distance)
  read store := .inr (store.read_mapStreams read)
  write store := .inr (store.write_mapStreams write)
  flush store := store.flush_mapStreams flush
  reset _ := rfl
  resize _ _ := rfl

end Store

section

variable {f : Store → Store} (indifferent : Store.Indifferent f)
include indifferent

namespace Machine

theorem step_of_indifferent (code : Code) (m : Machine) :
    (m.mapStore f).step code = ((m.step code).1, (m.step code).2.mapStore f) :=
  (step_mapStore indifferent.toCarries code m).eq

theorem run_of_indifferent (code : Code) (bound : Nat) (m : Machine) :
    (m.mapStore f).run code bound = (m.run code bound).map fun r => (r.1, r.2.mapStore f) :=
  (run_mapStore indifferent.toCarries code bound m).resolve_left fun ⟨_, _, _, never⟩ => never

/-- No request is answered otherwise for the map. -/
theorem handle_of_indifferent (request : Request) (m : Machine) :
    (m.mapStore f).handle request = (m.handle request).map fun r => (r.1, r.2.mapStore f) := by
  obtain ⟨ip, steps, strategy, limit, store⟩ := m
  cases request with
  | read => simp only [mapStore, handle, operated, (indifferent.read store).eq, Option.map_some]
  | write => simp only [mapStore, handle, operated, (indifferent.write store).eq, Option.map_some]
  | flush => simp only [mapStore, handle, operated, indifferent.flush, Option.map_some]
  | right distance =>
    simp only [mapStore, handle, operated, (indifferent.right distance store).eq, Option.map_some]
  | left distance =>
    simp only [mapStore, handle, operated, (indifferent.left distance store).eq, Option.map_some]
  | add amount => simp only [mapStore, handle, altered, indifferent.add, Option.map_some]
  | subtract amount => simp only [mapStore, handle, altered, indifferent.subtract, Option.map_some]
  | clear => simp only [mapStore, handle, altered, indifferent.reset, Option.map_some]
  | resize cells =>
    simp only [mapStore, handle, altered, indifferent.resize]
    split <;> rfl
  | step code => simp only [handle, step_of_indifferent indifferent, Option.map_some]
  | run code bound =>
    simp only [handle, run_of_indifferent indifferent, Option.map_map]
    rfl
  | rewind => rfl
  | withStrategy strategy => rfl
  | withLimit limit => rfl

theorem handles_of_indifferent (requests : List Request) (m : Machine) :
    (m.mapStore f).handles requests =
      (m.handles requests).map fun r => (r.1, r.2.mapStore f) := by
  induction requests generalizing m with
  | nil => rfl
  | cons request requests ih =>
    simp only [handles, handle_of_indifferent indifferent]
    cases m.handle request with
    | none => rfl
    | some answered =>
      simp only [Option.map_some, ih, Option.map_map]
      rfl

end Machine

namespace Session

theorem run_of_indifferent (bound : Nat) (s : Session) :
    (s.mapStore f).run bound = (s.run bound).map fun r => (r.1, r.2.mapStore f) :=
  (run_mapStore indifferent.toCarries bound s).resolve_left fun ⟨_, _, _, never⟩ => never

theorem ended_of_indifferent (result : Except Fault Unit) (s : Session) :
    step.ended result (s.mapStore f) =
      ((step.ended result s).1, (step.ended result s).2.mapStore f) := by
  simp only [ended_eq, conclude_mapStore indifferent.toCarries]

theorem step_of_indifferent (s : Session) :
    (s.mapStore f).step = (s.step.1, s.step.2.mapStore f) := by
  simp only [step, begin_mapStore]
  rcases s.begin with ⟨e | code, source, flags, code?, phase, machine⟩
  · rfl
  · have mapped : mapStore f ⟨source, flags, code?, phase, machine⟩ =
        ⟨source, flags, code?, phase, machine.mapStore f⟩ := rfl
    simp only [mapped, Machine.step_of_indifferent indifferent]
    rcases machine.step code with ⟨fault | ⟨_ | _⟩, next⟩
    · exact ended_of_indifferent indifferent (.error fault) ⟨source, flags, code?, phase, next⟩
    · rfl
    · exact ended_of_indifferent indifferent (.ok ()) ⟨source, flags, code?, phase, next⟩

/-- No move is answered otherwise for the map. -/
theorem move_of_indifferent (move : Move) (s : Session) :
    move.perform (s.mapStore f) = (move.perform s).map fun r => (r.1, r.2.mapStore f) := by
  cases move with
  | compile => simp only [Move.perform, compile_mapStore, Option.map_some]
  | run bound =>
    simp only [Move.perform, run_of_indifferent indifferent, Option.map_map]
    rfl
  | step => simp only [Move.perform, step_of_indifferent indifferent, Option.map_some]
  | reset =>
    obtain ⟨source, flags, code?, phase, ip, steps, strategy, limit, store⟩ := s
    simp only [Move.perform, reset, mapStore, Machine.rewind, indifferent.reset, Option.map_some]
  | resize cells =>
    obtain ⟨source, flags, code?, phase, ip, steps, strategy, limit, store⟩ := s
    simp only [Move.perform, resize?, resize, mapStore, indifferent.resize]
    split <;> rfl
  | withFlags flags => rfl
  | withStrategy strategy => rfl
  | withLimit limit => rfl

theorem plays_of_indifferent (moves : List Move) (s : Session) :
    (s.mapStore f).plays moves = (s.plays moves).map fun r => (r.1, r.2.mapStore f) := by
  induction moves generalizing s with
  | nil => rfl
  | cons move moves ih =>
    simp only [plays, move_of_indifferent indifferent]
    cases move.perform s with
    | none => rfl
    | some answered =>
      simp only [Option.map_some, ih, Option.map_map]
      rfl

end Session
end
end Brainfuck
