import Brainfuck.Proofs.Execution
import Brainfuck.Proofs.Looks

/-!
# What a fault leaves as it was

An operation looks whether it can be done before it changes anything, and a stream that fails has
moved no byte: it has only used up some of its calls. So an operation that fails leaves the tape and
what has been put out (`perform_spares`). Main statement: a step of any code that faults leaves the
machine where it stands, and it has been counted if and only if it has got as far as its operation
(`faulting_step_spares`).
-/
namespace Brainfuck

/-- The faults of the tape and the streams, which any code may cause. -/
def FaultKind.isExternal : FaultKind → Bool
  | pastLastCell .. | beforeFirstCell .. | stream _ => true
  | _ => false

/-- An operation has failed in a counted way between two stores. Only the scripts of the streams may
differ, and only if a stream has failed. -/
structure Spares (kind : FaultKind) (s s' : Store) : Prop where
  counted : kind.isCounted = true
  tape : s'.tape = s.tape
  taken : s'.output.taken = s.output.taken
  idle : (∀ e, kind ≠ .stream e) → s' = s

/-- The tape or a stream has refused an operation between two stores. -/
structure Refused (kind : FaultKind) (s s' : Store) : Prop extends Spares kind s s' where
  external : kind.isExternal = true

variable {kind : FaultKind} {s s' : Store}

theorem Spares.refl (counted : kind.isCounted = true) (s : Store) : Spares kind s s :=
  ⟨counted, rfl, rfl, fun _ => rfl⟩

theorem Refused.stream {e : StreamError} (tape : s'.tape = s.tape)
    (taken : s'.output.taken = s.output.taken) : Refused (.stream e) s s' :=
  ⟨⟨rfl, tape, taken, fun other => absurd rfl (other e)⟩, rfl⟩

namespace Store

theorem refused_right {n : Nat} (failed : s.right n = (.error kind, s')) : Refused kind s s' := by
  obtain ⟨tape, input, output⟩ := s
  by_cases stays : tape.pointer + n < tape.cells.size
  · simp only [right, Tape.right, dif_pos stays] at failed
    cases failed
  · simp only [right, Tape.right, dif_neg stays] at failed
    cases failed
    exact ⟨.refl rfl _, rfl⟩

theorem refused_left {n : Nat} (failed : s.left n = (.error kind, s')) : Refused kind s s' := by
  obtain ⟨tape, input, output⟩ := s
  by_cases stays : n ≤ tape.pointer
  · simp only [left, Tape.left, if_pos stays] at failed
    cases failed
  · simp only [left, Tape.left, if_neg stays] at failed
    cases failed
    exact ⟨.refl rfl _, rfl⟩

theorem refused_read (failed : s.read = (.error kind, s')) : Refused kind s s' := by
  obtain ⟨tape, input, output⟩ := s
  simp only [read] at failed
  split at failed
  · cases failed
  · cases failed
    exact .stream rfl rfl

/-- A write that fails after several calls has put out nothing in any of them. -/
theorem refused_write (failed : s.write = (.error kind, s')) : Refused kind s s' := by
  obtain ⟨tape, input, taken, writes, flushes, flushCalls, flushed⟩ := s
  simp only [write, Output.write] at failed
  generalize Delivery.next writes = called at failed
  obtain ⟨e | _, rest⟩ := called
  · cases failed
    exact .stream rfl rfl
  · cases failed

theorem refused_flush (failed : s.flush = (.error kind, s')) : Refused kind s s' := by
  obtain ⟨tape, input, taken, writes, flushes, flushCalls, flushed⟩ := s
  rcases flushes with _ | ⟨_ | e, rest⟩
  · cases failed
  · cases failed
  · cases failed
    exact .stream rfl rfl

end Store

theorem eq_of_andThenNext {ip : Nat} {outcome : Except FaultKind Unit × Store}
    (failed : andThenNext ip outcome = (.error kind, s')) : outcome = (.error kind, s') := by
  obtain ⟨other | _, after⟩ := outcome
  · cases failed
    rfl
  · cases failed

namespace Code

variable {code : Code} {strategy : JumpStrategy} {ip distance : Nat}

/-- A jump that has nowhere to lead fails by its strategy. -/
theorem isCounted_of_target (failed : code.forwardTarget strategy ip distance = .error kind ∨
    code.backwardTarget strategy ip distance = .error kind) : kind.isCounted = true := by
  cases strategy with
  | distance =>
    have mismatched {p : Prop} [Decidable p] {target : Nat}
        (missed : (if p then .ok target else .error (.mismatchedJump distance)) =
          Except.error kind) : kind.isCounted = true := by
      split at missed
      · cases missed
      · cases missed
        rfl
    exact failed.elim mismatched mismatched
  | scan =>
    have unbalanced {target? : Option Nat} (missed : scanned target? = .error kind) :
        kind.isCounted = true := by
      cases target? with
      | none =>
        cases missed
        rfl
      | some target => cases missed
    rw [forwardTarget_scan, backwardTarget_scan] at failed
    exact failed.elim unbalanced unbalanced

end Code

/-- An operation that fails leaves the tape and what has been put out. -/
theorem perform_spares {code : Code} {strategy : JumpStrategy} {ip operand : Nat} {op : Opcode}
    (failed : perform code strategy ip op operand s = (.error kind, s')) : Spares kind s s' := by
  cases op with
  | eof => cases failed
  | nop => cases failed
  | moveRight => exact (Store.refused_right (eq_of_andThenNext failed)).toSpares
  | moveLeft => exact (Store.refused_left (eq_of_andThenNext failed)).toSpares
  | add => cases failed
  | subtract => cases failed
  | read => exact (Store.refused_read (eq_of_andThenNext failed)).toSpares
  | write => exact (Store.refused_write (eq_of_andThenNext failed)).toSpares
  | jumpForward =>
    rw [perform] at failed
    split at failed
    · obtain ⟨missed, rfl⟩ := Prod.mk.inj failed
      exact .refl (Code.isCounted_of_target (.inl missed)) _
    · cases failed
  | jumpBackward =>
    rw [perform] at failed
    split at failed
    · cases failed
    · obtain ⟨missed, rfl⟩ := Prod.mk.inj failed
      exact .refl (Code.isCounted_of_target (.inr missed)) _

/-- A step that faults, with any code, names the index where the machine stands, and leaves this
index, the settings, the tape with its pointer and all bytes that have been put out. The step is
counted if an operation has failed, and not if there was none to be done or none was allowed. Unless
a stream has failed, its streams are as they were too. -/
theorem faulting_step_spares {code : Code} {m last : Machine} {fault : Fault}
    (faulted : m.step code = (.error fault, last)) :
    fault.ip = m.ip ∧ last.ip = m.ip ∧ last.strategy = m.strategy ∧ last.limit = m.limit ∧
      last.store.tape = m.store.tape ∧ last.store.output.taken = m.store.output.taken ∧
      last.steps = m.steps + (if fault.kind.isCounted then 1 else 0) ∧
      ((∀ e, fault.kind ≠ .stream e) → last.store = m.store) := by
  rcases Machine.step_stops_or_performs code m with
    ⟨result, _, uncounted, stopped⟩ | ⟨i, op, _, _, _, _, stepped⟩
  · cases faulted.symm.trans stopped
    obtain ⟨here, notCounted, _⟩ := uncounted fault rfl
    rw [notCounted]
    exact ⟨here, rfl, rfl, rfl, rfl, rfl, rfl, fun _ => rfl⟩
  · rw [stepped] at faulted
    rcases done : perform code m.strategy m.ip op i.operand m.store with ⟨kind | next, after⟩
    · rw [done] at faulted
      cases faulted
      have spares := perform_spares done
      rw [spares.counted]
      exact ⟨rfl, rfl, rfl, rfl, spares.tape, spares.taken, rfl, spares.idle⟩
    · rw [done] at faulted
      cases faulted

/-- A write that is interrupted, tried again and then ignored: two of its calls are used up. -/
theorem faulting_step_spares_after_interruption :
    let m : Machine := ⟨1, 4, .scan, some 5,
      ⟨(Tape.blank 2).put 7, ⟨[]⟩, ⟨#[3], [.failed .interrupted, .ignored, .taken], [], 1, 1⟩⟩⟩
    ∃ last, m.step (Code.ofWords [0x104, 0x007]) = (.error ⟨.stream .writeZero, 1⟩, last) ∧
      last.steps = 5 ∧ last.store.tape = m.store.tape ∧ last.store.output.taken = #[3] ∧
      last.store.output.writes = [.taken] := by
  intro m
  have faulted : m.step (Code.ofWords [0x104, 0x007]) = (.error ⟨.stream .writeZero, 1⟩, _) := rfl
  obtain ⟨_, _, _, _, tape, taken, steps, _⟩ := faulting_step_spares faulted
  exact ⟨_, faulted, steps, tape, taken, rfl⟩

end Brainfuck
