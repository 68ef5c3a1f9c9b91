import Brainfuck.Proofs.Faulting

/-!
# Where nested code takes the machine

A machine that stands in nested code stays there: each step leads to an index of the code, the end
comes at its last instruction and a fault leaves the machine where it is. Of the faults that code
could cause only those of the tape, the streams and the step limit are left. Main statements: what a
step (`Machine.comesTo_step`) and a whole run (`Machine.Ends.inside`) of nested code come to, from
any index.
-/
namespace Brainfuck

namespace FaultKind

/-- The faults of code that does not fit together: an operation that is none, a jump that does not
lead to the other bracket. -/
def isInconsistency : FaultKind → Bool
  | unknownOpcode _ | mismatchedJump _ | unbalancedJump => true
  | _ => false

end FaultKind

theorem Code.Role.exists_opcode {code : Code} {ip : Nat} {i : Instruction}
    (role : code.Role ip i) : ∃ op, i.opcode? = some op ∧ op ≠ .eof := by
  cases role with
  | act act =>
    obtain ⟨_, _, op, _, _, assigned, notEnd, _⟩ := act.perform_alike
    exact ⟨op, assigned, notEnd⟩
  | opening fits _ => exact ⟨.jumpForward, Instruction.opcode?_make .., Opcode.noConfusion⟩
  | closing fits _ _ => exact ⟨.jumpBackward, Instruction.opcode?_make .., Opcode.noConfusion⟩

/-- What an operation at an index may come to: an index to go on with, or a fault that the tape or a
stream has caused. -/
def Landed (targets : Nat → Prop) : Except FaultKind Nat → Prop
  | .ok next => targets next
  | .error kind => kind.isExternal = true

theorem landed_andThenNext {targets : Nat → Prop} {ip : Nat} (next : targets (ip + 1))
    {s : Store} {outcome : Except FaultKind Unit × Store}
    (refused : ∀ {kind s'}, outcome = (.error kind, s') → Refused kind s s') :
    Landed targets (andThenNext ip outcome).1 := by
  obtain ⟨kind | _, store⟩ := outcome
  · exact (refused rfl).external
  · exact next

/-- An operation that is no jump goes on with the next instruction. -/
theorem landed_of_not_isJump {op : Opcode} (straight : op.isJump = false) {targets : Nat → Prop}
    {ip : Nat} (next : targets (ip + 1)) (code : Code) (strategy : JumpStrategy) (operand : Nat)
    (store : Store) : Landed targets (perform code strategy ip op operand store).1 := by
  cases op with
  | eof => exact next
  | nop => exact next
  | add => exact next
  | subtract => exact next
  | moveRight => exact landed_andThenNext next Store.refused_right
  | moveLeft => exact landed_andThenNext next Store.refused_left
  | read => exact landed_andThenNext next Store.refused_read
  | write => exact landed_andThenNext next Store.refused_write
  | jumpForward => cases straight
  | jumpBackward => cases straight

/-- What an instruction of nested code before the last leads to lies in the code. -/
theorem Code.Role.landed {code : Code} {ip : Nat} {i : Instruction} (role : code.Role ip i)
    (before : ip < code.body.size) {op : Opcode} (assigned : i.opcode? = some op)
    (strategy : JumpStrategy) (store : Store) :
    Landed (· ≤ code.body.size) (perform code strategy ip op i.operand store).1 := by
  cases role with
  | act act => exact landed_of_not_isJump (act.not_isJump assigned) before ..
  | opening fits pair =>
    obtain rfl := Option.some.inj ((Instruction.opcode?_make ..).symm.trans assigned)
    simp only [perform, Instruction.operand_make, pair.forwardTarget]
    split
    · exact pair.inside
    · exact before
  | closing fits position pair =>
    subst position
    obtain rfl := Option.some.inj ((Instruction.opcode?_make ..).symm.trans assigned)
    simp only [perform, Instruction.operand_make, pair.backwardTarget]
    split
    · exact before
    · exact Nat.le_trans (Nat.le_add_right _ _) (Nat.le_of_lt before)

theorem FaultKind.of_isExternal {kind : FaultKind} (external : kind.isExternal = true) :
    kind.isInconsistency = false ∧ ∀ n, kind ≠ .noInstruction n := by
  cases kind with
  | pastLastCell => exact ⟨rfl, fun _ => FaultKind.noConfusion⟩
  | beforeFirstCell => exact ⟨rfl, fun _ => FaultKind.noConfusion⟩
  | stream => exact ⟨rfl, fun _ => FaultKind.noConfusion⟩
  | _ => cases external

/-- Whether a fault from an index of a body is one that nested code may cause. Only an index past
the last instruction is without one. -/
def FaultKind.FitsAt (size ip : Nat) (kind : FaultKind) : Prop :=
  kind.isInconsistency = false ∧ ∀ n, kind = .noInstruction n → size < ip

theorem FaultKind.fitsAt_of_isExternal {kind : FaultKind} (external : kind.isExternal = true)
    (size ip : Nat) : kind.FitsAt size ip := by
  obtain ⟨consistent, other⟩ := of_isExternal external
  exact ⟨consistent, fun n is => absurd is (other n)⟩

namespace Machine

variable {code : Code} {m last : Machine}

def ComesTo (code : Code) (m : Machine) : Except Fault Step × Machine → Prop
  | (.ok .going, next) => m.ip < code.body.size ∧ next.ip ≤ code.body.size
  | (.ok .halted, next) => m.ip = code.body.size ∧ next = m
  | (.error fault, next) => next.ip = m.ip ∧ fault.kind.FitsAt code.body.size m.ip

theorem comesTo_step (nested : Nested code.body.toList) (m : Machine) :
    m.ComesTo code (m.step code) := by
  cases here : code.get? m.ip with
  | none =>
    have beyond : code.body.size < m.ip := by
      rw [← Option.not_isSome_iff_eq_none, Code.get?_isSome_iff, Code.size] at here
      omega
    simp only [step, here]
    exact ⟨rfl, rfl, fun _ _ => beyond⟩
  | some i =>
    rcases nested.role_of_get? here with ⟨finished, rfl⟩ | ⟨before, role⟩
    · simp only [step, here]
      exact ⟨finished, rfl⟩
    · obtain ⟨ip, steps, strategy, limit, store⟩ := m
      obtain ⟨op, assigned, notEnd⟩ := role.exists_opcode
      have landed : Landed (· ≤ code.body.size) (perform code strategy ip op i.operand store).1 :=
        role.landed before assigned strategy store
      rw [step_eq_perform here assigned notEnd]
      cases limitReached? limit steps with
      | some reached => exact ⟨rfl, rfl, fun _ => FaultKind.noConfusion⟩
      | none =>
        generalize perform code strategy ip op i.operand store = outcome at landed
        obtain ⟨kind | next, after⟩ := outcome
        · exact ⟨rfl, FaultKind.fitsAt_of_isExternal landed _ _⟩
        · exact ⟨before, landed⟩

/-- A run of nested code ends at its last instruction, or it faults where it has got to. -/
theorem Ends.inside (nested : Nested code.body.toList) {result : Except Fault Unit}
    (ended : Ends code m result last) :
    (m.ip ≤ code.body.size → last.ip ≤ code.body.size) ∧
      (result = .ok () → last.ip = code.body.size) ∧
      ∀ fault, result = .error fault → fault.kind.FitsAt code.body.size m.ip := by
  induction ended using Ends.head_induction with
  | @going m next going _ ih =>
    have first := comesTo_step nested m
    rw [going] at first
    obtain ⟨before, within⟩ := first
    obtain ⟨inside, atEnd, fits⟩ := ih
    refine ⟨fun _ => inside within, atEnd, ?_⟩
    intro fault faulted
    obtain ⟨consistent, beyond⟩ := fits fault faulted
    refine ⟨consistent, ?_⟩
    intro n missing
    exact absurd (beyond n missing) (Nat.not_lt.mpr within)
  | @halted m _ halted same =>
    have first := comesTo_step nested m
    rw [halted] at first
    obtain ⟨finished, rfl⟩ := first
    rw [same]
    exact ⟨id, fun _ => finished, nofun⟩
  | @faulted m _ fault faulted same =>
    have first := comesTo_step nested m
    rw [faulted] at first
    obtain ⟨stays, fits⟩ := first
    rw [same]
    refine ⟨fun inside => stays ▸ inside, nofun, ?_⟩
    rintro other ⟨⟩
    exact fits

end Machine
end Brainfuck
