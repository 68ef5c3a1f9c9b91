import Brainfuck.Machine.Step
import Brainfuck.Proofs.Assembling

/-!
# Jumps in compiled code

In nested code a scan passes over a nested part without noticing it, so it stops at the same bracket
that the distance leads to. Main statement: the jump strategy makes no difference to a step of
compiled code, nor to a run, even when it changes from step to step (`strategies_agree`).
-/
namespace Brainfuck

open Instruction

namespace Code

variable {code : Code} {index : Nat} {i : Instruction}

theorem closingFrom?_eq (code : Code) (depth index : Nat) :
    code.closingFrom? depth index =
      match code.get? index with
      | none => none
      | some i =>
        if i.isA .eof then none
        else if i.isA .jumpForward then code.closingFrom? (depth + 1) (index + 1)
        else if i.isA .jumpBackward then
          match depth with
          | 0 => some index
          | depth + 1 => code.closingFrom? depth (index + 1)
        else code.closingFrom? depth (index + 1) := by
  rw [closingFrom?.eq_def code depth index]
  split
  · next missing => exact missing ▸ rfl
  · next i here => exact here ▸ rfl

theorem closingFrom?_opening (here : code.get? index = some i)
    (opens : i.opcode? = some .jumpForward) (depth : Nat) :
    code.closingFrom? depth index = code.closingFrom? (depth + 1) (index + 1) := by
  rw [closingFrom?_eq, here]
  simp [isA, Opcode.ofCode?_eq_some_iff.mp opens, Opcode.code]

theorem closingFrom?_closing (here : code.get? index = some i)
    (closes : i.opcode? = some .jumpBackward) (depth : Nat) :
    code.closingFrom? depth index =
      match depth with
      | 0 => some index
      | depth + 1 => code.closingFrom? depth (index + 1) := by
  rw [closingFrom?_eq, here]
  simp only [isA, Opcode.ofCode?_eq_some_iff.mp closes]
  cases depth <;> rfl

theorem closingFrom?_act (here : code.get? index = some i) (act : i.IsAct) (depth : Nat) :
    code.closingFrom? depth index = code.closingFrom? depth (index + 1) := by
  rw [closingFrom?_eq, here]
  simp [act.not_isA .eof rfl rfl, act.not_isA .jumpForward rfl rfl,
    act.not_isA .jumpBackward rfl rfl]

theorem openingBefore?_opening (here : code.get? index = some i)
    (opens : i.opcode? = some .jumpForward) (depth : Nat) :
    code.openingBefore? depth (index + 1) =
      match depth with
      | 0 => some index
      | depth + 1 => code.openingBefore? depth index := by
  rw [openingBefore?.eq_def code depth (index + 1)]
  simp only [here, isA, Opcode.ofCode?_eq_some_iff.mp opens]
  cases depth <;> rfl

theorem openingBefore?_closing (here : code.get? index = some i)
    (closes : i.opcode? = some .jumpBackward) (depth : Nat) :
    code.openingBefore? depth (index + 1) = code.openingBefore? (depth + 1) index := by
  rw [openingBefore?.eq_def code depth (index + 1)]
  simp [here, isA, Opcode.ofCode?_eq_some_iff.mp closes, Opcode.code]

theorem openingBefore?_act (here : code.get? index = some i) (act : i.IsAct) (depth : Nat) :
    code.openingBefore? depth (index + 1) = code.openingBefore? depth index := by
  rw [openingBefore?.eq_def code depth (index + 1)]
  simp [here, act.not_isA .jumpForward rfl rfl, act.not_isA .jumpBackward rfl rfl]

/-- A forward scan passes over nested code. -/
theorem closingFrom?_nested {is : List Instruction} (nested : Nested is) {k : Nat}
    (held : code.Holds k is) (depth : Nat) :
    code.closingFrom? depth k = code.closingFrom? depth (k + is.length) := by
  induction nested generalizing k depth with
  | nil => rfl
  | @act i rest here _ ih =>
    rw [closingFrom?_act held.1 here, ih held.2, List.length_cons]
    congr 1
    omega
  | @loop body rest fits _ _ ihBody ihRest =>
    obtain ⟨opens, heldTail⟩ := held
    obtain ⟨heldBody, closes, heldRest⟩ := holds_append.mp heldTail
    rw [closingFrom?_opening opens (opcode?_make ..), ihBody heldBody,
      closingFrom?_closing closes (opcode?_make ..)]
    dsimp only
    rw [ihRest heldRest, List.length_cons, List.length_append, List.length_cons]
    congr 1
    omega

/-- A backward scan passes over nested code. -/
theorem openingBefore?_nested {is : List Instruction} (nested : Nested is) {k : Nat}
    (held : code.Holds k is) (depth : Nat) :
    code.openingBefore? depth (k + is.length) = code.openingBefore? depth k := by
  induction nested generalizing k depth with
  | nil => rfl
  | @act i rest here _ ih =>
    have last : k + (i :: rest).length = k + 1 + rest.length := by
      rw [List.length_cons]
      omega
    rw [last, ih held.2, openingBefore?_act held.1 here]
  | @loop body rest fits _ _ ihBody ihRest =>
    obtain ⟨opens, heldTail⟩ := held
    obtain ⟨heldBody, closes, heldRest⟩ := holds_append.mp heldTail
    have last : k + (make .jumpForward (body.length + 1) fits ::
        (body ++ make .jumpBackward (body.length + 1) fits :: rest)).length =
        k + 1 + body.length + 1 + rest.length := by
      rw [List.length_cons, List.length_append, List.length_cons]
      omega
    rw [last, ihRest heldRest, openingBefore?_closing closes (opcode?_make ..), ihBody heldBody,
      openingBefore?_opening opens (opcode?_make ..)]

theorem hasPartner_of_get? {op : Opcode} {distance : Nat} {fits : distance ≤ maxOperand}
    (here : code.get? index = some (make op distance fits)) :
    code.hasPartner index op distance = true := by
  simp [hasPartner, here]

/-- Either strategy takes the opening bracket of a pair just past the closing one. -/
theorem Paired.forwardTarget {start distance : Nat} (pair : code.Paired start distance)
    (strategy : JumpStrategy) :
    code.forwardTarget strategy start distance = .ok (start + distance + 1) := by
  obtain ⟨_, closes⟩ := pair.closes
  cases strategy with
  | distance =>
    rw [Code.forwardTarget, hasPartner_of_get? closes]
    rfl
  | scan =>
    obtain ⟨body, nested, span, held⟩ := pair.inner
    have last : start + 1 + body.length = start + distance := by omega
    have found : code.closingFrom? 0 (start + 1) = some (start + distance) := by
      rw [closingFrom?_nested nested held, last, closingFrom?_closing closes (opcode?_make ..)]
    rw [Code.forwardTarget, found]

/-- Either strategy takes the closing bracket of a pair to the opening one. -/
theorem Paired.backwardTarget {start distance : Nat} (pair : code.Paired start distance)
    (strategy : JumpStrategy) :
    code.backwardTarget strategy (start + distance) distance = .ok start := by
  obtain ⟨_, opens⟩ := pair.opens
  cases strategy with
  | distance =>
    rw [Code.backwardTarget, Nat.add_sub_cancel, hasPartner_of_get? opens]
    simp
  | scan =>
    obtain ⟨body, nested, span, held⟩ := pair.inner
    have last : start + distance = start + 1 + body.length := by omega
    have found : code.openingBefore? 0 (start + distance) = some start := by
      rw [last, openingBefore?_nested nested held, openingBefore?_opening opens (opcode?_make ..)]
    rw [Code.backwardTarget, found]

end Code

theorem perform_eq_of_not_isJump {code : Code} {strategy other : JumpStrategy} {ip operand : Nat}
    {op : Opcode} {store : Store} (straight : op.isJump = false) :
    perform code strategy ip op operand store = perform code other ip op operand store := by
  cases op with
  | jumpForward => cases straight
  | jumpBackward => cases straight
  | _ => rfl

/-- In nested code what an instruction does is the same for every strategy. -/
theorem perform_eq_of_nested {code : Code} (nested : Nested code.body.toList) {ip : Nat}
    {i : Instruction} {op : Opcode} (here : code.get? ip = some i) (assigned : i.opcode? = some op)
    (strategy other : JumpStrategy) (store : Store) :
    perform code strategy ip op i.operand store = perform code other ip op i.operand store := by
  rcases nested.role_of_get? here with ⟨_, rfl⟩ | ⟨_, role⟩
  · obtain rfl : Opcode.eof = op := Option.some.inj assigned
    rfl
  · cases role with
    | act act => exact perform_eq_of_not_isJump (act.not_isJump assigned)
    | opening fits pair =>
      obtain rfl := Option.some.inj ((opcode?_make ..).symm.trans assigned)
      simp only [perform, operand_make, pair.forwardTarget]
    | closing fits position pair =>
      subst position
      obtain rfl := Option.some.inj ((opcode?_make ..).symm.trans assigned)
      simp only [perform, operand_make, pair.backwardTarget]

namespace Machine

def withStrategy (strategy : JumpStrategy) : Machine → Machine
  | ⟨ip, steps, _, limit, store⟩ => ⟨ip, steps, strategy, limit, store⟩

/-- A run in which the strategy for each step is prescribed. -/
def runAlong (code : Code) : (schedule : Nat → JumpStrategy) → Nat → Machine →
    Option (Except Fault Unit × Machine)
  | _, 0, _ => none
  | schedule, bound + 1, m =>
    match (m.withStrategy (schedule 0)).step code with
    | (.ok .going, m) => runAlong code (fun n => schedule (n + 1)) bound m
    | (.ok .halted, m) => some (.ok (), m)
    | (.error fault, m) => some (.error fault, m)

/-- A step of nested code does not depend on the strategy. -/
theorem step_withStrategy {code : Code} (nested : Nested code.body.toList)
    (strategy other : JumpStrategy) (m : Machine) :
    (m.withStrategy strategy).step code =
      (((m.withStrategy other).step code).1,
        ((m.withStrategy other).step code).2.withStrategy strategy) := by
  obtain ⟨ip, steps, current, limit, store⟩ := m
  simp only [withStrategy, step]
  cases here : code.get? ip with
  | none => rfl
  | some i =>
    cases assigned : i.opcode? with
    | none => simp only [assigned]
    | some op =>
      simp only [assigned]
      cases op with
      | eof => rfl
      | _ =>
        cases limitReached? limit steps with
        | some reached => rfl
        | none =>
          simp only [perform_eq_of_nested nested here assigned strategy other]
          split
          · rfl
          · rfl

/-- A run whose strategy changes from step to step ends as a run with one strategy does. -/
theorem runAlong_eq_run {code : Code} (nested : Nested code.body.toList)
    (schedule : Nat → JumpStrategy) (strategy : JumpStrategy) (bound : Nat) (m : Machine) :
    (m.runAlong code schedule bound).map (fun r => (r.1, r.2.withStrategy strategy)) =
      (m.withStrategy strategy).run code bound := by
  induction bound generalizing schedule m with
  | zero => rfl
  | succ bound ih =>
    rw [runAlong, run, step_withStrategy nested strategy (schedule 0)]
    obtain ⟨result, next⟩ := (m.withStrategy (schedule 0)).step code
    match result with
    | .ok .going => exact ih (fun n => schedule (n + 1)) next
    | .ok .halted => rfl
    | .error fault => rfl

end Machine

/-- Compiled code runs the same whichever way jumps find their partner: every step from every
machine has the same result and leaves the same machine but for the strategy itself, and a run in
which the strategy changes at will ends as a run with a fixed one. -/
theorem strategies_agree {flags : Flags} {source : String} {code : Code}
    (compiled : compile flags source = .ok code) :
    (∀ m : Machine,
      ((m.withStrategy .scan).step code).1 = ((m.withStrategy .distance).step code).1 ∧
      ((m.withStrategy .scan).step code).2 =
        ((m.withStrategy .distance).step code).2.withStrategy .scan) ∧
    ∀ (schedule : Nat → JumpStrategy) (strategy : JumpStrategy) (bound : Nat) (m : Machine),
      (m.runAlong code schedule bound).map (fun r => (r.1, r.2.withStrategy strategy)) =
        (m.withStrategy strategy).run code bound := by
  have nested := (renders_of_compile compiled).nested
  constructor
  · intro m
    rw [Machine.step_withStrategy nested .scan .distance m]
    exact ⟨rfl, rfl⟩
  · exact Machine.runAlong_eq_run nested

theorem strategies_agree_in_nested_loops :
    ∃ code, compile .all "+[-[-]]" = .ok code ∧ ∀ m : Machine,
      ((m.withStrategy .scan).step code).1 = ((m.withStrategy .distance).step code).1 := by
  have compiled : compile .all "+[-[-]]" = .ok _ := rfl
  exact ⟨_, compiled, fun m => ((strategies_agree compiled).1 m).1⟩

end Brainfuck
