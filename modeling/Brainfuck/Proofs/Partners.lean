import Brainfuck.Proofs.Execution
import Brainfuck.Proofs.Level

/-!
# Brackets that lead to each other

By distance, two brackets are partners if both hold the distance between them; by scanning, if they
enclose what lies between (`Code.Partners`). The jump from either bracket looks for a partner in
this one sense, also in code whose brackets do not match (`Code.forwardTarget_eq_ok_iff`,
`Code.backwardTarget_eq_ok_iff`). Only a scan from the left stops where the program ends, and may so
miss the partner that a scan from the right finds. Main statement: a jump that is taken leads to a
bracket whose jump leads back (`jumps_lead_back`).
-/
namespace Brainfuck

open Instruction

namespace Code

/-- Whether the brackets at two indices belong together, as a strategy sees it. -/
def Partners (code : Code) : JumpStrategy → Nat → Nat → Prop
  | .distance, start, finish => ∃ i j, code.get? start = some i ∧ i.isA .jumpForward = true ∧
      code.get? finish = some j ∧ j.isA .jumpBackward = true ∧ i.operand = j.operand ∧
      finish = start + i.operand
  | .scan, start, finish => code.Encloses start finish

/-- Whether an end between two brackets hides the second from the first. It does from a scan. -/
def Hidden (code : Code) : JumpStrategy → Nat → Nat → Prop
  | .distance, _, _ => False
  | .scan, start, finish => code.EndsBetween start finish

variable {code : Code} {strategy : JumpStrategy} {start finish target : Nat} {i : Instruction}

theorem hidden_iff : code.Hidden strategy start finish ↔
    strategy = .scan ∧ code.EndsBetween start finish := by
  cases strategy with
  | distance => exact ⟨False.elim, fun hidden => nomatch hidden.1⟩
  | scan => exact ⟨fun ends => ⟨rfl, ends⟩, fun hidden => hidden.2⟩

theorem Partners.opens (partners : code.Partners strategy start finish) :
    code.HasAt start .jumpForward := by
  cases strategy with
  | distance =>
    obtain ⟨i, _, here, opens, _⟩ := partners
    exact ⟨i, here, opens⟩
  | scan => exact Encloses.opens partners

theorem Partners.closes (partners : code.Partners strategy start finish) :
    code.HasAt finish .jumpBackward := by
  cases strategy with
  | distance =>
    obtain ⟨_, j, _, _, there, closes, _⟩ := partners
    exact ⟨j, there, closes⟩
  | scan => exact Encloses.closes partners

theorem hasPartner_iff {index distance : Nat} {op : Opcode} :
    code.hasPartner index op distance = true ↔
      ∃ i, code.get? index = some i ∧ i.isA op = true ∧ i.operand = distance := by
  rw [hasPartner, Option.any_eq_true]
  simp only [Bool.and_eq_true, beq_iff_eq]

/-- An opening bracket leads just past its partner, unless that is hidden. -/
theorem forwardTarget_eq_ok_iff (here : code.get? start = some i)
    (opens : i.isA .jumpForward = true) :
    code.forwardTarget strategy start i.operand = .ok target ↔
      ∃ finish, target = finish + 1 ∧ code.Partners strategy start finish ∧
        ¬ code.Hidden strategy start finish := by
  cases strategy with
  | distance =>
    simp only [forwardTarget, Hidden, not_false_eq_true, and_true]
    constructor
    · intro led
      split at led
      · next partner =>
        cases led
        obtain ⟨j, there, closes, same⟩ := hasPartner_iff.mp partner
        exact ⟨_, rfl, i, j, here, opens, there, closes, same.symm, rfl⟩
      · cases led
    · rintro ⟨finish, rfl, i', j, here', _, there, closes, same, rfl⟩
      cases here.symm.trans here'
      rw [if_pos (hasPartner_iff.mpr ⟨j, there, closes, same.symm⟩)]
  | scan =>
    have scans (finish : Nat) : code.closingFrom? 0 (start + 1) = some finish ↔
        code.Encloses start finish ∧ ¬ code.EndsBetween start finish :=
      closingFrom?_opening_iff ⟨i, here, opens⟩
    simp only [forwardTarget, Partners, Hidden]
    constructor
    · intro led
      split at led
      · next finish found =>
        cases led
        exact ⟨finish, rfl, (scans finish).mp found⟩
      · cases led
    · rintro ⟨finish, rfl, found⟩
      rw [(scans finish).mpr found]

/-- A closing bracket leads to its partner. -/
theorem backwardTarget_eq_ok_iff (here : code.get? finish = some i)
    (closes : i.isA .jumpBackward = true) :
    code.backwardTarget strategy finish i.operand = .ok start ↔
      code.Partners strategy start finish := by
  cases strategy with
  | distance =>
    simp only [backwardTarget, Partners, Bool.and_eq_true, decide_eq_true_iff]
    constructor
    · intro led
      split at led
      · next partner =>
        cases led
        obtain ⟨j, there, opens, same⟩ := hasPartner_iff.mp partner.2
        exact ⟨j, i, there, opens, here, closes, same, by omega⟩
      · cases led
    · rintro ⟨j, i', there, opens, here', _, same, rfl⟩
      cases here.symm.trans here'
      have back : start + j.operand - i.operand = start := by omega
      rw [back, if_pos ⟨by omega, hasPartner_iff.mpr ⟨j, there, opens, same⟩⟩]
  | scan =>
    have scans (start : Nat) : code.openingBefore? 0 finish = some start ↔
        code.Encloses start finish := openingBefore?_closing_iff ⟨i, here, closes⟩
    simp only [backwardTarget, Partners]
    constructor
    · intro led
      split at led
      · next found =>
        cases led
        exact (scans _).mp found
      · cases led
    · intro partners
      rw [(scans start).mpr partners]

/-- Where the partner of an opening bracket is hidden, there is none for it. -/
theorem forwardTarget_of_hidden (partners : code.Partners strategy start finish)
    (hidden : code.Hidden strategy start finish) (distance : Nat) :
    code.forwardTarget strategy start distance = .error .unbalancedJump := by
  cases strategy with
  | distance => cases hidden
  | scan =>
    rw [forwardTarget]
    split
    · next other found =>
      obtain ⟨encloses, endless⟩ := (closingFrom?_opening_iff partners.opens).mp found
      rw [Encloses.finish_unique partners encloses] at hidden
      exact absurd hidden endless
    · rfl

end Code

namespace Machine

/-- Whether the next step takes a jump: the machine stands at a bracket, the opening one at a zero
cell and the closing one at another, and the step is allowed. -/
structure Takes (code : Code) (op : Opcode) (m : Machine) : Prop where
  stands : code.HasAt m.ip op
  wants : m.store.isZero = decide (op = .jumpForward)
  allowed : limitReached? m.limit m.steps = none

/-- What comes of a step that jumps: it goes on at the target, or it faults where it stands. -/
def afterJump (m : Machine) : Except FaultKind Nat → Except Fault Step × Machine
  | .ok target => (.ok .going, ⟨target, m.steps + 1, m.strategy, m.limit, m.store⟩)
  | .error kind => (.error ⟨kind, m.ip⟩, ⟨m.ip, m.steps + 1, m.strategy, m.limit, m.store⟩)

variable {code : Code} {m next : Machine} {op : Opcode} {i : Instruction} {target : Nat}

theorem step_eq_afterJump (takes : m.Takes code op) (here : code.get? m.ip = some i)
    (jumps : op.isJump = true) {outcome : Except FaultKind Nat}
    (performs : perform code m.strategy m.ip op i.operand m.store = (outcome, m.store)) :
    m.step code = m.afterJump outcome := by
  obtain ⟨⟨j, same, isOp⟩, _, allowed⟩ := takes
  cases here.symm.trans same
  have notEnd : op ≠ .eof := by
    rintro rfl
    cases jumps
  have stepped : m.step code = _ := step_eq_perform here (isA_iff.mp isOp) notEnd m.limit
  rw [stepped, allowed, performs]
  cases outcome <;> rfl

theorem Takes.step_forward (takes : m.Takes code .jumpForward) (here : code.get? m.ip = some i) :
    m.step code = m.afterJump (code.forwardTarget m.strategy m.ip i.operand) := by
  refine step_eq_afterJump takes here rfl ?_
  rw [perform, takes.wants]
  rfl

theorem Takes.step_backward (takes : m.Takes code .jumpBackward)
    (here : code.get? m.ip = some i) :
    m.step code = m.afterJump (code.backwardTarget m.strategy m.ip i.operand) := by
  refine step_eq_afterJump takes here rfl ?_
  rw [perform, takes.wants]
  rfl

theorem exists_of_afterJump {outcome : Except FaultKind Nat}
    (going : m.afterJump outcome = (.ok .going, next)) : outcome = .ok next.ip := by
  cases outcome with
  | ok target =>
    cases going
    rfl
  | error kind => cases going

theorem Takes.eq_afterJump (takes : m.Takes code op) (jumps : op.isJump = true)
    (going : m.step code = (.ok .going, next)) : m.step code = m.afterJump (.ok next.ip) := by
  obtain ⟨i, here, _⟩ := takes.stands
  cases op with
  | jumpForward =>
    rw [takes.step_forward here] at going ⊢
    rw [exists_of_afterJump going]
  | jumpBackward =>
    rw [takes.step_backward here] at going ⊢
    rw [exists_of_afterJump going]
  | _ => cases jumps

/-- An opening bracket that jumps does so past a partner that is not hidden. -/
theorem Takes.forward_iff (takes : m.Takes code .jumpForward) :
    m.step code = m.afterJump (.ok target) ↔ ∃ finish, target = finish + 1 ∧
      code.Partners m.strategy m.ip finish ∧ ¬ code.Hidden m.strategy m.ip finish := by
  obtain ⟨i, here, opens⟩ := takes.stands
  rw [takes.step_forward here, ← Code.forwardTarget_eq_ok_iff here opens]
  constructor
  · exact exists_of_afterJump
  · intro led
    rw [led]

/-- A closing bracket that jumps does so to a partner. -/
theorem Takes.backward_iff (takes : m.Takes code .jumpBackward) :
    m.step code = m.afterJump (.ok target) ↔ code.Partners m.strategy target m.ip := by
  obtain ⟨i, here, closes⟩ := takes.stands
  rw [takes.step_backward here, ← Code.backwardTarget_eq_ok_iff here closes]
  constructor
  · exact exists_of_afterJump
  · intro led
    rw [led]

end Machine

/-- In any code, a jump that is taken leads to a bracket whose jump leads back, with the same
strategy. From an opening bracket it leads just past a closing one, whose jump leads to the opening
one. From a closing bracket it leads to an opening one, whose jump leads just past the closing one,
except that a scan finds none if the program ends between the two. -/
theorem jumps_lead_back (code : Code) :
    (∀ m next : Machine, m.Takes code .jumpForward → m.step code = (.ok .going, next) →
      ∃ finish, next.ip = finish + 1 ∧ code.HasAt finish .jumpBackward ∧
        ∀ m' : Machine, m'.Takes code .jumpBackward → m'.ip = finish → m'.strategy = m.strategy →
          m'.step code = m'.afterJump (.ok m.ip)) ∧
    (∀ m next : Machine, m.Takes code .jumpBackward → m.step code = (.ok .going, next) →
      code.HasAt next.ip .jumpForward ∧
        ∀ m' : Machine, m'.Takes code .jumpForward → m'.ip = next.ip →
          m'.strategy = m.strategy →
          (m.strategy = .scan ∧ code.EndsBetween next.ip m.ip →
            m'.step code = m'.afterJump (.error .unbalancedJump)) ∧
          (¬ (m.strategy = .scan ∧ code.EndsBetween next.ip m.ip) →
            m'.step code = m'.afterJump (.ok (m.ip + 1)))) := by
  constructor
  · intro m next takes going
    obtain ⟨finish, past, partners, _⟩ := takes.forward_iff.mp (takes.eq_afterJump rfl going)
    refine ⟨finish, past, partners.closes, ?_⟩
    rintro m' takes' rfl same
    apply takes'.backward_iff.mpr
    rw [same]
    exact partners
  · intro m next takes going
    have partners := takes.backward_iff.mp (takes.eq_afterJump rfl going)
    refine ⟨partners.opens, ?_⟩
    intro m' takes' there same
    rw [← there, ← same] at partners ⊢
    constructor
    · rintro ⟨scans, ends⟩
      obtain ⟨i, here, _⟩ := takes'.stands
      rw [takes'.step_forward here]
      rw [Code.forwardTarget_of_hidden partners (Code.hidden_iff.mpr ⟨scans, ends⟩)]
    · intro seen
      refine takes'.forward_iff.mpr ⟨m.ip, rfl, partners, ?_⟩
      exact fun hidden => seen (Code.hidden_iff.mp hidden)

/-- A pair of brackets with an end between them: the scan from the left misses what the scan from
the right finds, and by distance there is no difference. -/
theorem jumps_lead_back_over_end :
    let code := Code.ofWords [0x104, 0x209, 0x000, 0x20a]
    let back (strategy : JumpStrategy) : Machine :=
      ⟨3, 0, strategy, none, ⟨(Tape.blank 1).put 1, ⟨[]⟩, .scripted [] []⟩⟩
    let forth (strategy : JumpStrategy) : Machine :=
      ⟨1, 0, strategy, none, ⟨.blank 1, ⟨[]⟩, .scripted [] []⟩⟩
    (∀ strategy, (back strategy).step code = (back strategy).afterJump (.ok 1)) ∧
      (forth .scan).step code = (forth .scan).afterJump (.error .unbalancedJump) ∧
      (forth .distance).step code = (forth .distance).afterJump (.ok 4) := by
  intro code back forth
  have takes : ∀ strategy, (back strategy).Takes code .jumpBackward :=
    fun strategy => ⟨⟨_, rfl, rfl⟩, rfl, rfl⟩
  have takes' : ∀ strategy, (forth strategy).Takes code .jumpForward :=
    fun strategy => ⟨⟨_, rfl, rfl⟩, rfl, rfl⟩
  have going : ∀ strategy, (back strategy).step code = (back strategy).afterJump (.ok 1) := by
    intro strategy
    cases strategy <;> rfl
  obtain ⟨_, returns⟩ := (jumps_lead_back code).2 _ _ (takes .scan) (going .scan)
  obtain ⟨_, returns'⟩ := (jumps_lead_back code).2 _ _ (takes .distance) (going .distance)
  refine ⟨going, ?_, ?_⟩
  · exact (returns _ (takes' .scan) rfl rfl).1 ⟨rfl, 2, by decide, by decide, _, rfl, rfl⟩
  · exact (returns' _ (takes' .distance) rfl rfl).2 (by rintro ⟨⟨⟩, _⟩)

end Brainfuck
