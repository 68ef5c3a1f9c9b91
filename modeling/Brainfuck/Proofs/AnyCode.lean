import Brainfuck.Proofs.Inside
import Brainfuck.Proofs.Partners

/-!
# Where any code takes the machine

Code need not come from a source. Its words may be any: operations that are none, distances that
lead nowhere, an end in the middle. A jump is only taken to an index where the other bracket has
been found, and nothing but an end is the last instruction, so a machine that stands in the code
stays in it (`Machine.step_stays`). The same is true of the places that its scans look at
(`Machine.Looks.lt_size`). Main statement: whatever the words are, and however the settings change
between the steps, the instruction pointer and every index looked at are in the code
(`stays_inside`).
-/
namespace Brainfuck

open Instruction

/-- An instruction that is no end leads to an index of the code. -/
theorem Code.lt_size_of_perform {code : Code} {index next : Nat} {i : Instruction} {op : Opcode}
    (here : code.get? index = some i) (assigned : i.opcode? = some op) (notEnd : op ≠ .eof)
    {strategy : JumpStrategy} {store after : Store}
    (leads : perform code strategy index op i.operand store = (.ok next, after)) :
    next < code.size := by
  have does : i.isA op = true := isA_iff.mpr assigned
  have following : index + 1 < code.size := succ_lt_size here (isA_eq_false does notEnd)
  by_cases jumps : op.isJump = true
  · cases op with
    | jumpForward =>
      rw [perform] at leads
      split at leads
      · obtain ⟨finish, rfl, partners, _⟩ :=
          (forwardTarget_eq_ok_iff here does).mp (congrArg Prod.fst leads)
        obtain ⟨j, there, closes⟩ := partners.closes
        exact succ_lt_size there (isA_eq_false closes Opcode.noConfusion)
      · cases leads
        exact following
    | jumpBackward =>
      rw [perform] at leads
      split at leads
      · cases leads
        exact following
      · have partners := (backwardTarget_eq_ok_iff here does).mp (congrArg Prod.fst leads)
        exact partners.opens.lt_size
    | _ => cases jumps
  · have landed : Landed (· < code.size) (perform code strategy index op i.operand store).1 := by
      apply landed_of_not_isJump (Bool.eq_false_iff.mpr jumps)
      exact following
    rwa [leads] at landed

namespace Machine

variable {code : Code} {m : Machine} {k : Nat}

/-- Whether a step looks at an index: its own or, where a bracket is to be found by a scan, one that
the scan looks at. A scan to the left looks before its places. A jump by distance looks at one index
more, which may lie anywhere. -/
inductive Looks (code : Code) (m : Machine) : Nat → Prop
  | here : Looks code m m.ip
  | right {d : Cursor} {looked : List Cursor} {found? : Option Nat} :
      m.strategy = .scan → code.HasAt m.ip .jumpForward →
      Scans code.lookRight ⟨m.ip + 1, 0⟩ looked found? → d ∈ looked → Looks code m d.index
  | left {k : Nat} {depth : Int} {looked : List Cursor} {found? : Option Nat} :
      m.strategy = .scan → code.HasAt m.ip .jumpBackward →
      Scans code.lookLeft ⟨m.ip, 0⟩ looked found? → ⟨k + 1, depth⟩ ∈ looked → Looks code m k

theorem Looks.lt_size (inside : m.ip < code.size) (looks : m.Looks code k) : k < code.size := by
  cases looks with
  | here => exact inside
  | right _ opens scan member =>
    obtain ⟨i, here, does⟩ := opens
    obtain ⟨looked, scan', _, within⟩ := code.scans_right 0 (m.ip + 1)
    obtain ⟨rfl, rfl⟩ := scan.unique scan'
    exact (within _ member).2.1 (Code.succ_lt_size here (isA_eq_false does Opcode.noConfusion))
  | left _ _ scan member =>
    obtain ⟨looked, scan', _, within⟩ := code.scans_left 0 m.ip
    obtain ⟨rfl, rfl⟩ := scan.unique scan'
    exact Nat.lt_of_lt_of_le (within _ member).1 (Nat.le_of_lt inside)

/-- A step from an index of any code leads to one, and it finds its instruction. -/
theorem step_stays (inside : m.ip < code.size) :
    (m.step code).2.ip < code.size ∧
      ∀ size ip, (m.step code).1 ≠ .error ⟨.noInstruction size, ip⟩ := by
  rcases step_stops_or_performs code m with
    ⟨result, _, stops, stopped⟩ | ⟨i, op, here, assigned, notEnd, _, stepped⟩
  · rw [stopped]
    refine ⟨inside, ?_⟩
    rintro size ip rfl
    obtain ⟨_, _, missing⟩ := stops _ rfl
    have found := Code.get?_isSome_iff.mpr inside
    rw [missing size rfl] at found
    cases found
  · rw [stepped]
    rcases done : perform code m.strategy m.ip op i.operand m.store with ⟨kind | next, after⟩
    · refine ⟨inside, ?_⟩
      rintro size ip ⟨⟩
      cases (perform_spares done).counted
    · refine ⟨Code.lt_size_of_perform here assigned notEnd done, ?_⟩
      rintro size ip ⟨⟩

def adjusted (settings : JumpStrategy × Option Nat) : Machine → Machine
  | ⟨ip, steps, _, _, store⟩ => ⟨ip, steps, settings.1, settings.2, store⟩

/-- The machine after some steps, each done with settings of its own, also where steps fault. -/
def afterSteps (code : Code) (settings : Nat → JumpStrategy × Option Nat) (m : Machine) :
    Nat → Machine
  | 0 => m
  | n + 1 => (((m.afterSteps code settings n).adjusted (settings n)).step code).2

theorem afterSteps_stays (inside : m.ip < code.size) (settings : Nat → JumpStrategy × Option Nat)
    (n : Nat) : (m.afterSteps code settings n).ip < code.size := by
  induction n with
  | zero => exact inside
  | succ n ih => exact (step_stays (m := (m.afterSteps code settings n).adjusted (settings n)) ih).1

end Machine

/-- In any code, made of whatever words, a machine that stands at an index of the code does so after
any number of steps, even if jump strategy and step limit are changed before each of them. It is
never told that there is no instruction, and every index that a step or its scan looks at is one of
the code. Each scan has just one course, and it finds what the jumps find. -/
theorem stays_inside {words : List UInt32} {m : Machine}
    (inside : m.ip < (Code.ofWords words).size) (settings : Nat → JumpStrategy × Option Nat)
    (n : Nat) :
    let code := Code.ofWords words
    let current := (m.afterSteps code settings n).adjusted (settings n)
    current.ip < code.size ∧
      (∀ size ip, (current.step code).1 ≠ .error ⟨.noInstruction size, ip⟩) ∧
      (∀ k, current.Looks code k → k < code.size) ∧
      ∀ depth index : Nat,
        (∃ looked, ∀ course found?, Scans code.lookRight ⟨index, depth⟩ course found? ↔
          course = looked ∧ found? = code.closingFrom? depth index) ∧
        ∃ looked, ∀ course found?, Scans code.lookLeft ⟨index, depth⟩ course found? ↔
          course = looked ∧ found? = code.openingBefore? depth index := by
  intro code current
  have within : current.ip < code.size := Machine.afterSteps_stays inside settings n
  refine ⟨within, (Machine.step_stays within).2, fun _ => Machine.Looks.lt_size within, ?_⟩
  intro depth index
  obtain ⟨right, scanRight, _⟩ := code.scans_right depth index
  obtain ⟨left, scanLeft, _⟩ := code.scans_left depth index
  exact ⟨⟨_, fun _ _ => scanRight.iff⟩, ⟨_, fun _ _ => scanLeft.iff⟩⟩

theorem stays_inside_past_end_in_the_middle :
    let words : List UInt32 := [0x104, 0x009, 0x000, 0x10a]
    let m : Machine := ⟨3, 0, .distance, none, ⟨(Tape.blank 1).put 1, ⟨[]⟩, .scripted [] []⟩⟩
    let settings : Nat → JumpStrategy × Option Nat :=
      fun n => (if n = 0 then .scan else .distance, some 9)
    m.ip < (Code.ofWords words).size ∧ (m.afterSteps (Code.ofWords words) settings 1).ip = 1 ∧
      ∀ n, (m.afterSteps (Code.ofWords words) settings n).ip < (Code.ofWords words).size := by
  intro words m settings
  have inside : m.ip < (Code.ofWords words).size := by decide
  exact ⟨inside, by decide, fun n => (stays_inside inside settings n).1⟩

end Brainfuck
