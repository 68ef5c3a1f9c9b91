import Brainfuck.Proofs.Looks

/-!
# Levels of any code

The level of an index is how many more loops are opened than closed before it. In code that is not
compiled it may fall below zero. What lies above a level is enclosed by two brackets
(`Code.Encloses`), whether one comes from the left or from the right. Main statements: the scan for
a closing bracket finds the one that encloses what follows, unless the program ends before it
(`Code.closingFrom?_opening_iff`), and the scan for an opening bracket finds the one that encloses
what comes before (`Code.openingBefore?_closing_iff`).
-/
namespace Brainfuck

open Instruction

namespace Code

def EndsBetween (code : Code) (start finish : Nat) : Prop :=
  ∃ k, start < k ∧ k < finish ∧ code.HasAt k .eof

/-- Everything between two indices is on a higher level than what comes before and after. -/
structure Encloses (code : Code) (start finish : Nat) : Prop where
  lt : start < finish
  level : code.level (finish + 1) = code.level start
  inner : ∀ k, start < k → k ≤ finish → code.level start < code.level k

variable {code : Code} {start finish index depth : Nat} {i : Instruction}

theorem level_succ_of_opening (opens : code.HasAt index .jumpForward) :
    code.level (index + 1) = code.level index + 1 := by
  obtain ⟨i, here, does⟩ := opens
  rw [level_succ here, rise_of_opening does]

theorem level_succ_of_closing (closes : code.HasAt index .jumpBackward) :
    code.level (index + 1) = code.level index - 1 := by
  obtain ⟨i, here, does⟩ := closes
  rw [level_succ here, rise_of_closing does]
  rfl

/-- The level goes up at opening brackets only. -/
theorem opening_of_level_lt (up : code.level index < code.level (index + 1)) :
    code.HasAt index .jumpForward := by
  cases here : code.get? index with
  | none => simp [level, here] at up
  | some i =>
    rw [level_succ here] at up
    rcases i.rise_cases with ⟨opens, _⟩ | ⟨_, _, rises⟩ | ⟨_, _, rises⟩
    · exact ⟨i, here, opens⟩
    · omega
    · omega

/-- The level goes down at closing brackets only. -/
theorem closing_of_level_lt (down : code.level (index + 1) < code.level index) :
    code.HasAt index .jumpBackward := by
  cases here : code.get? index with
  | none => simp [level, here] at down
  | some i =>
    rw [level_succ here] at down
    rcases i.rise_cases with ⟨_, _, rises⟩ | ⟨_, closes, _⟩ | ⟨_, _, rises⟩
    · omega
    · exact ⟨i, here, closes⟩
    · omega

namespace Encloses

theorem opens (encloses : code.Encloses start finish) : code.HasAt start .jumpForward :=
  opening_of_level_lt (encloses.inner (start + 1) (Nat.lt_succ_self start) encloses.lt)

theorem closes (encloses : code.Encloses start finish) : code.HasAt finish .jumpBackward := by
  apply closing_of_level_lt
  rw [encloses.level]
  exact encloses.inner finish encloses.lt (Nat.le_refl finish)

/-- An index has one closing bracket at most. -/
theorem finish_unique {other : Nat} (one : code.Encloses start finish)
    (two : code.Encloses start other) : finish = other := by
  have levels := one.level
  have levels' := two.level
  rcases Nat.lt_trichotomy finish other with less | same | more
  · have above := two.inner (finish + 1) (Nat.lt_succ_of_lt one.lt) less
    omega
  · exact same
  · have above := one.inner (other + 1) (Nat.lt_succ_of_lt two.lt) more
    omega

end Encloses

/-! ### Scans from the left -/

/-- With some loops still open, the innermost that was open before them is closed: the level falls
below that of the index by one more than the open loops, for the first time, and the program does
not end before. -/
structure ClosesAt (code : Code) (depth index finish : Nat) : Prop where
  le : index ≤ finish
  level : code.level (finish + 1) + depth + 1 = code.level index
  inner : ∀ k, index ≤ k → k ≤ finish → code.level index ≤ code.level k + depth
  endless : ∀ k, index ≤ k → k < finish → ¬ code.HasAt k .eof

namespace ClosesAt

theorem closes (closed : code.ClosesAt depth index finish) : code.HasAt finish .jumpBackward := by
  have last := closed.inner finish closed.le (Nat.le_refl finish)
  have level := closed.level
  exact closing_of_level_lt (by omega)

theorem lt_size (closed : code.ClosesAt depth index finish) : finish < code.size :=
  closed.closes.lt_size

/-- Past an instruction that is no end, the open loops are more or less by what it adds. -/
theorem succ_iff (here : code.get? index = some i) (goesOn : i.isA .eof = false) {depth' : Nat}
    (open' : (depth' : Int) = depth + i.rise) :
    code.ClosesAt depth' (index + 1) finish ↔ code.ClosesAt depth index finish := by
  have next := level_succ here
  constructor
  · rintro ⟨le, level, inner, endless⟩
    refine ⟨by omega, by omega, ?_, ?_⟩
    · intro k low high
      rcases Nat.eq_or_lt_of_le low with rfl | past
      · omega
      · have above := inner k past high
        omega
    · intro k low high
      rcases Nat.eq_or_lt_of_le low with rfl | past
      · rintro ⟨j, same, ends⟩
        cases here.symm.trans same
        exact Bool.noConfusion (goesOn.symm.trans ends)
      · exact endless k past high
  · rintro ⟨le, level, inner, endless⟩
    have further : index ≠ finish := by
      rintro rfl
      omega
    refine ⟨by omega, by omega, ?_, ?_⟩
    · intro k low high
      have above := inner k (by omega) high
      omega
    · intro k low high
      exact endless k (by omega) high

/-- Where no loop is open, a closing bracket is the first. -/
theorem zero_iff (here : code.HasAt index .jumpBackward) :
    code.ClosesAt 0 index finish ↔ index = finish := by
  have next := level_succ_of_closing here
  constructor
  · intro closed
    rcases Nat.eq_or_lt_of_le closed.le with same | before
    · exact same
    · have above := closed.inner (index + 1) (Nat.le_succ index) before
      omega
  · rintro rfl
    refine ⟨Nat.le_refl index, by omega, ?_, ?_⟩
    · intro k low high
      have same : k = index := Nat.le_antisymm high low
      subst same
      omega
    · intro k low high
      omega

/-- Nothing is closed behind an end. -/
theorem not_of_stops (stops : code.get? index = none ∨ code.HasAt index .eof) :
    ¬ code.ClosesAt depth index finish := by
  intro closed
  rcases stops with outside | ends
  · have inside := get?_isSome_iff.mpr (Nat.lt_of_le_of_lt closed.le closed.lt_size)
    rw [outside] at inside
    cases inside
  · rcases Nat.eq_or_lt_of_le closed.le with rfl | before
    · exact Opcode.noConfusion (ends.unique closed.closes)
    · exact closed.endless index (Nat.le_refl index) before ends

end ClosesAt

theorem closingFrom?_eq_some_iff (code : Code) (depth index finish : Nat) :
    code.closingFrom? depth index = some finish ↔ code.ClosesAt depth index finish := by
  -- On what is left of the code: where the scan goes on, the open loops follow the level.
  rcases code.lookRight_cases depth index with
    ⟨i, here, goesOn, depth', open', _, same⟩ | ⟨_, ⟨missed, stops⟩ | ⟨found, rfl, closes⟩⟩
  · have inside := lt_size_of_get? here
    rw [same, code.closingFrom?_eq_some_iff depth' (index + 1) finish,
      ClosesAt.succ_iff here goesOn open']
  · rw [missed]
    constructor
    · exact nofun
    · exact fun closed => absurd closed (ClosesAt.not_of_stops stops)
  · rw [found, ClosesAt.zero_iff closes, Option.some.injEq]
termination_by code.size - index

/-- From an opening bracket, a scan finds the closing bracket that encloses what lies between, if
the program does not end in between. -/
theorem closingFrom?_opening_iff (opens : code.HasAt start .jumpForward) :
    code.closingFrom? 0 (start + 1) = some finish ↔
      code.Encloses start finish ∧ ¬ code.EndsBetween start finish := by
  have next := level_succ_of_opening opens
  rw [closingFrom?_eq_some_iff]
  constructor
  · rintro ⟨le, level, inner, endless⟩
    refine ⟨⟨le, by omega, ?_⟩, ?_⟩
    · intro k low high
      have above := inner k low high
      omega
    · rintro ⟨k, low, high, ends⟩
      exact endless k low high ends
  · rintro ⟨⟨lt, level, inner⟩, endless⟩
    refine ⟨lt, by omega, ?_, ?_⟩
    · intro k low high
      have above := inner k low high
      omega
    · intro k low high ends
      exact endless ⟨k, low, high, ends⟩

/-! ### Scans from the right -/

/-- With some loops still to be opened, the innermost around them is opened: the level before it is
lower than that of the index by one more than those loops, for the first time from the right. -/
structure OpensAt (code : Code) (depth index start : Nat) : Prop where
  lt : start < index
  level : code.level start + depth + 1 = code.level index
  inner : ∀ k, start < k → k ≤ index → code.level index ≤ code.level k + depth

namespace OpensAt

/-- Before an instruction, the loops to be opened are fewer or more by what it adds. -/
theorem succ_iff (here : code.get? index = some i) {depth' : Nat}
    (open' : (depth' : Int) + i.rise = depth) :
    code.OpensAt depth' index start ↔ code.OpensAt depth (index + 1) start := by
  have next := level_succ here
  constructor
  · rintro ⟨lt, level, inner⟩
    refine ⟨by omega, by omega, ?_⟩
    intro k low high
    rcases Nat.eq_or_lt_of_le high with rfl | before
    · omega
    · have above := inner k low (by omega)
      omega
  · rintro ⟨lt, level, inner⟩
    have earlier : start ≠ index := by
      rintro rfl
      omega
    refine ⟨by omega, by omega, ?_⟩
    intro k low high
    have above := inner k low (by omega)
    omega

/-- Where no loop is to be opened, an opening bracket is the first. -/
theorem zero_iff (here : code.HasAt index .jumpForward) :
    code.OpensAt 0 (index + 1) start ↔ index = start := by
  have next := level_succ_of_opening here
  constructor
  · intro opened
    rcases Nat.eq_or_lt_of_le (Nat.le_of_lt_succ opened.lt) with same | before
    · exact same.symm
    · have above := opened.inner index before (Nat.le_succ index)
      omega
  · rintro rfl
    refine ⟨Nat.lt_succ_self index, by omega, ?_⟩
    intro k low high
    have last : k = index + 1 := Nat.le_antisymm high low
    subst last
    omega

end OpensAt

theorem openingBefore?_eq_some_iff (inside : index ≤ code.size) (depth start : Nat) :
    code.openingBefore? depth index = some start ↔ code.OpensAt depth index start := by
  induction index generalizing depth with
  | zero =>
    constructor
    · exact nofun
    · rintro ⟨lt, _, _⟩
      cases lt
  | succ index ih =>
    rcases code.lookLeft_cases depth (index + 1) with
      ⟨_, i, ⟨⟩, here, depth', open', _, same⟩ | ⟨_, ⟨_, missing⟩ | ⟨_, ⟨⟩, found, rfl, opens⟩⟩
    · rw [same, ih (Nat.le_of_lt inside), OpensAt.succ_iff here open']
    · have there := get?_isSome_iff.mpr inside
      rw [missing index rfl] at there
      cases there
    · rw [found, OpensAt.zero_iff opens, Option.some.injEq]

/-- From a closing bracket, a scan finds the opening bracket that encloses what lies between. -/
theorem openingBefore?_closing_iff (closes : code.HasAt finish .jumpBackward) :
    code.openingBefore? 0 finish = some start ↔ code.Encloses start finish := by
  have next := level_succ_of_closing closes
  obtain ⟨i, here, _⟩ := closes
  rw [openingBefore?_eq_some_iff (Nat.le_of_lt (lt_size_of_get? here))]
  constructor
  · rintro ⟨lt, level, inner⟩
    refine ⟨lt, by omega, ?_⟩
    intro k low high
    have above := inner k low high
    omega
  · rintro ⟨lt, level, inner⟩
    refine ⟨lt, by omega, ?_⟩
    intro k low high
    have above := inner k low high
    omega

end Code
end Brainfuck
