import Brainfuck.Proofs.Jumping

/-!
# Looks of a scan

A scan for a bracket looks at one instruction after the other and counts the loops that are open.
Here it is done look by look, with a count that could be negative and with a record of the places it
looks at (`Scans`). A look goes on to the next place with the count changed by what the instruction
adds to it, or it ends (`Code.lookRight_cases`, `Code.lookLeft_cases`). Main statement: begun in any
code with any number of open loops, a scan has one course only, counts by the level, and finds what
the jumps find (`Code.scans_right`, `Code.scans_left`).
-/
namespace Brainfuck

namespace Instruction

/-- How many more loops are open behind an instruction than before it. -/
def rise (i : Instruction) : Int :=
  if i.isA .jumpForward then 1 else if i.isA .jumpBackward then -1 else 0

variable {i : Instruction}

/-- An instruction does one operation at most. -/
theorem isA_eq_false {op other : Opcode} (does : i.isA op = true) (differ : op ≠ other) :
    i.isA other = false := by
  apply Bool.eq_false_iff.mpr
  intro same
  rw [isA_iff] at does same
  exact differ (Option.some.inj (does.symm.trans same))

theorem rise_of_opening (opens : i.isA .jumpForward = true) : i.rise = 1 := if_pos opens

theorem rise_of_closing (closes : i.isA .jumpBackward = true) : i.rise = -1 := by
  rw [rise, isA_eq_false closes Opcode.noConfusion, closes]
  rfl

/-- Only brackets change how many loops are open, each by one. -/
theorem rise_cases (i : Instruction) :
    (i.isA .jumpForward = true ∧ i.isA .jumpBackward = false ∧ i.rise = 1) ∨
      (i.isA .jumpForward = false ∧ i.isA .jumpBackward = true ∧ i.rise = -1) ∨
      (i.isA .jumpForward = false ∧ i.isA .jumpBackward = false ∧ i.rise = 0) := by
  cases opens : i.isA .jumpForward with
  | true => exact .inl ⟨rfl, isA_eq_false opens Opcode.noConfusion, rise_of_opening opens⟩
  | false =>
    cases closes : i.isA .jumpBackward with
    | true => exact .inr (.inl ⟨rfl, rfl, rise_of_closing closes⟩)
    | false => exact .inr (.inr ⟨rfl, rfl, by rw [rise, opens, closes]; rfl⟩)

end Instruction

/-- Where a scan looks next, and how many loops it takes to be open. -/
structure Cursor where
  index : Nat
  depth : Int

/-- What a scan comes to by one look: it looks on elsewhere, or it ends and has found a bracket or
none. -/
inductive Look
  | onwards (next : Cursor)
  | ended (found? : Option Nat)

/-- A scan from a place ends, with the places that it looks at and what it finds. -/
inductive Scans (look : Cursor → Look) : Cursor → List Cursor → Option Nat → Prop
  | ended {c : Cursor} {found? : Option Nat} : look c = .ended found? → Scans look c [c] found?
  | onwards {c next : Cursor} {looked : List Cursor} {found? : Option Nat} :
      look c = .onwards next → Scans look next looked found? → Scans look c (c :: looked) found?

/-- A scan from a place has only one course. -/
theorem Scans.unique {look : Cursor → Look} {c : Cursor} {looked : List Cursor}
    {found? : Option Nat} {others : List Cursor} {other? : Option Nat}
    (scan : Scans look c looked found?) (again : Scans look c others other?) :
    looked = others ∧ found? = other? := by
  induction scan generalizing others with
  | ended ends =>
    cases again with
    | ended ends' =>
      cases ends.symm.trans ends'
      exact ⟨rfl, rfl⟩
    | onwards goes _ => cases ends.symm.trans goes
  | onwards goes _ ih =>
    cases again with
    | ended ends => cases goes.symm.trans ends
    | onwards goes' rest =>
      cases goes.symm.trans goes'
      obtain ⟨rfl, same⟩ := ih rest
      exact ⟨rfl, same⟩

theorem Scans.iff {look : Cursor → Look} {c : Cursor} {looked : List Cursor} {found? : Option Nat}
    {others : List Cursor} {other? : Option Nat} (scan : Scans look c looked found?) :
    Scans look c others other? ↔ others = looked ∧ other? = found? := by
  constructor
  · intro again
    exact again.unique scan
  · rintro ⟨rfl, rfl⟩
    exact scan

def scanned (target? : Option Nat) : Except FaultKind Nat :=
  target?.elim (.error .unbalancedJump) .ok

namespace Code

theorem forwardTarget_scan (code : Code) (start distance : Nat) :
    code.forwardTarget .scan start distance =
      scanned ((code.closingFrom? 0 (start + 1)).map (· + 1)) := by
  rw [forwardTarget]
  cases code.closingFrom? 0 (start + 1) <;> rfl

theorem backwardTarget_scan (code : Code) (finish distance : Nat) :
    code.backwardTarget .scan finish distance = scanned (code.openingBefore? 0 finish) := by
  rw [backwardTarget]
  cases code.openingBefore? 0 finish <;> rfl

/-- Whether the instruction at an index is of an operation. -/
def HasAt (code : Code) (index : Nat) (op : Opcode) : Prop :=
  ∃ i, code.get? index = some i ∧ i.isA op = true

/-- One look of a scan for a closing bracket. -/
def lookRight (code : Code) : Cursor → Look
  | ⟨index, depth⟩ =>
    match code.get? index with
    | none => .ended none
    | some i =>
      if i.isA .eof then .ended none
      else if i.isA .jumpForward then .onwards ⟨index + 1, depth + 1⟩
      else if i.isA .jumpBackward then
        if depth = 0 then .ended (some index) else .onwards ⟨index + 1, depth - 1⟩
      else .onwards ⟨index + 1, depth⟩

/-- One look of a scan for an opening bracket, at the instruction before a place. -/
def lookLeft (code : Code) : Cursor → Look
  | ⟨0, _⟩ => .ended none
  | ⟨index + 1, depth⟩ =>
    match code.get? index with
    | none => .ended none
    | some i =>
      if i.isA .jumpBackward then .onwards ⟨index, depth + 1⟩
      else if i.isA .jumpForward then
        if depth = 0 then .ended (some index) else .onwards ⟨index, depth - 1⟩
      else .onwards ⟨index, depth⟩

variable {code : Code} {index : Nat} {i : Instruction}

theorem HasAt.lt_size {op : Opcode} (has : code.HasAt index op) : index < code.size := by
  obtain ⟨i, here, _⟩ := has
  exact lt_size_of_get? here

/-- The instruction at an index is of one operation at most. -/
theorem HasAt.unique {op other : Opcode} (one : code.HasAt index op)
    (two : code.HasAt index other) : op = other := by
  obtain ⟨i, here, does⟩ := one
  obtain ⟨j, there, does'⟩ := two
  cases here.symm.trans there
  exact Option.some.inj ((Instruction.isA_iff.mp does).symm.trans (Instruction.isA_iff.mp does'))

/-- Only an end is the last instruction of a code. -/
theorem succ_lt_size (here : code.get? index = some i) (goesOn : i.isA .eof = false) :
    index + 1 < code.size := by
  have inside := lt_size_of_get? here
  have notLast : index ≠ code.body.size := by
    rintro rfl
    rw [get?_last] at here
    cases here
    cases goesOn
  rw [size] at inside ⊢
  omega

/-- How many more loops are opened than closed before an index. -/
def level (code : Code) : Nat → Int
  | 0 => 0
  | index + 1 => code.level index + (code.get? index).elim 0 Instruction.rise

theorem level_succ (here : code.get? index = some i) :
    code.level (index + 1) = code.level index + i.rise := by
  rw [level, here]
  rfl

/-- A look to the right goes on behind an instruction that is no end. Otherwise it ends as the scan
does, without a bracket or at a closing one when no loop is open. -/
theorem lookRight_cases (code : Code) (depth index : Nat) :
    (∃ i, code.get? index = some i ∧ i.isA .eof = false ∧ ∃ depth' : Nat,
      (depth' : Int) = depth + i.rise ∧
      code.lookRight ⟨index, depth⟩ = .onwards ⟨index + 1, depth'⟩ ∧
      code.closingFrom? depth index = code.closingFrom? depth' (index + 1)) ∨
    code.lookRight ⟨index, depth⟩ = .ended (code.closingFrom? depth index) ∧
      (code.closingFrom? depth index = none ∧
          (code.get? index = none ∨ code.HasAt index .eof) ∨
        code.closingFrom? depth index = some index ∧ depth = 0 ∧
          code.HasAt index .jumpBackward) := by
  rw [closingFrom?_eq code depth index, lookRight]
  cases here : code.get? index with
  | none => exact .inr ⟨rfl, .inl ⟨rfl, .inl rfl⟩⟩
  | some i =>
    cases ends : i.isA .eof with
    | true =>
      have stops : code.HasAt index .eof := ⟨i, here, ends⟩
      right
      simp [ends, stops]
    | false =>
      rcases i.rise_cases with ⟨opens, closes, rises⟩ | ⟨opens, closes, rises⟩ |
        ⟨opens, closes, rises⟩
      · refine .inl ⟨i, rfl, ends, depth + 1, by omega, ?_, ?_⟩
        · simp [ends, opens]
        · simp [ends, opens]
      · cases depth with
        | zero =>
          have found : code.HasAt index .jumpBackward := ⟨i, here, closes⟩
          right
          simp [ends, opens, closes, found]
        | succ depth =>
          have open' : ((depth + 1 : Nat) : Int) ≠ 0 := by omega
          have less : ((depth + 1 : Nat) : Int) - 1 = depth := by omega
          refine .inl ⟨i, rfl, ends, depth, by omega, ?_, ?_⟩
          · simp only [ends, opens, closes, Bool.false_eq_true, if_false, if_true, open', less]
          · simp [ends, opens, closes]
      · refine .inl ⟨i, rfl, ends, depth, by omega, ?_, ?_⟩
        · simp [ends, opens, closes]
        · simp [ends, opens, closes]

/-- A look to the left goes on before an instruction. Otherwise it ends as the scan does, without a
bracket or at an opening one when no loop is open. -/
theorem lookLeft_cases (code : Code) (depth index : Nat) :
    (∃ before i, index = before + 1 ∧ code.get? before = some i ∧ ∃ depth' : Nat,
      (depth' : Int) + i.rise = depth ∧
      code.lookLeft ⟨index, depth⟩ = .onwards ⟨before, depth'⟩ ∧
      code.openingBefore? depth index = code.openingBefore? depth' before) ∨
    code.lookLeft ⟨index, depth⟩ = .ended (code.openingBefore? depth index) ∧
      (code.openingBefore? depth index = none ∧
          (∀ before, index = before + 1 → code.get? before = none) ∨
        ∃ before, index = before + 1 ∧ code.openingBefore? depth index = some before ∧
          depth = 0 ∧ code.HasAt before .jumpForward) := by
  cases index with
  | zero => exact .inr ⟨rfl, .inl ⟨rfl, nofun⟩⟩
  | succ before =>
    rw [openingBefore?.eq_def code depth (before + 1), lookLeft]
    dsimp only
    cases here : code.get? before with
    | none =>
      refine .inr ⟨rfl, .inl ⟨rfl, ?_⟩⟩
      rintro _ ⟨⟩
      exact here
    | some i =>
      rcases i.rise_cases with ⟨opens, closes, rises⟩ | ⟨opens, closes, rises⟩ |
        ⟨opens, closes, rises⟩
      · cases depth with
        | zero =>
          have found : code.HasAt before .jumpForward := ⟨i, here, opens⟩
          right
          simp [opens, closes, found]
        | succ depth =>
          have open' : ((depth + 1 : Nat) : Int) ≠ 0 := by omega
          have less : ((depth + 1 : Nat) : Int) - 1 = depth := by omega
          refine .inl ⟨before, i, rfl, here, depth, by omega, ?_, ?_⟩
          · simp only [opens, closes, Bool.false_eq_true, if_false, if_true, open', less]
          · simp [opens, closes]
      · refine .inl ⟨before, i, rfl, here, depth + 1, by omega, ?_, ?_⟩
        · simp [closes]
        · simp [closes]
      · refine .inl ⟨before, i, rfl, here, depth, by omega, ?_, ?_⟩
        · simp [opens, closes]
        · simp [opens, closes]

/-- Seen from another place, the count of a place has followed the level, and it is not negative. -/
structure Follows (code : Code) (c d : Cursor) : Prop where
  level : d.depth - c.depth = code.level d.index - code.level c.index
  nonneg : 0 ≤ d.depth

theorem Follows.refl (code : Code) (index depth : Nat) :
    code.Follows ⟨index, depth⟩ ⟨index, depth⟩ :=
  ⟨by omega, Int.natCast_nonneg depth⟩

theorem Follows.before {c next d : Cursor} (follows : code.Follows next d)
    (level : next.depth - c.depth = code.level next.index - code.level c.index) :
    code.Follows c d := by
  obtain ⟨further, nonneg⟩ := follows
  exact ⟨by omega, nonneg⟩

/-- A scan to the right ends and finds the bracket that it is defined to find, after one look more
than there are instructions from its place on, at most. Begun in the code it stays there. -/
theorem scans_right (code : Code) (depth index : Nat) :
    ∃ looked, Scans code.lookRight ⟨index, depth⟩ looked (code.closingFrom? depth index) ∧
      looked.length ≤ code.size - index + 1 ∧
      ∀ d ∈ looked, index ≤ d.index ∧ (index < code.size → d.index < code.size) ∧
        code.Follows ⟨index, depth⟩ d := by
  rcases code.lookRight_cases depth index with
    ⟨i, here, goesOn, depth', open', goes, same⟩ | ⟨ends, _⟩
  · have inside := lt_size_of_get? here
    obtain ⟨looked, scan, few, follow⟩ := code.scans_right depth' (index + 1)
    refine ⟨_ :: looked, .onwards goes (same ▸ scan), ?_, ?_⟩
    · rw [List.length_cons]
      omega
    · intro d member
      rcases List.mem_cons.mp member with rfl | later
      · exact ⟨Nat.le_refl index, id, .refl code index depth⟩
      · obtain ⟨behind, within, follows⟩ := follow d later
        have level := level_succ here
        refine ⟨Nat.le_of_succ_le behind, fun _ => within (succ_lt_size here goesOn), ?_⟩
        exact follows.before (by dsimp only; omega)
  · refine ⟨_, .ended ends, Nat.le_add_left 1 _, ?_⟩
    intro d member
    obtain rfl := List.mem_singleton.mp member
    exact ⟨Nat.le_refl index, id, .refl code index depth⟩
termination_by code.size - index

/-- A scan to the left ends and finds the bracket that it is defined to find, after one look more
than there are instructions before its place, at most. -/
theorem scans_left (code : Code) (depth index : Nat) :
    ∃ looked, Scans code.lookLeft ⟨index, depth⟩ looked (code.openingBefore? depth index) ∧
      looked.length ≤ index + 1 ∧
      ∀ d ∈ looked, d.index ≤ index ∧ code.Follows ⟨index, depth⟩ d := by
  rcases code.lookLeft_cases depth index with
    ⟨before, i, rfl, here, depth', open', goes, same⟩ | ⟨ends, _⟩
  · obtain ⟨looked, scan, few, follow⟩ := code.scans_left depth' before
    refine ⟨_ :: looked, .onwards goes (same ▸ scan), ?_, ?_⟩
    · rw [List.length_cons]
      omega
    · intro d member
      rcases List.mem_cons.mp member with rfl | later
      · exact ⟨Nat.le_refl _, .refl code _ depth⟩
      · obtain ⟨ahead, follows⟩ := follow d later
        have level := level_succ here
        exact ⟨Nat.le_succ_of_le ahead, follows.before (by dsimp only; omega)⟩
  · refine ⟨_, .ended ends, Nat.le_add_left 1 _, ?_⟩
    intro d member
    obtain rfl := List.mem_singleton.mp member
    exact ⟨Nat.le_refl index, .refl code index depth⟩

end Code
end Brainfuck
