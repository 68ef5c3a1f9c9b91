import Brainfuck.Code.Basic

/-!
# Nested code

Compiled code is nested: its brackets come in pairs around nested code, both brackets of a pair hold
the distance between them, and everything else is an operation done at least once. `Nested` says so
of a list of instructions. Main statement: every index of nested code holds an operation or one
bracket of a pair (`Nested.at_index`). What code was written from is read off it by `spelled`.
-/
namespace Brainfuck

def Opcode.glyph? : Opcode → Option Glyph
  | .eof | .nop => none
  | .moveRight => some .right
  | .moveLeft => some .left
  | .add => some .increment
  | .subtract => some .decrement
  | .read => some .read
  | .write => some .write
  | .jumpForward => some .opening
  | .jumpBackward => some .closing

/-- Operations that move a byte between the tape and a stream. -/
def Opcode.isTransfer : Opcode → Bool
  | .read | .write => true
  | _ => false

theorem Opcode.not_isRepeatable_of_isTransfer {op : Opcode} (transfers : op.isTransfer = true) :
    op.isRepeatable = false := by
  cases op <;> first | rfl | cases transfers

namespace Instruction

/-- The glyphs an instruction is written with: one, or as many as a count says. -/
def glyphs (i : Instruction) : List Glyph :=
  match i.opcode?.bind Opcode.glyph? with
  | none => []
  | some g => List.replicate (if i.isRepeatable then i.operand else 1) g

def spelled (is : List Instruction) : List Glyph :=
  is.flatMap glyphs

@[simp] theorem spelled_nil : spelled [] = [] := rfl

@[simp] theorem spelled_cons (i : Instruction) (is : List Instruction) :
    spelled (i :: is) = i.glyphs ++ spelled is := List.flatMap_cons

@[simp] theorem spelled_append (is js : List Instruction) :
    spelled (is ++ js) = spelled is ++ spelled js := List.flatMap_append

/-- What compiled code holds between brackets: an operation that is done a positive number of
times, or the transfer of a byte. -/
inductive IsAct : Instruction → Prop
  | counted {op : Opcode} (repeatable : op.isRepeatable = true) {n : Nat} (pos : 0 < n)
      (fits : n ≤ maxOperand) : IsAct (make op n fits)
  | transfer {op : Opcode} (transfers : op.isTransfer = true) (fits : 0 ≤ maxOperand) :
      IsAct (make op 0 fits)

@[simp] theorem isRepeatable_make (op : Opcode) (n : Nat) (fits : n ≤ maxOperand) :
    (make op n fits).isRepeatable = op.isRepeatable := by
  simp [isRepeatable]

@[simp] theorem operand_make (op : Opcode) (n : Nat) (fits : n ≤ maxOperand) :
    (make op n fits).operand = n := rfl

@[simp] theorem isA_make (op other : Opcode) (n : Nat) (fits : n ≤ maxOperand) :
    (make op n fits).isA other = decide (op = other) := by
  rw [Bool.eq_iff_iff, isA_iff, opcode?_make, decide_eq_true_iff, Option.some_inj]

theorem glyphs_make (op : Opcode) (n : Nat) (fits : n ≤ maxOperand) :
    (make op n fits).glyphs =
      op.glyph?.elim [] (List.replicate (if op.isRepeatable then n else 1)) := by
  cases op <;> simp [glyphs, Opcode.glyph?]

@[simp] theorem glyphs_jumpForward (n : Nat) (fits : n ≤ maxOperand) :
    (make .jumpForward n fits).glyphs = [.opening] := glyphs_make ..

@[simp] theorem glyphs_jumpBackward (n : Nat) (fits : n ≤ maxOperand) :
    (make .jumpBackward n fits).glyphs = [.closing] := glyphs_make ..

theorem glyphs_ofGlyph (g : Glyph) : (ofGlyph g).glyphs = [g] := by
  cases g <;> exact glyphs_make ..

theorem isAct_ofGlyph {g : Glyph} (notOpening : g ≠ .opening) (notClosing : g ≠ .closing) :
    (ofGlyph g).IsAct := by
  cases g with
  | right => exact .counted rfl Nat.one_pos _
  | left => exact .counted rfl Nat.one_pos _
  | increment => exact .counted rfl Nat.one_pos _
  | decrement => exact .counted rfl Nat.one_pos _
  | write => exact .transfer rfl _
  | read => exact .transfer rfl _
  | opening => exact absurd rfl notOpening
  | closing => exact absurd rfl notClosing

theorem IsAct.not_isA {i : Instruction} (act : i.IsAct) (op : Opcode)
    (counts : op.isRepeatable = false) (transfers : op.isTransfer = false) : i.isA op = false := by
  rw [Bool.eq_false_iff, Ne, isA_iff]
  cases act with
  | counted repeatable pos fits =>
    rw [opcode?_make]
    rintro ⟨⟩
    exact Bool.noConfusion (counts.symm.trans repeatable)
  | transfer moves fits =>
    rw [opcode?_make]
    rintro ⟨⟩
    exact Bool.noConfusion (transfers.symm.trans moves)

theorem IsAct.not_isJump {i : Instruction} (act : i.IsAct) {op : Opcode}
    (assigned : i.opcode? = some op) : op.isJump = false := by
  have straight := act.not_isA op
  rw [isA_iff.mpr assigned] at straight
  cases op with
  | jumpForward => cases straight rfl rfl
  | jumpBackward => cases straight rfl rfl
  | _ => rfl

end Instruction

open Instruction

/-- Instructions whose brackets are in pairs, both of a pair holding the distance between them. -/
inductive Nested : List Instruction → Prop
  | nil : Nested []
  | act {i : Instruction} {rest : List Instruction} : i.IsAct → Nested rest → Nested (i :: rest)
  | loop {body rest : List Instruction} (fits : body.length + 1 ≤ maxOperand) :
      Nested body → Nested rest →
      Nested (make .jumpForward (body.length + 1) fits ::
        (body ++ make .jumpBackward (body.length + 1) fits :: rest))

theorem Nested.append {is js : List Instruction} (first : Nested is) (second : Nested js) :
    Nested (is ++ js) := by
  induction first with
  | nil => exact second
  | act here _ ih => exact .act here ih
  | @loop body rest fits inner _ _ ih =>
    rw [List.cons_append, List.append_assoc, List.cons_append]
    exact .loop fits inner ih

theorem Nested.single {i : Instruction} (here : i.IsAct) : Nested [i] := .act here .nil

namespace Code

def Holds (code : Code) : Nat → List Instruction → Prop
  | _, [] => True
  | index, i :: is => code.get? index = some i ∧ code.Holds (index + 1) is

theorem holds_append {code : Code} {is js : List Instruction} {k : Nat} :
    code.Holds k (is ++ js) ↔ code.Holds k is ∧ code.Holds (k + is.length) js := by
  induction is generalizing k with
  | nil => simp [Holds]
  | cons i is ih =>
    rw [List.cons_append, Holds, Holds, ih, and_assoc, List.length_cons]
    rw [Nat.add_right_comm, Nat.add_assoc]

theorem get?_of_lt {code : Code} {k : Nat} (inside : k < code.body.size) :
    code.get? k = code.body[k]? := if_neg (Nat.ne_of_lt inside)

@[simp] theorem get?_last (code : Code) : code.get? code.body.size = some .eof := if_pos rfl

theorem holds_of_eq_append {code : Code} (before is : List Instruction)
    (whole : code.body.toList = before ++ is) : code.Holds before.length is := by
  induction is generalizing before with
  | nil => trivial
  | cons i is ih =>
    have sizes := congrArg List.length whole
    rw [Array.length_toList, List.length_append, List.length_cons] at sizes
    refine ⟨?_, ?_⟩
    · rw [get?_of_lt (by omega), ← Array.getElem?_toList, whole]
      simp
    · have next := ih (before ++ [i]) (by rw [whole]; simp)
      rwa [List.length_append] at next

theorem holds_body (code : Code) : code.Holds 0 code.body.toList :=
  holds_of_eq_append [] _ rfl

/-- The brackets at `start` and `start + distance` are those of one loop. -/
structure Paired (code : Code) (start distance : Nat) : Prop where
  opens : ∃ fits, code.get? start = some (make .jumpForward distance fits)
  closes : ∃ fits, code.get? (start + distance) = some (make .jumpBackward distance fits)
  inner : ∃ body, Nested body ∧ body.length + 1 = distance ∧ code.Holds (start + 1) body

/-- No bracket stands where the code ends. -/
theorem Paired.inside {code : Code} {start distance : Nat} (pair : code.Paired start distance) :
    start + distance < code.body.size := by
  obtain ⟨fits, closes⟩ := pair.closes
  have bound := lt_size_of_get? closes
  rw [size] at bound
  by_cases last : start + distance = code.body.size
  · rw [last, get?_last] at closes
    cases closes
  · omega

/-- What an index of nested code holds: an operation, or one bracket of a pair. -/
inductive Role (code : Code) (index : Nat) : Instruction → Prop
  | act {i : Instruction} : i.IsAct → Role code index i
  | opening {distance : Nat} (fits : distance ≤ maxOperand) :
      code.Paired index distance → Role code index (make .jumpForward distance fits)
  | closing {start distance : Nat} (fits : distance ≤ maxOperand) :
      index = start + distance → code.Paired start distance →
      Role code index (make .jumpBackward distance fits)

end Code

/-- Each index of nested code holds an operation or one bracket of a pair. -/
theorem Nested.at_index {is : List Instruction} (nested : Nested is) {code : Code} {k index : Nat}
    (held : code.Holds k is) (lower : k ≤ index) (upper : index < k + is.length) :
    ∃ i, code.get? index = some i ∧ code.Role index i := by
  induction nested generalizing k with
  | nil => exact absurd upper (Nat.not_lt.mpr lower)
  | @act i rest here _ ih =>
    rw [List.length_cons] at upper
    by_cases first : index = k
    · subst first
      exact ⟨i, held.1, .act here⟩
    · exact ih held.2 (by omega) (by omega)
  | @loop body rest fits inner _ ihBody ihRest =>
    obtain ⟨opens, heldTail⟩ := held
    obtain ⟨heldBody, closes, heldRest⟩ := Code.holds_append.mp heldTail
    rw [List.length_cons, List.length_append, List.length_cons] at upper
    have last : k + 1 + body.length = k + (body.length + 1) := by omega
    have pair : code.Paired k (body.length + 1) :=
      ⟨⟨fits, opens⟩, ⟨fits, last ▸ closes⟩, body, inner, rfl, heldBody⟩
    by_cases first : index = k
    · subst first
      exact ⟨_, opens, .opening fits pair⟩
    by_cases within : index < k + 1 + body.length
    · exact ihBody heldBody (by omega) within
    by_cases final : index = k + 1 + body.length
    · subst final
      exact ⟨_, closes, .closing fits last pair⟩
    · exact ihRest heldRest (by omega) (by omega)

/-- What code with a nested body holds at an index: its end, or what nested code holds there. -/
theorem Nested.role_of_get? {code : Code} (nested : Nested code.body.toList) {index : Nat}
    {i : Instruction} (here : code.get? index = some i) :
    (index = code.body.size ∧ i = .eof) ∨ (index < code.body.size ∧ code.Role index i) := by
  have bound := Code.lt_size_of_get? here
  rw [Code.size] at bound
  by_cases last : index = code.body.size
  · subst last
    exact .inl ⟨rfl, (Option.some.inj (code.get?_last.symm.trans here)).symm⟩
  · have inside : index < 0 + code.body.toList.length := by
      rw [Array.length_toList]
      omega
    obtain ⟨j, found, role⟩ := nested.at_index code.holds_body (Nat.zero_le index) inside
    obtain rfl := Option.some.inj (found.symm.trans here)
    exact .inr ⟨by omega, role⟩

end Brainfuck
