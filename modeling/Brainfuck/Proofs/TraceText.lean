import Brainfuck.CommandLine.Note
import Brainfuck.Proofs.Characters

/-!
# The text of a trace line

A printed line is read in two ways: by the columns that its parts stand in, and by its fields, which
are what stands between blanks (`fieldsOf`). Tints are terminal codes, and taking them out leaves
the text (`untinted`). Main statements: the line of a step shows where the step stood, what it was
and what it left (`displays_lineText`), tints add nothing but codes (`untinted_lineText`), and no
question is asked where the instruction is known (`legible_lineText`).
-/
namespace Brainfuck

/-! ### Fields -/

/-- What stands between the blanks of a text, in order. -/
def fieldsOf (text : String) : List String :=
  ((text.toList.splitOn ' ').filter (· ≠ [])).map String.ofList

theorem fieldsOf_append_blank (a b : String) :
    fieldsOf (a ++ " " ++ b) = fieldsOf a ++ fieldsOf b := by
  have text : (a ++ " " ++ b).toList = a.toList ++ ' ' :: b.toList := by simp
  rw [fieldsOf, text, List.splitOn, List.splitOnP_append_cons _ _ (by simp), List.filter_append,
    List.map_append]
  rfl

theorem fieldsOf_word {word : String} (solid : Lacks ' ' word) (nonempty : word ≠ "") :
    fieldsOf word = [word] := by
  have whole : word.toList.splitOn ' ' = [word.toList] := List.splitOn_eq_singleton solid
  simp [fieldsOf, whole, nonempty]

theorem fieldsOf_empty : fieldsOf "" = [] := by
  simp [fieldsOf]

theorem pushn_succ (a : String) (n : Nat) : a.pushn ' ' (n + 1) = a.pushn ' ' n ++ " " ++ "" := by
  simp [String.pushn_eq_repeat_push, Nat.repeat, String.push_eq_append]

theorem fieldsOf_pushn (a : String) (n : Nat) : fieldsOf (a.pushn ' ' n) = fieldsOf a := by
  induction n with
  | zero => simp [String.pushn_eq_repeat_push, Nat.repeat]
  | succ n ih => rw [pushn_succ, fieldsOf_append_blank, fieldsOf_empty, List.append_nil, ih]

theorem fieldsOf_padRight (width : Nat) (a : String) : fieldsOf (padRight width a) = fieldsOf a :=
  fieldsOf_pushn a _

theorem fieldsOf_padLeft (width : Nat) (a : String) : fieldsOf (padLeft width a) = fieldsOf a := by
  rw [padLeft]
  cases width - a.length with
  | zero => simp [String.pushn_eq_repeat_push, Nat.repeat]
  | succ n =>
    rw [pushn_succ, String.append_empty, fieldsOf_append_blank, fieldsOf_pushn, fieldsOf_empty,
      List.nil_append]

theorem fieldsOf_repr (n : Nat) : fieldsOf n.repr = [n.repr] := by
  refine fieldsOf_word (lacks_repr rfl n) ?_
  intro empty
  have digits : n.repr.toList = [] := by simp [empty]
  rw [Nat.toList_repr] at digits
  exact Nat.toDigits_ne_nil digits

theorem lacks_toInt {c : Char} (noDigit : c.isDigit = false) (noMinus : c ≠ '-') (value : Int8) :
    Lacks c (toString value.toInt) := by
  have minus : Lacks c "-" := by simpa [Lacks] using noMinus
  rw [Int.toString_eq_repr]
  cases value.toInt with
  | ofNat n => exact lacks_repr noDigit n
  | negSucc n => exact minus.append (lacks_repr noDigit n.succ)

theorem fieldsOf_toInt (value : Int8) :
    fieldsOf (toString value.toInt) = [toString value.toInt] := by
  have solid : Lacks ' ' (toString value.toInt) := lacks_toInt rfl (by decide) value
  rw [Int.toString_eq_repr] at solid ⊢
  cases number : value.toInt with
  | ofNat n => exact fieldsOf_repr n
  | negSucc n =>
    rw [number] at solid
    refine fieldsOf_word solid ?_
    simp [Int.repr]

/-! ### Columns -/

def AlignedRight (width : Nat) (text column : String) : Prop :=
  ∃ blanks, column = "".pushn ' ' blanks ++ text ∧ column.length = max width text.length

def AlignedLeft (width : Nat) (text column : String) : Prop :=
  ∃ blanks, column = text.pushn ' ' blanks ∧ column.length = max width text.length

theorem alignedRight_padLeft (width : Nat) (text : String) :
    AlignedRight width text (padLeft width text) := by
  refine ⟨width - text.length, rfl, ?_⟩
  rw [padLeft, String.length_append, String.length_pushn, String.length_empty]
  omega

theorem alignedLeft_padRight (width : Nat) (text : String) :
    AlignedLeft width text (padRight width text) := by
  refine ⟨width - text.length, rfl, ?_⟩
  rw [padRight, String.length_pushn]
  omega

/-! ### Tints -/

/-- Characters without terminal codes. A code goes from an escape character to the next letter m. -/
def withoutCodes (within : Bool) : List Char → List Char
  | [] => []
  | c :: cs =>
    if within then withoutCodes (c ≠ 'm') cs
    else if c = '\x1b' then withoutCodes true cs
    else c :: withoutCodes false cs

def untinted (text : String) : String :=
  String.ofList (withoutCodes false text.toList)

theorem withoutCodes_append {plain : List Char} (lacks : '\x1b' ∉ plain) (rest : List Char) :
    withoutCodes false (plain ++ rest) = plain ++ withoutCodes false rest := by
  induction plain with
  | nil => rfl
  | cons c cs ih =>
    obtain ⟨here, later⟩ := not_or.mp (mt List.mem_cons.mpr lacks)
    simp [withoutCodes, Ne.symm here, ih later]

theorem untinted_append {plain : String} (lacks : Lacks '\x1b' plain) (rest : String) :
    untinted (plain ++ rest) = plain ++ untinted rest := by
  rw [untinted, String.toList_append, withoutCodes_append lacks, String.ofList_append,
    String.ofList_toList, untinted]

theorem untinted_of_lacks {plain : String} (lacks : Lacks '\x1b' plain) :
    untinted plain = plain := by
  have whole := untinted_append lacks ""
  have empty : untinted "" = "" := rfl
  rwa [empty, String.append_empty] at whole

namespace CommandLine

theorem Tint.untinted_paint_append (tint : Tint) {text : String} (lacks : Lacks '\x1b' text)
    (rest : String) : untinted (tint.paint true text ++ rest) = text ++ untinted rest := by
  have before (cs : List Char) :
      withoutCodes false (("\x1b[" ++ tint.code ++ "m").toList ++ cs) = withoutCodes false cs := by
    cases tint <;> rfl
  have after (cs : List Char) :
      withoutCodes false ("\x1b[0m".toList ++ cs) = withoutCodes false cs := rfl
  rw [paint, if_pos rfl, untinted, String.toList_append, String.toList_append,
    String.toList_append, List.append_assoc, List.append_assoc, before, withoutCodes_append lacks,
    after, String.ofList_append, String.ofList_toList, untinted]

/-! ### Lines -/

/-- A printed line shows where an instruction stands, the instruction as it is listed, where the
data pointer is and a value. The first three are in columns, and two words tell what the last two
are. -/
structure Displays (ip : Nat) (i : Instruction) (pointer : Nat) (value : Int8) (text : String) :
    Prop where
  fields : fieldsOf text =
    toString ip :: fieldsOf i.text ++ ["dp", toString pointer, "cell", toString value.toInt]
  columns : ∃ index listed place, AlignedRight 6 (toString ip) index ∧
    AlignedLeft 12 i.text listed ∧ AlignedRight 6 (toString pointer) place ∧
    text = index ++ " " ++ listed ++ " dp " ++ place ++ " cell " ++ toString value.toInt

variable {line : TraceLine} {i : Instruction}

theorem displays_lineText (shown : line.instruction? = some i) :
    Displays line.ip i line.pointer line.value (lineText false line) := by
  have text : lineText false line = padLeft 6 (toString line.ip) ++ " " ++ padRight 12 i.text ++
      " " ++ "dp" ++ " " ++ padLeft 6 (toString line.pointer) ++ " " ++ "cell" ++ " " ++
      toString line.value.toInt := by
    rw [lineText, shown]
    rfl
  have dp : fieldsOf "dp" = ["dp"] := fieldsOf_word (by decide) (by decide)
  have cell : fieldsOf "cell" = ["cell"] := fieldsOf_word (by decide) (by decide)
  constructor
  · rw [text]
    simp only [fieldsOf_append_blank, fieldsOf_padLeft, fieldsOf_padRight, fieldsOf_toInt, dp, cell,
      Nat.toString_eq_repr, fieldsOf_repr]
    simp
  · refine ⟨_, _, _, alignedRight_padLeft 6 _, alignedLeft_padRight 12 _,
      alignedRight_padLeft 6 _, ?_⟩
    rw [text]
    simp only [String.append_assoc]
    rfl

example : lineText false ⟨⟨12, some (.make .subtract 300 (by decide)), 1234567⟩, -7⟩ =
    "    12 MEM_DEC 300  dp 1234567 cell -7" := by
  cbv

/-! ### Characters of a line -/

/-- A character that is in no part of a line, whatever is shown: not in numerals, in the names of
operations or in the words between the columns. -/
def Stray (c : Char) : Prop :=
  c.isDigit = false ∧ c.isUpper = false ∧ c ∉ [' ', '_', '-', 'd', 'p', 'c', 'e', 'l']

instance (c : Char) : Decidable (Stray c) :=
  inferInstanceAs (Decidable (_ ∧ _))

variable {c : Char} {op : Opcode}

theorem Stray.lacks_index (stray : Stray c) (n : Nat) : Lacks c (padLeft 6 (toString n)) := by
  obtain ⟨noDigit, -, other⟩ := stray
  exact (lacks_repr noDigit n).padLeft (by rintro rfl; exact other (by decide)) 6

theorem Stray.lacks_listed (stray : Stray c) (assigned : i.opcode? = some op) :
    Lacks c (padRight 12 i.text) := by
  obtain ⟨noDigit, small, other⟩ := stray
  have visible : c ≠ ' ' := by rintro rfl; exact other (by decide)
  have named : c ≠ '_' := by rintro rfl; exact other (by decide)
  exact (Instruction.lacks_text assigned small named visible noDigit).padRight visible 12

theorem Stray.lacks_value (stray : Stray c) (value : Int8) : Lacks c (toString value.toInt) :=
  lacks_toInt stray.1 (by rintro rfl; exact stray.2.2 (by decide)) value

/-- The parts of a line before, between and behind its two words. -/
theorem Stray.lacks_parts (stray : Stray c) (assigned : i.opcode? = some op) (line : TraceLine) :
    Lacks c (padLeft 6 (toString line.ip) ++ " " ++ padRight 12 i.text ++ " ") ∧
      Lacks c (" " ++ padLeft 6 (toString line.pointer) ++ " ") ∧
      Lacks c (" " ++ toString line.value.toInt) := by
  have blank : Lacks c " " := by
    intro member
    obtain rfl : c = ' ' := by simpa using member
    exact stray.2.2 (by decide)
  refine ⟨?_, (blank.append (stray.lacks_index line.pointer)).append blank,
    blank.append (stray.lacks_value line.value)⟩
  exact (((stray.lacks_index line.ip).append blank).append
    (stray.lacks_listed assigned)).append blank

theorem lineText_eq (shown : line.instruction? = some i) (colored : Bool) : lineText colored line =
    (padLeft 6 (toString line.ip) ++ " " ++ padRight 12 i.text ++ " ") ++
      (Tint.dimmed.paint colored "dp" ++ ((" " ++ padLeft 6 (toString line.pointer) ++ " ") ++
        (Tint.dimmed.paint colored "cell" ++ (" " ++ toString line.value.toInt)))) := by
  rw [lineText, shown]
  simp only [String.append_assoc]
  rfl

/-- Tints add nothing to a line but their codes. -/
theorem untinted_lineText (shown : line.instruction? = some i) (assigned : i.opcode? = some op) :
    untinted (lineText true line) = lineText false line := by
  have stray : Stray '\x1b' := by decide
  obtain ⟨head, middle, tail⟩ := stray.lacks_parts assigned line
  rw [lineText_eq shown, lineText_eq shown, untinted_append head,
    Tint.dimmed.untinted_paint_append (by decide), untinted_append middle,
    Tint.dimmed.untinted_paint_append (by decide), untinted_of_lacks tail]
  rfl

theorem Tint.lacks_paint (tint : Tint) (colored : Bool) {text : String} (lacks : Lacks '?' text) :
    Lacks '?' (tint.paint colored text) := by
  have before : Lacks '?' ("\x1b[" ++ tint.code ++ "m") := by cases tint <;> decide
  have after : Lacks '?' "\x1b[0m" := by decide
  rw [paint]
  split
  · exact (before.append lacks).append after
  · exact lacks

/-- Only a byte that stands for no operation makes a line ask. -/
theorem legible_lineText (shown : line.instruction? = some i) (assigned : i.opcode? = some op)
    (colored : Bool) : Lacks '?' (lineText colored line) := by
  have stray : Stray '?' := by decide
  obtain ⟨head, middle, tail⟩ := stray.lacks_parts assigned line
  have dp : Lacks '?' (Tint.dimmed.paint colored "dp") :=
    Tint.dimmed.lacks_paint colored (by decide)
  have cell : Lacks '?' (Tint.dimmed.paint colored "cell") :=
    Tint.dimmed.lacks_paint colored (by decide)
  rw [lineText_eq shown]
  exact head.append (dp.append (middle.append (cell.append tail)))

end CommandLine
end Brainfuck
