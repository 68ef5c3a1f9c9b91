import Brainfuck.Code.Basic
import Brainfuck.Proofs.Characters
import Mathlib.Algebra.Group.Nat.Defs

/-!
# The lines of a listing

A text is cut where a line feed ends a line (`linesOf`). No line of a listing holds another line
feed, so its lines are the instructions in order (`Code.linesOf_listing`). The column of the indices
is as wide as the number of instructions when written out, and this is one more than the widest
index. Main statement: all colons stand in one column, which is as wide as the widest index unless
the number of instructions is a power of ten beyond one, and then it is wider by one blank
(`listing_column`).
-/
namespace Brainfuck

/-- The lines of a text, each of which is ended by a line feed. What comes after the last line feed
is no line. -/
def linesOf (text : String) : List String :=
  (text.toList.splitOn '\n').dropLast.map String.ofList

theorem linesOf_empty : linesOf "" = [] := by
  simp [linesOf]

/-- A line that is ended by its first line feed is cut off. -/
theorem linesOf_append {line : String} (single : Lacks '\n' line) (rest : String) :
    linesOf (line ++ "\n" ++ rest) = line :: linesOf rest := by
  have text : (line ++ "\n" ++ rest).toList = line.toList ++ '\n' :: rest.toList := by simp
  have later : rest.toList.splitOn '\n' ≠ [] := List.splitOn_ne_nil _ _
  rw [linesOf, text, List.splitOn_append_cons_self_of_not_mem single,
    List.dropLast_cons_of_ne_nil later, List.map_cons, String.ofList_toList, linesOf]

theorem linesOf_join {lines : List String} (single : ∀ line ∈ lines, Lacks '\n' line) :
    linesOf (String.join (lines.map (· ++ "\n"))) = lines := by
  induction lines with
  | nil => exact linesOf_empty
  | cons line lines ih =>
    obtain ⟨here, later⟩ := List.forall_mem_cons.mp single
    rw [List.map_cons, String.join_cons, linesOf_append here, ih later]

namespace Code

/-- A line of a listing without the line feed. -/
def entry (width index : Nat) (i : Instruction) : String :=
  padLeft width (toString index) ++ ": " ++ i.text

theorem lacks_entry (width index : Nat) (i : Instruction) :
    Lacks '\n' (entry width index i) := by
  have index : Lacks '\n' (padLeft width (toString index)) :=
    (lacks_repr rfl index).padLeft (by decide) width
  have colon : Lacks '\n' ": " := by decide
  exact (index.append colon).append i.lacks_lineFeed

variable (code : Code)

def entries : List String :=
  code.toList.zipIdx.map fun e => entry (decimalWidth code.size) e.2 e.1

theorem listing_eq_join : code.listing = String.join (code.entries.map (· ++ "\n")) := by
  rw [listing, listingLines, entries, List.map_map]
  rfl

/-- Cutting a listing gives its lines. -/
theorem linesOf_listing : linesOf code.listing = code.entries := by
  rw [listing_eq_join]
  apply linesOf_join
  intro line member
  obtain ⟨e, _, rfl⟩ := List.mem_map.mp member
  exact lacks_entry _ e.2 e.1

theorem length_entries : code.entries.length = code.size := by
  simp [entries]

theorem getElem?_entries (k : Nat) :
    code.entries[k]? = (code.get? k).map (entry (decimalWidth code.size) k) := by
  simp only [entries, List.getElem?_map, List.getElem?_zipIdx, getElem?_toList, Nat.zero_add,
    Option.map_map]
  rfl

end Code

/-! ### The width of the column -/

theorem decimalWidth_le_iff {n width : Nat} (pos : 0 < width) :
    decimalWidth n ≤ width ↔ n < 10 ^ width :=
  Nat.length_toDigits_le_iff (by decide) pos

theorem decimalWidth_pos (n : Nat) : 0 < decimalWidth n :=
  Nat.length_toDigits_pos

theorem length_toString (n : Nat) : (toString n).length = decimalWidth n := by
  rw [Nat.toString_eq_ofList_toDigits, String.length_ofList, decimalWidth]

theorem lt_pow_decimalWidth (n : Nat) : n < 10 ^ decimalWidth n :=
  (decimalWidth_le_iff (decimalWidth_pos n)).mp (Nat.le_refl _)

theorem decimalWidth_mono {m n : Nat} (le : m ≤ n) : decimalWidth m ≤ decimalWidth n :=
  (decimalWidth_le_iff (decimalWidth_pos n)).mpr (Nat.lt_of_le_of_lt le (lt_pow_decimalWidth n))

def TenPower (n : Nat) : Prop :=
  ∃ e, n = 10 ^ (e + 1)

/-- A power of ten is written with one digit more than the number before it. -/
theorem decimalWidth_of_tenPower {n : Nat} (power : TenPower (n + 1)) :
    decimalWidth (n + 1) = decimalWidth n + 1 := by
  obtain ⟨e, same⟩ := power
  have grows : 10 ^ (e + 1) < 10 ^ (e + 2) := Nat.pow_lt_pow_right (by decide) (Nat.lt_succ_self _)
  have few : decimalWidth n ≤ e + 1 := (decimalWidth_le_iff (Nat.succ_pos e)).mpr (by omega)
  have many : ¬ decimalWidth (n + 1) ≤ e + 1 := by
    rw [decimalWidth_le_iff (Nat.succ_pos e)]
    omega
  have next : decimalWidth (n + 1) ≤ e + 2 := (decimalWidth_le_iff (Nat.succ_pos _)).mpr (by omega)
  have wide : ¬ decimalWidth n < e + 1 := by
    intro less
    have below := lt_pow_decimalWidth n
    have fewer : 10 ^ decimalWidth n ≤ 10 ^ e := Nat.pow_le_pow_right (by decide) (by omega)
    have tenfold : 10 ^ (e + 1) = 10 ^ e * 10 := Nat.pow_succ ..
    have pos : 0 < 10 ^ e := Nat.pow_pos (by decide)
    omega
  omega

/-- Any other number is written with as many digits as the number before it. -/
theorem decimalWidth_of_not_tenPower {n : Nat} (other : ¬ TenPower (n + 1)) :
    decimalWidth (n + 1) = decimalWidth n := by
  have pos := decimalWidth_pos n
  have below := lt_pow_decimalWidth n
  have differs : n + 1 ≠ 10 ^ decimalWidth n := by
    intro same
    refine other ⟨decimalWidth n - 1, ?_⟩
    rw [Nat.sub_add_cancel pos]
    exact same
  have fits : decimalWidth (n + 1) ≤ decimalWidth n := (decimalWidth_le_iff pos).mpr (by omega)
  have grows : decimalWidth n ≤ decimalWidth (n + 1) := decimalWidth_mono (Nat.le_succ n)
  omega

/-! ### Alignment -/

/-- A line that shows an index, aligned to the right in a column, and behind a colon an
instruction. -/
structure Aligned (width index : Nat) (i : Instruction) (line : String) : Prop where
  shown : ∃ blanks, line = "".pushn ' ' blanks ++ toString index ++ ": " ++ i.text ∧
    blanks + (toString index).length = width
  colon : line.toList.idxOf ':' = width

/-- An index that is no wider than the column is aligned. -/
theorem aligned_entry {width index : Nat} (fits : decimalWidth index ≤ width) (i : Instruction) :
    Aligned width index i (Code.entry width index i) := by
  constructor
  · refine ⟨width - (toString index).length, rfl, ?_⟩
    rw [length_toString]
    omega
  · have before : ':' ∉ (padLeft width (toString index)).toList :=
      (lacks_repr rfl index).padLeft (by decide) width
    have text : (Code.entry width index i).toList =
        (padLeft width (toString index)).toList ++ ':' :: ' ' :: i.text.toList := by
      simp [Code.entry]
    rw [text, List.idxOf_append, if_neg before, List.idxOf_cons_self, Nat.zero_add,
      String.length_toList, padLeft, String.length_append, String.length_pushn,
      String.length_empty, length_toString]
    omega

/-- A listing has a line for each instruction, in order, and each line shows its index aligned to
the right and a colon behind it in the same column. No index is wider than the last. The column is
as wide as that, and the last line begins with its index, unless the number of instructions is a
power of ten beyond one: then the column is wider by one, and the last line begins with a blank. -/
theorem listing_column (code : Code) :
    String.join ((linesOf code.listing).map (· ++ "\n")) = code.listing ∧
    (linesOf code.listing).length = code.size ∧
    (∀ k i, code.get? k = some i → ∃ line, (linesOf code.listing)[k]? = some line ∧
      Aligned (decimalWidth code.size) k i line) ∧
    (∀ k < code.size, (toString k).length ≤ (toString (code.size - 1)).length) ∧
    (¬ TenPower code.size →
      decimalWidth code.size = (toString (code.size - 1)).length ∧
      (linesOf code.listing).getLast? = some (toString (code.size - 1) ++ ": EOF")) ∧
    (TenPower code.size →
      decimalWidth code.size = (toString (code.size - 1)).length + 1 ∧
      (linesOf code.listing).getLast? = some (" " ++ toString (code.size - 1) ++ ": EOF")) := by
  have last : code.entries.getLast? =
      some (Code.entry (decimalWidth code.size) (code.size - 1) .eof) := by
    rw [List.getLast?_eq_getElem?, code.length_entries, code.getElem?_entries]
    have ends : code.get? (code.size - 1) = some .eof := if_pos rfl
    rw [ends, Option.map_some]
  have eof : ": " ++ Instruction.eof.text = ": EOF" := rfl
  simp only [code.linesOf_listing, length_toString, last, Option.some.injEq]
  refine ⟨code.listing_eq_join.symm, code.length_entries, ?_, ?_, ?_, ?_⟩
  · intro k i here
    have inside := Code.lt_size_of_get? here
    refine ⟨_, by rw [code.getElem?_entries, here, Option.map_some], ?_⟩
    exact aligned_entry (decimalWidth_mono (Nat.le_of_lt inside)) i
  · intro k inside
    exact decimalWidth_mono (by omega)
  · intro other
    have width : decimalWidth code.size = decimalWidth (code.size - 1) :=
      decimalWidth_of_not_tenPower other
    refine ⟨width, ?_⟩
    have blanks : "".pushn ' ' 0 = "" := rfl
    rw [Code.entry, padLeft, length_toString, width, Nat.sub_self, String.append_assoc, eof,
      blanks, String.empty_append]
  · intro power
    have width : decimalWidth code.size = decimalWidth (code.size - 1) + 1 :=
      decimalWidth_of_tenPower power
    refine ⟨width, ?_⟩
    have blanks : "".pushn ' ' 1 = " " := rfl
    rw [Code.entry, padLeft, length_toString, width, Nat.add_sub_cancel_left, String.append_assoc,
      eof, blanks]

/-- Of nine instructions, the last has the index 8 and a column of one. Of ten, the last has the
index 9, and the column is two wide. -/
theorem listing_column_of_nine_and_ten :
    let nine := Code.ofWords (List.replicate 8 0x104)
    let ten := Code.ofWords (List.replicate 9 0x104)
    (linesOf nine.listing).getLast? = some "8: EOF" ∧
      TenPower ten.size ∧ (linesOf ten.listing).getLast? = some " 9: EOF" := by
  intro nine ten
  obtain ⟨_, _, _, _, other, _⟩ := listing_column nine
  obtain ⟨_, _, _, _, _, power⟩ := listing_column ten
  have few : nine.size = 9 := rfl
  have many : ten.size = 10 := rfl
  have ninth : ¬ TenPower nine.size := by
    rintro ⟨e, same⟩
    have more : 10 ^ 1 ≤ 10 ^ (e + 1) := Nat.pow_le_pow_right (by decide) (by omega)
    omega
  have tenth : TenPower ten.size := ⟨0, many⟩
  obtain ⟨_, last⟩ := other ninth
  obtain ⟨_, last'⟩ := power tenth
  rw [few] at last
  rw [many] at last'
  exact ⟨last, tenth, last'⟩

end Brainfuck
