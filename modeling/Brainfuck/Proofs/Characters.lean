import Brainfuck.Code.Basic

/-!
# Characters that a text lacks

What a listing or a trace shows is put together from blanks, numerals and the names of operations.
Which characters it lacks (`Lacks`) is told by these parts. Main statement: an instruction is shown
on one line, whatever its byte is (`Instruction.lacks_lineFeed`).
-/
namespace Brainfuck

/-- A character is not in a text. -/
def Lacks (c : Char) (text : String) : Prop :=
  c ∉ text.toList

instance (c : Char) (text : String) : Decidable (Lacks c text) :=
  inferInstanceAs (Decidable (¬ _))

namespace Lacks

variable {c : Char} {a b : String}

theorem append (first : Lacks c a) (second : Lacks c b) : Lacks c (a ++ b) := by
  rw [Lacks, String.toList_append, List.mem_append]
  exact not_or.mpr ⟨first, second⟩

theorem pushn (lacks : Lacks c a) (visible : c ≠ ' ') (n : Nat) : Lacks c (a.pushn ' ' n) := by
  rw [String.pushn_eq_repeat_push]
  induction n with
  | zero => exact lacks
  | succ n ih =>
    rw [Nat.repeat, Lacks, String.toList_push, List.mem_append, List.mem_singleton]
    exact not_or.mpr ⟨ih, visible⟩

theorem padLeft (lacks : Lacks c a) (visible : c ≠ ' ') (width : Nat) :
    Lacks c (padLeft width a) := by
  have empty : Lacks c "" := by simp [Lacks]
  exact (empty.pushn visible _).append lacks

theorem padRight (lacks : Lacks c a) (visible : c ≠ ' ') (width : Nat) :
    Lacks c (padRight width a) :=
  lacks.pushn visible _

end Lacks

variable {c : Char}

theorem lacks_repr (noDigit : c.isDigit = false) (n : Nat) : Lacks c n.repr := by
  rw [Lacks, Nat.toList_repr]
  intro member
  have digit := Nat.isDigit_of_mem_toDigits (by decide) (by decide) member
  exact Bool.noConfusion (noDigit.symm.trans digit)

theorem exists_digitChar {base n : Nat} (proper : 1 < base) (member : c ∈ Nat.toDigits base n) :
    ∃ digit : Nat, c = digit.digitChar := by
  induction n using Nat.strongRecOn with
  | ind n ih =>
    rw [Nat.toDigits_eq_if proper] at member
    split at member
    · exact ⟨n, List.mem_singleton.mp member⟩
    · next large =>
      rcases List.mem_append.mp member with high | low
      · exact ih (n / base) (Nat.div_lt_self (by omega) proper) high
      · exact ⟨n % base, List.mem_singleton.mp low⟩

theorem lacks_hexadecimal (noDigit : ∀ digit : Nat, c ≠ digit.digitChar) (width n : Nat) :
    Lacks c (hexadecimal width n) := by
  rw [Lacks, hexadecimal, String.toList_ofList, List.mem_append]
  rintro (zero | member)
  · exact noDigit 0 (List.eq_of_mem_replicate zero)
  · obtain ⟨digit, same⟩ := exists_digitChar (by decide) member
    exact noDigit digit same

/-- The names of operations are written with capital letters and underscores. -/
theorem Opcode.lacks_mnemonic (op : Opcode) (small : c.isUpper = false) (other : c ≠ '_') :
    Lacks c op.mnemonic := by
  have written : (op.mnemonic.toList.all fun d => d.isUpper || d == '_') = true := by
    cases op <;> rfl
  intro member
  rcases (Bool.or_eq_true _ _).mp (List.all_eq_true.mp written c member) with capital | underscore
  · exact Bool.noConfusion (small.symm.trans capital)
  · exact other (beq_iff_eq.mp underscore)

namespace Instruction

variable {i : Instruction} {op : Opcode}

/-- A listed operation is a name and, where its operand matters, a numeral behind a blank. -/
theorem lacks_text (assigned : i.opcode? = some op) (small : c.isUpper = false)
    (other : c ≠ '_') (visible : c ≠ ' ') (noDigit : c.isDigit = false) : Lacks c i.text := by
  have blank : Lacks c " " := by simpa [Lacks] using visible
  have name := op.lacks_mnemonic small other
  simp only [text, assigned]
  split
  · exact (name.append blank).append (lacks_repr noDigit i.operand)
  · exact name

/-- An instruction is shown on one line, also where its byte stands for no operation. -/
theorem lacks_lineFeed (i : Instruction) : Lacks '\n' i.text := by
  cases assigned : i.opcode? with
  | some op => exact lacks_text assigned rfl (by decide) (by decide) rfl
  | none =>
    have asks : Lacks '\n' "?? 0x" := by decide
    simp only [text, assigned]
    exact asks.append (lacks_hexadecimal (fun _ => (Nat.digitChar_ne '\n' rfl).symm) 8 _)

end Instruction
end Brainfuck
