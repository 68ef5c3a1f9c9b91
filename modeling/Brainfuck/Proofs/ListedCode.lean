import Brainfuck.Proofs.ListingLines
import Brainfuck.Proofs.Serialization

/-!
# Code told by its listing

A listing does not show the operand of an operation that has no use for one, so it does not tell any
code from any other. In compiled code such an operand is zero, and then the text of an instruction
tells the instruction (`Instruction.eq_of_text_eq`). The lines of a listing are told by the text,
and their number gives the width of the column, so each line tells the text of its instruction. Main
statement: compiled codes with equal listings are the same words (`listing_determines_code`).
-/
namespace Brainfuck

open Instruction

theorem Opcode.mnemonic_injective {op other : Opcode} (same : op.mnemonic = other.mnemonic) :
    op = other := by
  cases op <;> cases other <;> first | rfl | exact absurd same (by decide)

namespace Instruction

variable {i j : Instruction} {op : Opcode}

/-- A listing shows all there is to an instruction: its byte stands for an operation, and an operand
that is not shown is zero. -/
def ShownWhole (i : Instruction) : Prop :=
  ∃ op, i.opcode? = some op ∧ ((op.isRepeatable || op.isJump) = false → i.operand = 0)

/-- The words of which an instruction is put together in a listing: the name of the operation and,
where it is shown, the operand. -/
theorem splitOn_text (assigned : i.opcode? = some op) :
    i.text.toList.splitOn ' ' = op.mnemonic.toList ::
      if op.isRepeatable || op.isJump then [(toString i.operand).toList] else [] := by
  have name : Lacks ' ' op.mnemonic := op.lacks_mnemonic rfl (by decide)
  have numeral : Lacks ' ' (toString i.operand) := lacks_repr rfl i.operand
  simp only [text, assigned]
  split
  · have words : (op.mnemonic ++ " " ++ toString i.operand).toList =
        op.mnemonic.toList ++ ' ' :: (toString i.operand).toList := by simp
    rw [words, List.splitOn_append_cons_self_of_not_mem name, List.splitOn_eq_singleton numeral]
  · exact List.splitOn_eq_singleton name

/-- Instructions that are shown whole are told by their text. -/
theorem eq_of_text_eq (whole : i.ShownWhole) (whole' : j.ShownWhole) (same : i.text = j.text) :
    i = j := by
  obtain ⟨op, assigned, unshown⟩ := whole
  obtain ⟨op', assigned', unshown'⟩ := whole'
  have words := congrArg (fun text => text.toList.splitOn ' ') same
  rw [splitOn_text assigned, splitOn_text assigned'] at words
  obtain ⟨names, operands⟩ := List.cons.inj words
  obtain rfl : op = op' := Opcode.mnemonic_injective (String.toList_inj.mp names)
  have code : i.code = j.code := by
    rw [Opcode.ofCode?_eq_some_iff.mp assigned, Opcode.ofCode?_eq_some_iff.mp assigned']
  refine Instruction.ext code ?_
  cases shown : op.isRepeatable || op.isJump with
  | false => rw [unshown shown, unshown' shown]
  | true =>
    rw [shown] at operands
    have digits : Nat.toDigits 10 i.operand = Nat.toDigits 10 j.operand := by
      simpa using (List.cons.inj operands).1
    rw [← Nat.ofDigitChars_ten_toDigits (n := i.operand), digits, Nat.ofDigitChars_ten_toDigits]

end Instruction

namespace Code

variable {code code' : Code}

theorem Role.shownWhole {k : Nat} {i : Instruction} (role : code.Role k i) : i.ShownWhole := by
  cases role with
  | act here =>
    cases here with
    | @counted op repeatable n pos fits =>
      refine ⟨op, opcode?_make .., ?_⟩
      rw [repeatable]
      exact nofun
    | transfer _ _ => exact ⟨_, opcode?_make .., fun _ => rfl⟩
  | opening fits _ => exact ⟨.jumpForward, opcode?_make .., nofun⟩
  | closing fits _ _ => exact ⟨.jumpBackward, opcode?_make .., nofun⟩

theorem shownWhole_of_compile {flags : Flags} {source : String}
    (compiled : compile flags source = .ok code) {k : Nat} {i : Instruction}
    (here : code.get? k = some i) : i.ShownWhole := by
  have nested := (renders_of_compile compiled).nested
  rcases nested.role_of_get? here with ⟨_, rfl⟩ | ⟨_, role⟩
  · exact ⟨.eof, rfl, fun _ => rfl⟩
  · exact role.shownWhole

/-- Equal listings have as many lines. -/
theorem size_eq_of_listing_eq (same : code.listing = code'.listing) : code.size = code'.size := by
  rw [← length_entries, ← linesOf_listing, same, linesOf_listing, length_entries]

theorem entry_injective {width index : Nat} {i j : Instruction}
    (same : entry width index i = entry width index j) : i.text = j.text := by
  have characters := congrArg String.toList same
  simp only [entry, String.toList_append] at characters
  exact String.toList_inj.mp (List.append_cancel_left characters)

/-- At each index, equal listings show instructions of one text. -/
theorem text_eq_of_listing_eq (same : code.listing = code'.listing) (k : Nat) :
    (code.get? k).map Instruction.text = (code'.get? k).map Instruction.text := by
  have lines : code.entries[k]? = code'.entries[k]? := by
    rw [← linesOf_listing, same, linesOf_listing]
  rw [getElem?_entries, getElem?_entries, size_eq_of_listing_eq same] at lines
  cases here : code.get? k with
  | none =>
    cases there : code'.get? k with
    | none => rfl
    | some j => simp [here, there] at lines
  | some i =>
    cases there : code'.get? k with
    | none => simp [here, there] at lines
    | some j =>
      rw [here, there] at lines
      exact congrArg some (entry_injective (Option.some.inj lines))

/-- Codes that are shown whole are told by their listings. -/
theorem toList_eq_of_listing_eq (whole : ∀ k i, code.get? k = some i → i.ShownWhole)
    (whole' : ∀ k i, code'.get? k = some i → i.ShownWhole)
    (same : code.listing = code'.listing) : code.toList = code'.toList := by
  apply List.ext_getElem?
  intro k
  have texts := text_eq_of_listing_eq same k
  rw [getElem?_toList, getElem?_toList]
  cases here : code.get? k with
  | none =>
    rw [here, Option.map_none, eq_comm, Option.map_eq_none_iff] at texts
    rw [texts]
  | some i =>
    rw [here, Option.map_some, eq_comm, Option.map_eq_some_iff] at texts
    obtain ⟨j, there, same⟩ := texts
    rw [there, eq_of_text_eq (whole k i here) (whole' k j there) same.symm]

theorem listing_eq_of_words_eq (same : code.words = code'.words) :
    code.listing = code'.listing := by
  have listed : code.toList = code'.toList := by
    rw [← map_ofWord_words, same, map_ofWord_words]
  have sized : code.size = code'.size := by
    rw [← length_toList, listed, length_toList]
  rw [listing, listing, listingLines, listingLines, listed, sized]

end Code

/-- The listing of compiled code tells its words: two codes, compiled from whatever sources under
whatever optimizations, have the same listing just if they are the same words. -/
theorem listing_determines_code {flags flags' : Flags} {source source' : String} {code code' : Code}
    (compiled : compile flags source = .ok code) (compiled' : compile flags' source' = .ok code') :
    code.listing = code'.listing ↔ code.words = code'.words := by
  constructor
  · intro same
    have listed := Code.toList_eq_of_listing_eq (fun _ _ => Code.shownWhole_of_compile compiled)
      (fun _ _ => Code.shownWhole_of_compile compiled') same
    rw [Code.words, Code.words, listed]
  · exact Code.listing_eq_of_words_eq

/-- A dropped loop does not show, the distance of a loop does. -/
theorem listing_determines_code_of_loops : ∃ code code' long : Code,
    compile .all "[a comment]++[-]" = .ok code ∧
    compile ⟨true, false⟩ "+ +[-]" = .ok code' ∧ compile .plain "++[-]" = .ok long ∧
    (code.listing = code'.listing ↔ code.words = code'.words) ∧ code.listing = code'.listing ∧
    code.listing ≠ long.listing := by
  have compiled : compile .all "[a comment]++[-]" = .ok _ := rfl
  have compiled' : compile ⟨true, false⟩ "+ +[-]" = .ok _ := rfl
  have compiledLong : compile .plain "++[-]" = .ok _ := rfl
  have same := listing_determines_code compiled compiled'
  refine ⟨_, _, _, compiled, compiled', compiledLong, same, same.mpr rfl, ?_⟩
  rw [Ne, listing_determines_code compiled compiledLong]
  decide

/-- Code that is not compiled may hold an operand that is not shown. -/
example : (Code.ofWords [0x106]).listing = (Code.ofWords [0x006]).listing := rfl

end Brainfuck
