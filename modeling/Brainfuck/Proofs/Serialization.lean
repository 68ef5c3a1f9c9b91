import Brainfuck.Proofs.WellFormed

/-!
# Code read back from its bytes

The bytes of a code are cut into groups of four (`fours`), and a group is read with its low byte
first (`littleEndian`). Main statement: this gives back the words of the code, whatever they are;
each group is an operation byte and the three bytes of an operand; and in compiled code only the
last group begins with a zero byte (`bytes_lose_nothing`).
-/
namespace Brainfuck

/-- A list cut into groups of four. What is left over at the end is no group. -/
def fours {α : Type} : List α → List (List α)
  | a :: b :: c :: d :: rest => [a, b, c, d] :: fours rest
  | _ => []

def littleEndian : List UInt8 → Nat
  | [] => 0
  | b :: bs => b.toNat + 256 * littleEndian bs

def wordsOf (bytes : List UInt8) : List UInt32 :=
  (fours bytes).map fun group => UInt32.ofNat (littleEndian group)

namespace Instruction

theorem length_bytes (i : Instruction) : i.bytes.length = 4 := rfl

theorem head?_bytes (i : Instruction) : i.bytes.head? = some i.code := rfl

/-- The bytes after the first are those of the operand. -/
theorem littleEndian_tail_bytes (i : Instruction) : littleEndian i.bytes.tail = i.operand := by
  have fits := i.operand_le
  simp only [maxOperand] at fits
  simp only [bytes, List.tail_cons, littleEndian, UInt8.toNat_ofNat']
  omega

theorem littleEndian_bytes (i : Instruction) : littleEndian i.bytes = i.toWord.toNat := by
  have firstByte : littleEndian i.bytes = i.code.toNat + 256 * littleEndian i.bytes.tail := rfl
  rw [firstByte, littleEndian_tail_bytes, toWord_toNat]
  omega

theorem fours_flatMap_bytes (is : List Instruction) :
    fours (is.flatMap bytes) = is.map bytes := by
  induction is with
  | nil => rfl
  | cons i is ih =>
    have first : fours ((i :: is).flatMap bytes) = i.bytes :: fours (is.flatMap bytes) := rfl
    rw [first, ih, List.map_cons]

/-- The zero byte is that of the end. -/
theorem isA_eof_iff {i : Instruction} : i.isA .eof = true ↔ i.code = 0 :=
  beq_iff_eq

end Instruction

namespace Code

variable (code : Code)

/-- The groups are the bytes of one instruction each. -/
theorem fours_bytes : fours code.bytes = code.toList.map Instruction.bytes :=
  Instruction.fours_flatMap_bytes code.toList

theorem length_bytes : code.bytes.length = 4 * code.size := by
  have four : List.length ∘ Instruction.bytes = fun _ => 4 := funext Instruction.length_bytes
  rw [bytes, List.length_flatMap, ← Function.comp_def, four, List.map_const', length_toList,
    List.sum_replicate_nat, Nat.mul_comm]

theorem wordsOf_bytes : wordsOf code.bytes = code.words := by
  rw [wordsOf, fours_bytes, List.map_map, words]
  refine List.map_congr_left fun i _ => ?_
  rw [Function.comp_apply, Instruction.littleEndian_bytes, UInt32.ofNat_toNat]

theorem getElem?_fours_bytes (k : Nat) :
    (fours code.bytes)[k]? = (code.get? k).map Instruction.bytes := by
  rw [fours_bytes, List.getElem?_map, getElem?_toList]

/-- The words are those of the code, and the zero word at its end. -/
theorem words_ofWords (words : List UInt32) : (ofWords words).words = words ++ [0] := by
  have back : Instruction.toWord ∘ Instruction.ofWord = id := funext Instruction.toWord_ofWord
  have ends : Instruction.eof.toWord = 0 := rfl
  rw [Code.words, toList, toArray, ofWords, Array.toList_push, List.map_append, List.map_map, back,
    List.map_id, List.map_singleton, ends]

theorem map_ofWord_words : code.words.map Instruction.ofWord = code.toList := by
  have back : Instruction.ofWord ∘ Instruction.toWord = id := funext Instruction.ofWord_toWord
  rw [words, List.map_map, back, List.map_id]

theorem getLast?_toList : code.toList.getLast? = some .eof := by
  rw [toList, toArray, Array.toList_push, List.getLast?_concat]

end Code

/-- The bytes of any code are four for each instruction, and cut into groups of four and read with
the low byte first they give back its words in order, which may be any words up to the zero at the
end. Each group is the operation byte of its instruction and then three bytes that write the
operand. The instructions of compiled code that are read back end in the end of the program, and a
group begins with a zero byte just if it is the last. -/
theorem bytes_lose_nothing :
    (∀ code : Code, code.bytes.length = 4 * code.size ∧ wordsOf code.bytes = code.words ∧
      ∀ k i, code.get? k = some i → ∃ operand, operand.length = 3 ∧
        (fours code.bytes)[k]? = some (i.code :: operand) ∧ littleEndian operand = i.operand) ∧
    (∀ words : List UInt32, (Code.ofWords words).words = words ++ [0]) ∧
    ∀ (flags : Flags) (source : String) (code : Code), compile flags source = .ok code →
      ((wordsOf code.bytes).map Instruction.ofWord).getLast? = some .eof ∧
      ∀ k group, (fours code.bytes)[k]? = some group →
        (group.head? = some 0 ↔ k + 1 = code.size) := by
  refine ⟨?_, Code.words_ofWords, ?_⟩
  · intro code
    refine ⟨code.length_bytes, code.wordsOf_bytes, ?_⟩
    intro k i here
    refine ⟨i.bytes.tail, rfl, ?_, i.littleEndian_tail_bytes⟩
    rw [code.getElem?_fours_bytes, here]
    rfl
  · intro flags source code compiled
    have formed := wellFormed_of_compile compiled
    constructor
    · rw [code.wordsOf_bytes, code.map_ofWord_words, code.getLast?_toList]
    · intro k group here
      rw [code.getElem?_fours_bytes] at here
      obtain ⟨i, present, rfl⟩ := Option.map_eq_some_iff.mp here
      rw [i.head?_bytes, Option.some_inj, ← Instruction.isA_eof_iff]
      constructor
      · exact formed.only k i present
      · intro last
        have ends := formed.last
        rw [← last, Nat.add_sub_cancel, present] at ends
        cases ends
        rfl

/-- The operands of this code have zero bytes, and one word is of no operation at all. -/
theorem bytes_lose_nothing_with_zero_operands :
    wordsOf (Code.ofWords [0x10004, 0xffffff08, 0x100]).bytes = [0x10004, 0xffffff08, 0x100, 0] ∧
      ∃ code, compile .plain "+[-]" = .ok code ∧ code.bytes.count 0 = 12 ∧
        ∀ k group, (fours code.bytes)[k]? = some group →
          (group.head? = some 0 ↔ k + 1 = code.size) := by
  have compiled : compile .plain "+[-]" = .ok _ := rfl
  obtain ⟨every, words, read⟩ := bytes_lose_nothing
  refine ⟨?_, _, compiled, rfl, (read .plain "+[-]" _ compiled).2⟩
  rw [(every _).2.1, words]
  rfl

end Brainfuck
