import Brainfuck.Source.Basic
import Brainfuck.Text

/-!
# Code

Operations, instructions that carry one with an operand, and sequences of instructions, with the
words, bytes and lines they are written as. Packing an instruction into a word loses nothing:
`Instruction.ofWord_toWord` and `Instruction.toWord_ofWord`.
-/
namespace Brainfuck

/-!
### Operation codes

What an instruction does is told by one byte. Ten of the 256 bytes are assigned; 8 and everything
above 10 mean nothing.
-/

inductive Opcode
  | eof
  | nop
  | moveRight
  | moveLeft
  | add
  | subtract
  | read
  | write
  | jumpForward
  | jumpBackward
  deriving DecidableEq

namespace Opcode

def all : List Opcode :=
  [eof, nop, moveRight, moveLeft, add, subtract, read, write, jumpForward, jumpBackward]

def code : Opcode → UInt8
  | eof => 0
  | nop => 1
  | moveRight => 2
  | moveLeft => 3
  | add => 4
  | subtract => 5
  | read => 6
  | write => 7
  | jumpForward => 9
  | jumpBackward => 10

def ofCode? : UInt8 → Option Opcode
  | 0 => some eof
  | 1 => some nop
  | 2 => some moveRight
  | 3 => some moveLeft
  | 4 => some add
  | 5 => some subtract
  | 6 => some read
  | 7 => some write
  | 9 => some jumpForward
  | 10 => some jumpBackward
  | _ => none

/-- The name of an operation in a listing. -/
def mnemonic : Opcode → String
  | eof => "EOF"
  | nop => "NOP"
  | moveRight => "PTR_INC"
  | moveLeft => "PTR_DEC"
  | add => "MEM_INC"
  | subtract => "MEM_DEC"
  | read => "READ"
  | write => "WRITE"
  | jumpForward => "JMP_FWD"
  | jumpBackward => "JMP_BAC"

/-- Operations whose operand says how often they are done. -/
def isRepeatable : Opcode → Bool
  | moveRight | moveLeft | add | subtract => true
  | _ => false

/-- Operations whose operand is the distance to the other bracket of a loop. -/
def isJump : Opcode → Bool
  | jumpForward | jumpBackward => true
  | _ => false

@[simp] theorem ofCode?_code (op : Opcode) : ofCode? op.code = some op := by
  cases op <;> rfl

theorem ofCode?_eq_some_iff {b : UInt8} {op : Opcode} : ofCode? b = some op ↔ b = op.code := by
  constructor
  · intro h
    unfold ofCode? at h
    split at h <;> cases h <;> rfl
  · rintro rfl
    exact ofCode?_code op

theorem code_injective {op other : Opcode} (same : op.code = other.code) : op = other :=
  Option.some.inj ((ofCode?_code op).symm.trans (same ▸ ofCode?_code other))

end Opcode

/-!
### Instructions

An instruction is an operation byte with an operand of 24 bits. The operand of a repeatable
operation is a count, that of a jump the distance to its partner; others leave it zero. An
instruction packs into one word of 32 bits, the operation in the low byte. Packing loses nothing:
`ofWord_toWord` and `toWord_ofWord`.
-/

/-- The largest operand an instruction can hold: 24 bits set. -/
def maxOperand : Nat := 0xffffff

/-- One instruction. Its byte need not be assigned to an operation. -/
@[ext] structure Instruction where
  code : UInt8
  operand : Nat
  operand_le : operand ≤ maxOperand
  deriving DecidableEq

namespace Instruction

def make (op : Opcode) (operand : Nat) (fits : operand ≤ maxOperand) : Instruction :=
  ⟨op.code, operand, fits⟩

def eof : Instruction := make .eof 0 (by decide)

/-- The instruction that does nothing. It stands for commentary. -/
def nop : Instruction := make .nop 0 (by decide)

/-- A glyph on its own: a repeatable operation is done once, a jump has no distance yet. -/
def ofGlyph : Glyph → Instruction
  | .right => make .moveRight 1 (by decide)
  | .left => make .moveLeft 1 (by decide)
  | .increment => make .add 1 (by decide)
  | .decrement => make .subtract 1 (by decide)
  | .write => make .write 0 (by decide)
  | .read => make .read 0 (by decide)
  | .opening => make .jumpForward 0 (by decide)
  | .closing => make .jumpBackward 0 (by decide)

def withOperand (i : Instruction) (operand : Nat) (fits : operand ≤ maxOperand) : Instruction :=
  ⟨i.code, operand, fits⟩

def opcode? (i : Instruction) : Option Opcode :=
  Opcode.ofCode? i.code

def isA (i : Instruction) (op : Opcode) : Bool :=
  i.code == op.code

def isRepeatable (i : Instruction) : Bool :=
  i.opcode?.any Opcode.isRepeatable

/-- The 32-bit word of an instruction: the operand above the operation byte. -/
def toWord (i : Instruction) : UInt32 :=
  UInt32.ofNat (i.operand * 256 + i.code.toNat)

def ofWord (w : UInt32) : Instruction :=
  ⟨UInt8.ofNat w.toNat, w.toNat / 256, by
    have h := w.toNat_lt
    simp only [maxOperand]
    omega⟩

/-- The four bytes of the word, the operation first and the operand's low byte next. -/
def bytes (i : Instruction) : List UInt8 :=
  [i.code, UInt8.ofNat i.operand, UInt8.ofNat (i.operand / 256), UInt8.ofNat (i.operand / 65536)]

/-- An instruction in a listing. Only counts and distances are shown; an unassigned byte shows the
whole word. -/
def text (i : Instruction) : String :=
  match i.opcode? with
  | some op =>
    if op.isRepeatable || op.isJump then op.mnemonic ++ " " ++ toString i.operand
    else op.mnemonic
  | none => "?? 0x" ++ hexadecimal 8 i.toWord.toNat

theorem toWord_toNat (i : Instruction) : i.toWord.toNat = i.operand * 256 + i.code.toNat := by
  have code := i.code.toNat_lt
  have operand := i.operand_le
  simp only [maxOperand] at operand
  simp only [toWord, UInt32.toNat_ofNat']
  omega

@[simp] theorem ofWord_toWord (i : Instruction) : ofWord i.toWord = i := by
  have code := i.code.toNat_lt
  have word := i.toWord_toNat
  apply Instruction.ext
  · apply UInt8.toNat_inj.mp
    simp only [ofWord, UInt8.toNat_ofNat', word]
    omega
  · simp only [ofWord, word]
    omega

@[simp] theorem toWord_ofWord (w : UInt32) : (ofWord w).toWord = w := by
  have bound := w.toNat_lt
  apply UInt32.toNat_inj.mp
  rw [toWord_toNat]
  simp only [ofWord, UInt8.toNat_ofNat']
  omega

@[simp] theorem opcode?_make (op : Opcode) (n : Nat) (fits : n ≤ maxOperand) :
    (make op n fits).opcode? = some op :=
  Opcode.ofCode?_code op

theorem isA_iff {i : Instruction} {op : Opcode} : i.isA op = true ↔ i.opcode? = some op := by
  rw [isA, beq_iff_eq, opcode?, Opcode.ofCode?_eq_some_iff]

end Instruction

/-!
### Code

Code is a sequence of instructions that ends in `EOF`. Only the instructions before the final one
are stored, so a code without an end cannot be built.
-/

/-- A sequence of instructions, given by those before the final `EOF`. -/
structure Code where
  body : Array Instruction
  deriving DecidableEq

namespace Code

/-- The number of instructions, the final one included. -/
def size (code : Code) : Nat :=
  code.body.size + 1

def get? (code : Code) (index : Nat) : Option Instruction :=
  if index = code.body.size then some .eof else code.body[index]?

def toArray (code : Code) : Array Instruction :=
  code.body.push .eof

def toList (code : Code) : List Instruction :=
  code.toArray.toList

def words (code : Code) : List UInt32 :=
  code.toList.map Instruction.toWord

/-- The code whose instructions before the end are the given words. -/
def ofWords (words : List UInt32) : Code :=
  ⟨(words.map Instruction.ofWord).toArray⟩

def bytes (code : Code) : List UInt8 :=
  code.toList.flatMap Instruction.bytes

theorem get?_eq_getElem? (code : Code) (index : Nat) : code.get? index = code.toArray[index]? := by
  unfold get? toArray
  split
  · next last => rw [last, Array.getElem?_push_size]
  · next other => rw [Array.getElem?_push, if_neg other]

theorem get?_isSome_iff {code : Code} {index : Nat} :
    (code.get? index).isSome ↔ index < code.size := by
  rw [get?_eq_getElem?, toArray]
  simp [size]

theorem lt_size_of_get? {code : Code} {index : Nat} {i : Instruction}
    (h : code.get? index = some i) : index < code.size :=
  get?_isSome_iff.mp (by rw [h]; rfl)

theorem getElem?_toList (code : Code) (index : Nat) : code.toList[index]? = code.get? index := by
  rw [toList, Array.getElem?_toList, get?_eq_getElem?]

@[simp] theorem size_toArray (code : Code) : code.toArray.size = code.size := by
  simp [toArray, size]

@[simp] theorem length_toList (code : Code) : code.toList.length = code.size := by
  simp [toList]

end Code

/-!
### Listings

A listing shows one instruction a line, after its index and a colon. Indices are aligned to the
right in a column as wide as the number of instructions is when written out.
-/

namespace Code

def listingLine (width index : Nat) (i : Instruction) : String :=
  padLeft width (toString index) ++ ": " ++ i.text ++ "\n"

def listingLines (code : Code) : List String :=
  code.toList.zipIdx.map fun entry => listingLine (decimalWidth code.size) entry.2 entry.1

def listing (code : Code) : String :=
  String.join code.listingLines

end Code

end Brainfuck
