import Brainfuck.Text

/-!
# What code acts on

A tape of cells and two streams of bytes, and the faults that code may come to.
-/
namespace Brainfuck

/-!
### Faults

What can go wrong while code runs. A fault is located at the instruction that caused it.
-/

inductive StreamError
  | interrupted
  | other
  | unexpectedEnd
  | brokenPipe
  | wouldBlock
  | permissionDenied
  | timedOut
  | invalidData
  | writeZero
  deriving DecidableEq

inductive FaultKind
  /-- The data pointer would leave the tape on the right. -/
  | pastLastCell (pointer distance cells : Nat)
  /-- The data pointer would leave the tape on the left. -/
  | beforeFirstCell (pointer distance : Nat)
  /-- There is no instruction at the instruction pointer. -/
  | noInstruction (size : Nat)
  /-- The operation byte is not assigned. -/
  | unknownOpcode (code : UInt8)
  /-- A jump's distance does not lead to a bracket that says the same. -/
  | mismatchedJump (distance : Nat)
  /-- A scan for the matching bracket found none. -/
  | unbalancedJump
  /-- As many instructions as allowed have been done. -/
  | stepLimit (limit : Nat)
  /-- A stream failed. -/
  | stream (error : StreamError)
  deriving DecidableEq

def FaultKind.message : FaultKind → String
  | pastLastCell pointer distance cells =>
    s!"Data pointer ({pointer}) moved right by {distance} out of bounds (max length {cells})"
  | beforeFirstCell pointer distance =>
    s!"Data pointer ({pointer}) moved left by {distance} below zero"
  | noInstruction size =>
    s!"Instruction pointer ran past the end of the program (length {size})"
  | unknownOpcode code => "Unknown opcode 0x" ++ hexadecimal 2 code.toNat
  | mismatchedJump distance =>
    s!"Jump distance {distance} doesn't lead to a matching bracket"
  | unbalancedJump => "Scanned off the end of the program looking for a matching bracket"
  | stepLimit limit => s!"Step limit of {limit} reached"
  | stream _ => "IO Error"

structure Fault where
  kind : FaultKind
  ip : Nat
  deriving DecidableEq

def Fault.message (f : Fault) : String :=
  f.kind.message ++ s!" (at instruction {f.ip})"

/-!
### The tape

A tape is a row of cells with a pointer at one of them. There is always at least one cell, and the
pointer is always at a cell: the type says so. Cells hold signed bytes and wrap.
-/

structure Tape where
  cells : Array Int8
  pointer : Nat
  pointer_lt : pointer < cells.size

namespace Tape

/-- A tape of zeros with the pointer at the first. A tape of no cells has one all the same. -/
def blank (size : Nat) : Tape :=
  ⟨Array.replicate (max 1 size) 0, 0, by
    rw [Array.size_replicate]
    exact Nat.lt_of_lt_of_le Nat.zero_lt_one (Nat.le_max_left 1 size)⟩

def size (t : Tape) : Nat :=
  t.cells.size

def current (t : Tape) : Int8 :=
  have inside := t.pointer_lt
  t.cells[t.pointer]

def get? (t : Tape) (index : Nat) : Option Int8 :=
  t.cells[index]?

def put (t : Tape) (value : Int8) : Tape :=
  match t with
  | ⟨cells, pointer, pointer_lt⟩ =>
    ⟨cells.set pointer value pointer_lt, pointer, by
      rw [Array.size_set]
      exact pointer_lt⟩

/-- Adds to the cell at the pointer. Only the amount modulo 256 matters. -/
def add (t : Tape) (amount : Nat) : Tape :=
  t.put (t.current + Int8.ofNat amount)

def subtract (t : Tape) (amount : Nat) : Tape :=
  t.put (t.current - Int8.ofNat amount)

def right (t : Tape) (distance : Nat) : Except FaultKind Tape :=
  if stays : t.pointer + distance < t.cells.size then
    .ok ⟨t.cells, t.pointer + distance, stays⟩
  else .error (.pastLastCell t.pointer distance t.cells.size)

def left (t : Tape) (distance : Nat) : Except FaultKind Tape :=
  if distance ≤ t.pointer then
    .ok ⟨t.cells, t.pointer - distance, Nat.lt_of_le_of_lt (Nat.sub_le _ _) t.pointer_lt⟩
  else .error (.beforeFirstCell t.pointer distance)

/-- The number of cells that are not zero. -/
def touched (t : Tape) : Nat :=
  t.cells.countP (· != 0)

@[simp] theorem size_put (t : Tape) (value : Int8) : (t.put value).size = t.size :=
  Array.size_set t.pointer_lt

@[simp] theorem pointer_put (t : Tape) (value : Int8) : (t.put value).pointer = t.pointer := rfl

@[simp] theorem current_put (t : Tape) (value : Int8) : (t.put value).current = value :=
  Array.getElem_set_self t.pointer_lt

theorem get?_put_of_ne (t : Tape) (value : Int8) {index : Nat} (other : index ≠ t.pointer) :
    (t.put value).get? index = t.get? index :=
  Array.getElem?_set_ne t.pointer_lt (Ne.symm other)

theorem get?_pointer (t : Tape) : t.get? t.pointer = some t.current :=
  Array.getElem?_eq_getElem t.pointer_lt

@[simp] theorem size_blank (n : Nat) : (blank n).size = max 1 n :=
  Array.size_replicate

end Tape

/-!
### Streams

The machine reads bytes from one stream and writes bytes to another. A stream is given by what its
calls will come to, in order: a script. After the end of its script an input has ended, and an
output takes everything. An interrupted read or write is tried again; an interrupted flush is not.
-/

/-- What one read of the input comes to. -/
inductive Arrival
  | byte (value : UInt8)
  /-- Nothing arrives. Later reads may still bring something. -/
  | finished
  | failed (error : StreamError)
  deriving DecidableEq

/-- What one write to the output comes to. -/
inductive Delivery
  | taken
  /-- Nothing is taken, and no error given. -/
  | ignored
  | failed (error : StreamError)
  deriving DecidableEq

/-- What one flush of the output comes to. -/
inductive Flush
  | done
  | failed (error : StreamError)
  deriving DecidableEq

structure Input where
  script : List Arrival
  deriving DecidableEq

/-- The next byte of a script of reads, or `none` for the end of input. -/
def Arrival.next : List Arrival → Except StreamError (Option UInt8) × List Arrival
  | [] => (.ok none, [])
  | .byte value :: rest => (.ok (some value), rest)
  | .finished :: rest => (.ok none, rest)
  | .failed .interrupted :: rest => next rest
  | .failed error :: rest => (.error error, rest)

def Input.read (input : Input) : Except StreamError (Option UInt8) × Input :=
  match Arrival.next input.script with
  | (result, rest) => (result, ⟨rest⟩)

/-- Whether a script of writes takes the next byte. A write that takes nothing is an error. -/
def Delivery.next : List Delivery → Except StreamError Unit × List Delivery
  | [] => (.ok (), [])
  | .taken :: rest => (.ok (), rest)
  | .ignored :: rest => (.error .writeZero, rest)
  | .failed .interrupted :: rest => next rest
  | .failed error :: rest => (.error error, rest)

/-- The bytes taken so far, the writes and flushes still to come, how many flushes were called
for, and how many of them were done. -/
structure Output where
  taken : Array UInt8
  writes : List Delivery
  flushes : List Flush
  flushCalls : Nat
  flushed : Nat
  deriving DecidableEq

namespace Output

def scripted (writes : List Delivery) (flushes : List Flush) : Output :=
  ⟨#[], writes, flushes, 0, 0⟩

def write (value : UInt8) : Output → Except StreamError Unit × Output
  | ⟨taken, writes, flushes, flushCalls, flushed⟩ =>
    match Delivery.next writes with
    | (.ok (), rest) => (.ok (), ⟨taken.push value, rest, flushes, flushCalls, flushed⟩)
    | (.error e, rest) => (.error e, ⟨taken, rest, flushes, flushCalls, flushed⟩)

def flush : Output → Except StreamError Unit × Output
  | ⟨taken, writes, [], flushCalls, flushed⟩ =>
    (.ok (), ⟨taken, writes, [], flushCalls + 1, flushed + 1⟩)
  | ⟨taken, writes, .done :: rest, flushCalls, flushed⟩ =>
    (.ok (), ⟨taken, writes, rest, flushCalls + 1, flushed + 1⟩)
  | ⟨taken, writes, .failed e :: rest, flushCalls, flushed⟩ =>
    (.error e, ⟨taken, writes, rest, flushCalls + 1, flushed⟩)

end Output

/-!
### The store

What instructions act on: the tape and the two streams. Each operation gives its result and the
store after it. When an operation fails the tape is as before; a stream has used up what it tried.
-/

structure Store where
  tape : Tape
  input : Input
  output : Output

namespace Store

def right (distance : Nat) : Store → Except FaultKind Unit × Store
  | ⟨tape, input, output⟩ =>
    match tape.right distance with
    | .ok tape => (.ok (), ⟨tape, input, output⟩)
    | .error kind => (.error kind, ⟨tape, input, output⟩)

def left (distance : Nat) : Store → Except FaultKind Unit × Store
  | ⟨tape, input, output⟩ =>
    match tape.left distance with
    | .ok tape => (.ok (), ⟨tape, input, output⟩)
    | .error kind => (.error kind, ⟨tape, input, output⟩)

def add (amount : Nat) : Store → Store
  | ⟨tape, input, output⟩ => ⟨tape.add amount, input, output⟩

def subtract (amount : Nat) : Store → Store
  | ⟨tape, input, output⟩ => ⟨tape.subtract amount, input, output⟩

/-- Reads a byte into the current cell. The end of input reads as zero. -/
def read : Store → Except FaultKind Unit × Store
  | ⟨tape, input, output⟩ =>
    match input.read with
    | (.ok value, input) => (.ok (), ⟨tape.put (value.elim 0 UInt8.toInt8), input, output⟩)
    | (.error e, input) => (.error (.stream e), ⟨tape, input, output⟩)

def write : Store → Except FaultKind Unit × Store
  | ⟨tape, input, output⟩ =>
    match output.write tape.current.toUInt8 with
    | (.ok (), output) => (.ok (), ⟨tape, input, output⟩)
    | (.error e, output) => (.error (.stream e), ⟨tape, input, output⟩)

def flush : Store → Except FaultKind Unit × Store
  | ⟨tape, input, output⟩ =>
    match output.flush with
    | (.ok (), output) => (.ok (), ⟨tape, input, output⟩)
    | (.error e, output) => (.error (.stream e), ⟨tape, input, output⟩)

def resize (cells : Nat) : Store → Store
  | ⟨_, input, output⟩ => ⟨.blank cells, input, output⟩

/-- Sets the tape back to zeros and the pointer to the first cell. The streams go on. -/
def reset : Store → Store
  | ⟨tape, input, output⟩ => ⟨.blank tape.size, input, output⟩

def isZero (s : Store) : Bool :=
  s.tape.current == 0

end Store

end Brainfuck
