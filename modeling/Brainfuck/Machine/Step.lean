import Brainfuck.Code.Basic
import Brainfuck.Machine.Store

/-!
# The machine

A machine does one instruction at a time. A step looks, in this order, for an instruction, for its
operation, for the end of the program and for the step limit; only then is the step counted and the
instruction done. A fault leaves the instruction pointer where it is. A run repeats steps; since it
need not end, it is given a bound on their number and has no result when that is used up.
-/
namespace Brainfuck

/-!
### Jumps

A jump finds the other bracket of its loop in one of two ways: by the distance in its operand, or
by scanning the code and counting nested brackets. Both land on the same instruction in compiled
code. Here the code may be any: a distance must lead to a bracket that says the same distance, and
a scan may run off the code.
-/

inductive JumpStrategy
  | distance
  | scan
  deriving DecidableEq

namespace Code

/-- Whether the instruction at an index does `op` over the given distance. -/
def hasPartner (code : Code) (index : Nat) (op : Opcode) (distance : Nat) : Bool :=
  (code.get? index).any fun i => i.isA op && i.operand == distance

/-- The first closing bracket at an index or after it, with `depth` inner loops still open. A scan
stops at an instruction that ends the program. -/
def closingFrom? (code : Code) (depth index : Nat) : Option Nat :=
  match _found : code.get? index with
  | none => none
  | some i =>
    if i.isA .eof then none
    else if i.isA .jumpForward then code.closingFrom? (depth + 1) (index + 1)
    else if i.isA .jumpBackward then
      match depth with
      | 0 => some index
      | depth + 1 => code.closingFrom? depth (index + 1)
    else code.closingFrom? depth (index + 1)
termination_by code.size - index
decreasing_by
  all_goals
    have inside := lt_size_of_get? _found
    omega

/-- The last opening bracket before an index, with `depth` inner loops still open. -/
def openingBefore? (code : Code) : Nat → Nat → Option Nat
  | _, 0 => none
  | depth, index + 1 =>
    match code.get? index with
    | none => none
    | some i =>
      if i.isA .jumpBackward then code.openingBefore? (depth + 1) index
      else if i.isA .jumpForward then
        match depth with
        | 0 => some index
        | depth + 1 => code.openingBefore? depth index
      else code.openingBefore? depth index

/-- Where the opening bracket at `ip` leads: just after the closing one. -/
def forwardTarget (code : Code) (strategy : JumpStrategy) (ip distance : Nat) :
    Except FaultKind Nat :=
  match strategy with
  | .distance =>
    if code.hasPartner (ip + distance) .jumpBackward distance then .ok (ip + distance + 1)
    else .error (.mismatchedJump distance)
  | .scan =>
    match code.closingFrom? 0 (ip + 1) with
    | some closing => .ok (closing + 1)
    | none => .error .unbalancedJump

/-- Where the closing bracket at `ip` leads: to the opening one, which looks at the cell again. -/
def backwardTarget (code : Code) (strategy : JumpStrategy) (ip distance : Nat) :
    Except FaultKind Nat :=
  match strategy with
  | .distance =>
    if distance ≤ ip && code.hasPartner (ip - distance) .jumpForward distance then
      .ok (ip - distance)
    else .error (.mismatchedJump distance)
  | .scan =>
    match code.openingBefore? 0 ip with
    | some opening => .ok opening
    | none => .error .unbalancedJump

end Code

/-! ### The machine -/

/-- The instruction pointer and the steps done so far, how jumps go and how many steps are
allowed, and what instructions act on. -/
structure Machine where
  ip : Nat
  steps : Nat
  strategy : JumpStrategy
  limit : Option Nat
  store : Store

inductive Step
  | going
  | halted
  deriving DecidableEq

def andThenNext (ip : Nat) : Except FaultKind Unit × Store → Except FaultKind Nat × Store
  | (.ok (), store) => (.ok (ip + 1), store)
  | (.error kind, store) => (.error kind, store)

/-- Does the operation of the instruction at `ip`: the index to go on with, and the store. -/
def perform (code : Code) (strategy : JumpStrategy) (ip : Nat) (op : Opcode) (operand : Nat)
    (store : Store) : Except FaultKind Nat × Store :=
  match op with
  | .eof | .nop => (.ok (ip + 1), store)
  | .moveRight => andThenNext ip (store.right operand)
  | .moveLeft => andThenNext ip (store.left operand)
  | .add => (.ok (ip + 1), store.add operand)
  | .subtract => (.ok (ip + 1), store.subtract operand)
  | .read => andThenNext ip store.read
  | .write => andThenNext ip store.write
  | .jumpForward =>
    if store.isZero then (code.forwardTarget strategy ip operand, store) else (.ok (ip + 1), store)
  | .jumpBackward =>
    if store.isZero then (.ok (ip + 1), store)
    else (code.backwardTarget strategy ip operand, store)

namespace Machine

def start (strategy : JumpStrategy) (limit : Option Nat) (store : Store) : Machine :=
  ⟨0, 0, strategy, limit, store⟩

def limitReached? (limit : Option Nat) (steps : Nat) : Option Nat :=
  limit.filter (· ≤ steps)

def step (code : Code) (m : Machine) : Except Fault Step × Machine :=
  match code.get? m.ip with
  | none => (.error ⟨.noInstruction code.size, m.ip⟩, m)
  | some i =>
    match i.opcode? with
    | none => (.error ⟨.unknownOpcode i.code, m.ip⟩, m)
    | some .eof => (.ok .halted, m)
    | some op =>
      match limitReached? m.limit m.steps with
      | some limit => (.error ⟨.stepLimit limit, m.ip⟩, m)
      | none =>
        match m with
        | ⟨ip, steps, strategy, limit, store⟩ =>
          match perform code strategy ip op i.operand store with
          | (.ok next, store) => (.ok .going, ⟨next, steps + 1, strategy, limit, store⟩)
          | (.error kind, store) => (.error ⟨kind, ip⟩, ⟨ip, steps + 1, strategy, limit, store⟩)

/-- Does instructions until the program ends or faults, but no more than the bound. -/
def run (code : Code) : Nat → Machine → Option (Except Fault Unit × Machine)
  | 0, _ => none
  | bound + 1, m =>
    match m.step code with
    | (.ok .going, m) => run code bound m
    | (.ok .halted, m) => some (.ok (), m)
    | (.error fault, m) => some (.error fault, m)

def rewind : Machine → Machine
  | ⟨_, _, strategy, limit, store⟩ => ⟨0, 0, strategy, limit, store⟩

end Machine

end Brainfuck
