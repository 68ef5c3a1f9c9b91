import Brainfuck.Compile.Basic
import Brainfuck.Machine.Step

/-!
# Sessions

A session carries one program through its life: source, optimizations, code once compiled, and the
machine that runs it. It compiles when code is first needed and keeps the code until the
optimizations change. A session that has halted or faulted stays so until it is reset. Each
execution that ends flushes the output once, also after a fault.
-/
namespace Brainfuck

inductive Phase
  | ready
  | running
  | halted
  | faulted
  deriving DecidableEq

namespace Phase

def name : Phase → String
  | ready => "Ready"
  | running => "Running"
  | halted => "Halted"
  | faulted => "Faulted"

/-- Whether nothing more is done in a phase until the session is reset. -/
def isFinal : Phase → Bool
  | halted | faulted => true
  | ready | running => false

end Phase

inductive SessionError
  | malformed (error : CompileError)
  | crashed (fault : Fault)
  /-- It has halted or faulted before. -/
  | finished (phase : Phase)
  deriving DecidableEq

def SessionError.message : SessionError → String
  | malformed error => "Program is malformed: " ++ error.message
  | crashed fault => "Program crashed: " ++ fault.message
  | finished phase =>
    "Program already finished (" ++ phase.name ++ "), reset it before running again"

structure Session where
  source : String
  flags : Flags
  code? : Option Code
  phase : Phase
  machine : Machine

namespace Session

def usualCells : Nat := 32768

/-- The largest number of cells that a tape can be asked to have: 63 bits set. -/
def maxCells : Nat := 0x7fffffffffffffff

/-- A session over some streams that has done nothing yet: no optimizations, jumps by distance, no
step limit and a tape of the usual size. -/
def ofSource (source : String) (input : Input) (output : Output) : Session :=
  ⟨source, .plain, none, .ready, .start .distance none ⟨.blank usualCells, input, output⟩⟩

def mapStore (f : Store → Store) : Session → Session
  | ⟨source, flags, code?, phase, ⟨ip, steps, strategy, limit, store⟩⟩ =>
    ⟨source, flags, code?, phase, ⟨ip, steps, strategy, limit, f store⟩⟩

def resize (cells : Nat) (s : Session) : Session :=
  s.mapStore (Store.resize cells)

/-- Gives the session a tape of zeros, unless it is asked to be too large. -/
def resize? (cells : Nat) (s : Session) : Option Session :=
  if cells ≤ maxCells then some (s.resize cells) else none

/-- Changes the optimizations, which drops the code. -/
def withFlags (flags : Flags) : Session → Session
  | ⟨source, _, _, phase, machine⟩ => ⟨source, flags, none, phase, machine⟩

def withStrategy (strategy : JumpStrategy) : Session → Session
  | ⟨source, flags, code?, phase, ⟨ip, steps, _, limit, store⟩⟩ =>
    ⟨source, flags, code?, phase, ⟨ip, steps, strategy, limit, store⟩⟩

def withLimit (limit : Option Nat) : Session → Session
  | ⟨source, flags, code?, phase, ⟨ip, steps, strategy, _, store⟩⟩ =>
    ⟨source, flags, code?, phase, ⟨ip, steps, strategy, limit, store⟩⟩

/-- Gives the code, which is compiled if it has not been before. -/
def compile : Session → Except CompileError Code × Session
  | ⟨source, flags, some code, phase, machine⟩ =>
    (.ok code, ⟨source, flags, some code, phase, machine⟩)
  | ⟨source, flags, none, phase, machine⟩ =>
    match Brainfuck.compile flags source with
    | .ok code => (.ok code, ⟨source, flags, some code, phase, machine⟩)
    | .error e => (.error e, ⟨source, flags, none, phase, machine⟩)

/-- Makes the session run, if it is not finished and compiles: the code to go on with. -/
def begin (s : Session) : Except SessionError Code × Session :=
  if s.phase.isFinal then (.error (.finished s.phase), s)
  else
    match s.compile with
    | (.error e, s) => (.error (.malformed e), s)
    | (.ok code, ⟨source, flags, code?, _, machine⟩) =>
      (.ok code, ⟨source, flags, code?, .running, machine⟩)

/-- Ends an execution: the output is flushed, and a failing flush makes a fault of a halt. -/
def conclude (result : Except Fault Unit) : Session → Except SessionError Unit × Session
  | ⟨source, flags, code?, _, ⟨ip, steps, strategy, limit, store⟩⟩ =>
    match store.flush with
    | (flushed, store) =>
      let machine := ⟨ip, steps, strategy, limit, store⟩
      match result, flushed with
      | .ok (), .ok () => (.ok (), ⟨source, flags, code?, .halted, machine⟩)
      | .ok (), .error kind =>
        (.error (.crashed ⟨kind, ip⟩), ⟨source, flags, code?, .faulted, machine⟩)
      | .error fault, _ => (.error (.crashed fault), ⟨source, flags, code?, .faulted, machine⟩)

def run (bound : Nat) (s : Session) : Option (Except SessionError Unit × Session) :=
  match s.begin with
  | (.error e, s) => some (.error e, s)
  | (.ok code, ⟨source, flags, code?, phase, machine⟩) =>
    match machine.run code bound with
    | none => none
    | some (result, machine) => some (conclude result ⟨source, flags, code?, phase, machine⟩)

def step (s : Session) : Except SessionError Phase × Session :=
  match s.begin with
  | (.error e, s) => (.error e, s)
  | (.ok code, ⟨source, flags, code?, phase, machine⟩) =>
    match machine.step code with
    | (.ok .going, machine) => (.ok .running, ⟨source, flags, code?, phase, machine⟩)
    | (.ok .halted, machine) => ended (.ok ()) ⟨source, flags, code?, phase, machine⟩
    | (.error fault, machine) => ended (.error fault) ⟨source, flags, code?, phase, machine⟩
where
  /-- Ends the execution and tells the phase. -/
  ended (result : Except Fault Unit) (s : Session) : Except SessionError Phase × Session :=
    match conclude result s with
    | (.ok (), s) => (.ok s.phase, s)
    | (.error e, s) => (.error e, s)

/-- Sets the session back to where it began, with a tape of zeros. Code and settings are kept, and
the streams go on from where they are. -/
def reset : Session → Session
  | ⟨source, flags, code?, _, machine⟩ =>
    match machine.rewind with
    | ⟨ip, steps, strategy, limit, store⟩ =>
      ⟨source, flags, code?, .ready, ⟨ip, steps, strategy, limit, store.reset⟩⟩

end Session

/-!
### Live sessions

A session may run over streams that exist outside of it. Before a step that reads, a byte is fetched
and fed to it; after a step, the bytes it has written are drained.
-/

namespace Session

/-- Whether the next step reads and nothing is there to be read. -/
def wantsInput (s : Session) : Bool :=
  s.machine.store.input.script.isEmpty &&
    (s.code?.bind fun code => code.get? s.machine.ip).any (·.isA .read)

def feed (value : UInt8) (s : Session) : Session :=
  s.mapStore fun store =>
    match store with
    | ⟨tape, input, output⟩ => ⟨tape, ⟨input.script ++ [.byte value]⟩, output⟩

def written (s : Session) : Array UInt8 :=
  s.machine.store.output.taken

def drained (s : Session) : Session :=
  s.mapStore fun store =>
    match store with
    | ⟨tape, input, output⟩ => ⟨tape, input, { output with taken := #[] }⟩

end Session

/-!
### Traces

A trace is a run in single steps that keeps a line for every step that does not fail. A line shows
where the instruction stood and what it was, where the data pointer was before the step, and the
value of the cell there after it.
-/

/-- Where a session stands before a step: the instruction it is about to do, if it has code, and
the data pointer. -/
structure Moment where
  ip : Nat
  instruction? : Option Instruction
  pointer : Nat
  deriving DecidableEq

structure TraceLine extends Moment where
  value : Int8
  deriving DecidableEq

namespace Session

def moment (s : Session) : Moment :=
  ⟨s.machine.ip, s.code?.bind fun code => code.get? s.machine.ip, s.machine.store.tape.pointer⟩

def lineFor (before : Moment) (s : Session) : TraceLine :=
  ⟨before, (s.machine.store.tape.get? before.pointer).getD 0⟩

/-- Runs in single steps, adding their lines to those before, until the program halts or faults or
the bound on the number of steps is used up. -/
def trace : (bound : Nat) → Array TraceLine → Session →
    Option (Array TraceLine × Except SessionError Unit × Session)
  | 0, _, _ => none
  | bound + 1, lines, s =>
    let before := s.moment
    match s.step with
    | (.error e, s) => some (lines, .error e, s)
    | (.ok phase, s) =>
      let lines := lines.push (lineFor before s)
      if phase = .running then trace bound lines s else some (lines, .ok (), s)

def summary (s : Session) : String :=
  let tape := s.machine.store.tape
  s!"{s.phase.name} at instruction {s.machine.ip} with the data pointer at {tape.pointer}, " ++
    s!"{tape.touched} non-zero cells"

end Session

end Brainfuck
