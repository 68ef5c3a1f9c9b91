import Brainfuck.Session.Basic
import Brainfuck.Text

/-!
# Notes

What is told beside the output of a program: lines on how the work goes, and the lines of a trace.
Notes may be colored. What has taken time ends in how long it took, which the one who writes the
note adds.
-/
namespace Brainfuck

/-!
### Elapsed time as text

A span of time is written with two places, rounded, in the largest unit of which there is at least
one: seconds, milliseconds, microseconds or nanoseconds.
-/

namespace CommandLine

def hundredths (n : Nat) : String :=
  let places := toString (n % 100)
  toString (n / 100) ++ "." ++ (if n % 100 < 10 then "0" ++ places else places)

def elapsedText (nanoseconds : Nat) : String :=
  let inUnits (unit : Nat) : String := hundredths ((nanoseconds * 100 + unit / 2) / unit)
  if 1000000000 ≤ nanoseconds then inUnits 1000000000 ++ "s"
  else if 1000000 ≤ nanoseconds then inUnits 1000000 ++ "ms"
  else if 1000 ≤ nanoseconds then inUnits 1000 ++ "µs"
  else inUnits 1 ++ "ns"

end CommandLine

/-! ### Notes -/

namespace CommandLine

/-- One line, or an empty one. -/
inductive Note
  | reading (path : String)
  | demo
  | starting (activity : String)
  | finished (activity : String)
  | wrote (path : String)
  | blank
  | plain (text : String)
  | step (line : TraceLine)
  deriving DecidableEq

inductive Tint
  | green
  | yellow
  | blue
  | dimmed
  deriving DecidableEq

def Tint.code : Tint → String
  | green => "32"
  | yellow => "33"
  | blue => "34"
  | dimmed => "2"

/-- Text in a tint, if tints are wanted. -/
def Tint.paint (tint : Tint) (colored : Bool) (text : String) : String :=
  if colored then "\x1b[" ++ tint.code ++ "m" ++ text ++ "\x1b[0m" else text

/-- A line of a trace: index, instruction, data pointer and cell in columns. -/
def lineText (colored : Bool) (line : TraceLine) : String :=
  padLeft 6 (toString line.ip) ++ " " ++
    padRight 12 (line.instruction?.elim "??" Instruction.text) ++ " " ++
    Tint.dimmed.paint colored "dp" ++ " " ++ padLeft 6 (toString line.pointer) ++ " " ++
    Tint.dimmed.paint colored "cell" ++ " " ++ toString line.value.toInt

def Note.text (colored : Bool) (elapsed : String) : Note → String
  | reading path => "Running " ++ path
  | demo => Tint.yellow.paint colored "No file given, running the hello world demo"
  | starting activity => Tint.blue.paint colored ("Starting " ++ activity)
  | finished activity =>
    Tint.green.paint colored ("Finished " ++ activity ++ " in") ++ " " ++ elapsed
  | wrote path => Tint.green.paint colored "Wrote bytecode to" ++ " " ++ path
  | blank => ""
  | plain text => text
  | step line => lineText colored line

end CommandLine

end Brainfuck
