import Brainfuck.Code.Basic
import Brainfuck.Source.Basic

/-!
# Compilation

One pass over the source turns each glyph into an instruction. An opening bracket is remembered
with the index of its instruction; the closing bracket that matches it writes the distance between
the two into both. Characters that are no glyphs only move the place.
-/
namespace Brainfuck

/-!
### Optimizations

Two simplifications may be made while compiling. Neither changes what a program does.
-/

/-- Which simplifications are made. `coalesceRuns` folds a run of one repeatable glyph into one
instruction; `stripCommentBlock` drops loops at the very start, where the cell is zero. -/
structure Flags where
  coalesceRuns : Bool := false
  stripCommentBlock : Bool := false
  deriving DecidableEq

namespace Flags

/-- None: one instruction for each glyph. -/
def plain : Flags := ⟨false, false⟩

def all : Flags := ⟨true, true⟩

def text : Flags → String
  | ⟨false, false⟩ => "CompileFlags(0x0)"
  | ⟨true, false⟩ => "CompileFlags(COALESCE_RUNS)"
  | ⟨false, true⟩ => "CompileFlags(STRIP_COMMENT_BLOCK)"
  | ⟨true, true⟩ => "CompileFlags(COALESCE_RUNS | STRIP_COMMENT_BLOCK)"

end Flags

/-!
### Why a source does not compile

A bracket may lack its partner, or a loop may be longer than an operand can say.
-/

inductive CompileError
  /-- A `]` closes nothing. -/
  | unmatchedClosing (place : Place)
  /-- A `[` is never closed. -/
  | unmatchedOpening (place : Place)
  /-- The loop that this `]` closes spans more instructions than an operand holds. -/
  | loopTooLong (place : Place) (distance : Nat)
  deriving DecidableEq

namespace CompileError

def place : CompileError → Place
  | unmatchedClosing p => p
  | unmatchedOpening p => p
  | loopTooLong p _ => p

def message : CompileError → String
  | unmatchedClosing p =>
    s!"Can't find `[` for the `]` at line {p.line}, column {p.column}"
  | unmatchedOpening p =>
    s!"Can't find `]` for the `[` at line {p.line}, column {p.column}"
  | loopTooLong p distance =>
    s!"Loop closed at line {p.line}, column {p.column} spans {distance} instructions, " ++
      "more than an operand can hold"

end CompileError

/-! ### Compilation -/

/-- What has been compiled so far, and the open loops from the innermost outwards: the index of
the jump that opens each, and the place of its bracket. -/
structure Assembly where
  body : Array Instruction
  pending : List (Nat × Place)

namespace Assembly

def empty : Assembly := ⟨#[], []⟩

/-- The last instruction with its count one higher, if it does what `i` does and can count on. -/
def bumped? (last? : Option Instruction) (i : Instruction) : Option Instruction :=
  match last? with
  | none => none
  | some last =>
    if fits : last.operand + 1 ≤ maxOperand then
      if last.code = i.code then some (last.withOperand (last.operand + 1) fits) else none
    else none

/-- Adds an instruction that is no bracket. With runs coalesced it may count up the last one. -/
def emit (flags : Flags) (i : Instruction) (a : Assembly) : Assembly :=
  match a with
  | ⟨body, pending⟩ =>
    if flags.coalesceRuns && i.isRepeatable then
      match bumped? body.back? i with
      | some last => ⟨body.setIfInBounds (body.size - 1) last, pending⟩
      | none => ⟨body.push i, pending⟩
    else ⟨body.push i, pending⟩

def openLoop (place : Place) (a : Assembly) : Assembly :=
  match a with
  | ⟨body, pending⟩ =>
    let start := body.size
    ⟨body.push (.ofGlyph .opening), (start, place) :: pending⟩

/-- Closes the innermost loop at a place. A loop at the very start is dropped if so asked: the
first cell is still zero there, and it is again for the loop that follows a dropped one. -/
def closeLoop (flags : Flags) (place : Place) (a : Assembly) : Except CompileError Assembly :=
  match a with
  | ⟨_, []⟩ => .error (.unmatchedClosing place)
  | ⟨body, (start, _) :: pending⟩ =>
    if flags.stripCommentBlock && start == 0 then .ok ⟨#[], pending⟩
    else
      let distance := body.size - start
      if fits : distance ≤ maxOperand then
        let body := body.setIfInBounds start (.make .jumpForward distance fits)
        .ok ⟨body.push (.make .jumpBackward distance fits), pending⟩
      else .error (.loopTooLong place distance)

def feed (flags : Flags) (g : Glyph) (place : Place) (a : Assembly) :
    Except CompileError Assembly :=
  match g with
  | .opening => .ok (a.openLoop place)
  | .closing => a.closeLoop flags place
  | g => .ok (a.emit flags (.ofGlyph g))

def feedText (flags : Flags) : List Char → Place → Assembly → Except CompileError Assembly
  | [], _, a => .ok a
  | c :: cs, place, a =>
    match Glyph.ofChar? c with
    | none => feedText flags cs (place.after c) a
    | some g =>
      match a.feed flags g place with
      | .error e => .error e
      | .ok a => feedText flags cs (place.after c) a

/-- The finished code. A loop that is still open is an error at the innermost one. -/
def finish (a : Assembly) : Except CompileError Code :=
  match a.pending with
  | [] => .ok ⟨a.body⟩
  | (_, place) :: _ => .error (.unmatchedOpening place)

end Assembly

def compile (flags : Flags) (source : String) : Except CompileError Code :=
  match Assembly.feedText flags source.toList .start .empty with
  | .error e => .error e
  | .ok a => a.finish

end Brainfuck
