import Brainfuck.Literal.Lexeme

/-!
# Program literals

A program may be written as one or more string literals, parted by commas. They are joined into one
source, whose brackets must match.
-/
namespace Brainfuck

/-!
### Brackets across pieces

A program may be given in pieces. Its brackets are matched across all of them, and a bracket
without a partner is blamed on the piece it stands in, by its character there, counted from one.
-/

/-- A bracket in a piece: the index of the piece, and the character within it. -/
structure PiecePlace where
  piece : Nat
  character : Nat
  deriving DecidableEq

inductive BalanceError
  | unmatchedClosing (place : PiecePlace)
  | unmatchedOpening (place : PiecePlace)
  deriving DecidableEq

def BalanceError.message : BalanceError → String
  | unmatchedClosing place => s!"Can't find `[` for the `]` at character {place.character}"
  | unmatchedOpening place => s!"Can't find `]` for the `[` at character {place.character}"

namespace Balance

/-- Matches the brackets of one piece from a character on. The opening brackets that still wait
for their partner come in and go out, the innermost first. -/
def piece (index : Nat) :
    List Char → Nat → List PiecePlace → Except BalanceError (List PiecePlace)
  | [], _, opened => .ok opened
  | '[' :: cs, character, opened => piece index cs (character + 1) (⟨index, character⟩ :: opened)
  | ']' :: _, character, [] => .error (.unmatchedClosing ⟨index, character⟩)
  | ']' :: cs, character, _ :: opened => piece index cs (character + 1) opened
  | _ :: cs, character, opened => piece index cs (character + 1) opened

def pieces : List String → Nat → List PiecePlace → Except BalanceError (List PiecePlace)
  | [], _, opened => .ok opened
  | p :: ps, index, opened =>
    match piece index p.toList 1 opened with
    | .error e => .error e
    | .ok opened => pieces ps (index + 1) opened

/-- Whether all brackets of the pieces have partners. Of the opening ones that do not, the
innermost is to blame. -/
def check (ps : List String) : Except BalanceError Unit :=
  match pieces ps 0 [] with
  | .error e => .error e
  | .ok [] => .ok ()
  | .ok (place :: _) => .error (.unmatchedOpening place)

end Balance

/-! ### Program literals -/

inductive LiteralError
  /-- The text has no lexemes. -/
  | unreadable
  /-- There is no literal at all. -/
  | empty
  | expectedString
  | expectedComma
  | unbalanced (error : BalanceError)
  deriving DecidableEq

def LiteralError.message : LiteralError → String
  | unreadable => "cannot parse string into token stream"
  | empty => "unexpected end of input, expected at least one string literal"
  | expectedString => "expected string literal"
  | expectedComma => "expected `,`"
  | unbalanced error => error.message

namespace Literal

/-- The values of string literals parted by commas. One comma may stand after the last. -/
def listed : List Lexeme → Except LiteralError (List String)
  | [] => .ok []
  | [.string value] => .ok [value]
  | .string value :: .comma :: rest =>
    match listed rest with
    | .ok values => .ok (value :: values)
    | .error e => .error e
  | .string _ :: _ => .error .expectedComma
  | _ => .error .expectedString

def ofPieces (pieces : List String) : Except LiteralError String :=
  match pieces, Balance.check pieces with
  | [], _ => .error .empty
  | _, .error e => .error (.unbalanced e)
  | pieces, .ok () => .ok (String.join pieces)

def ofText (text : String) : Except LiteralError String :=
  match lexemes? text with
  | none => .error .unreadable
  | some lexemes =>
    match listed lexemes with
    | .error e => .error e
    | .ok pieces => ofPieces pieces

end Literal

end Brainfuck
