import Brainfuck.Literal.Identifier
import Brainfuck.Literal.Quoted
import Brainfuck.Source.Basic

/-!
# Lexemes of an argument

The argument of a program literal is text of a programming language. Only its string literals and
commas matter; anything else is one lexeme more that does not belong there, and text in matching
brackets is one such lexeme. Text that cannot be read as lexemes at all has none.
-/
namespace Brainfuck

/-!
### Number literals

How many characters a number takes. Its value is of no use here: a number only has to be told from
text that cannot be read at all.
-/

namespace Literal

def isDecimal (c : Char) : Bool :=
  '0' ≤ c && c ≤ '9'

/-- How a number goes on after its whole and fractional digits. -/
structure Mantissa where
  taken : Nat
  dotted : Bool
  /-- The letter that opens an exponent is the last character taken. -/
  exponent : Bool

/-- Reads digits and underscores, at most one dot among them, up to a letter that opens an
exponent. There is no such number when a name or another dot follows the dot. -/
def mantissa? : List Char → (taken : Nat) → (dotted : Bool) → Option Mantissa
  | [], taken, dotted => some ⟨taken, dotted, false⟩
  | c :: cs, taken, dotted =>
    if isDecimal c || c = '_' then mantissa? cs (taken + 1) dotted
    else if c = '.' && !dotted then
      if cs.head?.any fun next => next = '.' || isNameStart next then none
      else mantissa? cs (taken + 1) true
    else if c = 'e' || c = 'E' then some ⟨taken + 1, dotted, true⟩
    else some ⟨taken, dotted, false⟩

/-- How far an exponent goes: a sign at most before its digits, and at least one digit. -/
def exponent? : List Char → (taken : Nat) → (signed valued : Bool) → Option Nat
  | [], taken, _, valued => if valued then some taken else none
  | c :: cs, taken, signed, valued =>
    if c = '+' || c = '-' then
      if valued then some taken
      else if signed then none
      else exponent? cs (taken + 1) true valued
    else if isDecimal c then exponent? cs (taken + 1) signed true
    else if c = '_' then exponent? cs (taken + 1) signed valued
    else if valued then some taken
    else none

def fractionDigits? (cs : List Char) : Option Nat :=
  if cs.head?.any isDecimal then
    match mantissa? cs 0 false with
    | none => none
    | some m =>
      if m.exponent then
        match exponent? (cs.drop m.taken) m.taken false false with
        | some n => some n
        | none => if m.dotted then some (m.taken - 1) else none
      else if m.dotted then some m.taken
      else none
  else none

def digitValue? (c : Char) : Option Nat :=
  if isDecimal c then some (c.toNat - '0'.toNat)
  else if 'a' ≤ c && c ≤ 'f' then some (c.toNat - 'a'.toNat + 10)
  else if 'A' ≤ c && c ≤ 'F' then some (c.toNat - 'A'.toNat + 10)
  else none

/-- Reads the digits of a whole number in a base. A decimal digit that is too large spoils the
number, a letter that is too large ends it. A decimal number does not open with an underscore. -/
def wholeDigitsIn? (base : Nat) : List Char → (taken : Nat) → (found : Bool) → Option Nat
  | [], taken, found => if found then some taken else none
  | c :: cs, taken, found =>
    if c = '_' then
      if !found && base = 10 then none else wholeDigitsIn? base cs (taken + 1) found
    else
      match digitValue? c with
      | none => if found then some taken else none
      | some d =>
        if d < base then wholeDigitsIn? base cs (taken + 1) true
        else if isDecimal c then none
        else if found then some taken
        else none

def wholeDigits? : List Char → Option Nat
  | '0' :: 'x' :: cs => wholeDigitsIn? 16 cs 2 false
  | '0' :: 'o' :: cs => wholeDigitsIn? 8 cs 2 false
  | '0' :: 'b' :: cs => wholeDigitsIn? 2 cs 2 false
  | cs => wholeDigitsIn? 10 cs 0 false

/-- Adds a suffix to a number that takes some characters. Nothing that goes on a name may follow. -/
def suffixed? (cs : List Char) (taken : Nat) : Option Nat :=
  let rest := cs.drop taken
  let suffix := (nameLength? rest).getD 0
  if (rest.drop suffix).head?.any isNamePart then none else some (taken + suffix)

def numberLength? (cs : List Char) : Option Nat :=
  match (fractionDigits? cs).bind (suffixed? cs) with
  | some n => some n
  | none => (wholeDigits? cs).bind (suffixed? cs)

end Literal

/-! ### Lexemes of an argument -/

namespace Literal

/-- A lexeme: a string literal with its value, a comma, or anything else. -/
inductive Lexeme
  | string (value : String)
  | comma
  | other
  deriving DecidableEq

inductive Bracket
  | round
  | square
  | curly
  deriving DecidableEq

def Bracket.ofOpening? : Char → Option Bracket
  | '(' => some round
  | '[' => some square
  | '\x7b' => some curly
  | _ => none

def Bracket.ofClosing? : Char → Option Bracket
  | ')' => some round
  | ']' => some square
  | '\x7d' => some curly
  | _ => none

/-- Characters between lexemes: blanks, and the two marks of writing direction. -/
def isGap (c : Char) : Bool :=
  isBlank c || c = '\u200e' || c = '\u200f'

/-- How many characters a block comment takes that opens here. Comments nest. -/
def blockLength? : List Char → (depth taken : Nat) → Option Nat
  | [], _, _ => none
  | '/' :: '*' :: cs, depth, taken => blockLength? cs (depth + 1) (taken + 2)
  | '*' :: '/' :: cs, depth, taken =>
    if depth = 1 then some (taken + 2) else blockLength? cs (depth - 1) (taken + 2)
  | _ :: cs, depth, taken => blockLength? cs depth (taken + 1)

def lineLength : List Char → Nat → Nat
  | [], taken => taken
  | '\n' :: _, taken => taken
  | '\r' :: '\n' :: _, taken => taken
  | _ :: cs, taken => lineLength cs (taken + 1)

def hasBareReturn : List Char → Bool
  | [] => false
  | '\r' :: '\n' :: cs => hasBareReturn cs
  | '\r' :: _ => true
  | _ :: cs => hasBareReturn cs

inductive Comment
  /-- A comment of so many characters. -/
  | plain (length : Nat)
  /-- A comment of so many characters that counts as a lexeme. -/
  | doc (length : Nat)
  /-- A comment that cannot be read. -/
  | broken

/-- A comment at the start of a text, if there is one. Comments for documentation are lexemes:
those opened by `///`, `//!`, `/**` or `/*!`, but not by four slashes or by three stars. -/
def comment? : List Char → Option Comment
  | '/' :: '/' :: cs =>
    let length := lineLength cs 2
    match cs with
    | '!' :: body => some (docUnlessBare (body.take (length - 3)) length)
    | '/' :: '/' :: _ => some (.plain length)
    | '/' :: body => some (docUnlessBare (body.take (length - 3)) length)
    | _ => some (.plain length)
  | '/' :: '*' :: cs =>
    match blockLength? cs 1 2 with
    | none => some .broken
    | some length =>
      match cs with
      | '*' :: '/' :: _ => some (.plain length)
      | '*' :: '*' :: _ => some (.plain length)
      | '*' :: body => some (docUnlessBare (body.take (length - 5)) length)
      | '!' :: body => some (docUnlessBare (body.take (length - 5)) length)
      | _ => some (.plain length)
  | _ => none
where
  /-- A comment for documentation, which a bare carriage return breaks. -/
  docUnlessBare (body : List Char) (length : Nat) : Comment :=
    if hasBareReturn body then .broken else .doc length

def isPunctuation (c : Char) : Bool :=
  "~!@#$%^&*-=+|;:,<.>/?".toList.contains c

/-- Whether a quote opens a label: a name that no quote follows. -/
def isLabel (cs : List Char) : Bool :=
  match anyNameLength? cs with
  | none => false
  | some n =>
    match cs.drop n with
    | '\'' :: _ => false
    | '#' :: _ => ['r', '#'].isPrefixOf cs
    | _ => true

/-- Whether a text begins like a literal with a letter before its quotes, so that it can be no
name. -/
def opensLiteral (cs : List Char) : Bool :=
  (["r\"", "r#\"", "r##", "b\"", "b'", "br\"", "br#", "c\"", "cr\"", "cr#"].map
    String.toList).any (·.isPrefixOf cs)

def literal? (cs : List Char) : Option (Lexeme × Nat) :=
  match cs with
  | '"' :: rest => (cooked? .text rest).map fun l => (.string l.1, l.2 + 1)
  | '\'' :: rest => (characterLength? .text rest).map fun n => (.other, n + 1)
  | 'r' :: rest => (raw? .text rest).map fun l => (.string l.1, l.2 + 1)
  | 'b' :: '"' :: rest => (cooked? .bytes rest).map fun l => (.other, l.2 + 2)
  | 'b' :: 'r' :: rest => (raw? .bytes rest).map fun l => (.other, l.2 + 2)
  | 'b' :: '\'' :: rest => (characterLength? .bytes rest).map fun n => (.other, n + 2)
  | 'c' :: '"' :: rest => (cooked? .nonzero rest).map fun l => (.other, l.2 + 2)
  | 'c' :: 'r' :: rest => (raw? .nonzero rest).map fun l => (.other, l.2 + 2)
  | _ => (numberLength? cs).map fun n => (.other, n)

/-- The lexeme at the start of a text that is no gap, comment or bracket, and how many characters
it takes. -/
def lexeme? (cs : List Char) : Option (Lexeme × Nat) :=
  match literal? cs with
  | some l => some l
  | none =>
    match cs with
    | [] => none
    | ',' :: _ => some (.comma, 1)
    | '\'' :: rest => if isLabel rest then some (.other, 1) else none
    | c :: _ =>
      if isPunctuation c then some (.other, 1)
      else if opensLiteral cs then none
      else (anyNameLength? cs).map fun n => (.other, n)

/-- Reads lexemes to the end of a text. The brackets that are open come in, the innermost first;
only what stands outside of all of them is kept. -/
def lexemesFrom? (cs : List Char) (opened : List Bracket) (read : Array Lexeme) :
    Option (Array Lexeme) :=
  let keep (l : Lexeme) : Array Lexeme := if opened.isEmpty then read.push l else read
  match cs with
  | [] => if opened.isEmpty then some read else none
  | c :: rest =>
    if isGap c then lexemesFrom? rest opened read
    else
      match comment? (c :: rest) with
      | some (.plain n) => lexemesFrom? (rest.drop (n - 1)) opened read
      | some (.doc n) => lexemesFrom? (rest.drop (n - 1)) opened (keep .other)
      | some .broken => none
      | none =>
        match Bracket.ofOpening? c, Bracket.ofClosing? c with
        | some b, _ => lexemesFrom? rest (b :: opened) (keep .other)
        | none, some b =>
          match opened with
          | [] => none
          | inner :: opened => if inner = b then lexemesFrom? rest opened read else none
        | none, none =>
          match lexeme? (c :: rest) with
          | none => none
          | some (l, n) => lexemesFrom? (rest.drop (n - 1)) opened (keep l)
termination_by cs.length
decreasing_by
  all_goals
    simp only [List.length_cons, List.length_drop]
    omega

/-- The lexemes of a text. A byte order mark at its start does not count. -/
def lexemes? (text : String) : Option (List Lexeme) :=
  match text.toList with
  | '\ufeff' :: cs => (lexemesFrom? cs [] #[]).map Array.toList
  | cs => (lexemesFrom? cs [] #[]).map Array.toList

end Literal

end Brainfuck
