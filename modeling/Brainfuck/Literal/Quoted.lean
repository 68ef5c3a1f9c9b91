import Brainfuck.Literal.Identifier

/-!
# Quoted literals

Text in quotes, with escapes or raw, and characters in single quotes. Each function tells how many
characters a literal takes; those that give a value are read once that is known. A literal may
have a suffix, a name written right after it, which is left out of its value.
-/
namespace Brainfuck
namespace Literal

/-- What the quotes hold: text, bytes, or text without the character zero. -/
inductive Quoting
  | text
  | bytes
  | nonzero
  deriving DecidableEq

namespace Quoting

def plain : Quoting → Char → Bool
  | text, _ => true
  | bytes, c => c.toNat < 128
  | nonzero, c => c.toNat != 0

def byteEscape : Quoting → Nat → Bool
  | text, n => n < 128
  | bytes, _ => true
  | nonzero, n => n != 0

def pointEscape : Quoting → Nat → Bool
  | text, _ => true
  | bytes, _ => false
  | nonzero, n => n != 0

end Quoting

def hexDigit? (c : Char) : Option Nat :=
  if '0' ≤ c && c ≤ '9' then some (c.toNat - '0'.toNat)
  else if 'a' ≤ c && c ≤ 'f' then some (c.toNat - 'a'.toNat + 10)
  else if 'A' ≤ c && c ≤ 'F' then some (c.toNat - 'A'.toNat + 10)
  else none

/-- The character with a code point, unless that is a surrogate or out of range. -/
def scalar? (n : Nat) : Option Char :=
  if h : n.isValidChar then some (Char.ofNatAux n h) else none

/-- A code point in braces: one to six digits, which underscores may part but not precede. Gives
its value and how many characters it takes, counted after the opening brace. -/
def codePoint? : List Char → (digits value taken : Nat) → Option (Char × Nat)
  | [], _, _, _ => none
  | c :: cs, digits, value, taken =>
    match hexDigit? c with
    | some d =>
      if digits = 6 then none else codePoint? cs (digits + 1) (value * 16 + d) (taken + 1)
    | none =>
      if digits = 0 then none
      else if c = '_' then codePoint? cs digits value (taken + 1)
      else if c = '}' then (scalar? value).map (·, taken + 1)
      else none

/-- How many characters of white space a line continued after a backslash skips. A carriage return
counts only before a line feed. -/
def continuation? : List Char → Nat → Option Nat
  | '\r' :: '\n' :: cs, taken => continuation? cs (taken + 2)
  | '\r' :: _, _ => none
  | ' ' :: cs, taken => continuation? cs (taken + 1)
  | '\t' :: cs, taken => continuation? cs (taken + 1)
  | '\n' :: cs, taken => continuation? cs (taken + 1)
  | _, taken => some taken

def escape? (q : Quoting) : List Char → Option (Char × Nat)
  | 'n' :: _ => some ('\n', 1)
  | 'r' :: _ => some ('\r', 1)
  | 't' :: _ => some ('\t', 1)
  | '\\' :: _ => some ('\\', 1)
  | '\'' :: _ => some ('\'', 1)
  | '"' :: _ => some ('"', 1)
  | '0' :: _ => if q = .nonzero then none else some ('\x00', 1)
  | 'x' :: a :: b :: _ =>
    match hexDigit? a, hexDigit? b with
    | some a, some b =>
      if q.byteEscape (a * 16 + b) then some (Char.ofNat (a * 16 + b), 3) else none
    | _, _ => none
  | 'u' :: '{' :: cs =>
    match codePoint? cs 0 0 2 with
    | some (c, taken) => if q.pointEscape c.toNat then some (c, taken) else none
    | none => none
  | _ => none

/-- The value of what stands between two double quotes, put after what is already read. A carriage
return counts only before a line feed, and the two read as one line feed. -/
def contents? (q : Quoting) (cs : List Char) (read : List Char) : Option (List Char) :=
  match cs with
  | [] => some read.reverse
  | '\r' :: '\n' :: cs => contents? q cs ('\n' :: read)
  | '\r' :: _ => none
  | '\\' :: '\n' :: cs => (continuation? cs 0).bind fun n => contents? q (cs.drop n) read
  | '\\' :: '\r' :: '\n' :: cs => (continuation? cs 0).bind fun n => contents? q (cs.drop n) read
  | '\\' :: cs => (escape? q cs).bind fun e => contents? q (cs.drop e.2) (e.1 :: read)
  | c :: cs => if q.plain c then contents? q cs (c :: read) else none
termination_by cs.length
decreasing_by
  all_goals
    simp only [List.length_cons, List.length_drop]
    omega

/-- How many characters there are up to a double quote and with it. A backslash takes the next
character along. -/
def throughQuote? : List Char → Nat → Option Nat
  | [], _ => none
  | '"' :: _, taken => some (taken + 1)
  | '\\' :: _ :: cs, taken => throughQuote? cs (taken + 2)
  | _ :: cs, taken => throughQuote? cs (taken + 1)

def suffixLength (cs : List Char) : Nat :=
  (nameLength? cs).getD 0

/-- The value of a literal whose opening quote has been read, and how many characters are left
of it. -/
def cooked? (q : Quoting) (cs : List Char) : Option (String × Nat) :=
  match throughQuote? cs 0 with
  | none => none
  | some n =>
    match contents? q (cs.take (n - 1)) [] with
    | none => none
    | some value => some (String.ofList value, n + suffixLength (cs.drop n))

/-- How many characters a raw literal has up to its closing quote and the hashes after it. A
carriage return counts only before a line feed. -/
def throughRawQuote? (q : Quoting) (hashes : Nat) : List Char → Nat → Option Nat
  | [], _ => none
  | '"' :: cs, taken =>
    if cs.take hashes = List.replicate hashes '#' then some (taken + 1 + hashes)
    else throughRawQuote? q hashes cs (taken + 1)
  | '\r' :: '\n' :: cs, taken => throughRawQuote? q hashes cs (taken + 2)
  | '\r' :: _, _ => none
  | c :: cs, taken => if q.plain c then throughRawQuote? q hashes cs (taken + 1) else none

/-- The value of a raw literal whose `r` has been read, and how many characters are left of it. At
most 255 hashes may stand before the quote. -/
def raw? (q : Quoting) (cs : List Char) : Option (String × Nat) :=
  let hashes := (cs.takeWhile (· = '#')).length
  match cs.drop hashes with
  | '"' :: body =>
    if 255 < hashes then none
    else
      match throughRawQuote? q hashes body 0 with
      | none => none
      | some n =>
        let taken := hashes + 1 + n
        some (String.ofList (body.take (n - 1 - hashes)), taken + suffixLength (cs.drop taken))
  | _ => none

/-- How many characters of a literal are left whose opening single quote has been read. -/
def characterLength? (q : Quoting) (cs : List Char) : Option Nat :=
  let taken? :=
    match cs with
    | [] => none
    | '\\' :: cs => (escape? q cs).map (·.2 + 1)
    | c :: _ => if q.plain c then some 1 else none
  match taken? with
  | none => none
  | some n =>
    match cs.drop n with
    | '\'' :: cs => some (n + 1 + suffixLength cs)
    | _ => none

end Literal
end Brainfuck
