/-!
# Characters of a source

Eight characters of a source mean something, some are blank, and each has a place.
-/
namespace Brainfuck

/-!
### The eight glyphs

A program is written with eight characters. Every other character is commentary. This module names
the eight, and says that writing a glyph and reading it back are inverse to each other.
-/

/-- The characters that mean something, named for what they do. -/
inductive Glyph
  | right
  | left
  | increment
  | decrement
  | write
  | read
  | opening
  | closing
  deriving DecidableEq

namespace Glyph

def char : Glyph → Char
  | right => '>'
  | left => '<'
  | increment => '+'
  | decrement => '-'
  | write => '.'
  | read => ','
  | opening => '['
  | closing => ']'

def ofChar? : Char → Option Glyph
  | '>' => some right
  | '<' => some left
  | '+' => some increment
  | '-' => some decrement
  | '.' => some write
  | ',' => some read
  | '[' => some opening
  | ']' => some closing
  | _ => none

@[simp] theorem ofChar?_char (g : Glyph) : ofChar? g.char = some g := by
  cases g <;> rfl

theorem ofChar?_eq_some_iff {c : Char} {g : Glyph} : ofChar? c = some g ↔ c = g.char := by
  constructor
  · intro h
    unfold ofChar? at h
    split at h <;> cases h <;> rfl
  · rintro rfl
    exact ofChar?_char g

theorem char_injective {g h : Glyph} (same : g.char = h.char) : g = h :=
  Option.some.inj ((ofChar?_char g).symm.trans (same ▸ ofChar?_char h))

end Glyph

/-!
### Blank characters

The characters with the Unicode property White_Space. They separate tokens and are trimmed from
the end of a comment. The zero width space, the byte order mark and the control characters from
U+001C to U+001F are not blank.
-/

/-- Code points of the Unicode property White_Space, as closed ranges. -/
def blankRanges : List (Nat × Nat) :=
  [(0x0009, 0x000D), (0x0020, 0x0020), (0x0085, 0x0085), (0x00A0, 0x00A0), (0x1680, 0x1680),
   (0x2000, 0x200A), (0x2028, 0x2029), (0x202F, 0x202F), (0x205F, 0x205F), (0x3000, 0x3000)]

def isBlank (c : Char) : Bool :=
  blankRanges.any fun range => range.1 ≤ c.toNat && c.toNat ≤ range.2

def trimEnd (cs : List Char) : List Char :=
  (cs.reverse.dropWhile isBlank).reverse

/-!
### Places in a source text

A place counts what lies before it: lines from one, columns from one, and code points from zero.
Only a line feed starts a new line.
-/

/-- Where a character stands: its line, its column in that line, and its offset in code points. -/
structure Place where
  line : Nat
  column : Nat
  offset : Nat
  deriving DecidableEq

namespace Place

def start : Place := ⟨1, 1, 0⟩

def after (p : Place) (c : Char) : Place :=
  if c = '\n' then ⟨p.line + 1, 1, p.offset + 1⟩ else ⟨p.line, p.column + 1, p.offset + 1⟩

def past (p : Place) (cs : List Char) : Place :=
  cs.foldl after p

@[simp] theorem past_nil (p : Place) : p.past [] = p := rfl

@[simp] theorem past_cons (p : Place) (c : Char) (cs : List Char) :
    p.past (c :: cs) = (p.after c).past cs := rfl

theorem past_append (p : Place) (cs ds : List Char) : p.past (cs ++ ds) = (p.past cs).past ds := by
  simp [past]

theorem after_offset (p : Place) (c : Char) : (p.after c).offset = p.offset + 1 := by
  unfold after
  split <;> rfl

end Place

end Brainfuck
