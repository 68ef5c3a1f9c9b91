import Brainfuck.Code.Basic
import Brainfuck.Source.Basic

/-!
# Tokens

A source text reads as a sequence of tokens: each glyph is one, and each longest run of other
characters between two glyphs is one comment, with the blanks around it left out. A `Reader` holds
what is still unread and the place where that begins. Reading a token shortens the rest
(`next_rest_length_lt`), so reading to the end is a total function.
-/
namespace Brainfuck

inductive Token.Kind
  | glyph (g : Glyph)
  | comment (text : String)
  deriving DecidableEq

structure Token where
  kind : Token.Kind
  place : Place
  deriving DecidableEq

namespace Token

/-- The instruction a token stands for: comments do nothing. -/
def instruction (t : Token) : Instruction :=
  match t.kind with
  | .glyph g => .ofGlyph g
  | .comment _ => .nop

def isGlyph (t : Token) : Bool :=
  match t.kind with
  | .glyph _ => true
  | .comment _ => false

/-- A token in a token dump: a glyph as it is, a comment on a line of its own after two tabs. -/
def dumpText (t : Token) : String :=
  match t.kind with
  | .glyph g => g.char.toString
  | .comment text => "\t\t" ++ text ++ "\n"

end Token

/-- The unread rest of a source text, and where it begins. -/
structure Reader where
  rest : List Char
  place : Place

namespace Reader

def ofSource (source : String) : Reader :=
  ⟨source.toList, .start⟩

/-- Characters that a comment may go on with. -/
def isCommentary (c : Char) : Bool :=
  (Glyph.ofChar? c).isNone

/-- The next token, after any blanks. With no token left the blanks are still read. -/
def next (r : Reader) : Option Token × Reader :=
  let place := r.place.past (r.rest.takeWhile isBlank)
  match r.rest.dropWhile isBlank with
  | [] => (none, ⟨[], place⟩)
  | c :: cs =>
    match Glyph.ofChar? c with
    | some g => (some ⟨.glyph g, place⟩, ⟨cs, place.after c⟩)
    | none =>
      let body := c :: cs.takeWhile isCommentary
      (some ⟨.comment (String.ofList (trimEnd body)), place⟩,
        ⟨cs.dropWhile isCommentary, place.past body⟩)

theorem next_rest_length_lt {r after : Reader} {t : Token} (h : r.next = (some t, after)) :
    after.rest.length < r.rest.length := by
  have blanks : (r.rest.dropWhile isBlank).length ≤ r.rest.length :=
    (List.dropWhile_suffix isBlank).length_le
  unfold next at h
  dsimp only at h
  split at h
  · cases h
  · next c cs rest =>
    rw [rest, List.length_cons] at blanks
    have body : (cs.dropWhile isCommentary).length ≤ cs.length :=
      (List.dropWhile_suffix isCommentary).length_le
    split at h <;> cases h <;> dsimp only <;> omega

/-- The next glyph, with any comments before it left out. -/
def nextGlyph (r : Reader) : Option Token × Reader :=
  match _read : r.next with
  | (none, after) => (none, after)
  | (some t, after) => if t.isGlyph then (some t, after) else after.nextGlyph
termination_by r.rest.length
decreasing_by exact next_rest_length_lt _read

def collect (r : Reader) (read : Array Token) : Array Token × Reader :=
  match _read : r.next with
  | (none, after) => (read, after)
  | (some t, after) => after.collect (read.push t)
termination_by r.rest.length
decreasing_by exact next_rest_length_lt _read

/-- All tokens that are left, and the reader at the end. -/
def tokens (r : Reader) : Array Token × Reader :=
  r.collect #[]

end Reader

def tokens (source : String) : List Token :=
  (Reader.ofSource source).tokens.1.toList

def tokenDump (source : String) : String :=
  String.join ((tokens source).map Token.dumpText) ++ "\n"

end Brainfuck
