import Brainfuck.Proofs.Refusal
import Brainfuck.Source.Token
import Mathlib.Data.List.Chain
import Mathlib.Data.List.DropRight

/-!
# Reading tokens

A text begins with blanks and a token that is as long as it can be, or it is blank throughout
(`exists_splits`), and reading takes this token off (`Reader.next_of_splits`). Main statements, all
by induction on what is read: the tokens that are left are proper (`Reader.proper_left`), no two
comments follow each other (`Reader.apart_left`), and the glyphs among them are those of the text,
each at its place (`Reader.filterMap_left`).
-/
namespace Brainfuck

/-- Text that has nothing but blanks in it. -/
def Blank (cs : List Char) : Prop :=
  ∀ c ∈ cs, isBlank c = true

/-- What a comment says: something, without a glyph in it and without a blank at either end. -/
structure IsComment (cs : List Char) : Prop where
  nonempty : cs ≠ []
  plain : ∀ c ∈ cs, Glyph.ofChar? c = none
  first : ∀ c ∈ cs.head?, isBlank c = false
  last : ∀ c ∈ cs.getLast?, isBlank c = false

namespace Token

def Kind.chars : Kind → List Char
  | .glyph g => [g.char]
  | .comment text => text.toList

/-- A glyph, or a comment that says something. -/
def Kind.Proper : Kind → Prop
  | .glyph _ => True
  | .comment text => IsComment text.toList

/-- A token is a glyph if its kind is. -/
theorem isGlyph_iff {t : Token} : t.isGlyph = true ↔ ∃ g, t.kind = .glyph g := by
  obtain ⟨kind, place⟩ := t
  cases kind with
  | glyph g => exact ⟨fun _ => ⟨g, rfl⟩, fun _ => rfl⟩
  | comment text =>
    constructor
    · intro isGlyph
      cases isGlyph
    · rintro ⟨g, same⟩
      cases same

def placedGlyph? (t : Token) : Option (Glyph × Place) :=
  match t.kind with
  | .glyph g => some (g, t.place)
  | .comment _ => none

end Token

/-- No two comments follow each other. -/
def Apart (ts : List Token) : Prop :=
  ts.IsChain fun t u => t.isGlyph = true ∨ u.isGlyph = true

section Characters

theorem Glyph.isBlank_char (g : Glyph) : isBlank g.char = false := by
  cases g <;> decide

theorem ofChar?_of_isBlank {c : Char} (blank : isBlank c = true) : Glyph.ofChar? c = none := by
  cases glyph : Glyph.ofChar? c with
  | none => rfl
  | some g =>
    obtain rfl := Glyph.ofChar?_eq_some_iff.mp glyph
    cases g.isBlank_char.symm.trans blank

variable {p : Char → Bool} {body rest : List Char}

/-- A run ends where the class of its characters does. -/
theorem takeWhile_run (inside : ∀ c ∈ body, p c = true) (stops : ∀ c ∈ rest.head?, p c = false) :
    (body ++ rest).takeWhile p = body := by
  rw [List.takeWhile_append_of_pos inside]
  cases rest with
  | nil => simp
  | cons c rest => simp [stops c rfl]

theorem dropWhile_run (inside : ∀ c ∈ body, p c = true) (stops : ∀ c ∈ rest.head?, p c = false) :
    (body ++ rest).dropWhile p = rest := by
  rw [List.dropWhile_append_of_pos inside]
  cases rest with
  | nil => rfl
  | cons c rest => simp [stops c rfl]

theorem head?_dropWhile (p : Char → Bool) (cs : List Char) :
    ∀ c ∈ (cs.dropWhile p).head?, p c = false := by
  intro c first
  have stops := List.head?_dropWhile_not p cs
  rw [Option.mem_def.mp first] at stops
  simpa using stops

/-- A text begins with a run of any class, which may be empty. -/
theorem exists_run (p : Char → Bool) (cs : List Char) : ∃ run rest, cs = run ++ rest ∧
    (∀ c ∈ run, p c = true) ∧ ∀ c ∈ rest.head?, p c = false := by
  refine ⟨cs.takeWhile p, cs.dropWhile p, List.takeWhile_append_dropWhile.symm, ?_, ?_⟩
  · intro c member
    exact List.mem_takeWhile_imp member
  · exact head?_dropWhile p cs

theorem trimEnd_append {blanks : List Char} (blank : Blank blanks)
    (last : ∀ c ∈ body.getLast?, isBlank c = false) : trimEnd (body ++ blanks) = body := by
  have inside : ∀ c ∈ blanks.reverse, isBlank c = true := by
    intro c member
    exact blank c (List.mem_reverse.mp member)
  rw [trimEnd, List.reverse_append, dropWhile_run inside, List.reverse_reverse]
  rwa [List.head?_reverse]

/-- Only blanks are trimmed, and all of them. -/
theorem exists_trimmed (cs : List Char) :
    ∃ blanks, cs = trimEnd cs ++ blanks ∧ Blank blanks ∧
      ∀ c ∈ (trimEnd cs).getLast?, isBlank c = false := by
  refine ⟨cs.rtakeWhile isBlank, List.rdropWhile_append_rtakeWhile.symm, ?_, ?_⟩
  · intro c member
    exact List.mem_rtakeWhile_imp member
  · rw [trimEnd, List.getLast?_reverse]
    exact head?_dropWhile isBlank cs.reverse

end Characters

/-! ### One token -/

/-- How a text begins with a token: the blanks before it, its kind, the blanks that a comment takes
with it, and the rest. A comment goes on up to a glyph or to the end. -/
structure Splits (cs blanks : List Char) (kind : Token.Kind) (trailing rest : List Char) :
    Prop where
  whole : cs = blanks ++ (kind.chars ++ (trailing ++ rest))
  before : Blank blanks
  behind : Blank trailing
  proper : kind.Proper
  alone : ∀ g, kind = .glyph g → trailing = []
  stops : ∀ text, kind = .comment text → ∀ c ∈ rest.head?, Reader.isCommentary c = false

theorem Blank.append {cs ds : List Char} (one : Blank cs) (two : Blank ds) : Blank (cs ++ ds) := by
  intro c member
  rcases List.mem_append.mp member with before | after
  · exact one c before
  · exact two c after

theorem Blank.plain {cs : List Char} (blank : Blank cs) : ∀ c ∈ cs, Glyph.ofChar? c = none :=
  fun c member => ofChar?_of_isBlank (blank c member)

theorem placedGlyphs_of_plain {cs : List Char} (plain : ∀ c ∈ cs, Glyph.ofChar? c = none)
    (place : Place) : placedGlyphs cs place = [] := by
  induction cs generalizing place with
  | nil => rfl
  | cons c cs ih =>
    rw [placedGlyphs, plain c List.mem_cons_self]
    exact ih (fun d later => plain d (List.mem_cons_of_mem c later)) (place.after c)

/-- A text that does not begin with commentary begins with a glyph, if with any token. -/
theorem Splits.exists_glyph {cs blanks trailing rest : List Char} {kind : Token.Kind}
    (splits : Splits cs blanks kind trailing rest)
    (stops : ∀ c ∈ cs.head?, Reader.isCommentary c = false) : ∃ g, kind = .glyph g := by
  obtain ⟨rfl, before, _, proper, _, _⟩ := splits
  cases kind with
  | glyph g => exact ⟨g, rfl⟩
  | comment text =>
    exfalso
    obtain ⟨d, body, begins⟩ := List.exists_cons_of_ne_nil proper.nonempty
    cases blanks with
    | nil =>
      have ends : Reader.isCommentary d = false := stops d (by simp [Token.Kind.chars, begins])
      have plain := proper.plain d (begins ▸ List.mem_cons_self)
      simp [Reader.isCommentary, plain] at ends
    | cons b blanks =>
      have ends : Reader.isCommentary b = false := stops b rfl
      have plain := before.plain b List.mem_cons_self
      simp [Reader.isCommentary, plain] at ends

/-- A run of commentary that does not begin with a blank is a comment, once it is trimmed. -/
theorem isComment_trimEnd {c : Char} {cs : List Char} (visible : isBlank c = false)
    (plain : ∀ d ∈ c :: cs, Glyph.ofChar? d = none) : IsComment (trimEnd (c :: cs)) := by
  obtain ⟨blanks, whole, blank, last⟩ := exists_trimmed (c :: cs)
  have nonempty : trimEnd (c :: cs) ≠ [] := by
    intro empty
    rw [empty, List.nil_append] at whole
    have first : isBlank c = true := blank c (whole ▸ List.mem_cons_self)
    cases visible.symm.trans first
  obtain ⟨d, more, begins⟩ := List.exists_cons_of_ne_nil nonempty
  refine ⟨nonempty, ?_, ?_, last⟩
  · intro d member
    apply plain
    rw [whole]
    exact List.mem_append_left blanks member
  · intro e first
    rw [begins] at whole first
    obtain rfl : c = d := (List.cons.inj whole).1
    cases first
    exact visible

/-- A text that is not blank throughout begins with a token. -/
theorem exists_splits (cs : List Char) :
    Blank cs ∨ ∃ blanks kind trailing rest, Splits cs blanks kind trailing rest := by
  obtain ⟨blanks, after, rfl, blank, first⟩ := exists_run isBlank cs
  cases after with
  | nil =>
    left
    rwa [List.append_nil]
  | cons c after =>
    right
    have visible : isBlank c = false := first c rfl
    cases glyph : Glyph.ofChar? c with
    | some g =>
      obtain rfl := Glyph.ofChar?_eq_some_iff.mp glyph
      exact ⟨blanks, .glyph g, [], after, rfl, blank, nofun, trivial, fun _ _ => rfl, nofun⟩
    | none =>
      obtain ⟨body, rest, rfl, plain, stops⟩ := exists_run Reader.isCommentary after
      obtain ⟨trailing, trimmed, blank', _⟩ := exists_trimmed (c :: body)
      refine ⟨blanks, .comment (String.ofList (trimEnd (c :: body))), trailing, rest, ?_, blank,
        blank', ?_, nofun, fun _ _ => stops⟩
      · rw [Token.Kind.chars, String.toList_ofList, ← List.append_assoc (trimEnd _), ← trimmed,
          List.cons_append]
      · rw [Token.Kind.Proper, String.toList_ofList]
        apply isComment_trimEnd visible
        intro d member
        rcases List.mem_cons.mp member with rfl | inside
        · exact glyph
        · exact Option.isNone_iff_eq_none.mp (plain d inside)

namespace Reader

/-- The token that a text begins with is read, with the blanks around it. -/
theorem next_of_splits {cs blanks trailing rest : List Char} {kind : Token.Kind}
    (splits : Splits cs blanks kind trailing rest) (place : Place) :
    (⟨cs, place⟩ : Reader).next = (some ⟨kind, place.past blanks⟩,
      ⟨rest, place.past (blanks ++ (kind.chars ++ trailing))⟩) := by
  obtain ⟨rfl, before, behind, proper, alone, stops⟩ := splits
  have taken : ∀ {c : Char} (more : List Char), isBlank c = false →
      (blanks ++ c :: more).takeWhile isBlank = blanks ∧
      (blanks ++ c :: more).dropWhile isBlank = c :: more := by
    intro c more visible
    have ends : ∀ d ∈ (c :: more).head?, isBlank d = false := by
      rintro d ⟨⟩
      exact visible
    exact ⟨takeWhile_run before ends, dropWhile_run before ends⟩
  cases kind with
  | glyph g =>
    obtain rfl := alone g rfl
    obtain ⟨read, left⟩ := taken rest g.isBlank_char
    simp [next, Token.Kind.chars, read, left, Place.past_append]
  | comment text =>
    obtain ⟨nonempty, plain, first, last⟩ := proper
    obtain ⟨c, body, begins⟩ := List.exists_cons_of_ne_nil nonempty
    have written : text = String.ofList (c :: body) := by rw [← begins, String.ofList_toList]
    rw [begins] at plain first last
    obtain ⟨read, left⟩ := taken (body ++ (trailing ++ rest)) (first c rfl)
    have commentary : ∀ d ∈ body ++ trailing, isCommentary d = true := by
      intro d member
      apply Option.isNone_iff_eq_none.mpr
      rcases List.mem_append.mp member with inside | after
      · exact plain d (List.mem_cons_of_mem c inside)
      · exact ofChar?_of_isBlank (behind d after)
    have bodyRead := takeWhile_run commentary (stops text rfl)
    have bodyLeft := dropWhile_run commentary (stops text rfl)
    have trimmed : trimEnd (c :: (body ++ trailing)) = c :: body := trimEnd_append behind last
    rw [List.append_assoc] at bodyRead bodyLeft
    simp [next, Token.Kind.chars, written, read, left, plain c List.mem_cons_self, bodyRead,
      bodyLeft, trimmed, Place.past_append]

theorem next_of_blank {cs : List Char} (blank : Blank cs) (place : Place) :
    (⟨cs, place⟩ : Reader).next = (none, ⟨[], place.past cs⟩) := by
  have read : cs.takeWhile isBlank = cs := List.takeWhile_eq_self_iff.mpr blank
  have unread : cs.dropWhile isBlank = [] := List.dropWhile_eq_nil_iff.mpr blank
  simp only [next, read, unread]

variable {r after : Reader} {t : Token}

/-- Without a token what is left is blank, and it is read. -/
theorem blank_of_next (ended : r.next = (none, after)) :
    Blank r.rest ∧ after = ⟨[], r.place.past r.rest⟩ := by
  rcases exists_splits r.rest with blank | ⟨blanks, kind, trailing, rest, splits⟩
  · have same := ended.symm.trans (next_of_blank blank r.place)
    exact ⟨blank, (Prod.mk.inj same).2⟩
  · cases ended.symm.trans (next_of_splits splits r.place)

/-- The token that is read is the one that the rest begins with. -/
theorem splits_of_next (read : r.next = (some t, after)) :
    ∃ blanks trailing, Splits r.rest blanks t.kind trailing after.rest ∧
      t.place = r.place.past blanks ∧
      after.place = r.place.past (blanks ++ (t.kind.chars ++ trailing)) := by
  rcases exists_splits r.rest with blank | ⟨blanks, kind, trailing, rest, splits⟩
  · cases read.symm.trans (next_of_blank blank r.place)
  · cases read.symm.trans (next_of_splits splits r.place)
    exact ⟨blanks, trailing, splits, rfl, rfl⟩

/-! ### All tokens -/

/-- A reader has come to the end, or it reads a token and goes on. -/
@[elab_as_elim]
theorem byReading {motive : Reader → Prop}
    (ended : ∀ r after : Reader, r.next = (none, after) → motive r)
    (read : ∀ (r : Reader) (t : Token) (after : Reader), r.next = (some t, after) →
      motive after → motive r) (r : Reader) : motive r := by
  generalize sized : r.rest.length = n
  induction n using Nat.strongRecOn generalizing r with
  | ind n ih =>
    rcases answered : r.next with ⟨_ | t, after⟩
    · exact ended r after answered
    · have shorter := next_rest_length_lt answered
      exact read r t after answered (ih _ (sized ▸ shorter) after rfl)

theorem collect_of_ended (ended : r.next = (none, after)) (read : Array Token) :
    r.collect read = (read, after) := by
  rw [collect]
  split
  · next other =>
    cases ended.symm.trans other
    rfl
  · next other => cases ended.symm.trans other

theorem collect_of_read (read : r.next = (some t, after)) (before : Array Token) :
    r.collect before = after.collect (before.push t) := by
  rw [collect]
  split
  · next other => cases read.symm.trans other
  · next other =>
    cases read.symm.trans other
    rfl

/-- What has been read before stays in front of what is read. -/
theorem collect_eq (r : Reader) (before : Array Token) :
    r.collect before = (before ++ r.tokens.1, r.tokens.2) := by
  induction r using byReading generalizing before with
  | ended r after ended => simp [tokens, collect_of_ended ended]
  | read r t after read ih =>
    simp only [tokens, collect_of_read read, ih (before.push t), ih (#[].push t)]
    simp

theorem tokens_of_ended (ended : r.next = (none, after)) : r.tokens = (#[], after) :=
  collect_of_ended ended #[]

theorem tokens_of_read (read : r.next = (some t, after)) :
    r.tokens = (#[t] ++ after.tokens.1, after.tokens.2) := by
  rw [tokens, collect_of_read read, collect_eq]
  rfl

def left (r : Reader) : List Token :=
  r.tokens.1.toList

theorem left_of_ended (ended : r.next = (none, after)) : r.left = [] := by
  rw [left, tokens_of_ended ended]

theorem left_of_read (read : r.next = (some t, after)) : r.left = t :: after.left := by
  rw [left, tokens_of_read read, Array.toList_append]
  rfl

theorem head?_left (r : Reader) : r.left.head? = r.next.1 := by
  rcases answered : r.next with ⟨_ | t, after⟩
  · rw [left_of_ended answered]
    rfl
  · rw [left_of_read answered]
    rfl

theorem proper_left (r : Reader) : ∀ t ∈ r.left, t.kind.Proper := by
  induction r using byReading with
  | ended r after ended =>
    rw [left_of_ended ended]
    nofun
  | read r t after read ih =>
    rw [left_of_read read]
    intro u member
    rcases List.mem_cons.mp member with rfl | later
    · obtain ⟨_, _, splits, _⟩ := splits_of_next read
      exact splits.proper
    · exact ih u later

/-- A comment goes on to the next glyph, so no comment comes next. -/
theorem apart_left (r : Reader) : Apart r.left := by
  induction r using byReading with
  | ended r after ended =>
    rw [left_of_ended ended]
    exact .nil
  | read r t after read ih =>
    rw [left_of_read read]
    apply List.isChain_cons.mpr
    refine ⟨?_, ih⟩
    intro u first
    obtain ⟨_, _, splits, _⟩ := splits_of_next read
    cases kind : t.kind with
    | glyph g => exact .inl (Token.isGlyph_iff.mpr ⟨g, kind⟩)
    | comment text =>
      right
      rw [head?_left] at first
      obtain ⟨_, _, splits', _⟩ := splits_of_next (Prod.ext first rfl)
      exact Token.isGlyph_iff.mpr (splits'.exists_glyph (splits.stops text kind))

/-- The place after the last token is that of the end. -/
theorem tokens_end (r : Reader) : r.tokens.2 = ⟨[], r.place.past r.rest⟩ := by
  induction r using byReading with
  | ended r after ended =>
    rw [tokens_of_ended ended]
    exact (blank_of_next ended).2
  | read r t after read ih =>
    obtain ⟨blanks, trailing, splits, _, place⟩ := splits_of_next read
    rw [tokens_of_read read, ih, place, ← Place.past_append, splits.whole]
    simp

theorem filterMap_left (r : Reader) :
    r.left.filterMap Token.placedGlyph? = placedGlyphs r.rest r.place := by
  induction r using byReading with
  | ended r after ended =>
    rw [left_of_ended ended, placedGlyphs_of_plain (blank_of_next ended).1.plain]
    rfl
  | read r t after read ih =>
    obtain ⟨blanks, trailing, splits, placed, place⟩ := splits_of_next read
    have blanksNone := placedGlyphs_of_plain splits.before.plain r.place
    have trailingNone := placedGlyphs_of_plain splits.behind.plain
    rw [left_of_read read, List.filterMap_cons, ih, splits.whole, place]
    simp only [placedGlyphs_append, blanksNone, trailingNone, List.nil_append, Place.past_append]
    cases kind : t.kind with
    | glyph g =>
      have told : t.placedGlyph? = some (g, t.place) := by
        rw [Token.placedGlyph?, kind]
      simp [told, placed, Token.Kind.chars, placedGlyphs]
    | comment text =>
      have told : t.placedGlyph? = none := by
        rw [Token.placedGlyph?, kind]
      have proper := splits.proper
      rw [kind] at proper
      simp [told, Token.Kind.chars, placedGlyphs_of_plain proper.plain]

end Reader

end Brainfuck
