import Brainfuck.Proofs.Reading

/-!
# Tokens tile their source

The tokens that are left lie in the unread text one after the other with nothing but blanks between
them (`Reader.tiles_left`), and no other tokens do so, if comments are apart
(`Reader.left_of_tiles`). Reading takes a part of the text off and counts it (`Reader.Follows`),
whichever way it is read, so a reader is always within its source (`Reader.Reaches.within`). Main
statement: the tokens of a source tile it, and wherever a reader has come to, its place is told by
counting what it has read (`tokens_tile`).
-/
namespace Brainfuck

/-- Tokens lie in a text one after the other, each at the place that is told by the text before it,
and all that is left between them and at both ends is blank. The first argument is what comes before
the text. -/
inductive Tiles : List Char → List Token → List Char → Prop
  | done {before blanks : List Char} : Blank blanks → Tiles before [] blanks
  | token {before blanks rest : List Char} {t : Token} {ts : List Token} :
      Blank blanks → t.place = .behind (before ++ blanks) →
      Tiles (before ++ blanks ++ t.kind.chars) ts rest →
      Tiles before (t :: ts) (blanks ++ (t.kind.chars ++ rest))

theorem Place.past_behind (before more : List Char) :
    (behind before).past more = behind (before ++ more) := by
  rw [← past_start, ← past_start, past_append]

/-- More blanks may come first. -/
theorem Tiles.prepend {before blanks cs : List Char} {ts : List Token} (blank : Blank blanks)
    (tiles : Tiles (before ++ blanks) ts cs) : Tiles before ts (blanks ++ cs) := by
  cases tiles with
  | done more => exact .done (blank.append more)
  | token more placed rest =>
    rw [List.append_assoc before] at placed rest
    rw [← List.append_assoc]
    exact .token (blank.append more) placed rest

/-- Where a glyph or no token comes next, there are blanks up to it or up to the end. -/
theorem Tiles.exists_trailing {before cs : List Char} {ts : List Token} (tiles : Tiles before ts cs)
    (next : ∀ t ∈ ts.head?, t.isGlyph = true) :
    ∃ trailing rest, cs = trailing ++ rest ∧ Blank trailing ∧
      ∀ c ∈ rest.head?, Reader.isCommentary c = false := by
  cases tiles with
  | done blank => exact ⟨cs, [], (List.append_nil cs).symm, blank, nofun⟩
  | @token _ blanks rest t ts blank placed tiles =>
    obtain ⟨g, kind⟩ := Token.isGlyph_iff.mp (next t rfl)
    refine ⟨blanks, t.kind.chars ++ rest, rfl, blank, ?_⟩
    rw [kind]
    rintro c ⟨⟩
    simp [Reader.isCommentary]

/-- A comment takes the blanks behind it along, a glyph does not. -/
theorem Tiles.exists_splits {before blanks rest : List Char} {t : Token} {ts : List Token}
    (tiles : Tiles before ts rest) (blank : Blank blanks) (proper : t.kind.Proper)
    (next : ∀ u ∈ ts.head?, t.isGlyph = true ∨ u.isGlyph = true) :
    ∃ trailing more, rest = trailing ++ more ∧
      Splits (blanks ++ (t.kind.chars ++ rest)) blanks t.kind trailing more := by
  cases kind : t.kind with
  | glyph g => exact ⟨[], rest, rfl, rfl, blank, nofun, trivial, fun _ _ => rfl, nofun⟩
  | comment text =>
    have glyphNext : ∀ u ∈ ts.head?, u.isGlyph = true := by
      intro u first
      apply (next u first).resolve_left
      rw [Token.isGlyph_iff, kind]
      nofun
    obtain ⟨trailing, more, rfl, blanks', stops⟩ := tiles.exists_trailing glyphNext
    rw [kind] at proper
    exact ⟨trailing, more, rfl, rfl, blank, blanks', proper, nofun, fun _ _ => stops⟩

namespace Reader

variable {r after : Reader} {t : Token}

/-- Blanks in front make no difference to what is read. -/
theorem next_append_of_blank {blanks : List Char} (blank : Blank blanks) (cs : List Char)
    (place : Place) :
    (⟨blanks ++ cs, place⟩ : Reader).next = (⟨cs, place.past blanks⟩ : Reader).next := by
  have read : (blanks ++ cs).takeWhile isBlank = blanks ++ cs.takeWhile isBlank :=
    List.takeWhile_append_of_pos blank
  have unread : (blanks ++ cs).dropWhile isBlank = cs.dropWhile isBlank :=
    List.dropWhile_append_of_pos blank
  simp only [next, read, unread, Place.past_append]

theorem left_append_of_blank {blanks : List Char} (blank : Blank blanks) (cs : List Char)
    (place : Place) :
    (⟨blanks ++ cs, place⟩ : Reader).left = (⟨cs, place.past blanks⟩ : Reader).left := by
  have same := next_append_of_blank blank cs place
  rcases answered : (⟨cs, place.past blanks⟩ : Reader).next with ⟨_ | t, after⟩
  · rw [left_of_ended answered, left_of_ended (same.trans answered)]
  · rw [left_of_read answered, left_of_read (same.trans answered)]

/-- The tokens that are left tile the text that is left. -/
theorem tiles_left (r : Reader) {before : List Char} (placed : r.place = .behind before) :
    Tiles before r.left r.rest := by
  induction r using byReading generalizing before with
  | ended r after ended =>
    rw [left_of_ended ended]
    exact .done (blank_of_next ended).1
  | read r t after read ih =>
    obtain ⟨blanks, trailing, splits, here, next⟩ := splits_of_next read
    rw [placed, Place.past_behind] at here next
    rw [left_of_read read, splits.whole]
    have rest : Tiles (before ++ blanks ++ t.kind.chars ++ trailing) after.left after.rest := by
      apply ih
      rw [next]
      simp only [List.append_assoc]
    exact .token splits.before here (rest.prepend splits.behind)

theorem left_of_splits {before cs blanks trailing rest : List Char} {kind : Token.Kind}
    (splits : Splits cs blanks kind trailing rest) :
    (⟨cs, .behind before⟩ : Reader).left = ⟨kind, .behind (before ++ blanks)⟩ ::
      (⟨rest, .behind (before ++ blanks ++ kind.chars ++ trailing)⟩ : Reader).left := by
  have read := next_of_splits splits (.behind before)
  simp only [Place.past_behind, ← List.append_assoc] at read
  exact left_of_read read

/-- Proper tokens that tile a text with comments apart are those that are read from it. -/
theorem left_of_tiles {before cs : List Char} {ts : List Token} (tiles : Tiles before ts cs)
    (proper : ∀ t ∈ ts, t.kind.Proper) (apart : Apart ts) :
    (⟨cs, .behind before⟩ : Reader).left = ts := by
  induction tiles with
  | done blank => exact left_of_ended (next_of_blank blank _)
  | @token before blanks rest t ts blank placed tiles ih =>
    obtain ⟨next, apart⟩ := List.isChain_cons.mp apart
    have left := ih (fun u later => proper u (List.mem_cons_of_mem t later)) apart
    have here := proper t List.mem_cons_self
    -- The reader goes on behind the blanks that a comment takes along, the tiling before them.
    obtain ⟨trailing, more, rfl, splits⟩ := tiles.exists_splits blank here next
    rw [left_append_of_blank splits.behind, Place.past_behind] at left
    rw [left_of_splits splits, ← placed, left]

/-! ### Tokens and glyphs in any order -/

def Follows (r after : Reader) : Prop :=
  ∃ read, r.rest = read ++ after.rest ∧ after.place = r.place.past read

theorem Follows.trans {second third : Reader} (one : r.Follows second)
    (two : second.Follows third) : r.Follows third := by
  obtain ⟨read, whole, place⟩ := one
  obtain ⟨more, whole', place'⟩ := two
  refine ⟨read ++ more, ?_, ?_⟩
  · rw [whole, whole', List.append_assoc]
  · rw [place', place, Place.past_append]

theorem follows_end (r : Reader) : r.Follows ⟨[], r.place.past r.rest⟩ :=
  ⟨r.rest, (List.append_nil r.rest).symm, rfl⟩

theorem follows_next (r : Reader) : r.Follows r.next.2 := by
  rcases answered : r.next with ⟨_ | t, after⟩
  · obtain ⟨_, rfl⟩ := blank_of_next answered
    exact r.follows_end
  · obtain ⟨blanks, trailing, splits, _, place⟩ := splits_of_next answered
    refine ⟨blanks ++ (t.kind.chars ++ trailing), ?_, place⟩
    rw [splits.whole]
    simp only [List.append_assoc]

theorem nextGlyph_of_ended (ended : r.next = (none, after)) : r.nextGlyph = (none, after) := by
  rw [nextGlyph]
  split
  · next other => exact ended.symm.trans other ▸ rfl
  · next other => cases ended.symm.trans other

theorem nextGlyph_of_read (read : r.next = (some t, after)) :
    r.nextGlyph = if t.isGlyph then (some t, after) else after.nextGlyph := by
  rw [nextGlyph]
  split
  · next other => cases read.symm.trans other
  · next other =>
    cases read.symm.trans other
    rfl

theorem follows_nextGlyph (r : Reader) : r.Follows r.nextGlyph.2 := by
  induction r using byReading with
  | ended r after ended =>
    rw [nextGlyph_of_ended ended, ← congrArg Prod.snd ended]
    exact r.follows_next
  | read r t after read ih =>
    have follows : r.Follows after := by
      have next := r.follows_next
      rwa [read] at next
    rw [nextGlyph_of_read read]
    split
    · exact follows
    · exact follows.trans ih

/-- Reading a token leaves the tokens that come after it. -/
theorem left_next (r : Reader) : r.next.2.left = r.left.tail := by
  rcases answered : r.next with ⟨_ | t, after⟩
  · obtain ⟨_, rfl⟩ := blank_of_next answered
    rw [left_of_ended answered]
    have blank : Blank [] := List.forall_mem_nil _
    exact left_of_ended (next_of_blank blank _)
  · rw [left_of_read answered]
    rfl

/-- The next glyph is the first among the tokens that are left. -/
theorem find?_left (r : Reader) : r.left.find? Token.isGlyph = r.nextGlyph.1 := by
  induction r using byReading with
  | ended r after ended =>
    rw [left_of_ended ended, nextGlyph_of_ended ended]
    rfl
  | read r t after read ih =>
    rw [left_of_read read, nextGlyph_of_read read, List.find?_cons]
    cases t.isGlyph with
    | true => rfl
    | false => exact ih

/-- Reading a glyph leaves the tokens behind the first glyph. -/
theorem left_nextGlyph (r : Reader) :
    r.nextGlyph.2.left = (r.left.dropWhile fun t => !t.isGlyph).tail := by
  induction r using byReading with
  | ended r after ended =>
    have rest : after.left = [] := by
      have later := r.left_next
      rwa [ended, left_of_ended ended] at later
    rw [nextGlyph_of_ended ended, left_of_ended ended]
    exact rest
  | read r t after read ih =>
    rw [nextGlyph_of_read read, left_of_read read]
    cases glyph : t.isGlyph with
    | true => simp [glyph]
    | false => simpa [glyph] using ih

/-- Without a token the text is read to its end. -/
theorem next_end (r : Reader) (ended : r.next.1 = none) : r.next.2 = ⟨[], r.place.past r.rest⟩ :=
  (blank_of_next (Prod.ext ended rfl)).2

/-- Without a glyph the text is read to its end. -/
theorem nextGlyph_end (r : Reader) (ended : r.nextGlyph.1 = none) :
    r.nextGlyph.2 = ⟨[], r.place.past r.rest⟩ := by
  induction r using byReading with
  | ended r after answered =>
    rw [nextGlyph_of_ended answered]
    exact (blank_of_next answered).2
  | read r t after read ih =>
    rw [nextGlyph_of_read read] at ended ⊢
    by_cases glyph : t.isGlyph = true
    · rw [if_pos glyph] at ended
      cases ended
    · rw [if_neg glyph] at ended ⊢
      obtain ⟨blanks, trailing, splits, _, place⟩ := splits_of_next read
      rw [ih ended, place, ← Place.past_append, splits.whole]
      simp only [List.append_assoc]

/-- What a reader comes to by reading tokens and glyphs in any order. -/
inductive Reaches (first : Reader) : Reader → Prop
  | start : Reaches first first
  | next {r : Reader} : Reaches first r → Reaches first r.next.2
  | nextGlyph {r : Reader} : Reaches first r → Reaches first r.nextGlyph.2

theorem Reaches.follows {first : Reader} (reaches : first.Reaches r) : first.Follows r := by
  induction reaches with
  | start => exact ⟨[], rfl, rfl⟩
  | next _ ih => exact ih.trans (follows_next _)
  | nextGlyph _ ih => exact ih.trans (follows_nextGlyph _)

/-- A reader stands within a source: what it has read and what is left are the source, and its place
is told by what it has read. -/
structure Within (source : String) (read : List Char) (r : Reader) : Prop where
  whole : source.toList = read ++ r.rest
  place : r.place = .behind read

theorem Reaches.within {source : String} (reaches : (ofSource source).Reaches r) :
    ∃ read, r.Within source read := by
  obtain ⟨read, whole, place⟩ := reaches.follows
  exact ⟨read, whole, place.trans (Place.past_start read)⟩

theorem Within.place_end {source : String} {read : List Char} (within : r.Within source read) :
    r.place.past r.rest = .behind source.toList := by
  rw [within.place, Place.past_behind, ← within.whole]

end Reader

/-- A glyph is placed wherever it stands. -/
theorem mem_placedGlyphs {cs : List Char} {start place : Place} {g : Glyph} :
    (g, place) ∈ placedGlyphs cs start ↔
      ∃ before after, cs = before ++ g.char :: after ∧ place = start.past before := by
  constructor
  · intro member
    induction cs generalizing start with
    | nil => cases member
    | cons c cs ih =>
      have later : (g, place) ∈ placedGlyphs cs (start.after c) →
          ∃ before after, c :: cs = before ++ g.char :: after ∧ place = start.past before := by
        intro member
        obtain ⟨before, after, rfl, placed⟩ := ih member
        exact ⟨c :: before, after, rfl, placed⟩
      rw [placedGlyphs] at member
      cases glyph : Glyph.ofChar? c with
      | none => exact later (by rwa [glyph] at member)
      | some h =>
        rw [glyph] at member
        obtain rfl := Glyph.ofChar?_eq_some_iff.mp glyph
        rcases List.mem_cons.mp member with here | rest
        · cases here
          exact ⟨[], cs, rfl, rfl⟩
        · exact later rest
  · rintro ⟨before, after, rfl, rfl⟩
    rw [placedGlyphs_append]
    simp [placedGlyphs]

/-- Every glyph of a text is a token at its place, and the other way around. -/
theorem glyph_mem_left {r : Reader} {g : Glyph} {place : Place} :
    ⟨.glyph g, place⟩ ∈ r.left ↔
      ∃ before after, r.rest = before ++ g.char :: after ∧ place = r.place.past before := by
  rw [← mem_placedGlyphs, ← r.filterMap_left, List.mem_filterMap]
  constructor
  · intro member
    exact ⟨_, member, rfl⟩
  · rintro ⟨⟨kind, place'⟩, member, told⟩
    cases kind with
    | glyph h =>
      cases told
      exact member
    | comment text => cases told

/-- The tokens of a source are the only proper ones that tile it with comments apart. -/
theorem tokens_eq_iff {source : String} {ts : List Token} :
    tokens source = ts ↔
      Tiles [] ts source.toList ∧ (∀ t ∈ ts, t.kind.Proper) ∧ Apart ts := by
  constructor
  · rintro rfl
    have all : tokens source = (Reader.ofSource source).left := rfl
    rw [all]
    exact ⟨Reader.tiles_left _ rfl, Reader.proper_left _, Reader.apart_left _⟩
  · rintro ⟨tiles, proper, apart⟩
    exact Reader.left_of_tiles tiles proper apart

/-- The tokens of a source and the blanks between them are the source. Each token is at the place
that is told by the text before it, comments say something and are apart, and every glyph is a
token. However tokens and glyphs have been read, the place of the reader is told by what it has
read. It reads the first token that is left and goes on with the others, or the first glyph and goes
on with what is behind it; when there is none, it is at the end of the source. -/
theorem tokens_tile (source : String) :
    Tiles [] (tokens source) source.toList ∧ (∀ t ∈ tokens source, t.kind.Proper) ∧
    Apart (tokens source) ∧
    (∀ g place, ⟨.glyph g, place⟩ ∈ tokens source ↔
      ∃ before after, source.toList = before ++ g.char :: after ∧ place = .behind before) ∧
    (Reader.ofSource source).tokens.2 = ⟨[], .behind source.toList⟩ ∧
    ∀ r, (Reader.ofSource source).Reaches r →
      (∃ read, r.Within source read ∧ Tiles read r.left r.rest) ∧
      r.next.1 = r.left.head? ∧ r.next.2.left = r.left.tail ∧
      r.nextGlyph.1 = r.left.find? Token.isGlyph ∧
      r.nextGlyph.2.left = (r.left.dropWhile fun t => !t.isGlyph).tail ∧
      (r.next.1 = none → r.next.2 = ⟨[], .behind source.toList⟩) ∧
      (r.nextGlyph.1 = none → r.nextGlyph.2 = ⟨[], .behind source.toList⟩) := by
  obtain ⟨tiles, proper, apart⟩ := tokens_eq_iff.mp (rfl : tokens source = _)
  refine ⟨tiles, proper, apart, ?_, ?_, ?_⟩
  · intro g place
    rw [← funext Place.past_start]
    exact glyph_mem_left
  · rw [Reader.tokens_end, Reader.ofSource, Place.past_start]
  · intro r reaches
    obtain ⟨read, within⟩ := reaches.within
    refine ⟨⟨read, within, r.tiles_left within.place⟩, r.head?_left.symm, r.left_next,
      r.find?_left.symm, r.left_nextGlyph, ?_, ?_⟩
    · intro ended
      rw [r.next_end ended, within.place_end]
    · intro ended
      rw [r.nextGlyph_end ended, within.place_end]

/-- A comment over two lines, with a blank before the glyph and two behind it. -/
theorem tokens_tile_over_two_lines :
    ⟨.glyph .increment, ⟨2, 5, 8⟩⟩ ∈ tokens "say\n hi + \n" ∧
    (Reader.ofSource "say\n hi + \n").tokens.2 = ⟨[], ⟨3, 1, 11⟩⟩ ∧
    ∃ read, (Reader.ofSource "say\n hi + \n").next.2.nextGlyph.2.Within "say\n hi + \n" read := by
  obtain ⟨_, _, _, glyphs, ended, always⟩ := tokens_tile "say\n hi + \n"
  have counted : Place.behind "say\n hi + \n".toList = ⟨3, 1, 11⟩ := by decide
  refine ⟨?_, counted ▸ ended, ?_⟩
  · exact (glyphs .increment ⟨2, 5, 8⟩).mpr ⟨"say\n hi ".toList, " \n".toList, by decide, by decide⟩
  · obtain ⟨⟨read, within, _⟩, _⟩ := always _ (.nextGlyph (.next .start))
    exact ⟨read, within⟩

end Brainfuck
