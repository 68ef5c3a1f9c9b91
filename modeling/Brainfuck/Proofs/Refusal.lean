import Brainfuck.Proofs.Assembling

/-!
# Where compilation stops

Glyphs are compiled one after the other until a closing bracket is refused, because nothing is open
or because the loop is too long (`Assembly.closeLoop_error_cases`); everything before it compiles
(`Assembly.exists_refused`). Main statement: a source is refused at such a bracket, or it depends on
what is open at its end (`compile_refused_or_finished`).
-/
namespace Brainfuck

/-!
### Where glyphs stand

The place of a glyph is told by the text before it: how many line feeds are in it, how many
characters come after the last of them, and how many there are in all (`Place.behind`). Main
statement: these are the places that glyphs are compiled with (`standsAt_iff`).
-/

/-- The place behind a text, told by counting: the line feeds in it, the characters after the last
of them, and all its characters. -/
def Place.behind (before : List Char) : Place :=
  ⟨before.count '\n' + 1, (before.reverse.takeWhile (· != '\n')).length + 1, before.length⟩

theorem Place.past_reverse (cs : List Char) : start.past cs.reverse = behind cs.reverse := by
  induction cs with
  | nil => rfl
  | cons c cs ih =>
    rw [List.reverse_cons, past_append, ih, past_cons, past_nil, after]
    by_cases feed : c = '\n'
    · simp [behind, feed]
    · simp [behind, feed]

theorem Place.past_start (before : List Char) : start.past before = behind before := by
  have told := past_reverse before.reverse
  rwa [List.reverse_reverse] at told

/-- The glyph of a rank stands at a place: as many glyphs come before it as the rank says. -/
def StandsAt (source : String) (rank : Nat) (place : Place) : Prop :=
  ∃ before c after, source.toList = before ++ c :: after ∧ (Glyph.ofChar? c).isSome ∧
    (before.filterMap Glyph.ofChar?).length = rank ∧ place = .behind before

theorem length_placedGlyphs (cs : List Char) (place : Place) :
    (placedGlyphs cs place).length = (cs.filterMap Glyph.ofChar?).length := by
  rw [← map_fst_placedGlyphs cs place, List.length_map]

theorem placedGlyphs_append (before rest : List Char) (place : Place) :
    placedGlyphs (before ++ rest) place =
      placedGlyphs before place ++ placedGlyphs rest (place.past before) := by
  induction before generalizing place with
  | nil => rfl
  | cons c before ih =>
    cases glyph : Glyph.ofChar? c with
    | none => simp only [List.cons_append, placedGlyphs, glyph, ih, Place.past_cons]
    | some g => simp only [List.cons_append, placedGlyphs, glyph, ih, Place.past_cons]

theorem exists_of_placedGlyphs {cs : List Char} {start place : Place} {rank : Nat} {g : Glyph}
    (here : (placedGlyphs cs start)[rank]? = some (g, place)) :
    ∃ before c after, cs = before ++ c :: after ∧ (Glyph.ofChar? c).isSome ∧
      (before.filterMap Glyph.ofChar?).length = rank ∧ place = start.past before := by
  induction cs generalizing start rank with
  | nil => simp [placedGlyphs] at here
  | cons c cs ih =>
    cases glyph : Glyph.ofChar? c with
    | none =>
      simp only [placedGlyphs, glyph] at here
      obtain ⟨before, d, after, rfl, isGlyph, ranked, placed⟩ := ih here
      exact ⟨c :: before, d, after, rfl, isGlyph, by simpa [glyph] using ranked, placed⟩
    | some h =>
      simp only [placedGlyphs, glyph] at here
      cases rank with
      | zero =>
        obtain ⟨_, rfl⟩ := Prod.mk.inj (Option.some.inj here)
        exact ⟨[], c, cs, rfl, by rw [glyph]; rfl, rfl, rfl⟩
      | succ rank =>
        obtain ⟨before, d, after, rfl, isGlyph, ranked, placed⟩ := ih here
        exact ⟨c :: before, d, after, rfl, isGlyph, by simpa [glyph] using ranked, placed⟩

theorem standsAt_iff {source : String} {rank : Nat} {place : Place} :
    StandsAt source rank place ↔
      ∃ g, (placedGlyphs source.toList .start)[rank]? = some (g, place) := by
  constructor
  · rintro ⟨before, c, after, whole, isGlyph, rfl, rfl⟩
    obtain ⟨g, glyph⟩ := Option.isSome_iff_exists.mp isGlyph
    refine ⟨g, ?_⟩
    have sized := length_placedGlyphs before .start
    rw [whole, placedGlyphs_append, List.getElem?_append_right (by omega), sized, Nat.sub_self,
      Place.past_start]
    simp only [placedGlyphs, glyph, List.getElem?_cons_zero]
  · rintro ⟨g, here⟩
    obtain ⟨before, c, after, whole, isGlyph, ranked, placed⟩ := exists_of_placedGlyphs here
    exact ⟨before, c, after, whole, isGlyph, ranked, by rw [placed, Place.past_start]⟩

theorem StandsAt.unique {source : String} {rank : Nat} {place place' : Place}
    (one : StandsAt source rank place) (two : StandsAt source rank place') : place = place' := by
  obtain ⟨g, here⟩ := standsAt_iff.mp one
  obtain ⟨g', here'⟩ := standsAt_iff.mp two
  exact (Prod.mk.inj (Option.some.inj (here.symm.trans here'))).2

/-! ### Where compilation stops -/

open Instruction

namespace Assembly

variable {flags : Flags} {a b : Assembly} {e : CompileError} {place : Place}

theorem feedGlyphs_append (flags : Flags) (first rest : List (Glyph × Place)) (a : Assembly) :
    feedGlyphs flags (first ++ rest) a =
      match feedGlyphs flags first a with
      | .error e => .error e
      | .ok b => feedGlyphs flags rest b := by
  induction first generalizing a with
  | nil => rfl
  | cons entry first ih =>
    obtain ⟨g, place⟩ := entry
    simp only [List.cons_append, feedGlyphs]
    cases a.feed flags g place with
    | error e => rfl
    | ok b => exact ih b

/-- A closing bracket is refused if nothing is open, or if the innermost loop is too long. -/
theorem closeLoop_error_cases (refused : a.closeLoop flags place = .error e) :
    (a.pending = [] ∧ e = .unmatchedClosing place) ∨
    ∃ start opener pending, a.pending = (start, opener) :: pending ∧
      maxOperand < a.body.size - start ∧ e = .loopTooLong place (a.body.size - start) := by
  obtain ⟨body, pending⟩ := a
  cases pending with
  | nil =>
    cases refused
    exact .inl ⟨rfl, rfl⟩
  | cons entry pending =>
    obtain ⟨start, opener⟩ := entry
    right
    simp only [closeLoop] at refused
    split at refused
    · cases refused
    · split at refused
      · cases refused
      · next long =>
        cases refused
        exact ⟨start, opener, pending, rfl, Nat.lt_of_not_le long, rfl⟩

/-- The bracket that is refused is the one to blame. -/
theorem place_of_closeLoop_error (refused : a.closeLoop flags place = .error e) :
    e.place = place := by
  rcases closeLoop_error_cases refused with ⟨_, rfl⟩ | ⟨_, _, _, _, _, rfl⟩
  · rfl
  · rfl

/-- A loop that is too long is refused, unless it stands at the start and may be dropped. -/
theorem closeLoop_of_long {start : Nat} {opener : Place} {pending : List (Nat × Place)}
    (top : a.pending = (start, opener) :: pending)
    (kept : (flags.stripCommentBlock && start == 0) = false)
    (long : maxOperand < a.body.size - start) :
    a.closeLoop flags place = .error (.loopTooLong place (a.body.size - start)) := by
  obtain ⟨body, all⟩ := a
  obtain rfl : all = (start, opener) :: pending := top
  have unfit : ¬ body.size - start ≤ maxOperand := Nat.not_le_of_lt long
  simp only [closeLoop, kept, Bool.false_eq_true, if_false, dif_neg unfit]

/-- Only a closing bracket is refused. -/
theorem feed_error {g : Glyph} (refused : a.feed flags g place = .error e) :
    g = .closing ∧ a.closeLoop flags place = .error e := by
  cases g with
  | closing => exact ⟨rfl, refused⟩
  | _ => cases refused

/-- What cannot be compiled is refused at a closing bracket, and everything before it compiles. -/
theorem exists_refused {more : List (Glyph × Place)} (failed : feedGlyphs flags more a = .error e) :
    ∃ read place rest b, more = read ++ (.closing, place) :: rest ∧
      feedGlyphs flags read a = .ok b ∧ b.closeLoop flags place = .error e := by
  induction more generalizing a with
  | nil => cases failed
  | cons entry more ih =>
    obtain ⟨g, place⟩ := entry
    cases fed : a.feed flags g place with
    | error e' =>
      simp only [feedGlyphs, fed] at failed
      cases failed
      obtain ⟨rfl, refused⟩ := feed_error fed
      exact ⟨[], place, more, a, rfl, rfl, refused⟩
    | ok b =>
      simp only [feedGlyphs, fed] at failed
      obtain ⟨read, place', rest, last, whole, compiled, refused⟩ := ih failed
      refine ⟨(g, place) :: read, place', rest, last, ?_, ?_, refused⟩
      · rw [whole, List.cons_append]
      · simp only [feedGlyphs, fed, compiled]

/-- A closing bracket that is refused ends the compilation, whatever comes after it. -/
theorem feedGlyphs_of_refused {read : List (Glyph × Place)} (fed : feedGlyphs flags read a = .ok b)
    (refused : b.closeLoop flags place = .error e) (rest : List (Glyph × Place)) :
    feedGlyphs flags (read ++ (.closing, place) :: rest) a = .error e := by
  rw [feedGlyphs_append, fed]
  simp only [feedGlyphs, feed, refused]

/-- What cannot be compiled cannot be compiled with more after it. -/
theorem feedGlyphs_append_error {read : List (Glyph × Place)}
    (failed : feedGlyphs flags read a = .error e) (rest : List (Glyph × Place)) :
    feedGlyphs flags (read ++ rest) a = .error e := by
  rw [feedGlyphs_append, failed]

theorem finish_eq_ok_iff {code : Code} : a.finish = .ok code ↔ a = ⟨code.body, []⟩ := by
  obtain ⟨body, pending⟩ := a
  cases pending with
  | nil =>
    constructor
    · intro finished
      cases finished
      rfl
    · intro same
      cases same
      rfl
  | cons entry pending =>
    constructor
    · intro finished
      cases finished
    · intro same
      cases same

theorem finish_eq_error_iff : a.finish = .error e ↔
    ∃ start place pending, a.pending = (start, place) :: pending ∧ e = .unmatchedOpening place := by
  obtain ⟨body, pending⟩ := a
  cases pending with
  | nil =>
    constructor
    · intro failed
      cases failed
    · rintro ⟨_, _, _, opened, _⟩
      cases opened
  | cons entry pending =>
    constructor
    · intro failed
      cases failed
      exact ⟨_, _, _, rfl, rfl⟩
    · rintro ⟨_, _, _, opened, rfl⟩
      cases opened
      rfl

end Assembly

/-- A source is refused at a closing bracket, or all of its glyphs compile and it depends on what is
open at the end. -/
theorem compile_refused_or_finished (flags : Flags) (source : String) :
    (∃ e, Assembly.feedGlyphs flags (placedGlyphs source.toList .start) .empty = .error e ∧
      compile flags source = .error e ∧
      ((∃ place, e = .unmatchedClosing place) ∨
        ∃ place distance, e = .loopTooLong place distance)) ∨
    ∃ a, Assembly.feedGlyphs flags (placedGlyphs source.toList .start) .empty = .ok a ∧
      compile flags source = a.finish := by
  unfold compile
  rw [Assembly.feedText_eq_feedGlyphs]
  cases fed : Assembly.feedGlyphs flags (placedGlyphs source.toList .start) .empty with
  | ok a => exact .inr ⟨a, rfl, rfl⟩
  | error e =>
    obtain ⟨read, place, rest, b, _, _, refused⟩ := Assembly.exists_refused fed
    refine .inl ⟨e, rfl, rfl, ?_⟩
    rcases Assembly.closeLoop_error_cases refused with ⟨_, alone⟩ | ⟨_, _, _, _, _, long⟩
    · exact .inl ⟨place, alone⟩
    · exact .inr ⟨place, _, long⟩

end Brainfuck
