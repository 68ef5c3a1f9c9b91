import Brainfuck.Proofs.Refusal
import Mathlib.Data.List.Forall2

/-!
# Commentary

Compilation looks at glyphs and hands their places on to errors, so two texts with the same glyphs
are compiled in the same way: assemblies that differ only in places that correspond stay so
(`Assembly.Related.feedGlyphs`). Main statement: sources with the same glyphs compile to the same
code, or are refused for the same reason at the same glyph, each at its own place
(`comments_make_no_difference`).
-/
namespace Brainfuck

open Instruction

section

variable (near : Place → Place → Prop)

/-- The same error at places that correspond. -/
inductive CompileError.Related : CompileError → CompileError → Prop
  | unmatchedClosing {p q : Place} : near p q →
      Related (.unmatchedClosing p) (.unmatchedClosing q)
  | unmatchedOpening {p q : Place} : near p q →
      Related (.unmatchedOpening p) (.unmatchedOpening q)
  | loopTooLong {p q : Place} {distance : Nat} : near p q →
      Related (.loopTooLong p distance) (.loopTooLong q distance)

/-- Two compilations both come to something alike, or both to the same error at places that
correspond. -/
inductive Compiles {α : Type} (alike : α → α → Prop) :
    Except CompileError α → Except CompileError α → Prop
  | ok {x y : α} : alike x y → Compiles alike (.ok x) (.ok y)
  | error {e e' : CompileError} : e.Related near e' → Compiles alike (.error e) (.error e')

/-- Two lists of glyphs or of open loops that differ only in places that correspond. -/
def Corresponds {α : Type} : List (α × Place) → List (α × Place) → Prop :=
  List.Forall₂ fun x y => x.1 = y.1 ∧ near x.2 y.2

structure Assembly.Related (a b : Assembly) : Prop where
  body : a.body = b.body
  pending : Corresponds near a.pending b.pending

end

theorem Compiles.cases_both {near : Place → Place → Prop} {α : Type} {alike : α → α → Prop}
    {one two : Except CompileError α} (compiles : Compiles near alike one two) :
    (∃ x y, one = .ok x ∧ two = .ok y ∧ alike x y) ∨
    ∃ e e', one = .error e ∧ two = .error e' ∧ e.Related near e' := by
  cases compiles with
  | ok same => exact .inl ⟨_, _, rfl, rfl, same⟩
  | error blamed => exact .inr ⟨_, _, rfl, rfl, blamed⟩

namespace Assembly

variable {near : Place → Place → Prop} {flags : Flags} {a b : Assembly} {p q : Place}

theorem related_empty : empty.Related near empty := by
  constructor
  · rfl
  · exact .nil

theorem Related.emit (related : a.Related near b) (i : Instruction) :
    (a.emit flags i).Related near (b.emit flags i) := by
  obtain ⟨body, pending⟩ := a
  obtain ⟨_, pending'⟩ := b
  obtain ⟨rfl, opened⟩ := related
  unfold Assembly.emit
  dsimp only
  split
  · split
    · exact ⟨rfl, opened⟩
    · exact ⟨rfl, opened⟩
  · exact ⟨rfl, opened⟩

theorem Related.openLoop (related : a.Related near b) (here : near p q) :
    (a.openLoop p).Related near (b.openLoop q) := by
  obtain ⟨body, pending⟩ := a
  obtain ⟨_, pending'⟩ := b
  obtain ⟨rfl, opened⟩ := related
  constructor
  · rfl
  · exact .cons ⟨rfl, here⟩ opened

theorem Related.closeLoop (related : a.Related near b) (here : near p q) :
    Compiles near (Related near) (a.closeLoop flags p) (b.closeLoop flags q) := by
  obtain ⟨body, pending⟩ := a
  obtain ⟨_, pending'⟩ := b
  obtain ⟨rfl, opened⟩ := related
  dsimp only at opened
  cases opened with
  | nil => exact .error (.unmatchedClosing here)
  | @cons entry entry' pending pending' top below =>
    obtain ⟨start, opener⟩ := entry
    obtain ⟨start', opener'⟩ := entry'
    obtain ⟨rfl, _⟩ := top
    simp only [Assembly.closeLoop]
    by_cases drops : (flags.stripCommentBlock && start == 0) = true
    · rw [if_pos drops, if_pos drops]
      exact .ok ⟨rfl, below⟩
    · rw [if_neg drops, if_neg drops]
      by_cases fits : body.size - start ≤ maxOperand
      · rw [dif_pos fits, dif_pos fits]
        exact .ok ⟨rfl, below⟩
      · rw [dif_neg fits, dif_neg fits]
        exact .error (.loopTooLong here)

theorem Related.feed (related : a.Related near b) (g : Glyph) (here : near p q) :
    Compiles near (Related near) (a.feed flags g p) (b.feed flags g q) := by
  cases g with
  | opening => exact .ok (related.openLoop here)
  | closing => exact related.closeLoop here
  | _ => exact .ok (related.emit _)

/-- The same glyphs at places that correspond compile alike. -/
theorem Related.feedGlyphs (related : a.Related near b) {xs ys : List (Glyph × Place)}
    (same : Corresponds near xs ys) :
    Compiles near (Related near) (feedGlyphs flags xs a) (feedGlyphs flags ys b) := by
  induction same generalizing a b with
  | nil => exact .ok related
  | @cons x y xs ys head _ ih =>
    obtain ⟨g, p⟩ := x
    obtain ⟨g', q⟩ := y
    obtain ⟨rfl, here⟩ := head
    simp only [Assembly.feedGlyphs]
    have first : Compiles near (Related near) (a.feed flags g p) (b.feed flags g q) :=
      related.feed g here
    rcases first.cases_both with
      ⟨a', b', fed, fed', related'⟩ | ⟨e, e', refused, refused', blamed⟩
    · rw [fed, fed']
      exact ih related'
    · rw [refused, refused']
      exact .error blamed

theorem Related.finish (related : a.Related near b) : Compiles near Eq a.finish b.finish := by
  obtain ⟨body, pending⟩ := a
  obtain ⟨_, pending'⟩ := b
  obtain ⟨rfl, opened⟩ := related
  dsimp only at opened
  cases opened with
  | nil => exact .ok rfl
  | cons top _ => exact .error (.unmatchedOpening top.2)

end Assembly

variable {near : Place → Place → Prop} {s t : String}

theorem compiles_of_corresponds (flags : Flags) {xs ys : List (Glyph × Place)}
    (same : Corresponds near xs ys) :
    Compiles near Eq ((Assembly.feedGlyphs flags xs .empty).bind Assembly.finish)
      ((Assembly.feedGlyphs flags ys .empty).bind Assembly.finish) := by
  have whole : Compiles near (Assembly.Related near) (Assembly.feedGlyphs flags xs .empty)
      (Assembly.feedGlyphs flags ys .empty) := Assembly.related_empty.feedGlyphs same
  rcases whole.cases_both with
    ⟨a, b, fed, fed', related⟩ | ⟨e, e', refused, refused', blamed⟩
  · rw [fed, fed']
    exact related.finish
  · rw [refused, refused']
    exact .error blamed

theorem Compiles.eq_ok_iff {α : Type} {one two : Except CompileError α}
    (compiles : Compiles near Eq one two) (x : α) : one = .ok x ↔ two = .ok x := by
  cases compiles with
  | ok same => rw [same]
  | error _ =>
    constructor
    · intro accepted
      cases accepted
    · intro accepted
      cases accepted

/-- Where places make no difference the glyphs have to be the same and nothing else. -/
theorem corresponds_of_map_fst {xs ys : List (Glyph × Place)}
    (same : xs.map Prod.fst = ys.map Prod.fst) : Corresponds (fun _ _ => True) xs ys := by
  induction xs generalizing ys with
  | nil =>
    obtain rfl : ys = [] := List.map_eq_nil_iff.mp same.symm
    exact .nil
  | cons x xs ih =>
    cases ys with
    | nil => cases same
    | cons y ys =>
      obtain ⟨head, rest⟩ := List.cons.inj same
      exact .cons ⟨head, trivial⟩ (ih rest)

/-- Glyphs of the same rank correspond. -/
theorem corresponds_of_glyphsOf_eq (same : glyphsOf s = glyphsOf t) :
    Corresponds (fun p q => ∃ rank, StandsAt s rank p ∧ StandsAt t rank q)
      (placedGlyphs s.toList .start) (placedGlyphs t.toList .start) := by
  have glyphs : (placedGlyphs s.toList .start).map Prod.fst =
      (placedGlyphs t.toList .start).map Prod.fst := by
    rw [map_fst_placedGlyphs, map_fst_placedGlyphs]
    exact same
  apply List.forall₂_iff_get.mpr
  constructor
  · have sized := congrArg List.length glyphs
    rwa [List.length_map, List.length_map] at sized
  · intro rank inS inT
    have here := congrArg (fun gs => gs[rank]?) glyphs
    simp only [List.getElem?_map, List.getElem?_eq_getElem inS, List.getElem?_eq_getElem inT,
      Option.map_some, Option.some.injEq] at here
    refine ⟨here, rank, ?_, ?_⟩
    · exact standsAt_iff.mpr ⟨_, List.getElem?_eq_getElem inS⟩
    · exact standsAt_iff.mpr ⟨_, List.getElem?_eq_getElem inT⟩

/-- What stands between the glyphs makes no difference. Under any optimizations, sources with the
same glyphs compile to the same code, or both are refused for the same reason, with the same length
of a loop that is too long, and at the glyph of one rank: each error tells the place where this
glyph stands in its own source. -/
theorem comments_make_no_difference {s t : String} (same : glyphsOf s = glyphsOf t)
    (flags : Flags) :
    (∃ code, compile flags s = .ok code ∧ compile flags t = .ok code) ∨
    ∃ e e', compile flags s = .error e ∧ compile flags t = .error e' ∧
      e.Related (fun p q => ∃ rank, StandsAt s rank p ∧ StandsAt t rank q) e' := by
  have compiles := compiles_of_corresponds flags (corresponds_of_glyphsOf_eq same)
  simp only [compile_eq_bind, Assembly.feedText_eq_feedGlyphs]
  rcases compiles.cases_both with ⟨code, code', compiled, compiled', rfl⟩ | refused
  · exact .inl ⟨code, compiled, compiled'⟩
  · exact .inr refused

/-- A dropped loop and a run with comments in them, and a bracket that is refused in another line.
-/
theorem comments_make_no_difference_inside_runs :
    (glyphsOf "[,]+++>" = glyphsOf "[read ,\n] +: ++ then >" ∧
      ∃ code, compile .all "[,]+++>" = .ok code ∧
        compile .all "[read ,\n] +: ++ then >" = .ok code) ∧
    glyphsOf "+[-]]" = glyphsOf "+\n[é - ]\n ]" ∧
      ∃ rank, StandsAt "+[-]]" rank ⟨1, 5, 4⟩ ∧ StandsAt "+\n[é - ]\n ]" rank ⟨3, 2, 10⟩ := by
  have same : glyphsOf "[,]+++>" = glyphsOf "[read ,\n] +: ++ then >" := by decide
  have same' : glyphsOf "+[-]]" = glyphsOf "+\n[é - ]\n ]" := by decide
  have accepted : compile .all "[,]+++>" = .ok _ := rfl
  have refused : compile .all "+[-]]" = .error (.unmatchedClosing ⟨1, 5, 4⟩) := rfl
  have refused' : compile .all "+\n[é - ]\n ]" = .error (.unmatchedClosing ⟨3, 2, 10⟩) := rfl
  constructor
  · refine ⟨same, ?_⟩
    rcases comments_make_no_difference same .all with compiled | ⟨e, _, failed, _⟩
    · exact compiled
    · cases accepted.symm.trans failed
  · refine ⟨same', ?_⟩
    rcases comments_make_no_difference same' .all with
      ⟨code, compiled, _⟩ | ⟨e, e', failed, failed', blamed⟩
    · cases refused.symm.trans compiled
    · cases refused.symm.trans failed
      cases refused'.symm.trans failed'
      cases blamed with
      | unmatchedClosing here => exact here

end Brainfuck
