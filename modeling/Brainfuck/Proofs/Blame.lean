import Brainfuck.Proofs.Matching
import Brainfuck.Proofs.Refusal

/-!
# Which bracket is to blame

A closing bracket is objected to when it has no partner, or one that is farther away than an operand
can say. Without optimizations the index of an instruction is the rank of its glyph, so a source is
refused at the first closing bracket that is objected to; if there is none, at the last opening
bracket that is never closed. Main statement: these are the errors, each at the place that the text
before the bracket tells, and every other source compiles (`compile_plain_iff`).
-/
namespace Brainfuck

open Instruction

/-- A closing bracket that code cannot be made for: it closes nothing, or a loop that is longer than
an operand can say. -/
def Objection (gs : List Glyph) (j : Nat) : Prop :=
  Unopened gs j ∨ ∃ i, Mates gs i j ∧ maxOperand < j - i

def FirstObjection (gs : List Glyph) (j : Nat) : Prop :=
  Objection gs j ∧ ∀ k < j, ¬ Objection gs k

/-- What a source without optimizations is blamed for, and at which bracket. -/
inductive Blames (source : String) : CompileError → Prop
  | unopened {j : Nat} {place : Place} : FirstObjection (glyphsOf source) j →
      Unopened (glyphsOf source) j → StandsAt source j place →
      Blames source (.unmatchedClosing place)
  | tooLong {i j : Nat} {place : Place} : FirstObjection (glyphsOf source) j →
      Mates (glyphsOf source) i j → maxOperand < j - i → StandsAt source j place →
      Blames source (.loopTooLong place (j - i))
  | unclosed {i : Nat} {place : Place} : (∀ j, ¬ Objection (glyphsOf source) j) →
      Unclosed (glyphsOf source) i → (∀ k, i < k → ¬ Unclosed (glyphsOf source) k) →
      StandsAt source i place → Blames source (.unmatchedOpening place)

section Objections

variable {gs more : List Glyph} {g : Glyph} {j : Nat}

theorem Objection.closes (objection : Objection gs j) : gs[j]? = some .closing := by
  rcases objection with unopened | ⟨i, mates, _⟩
  · exact unopened.1
  · exact mates.closes

theorem Objection.lt_length (objection : Objection gs j) : j < gs.length :=
  (List.getElem?_eq_some_iff.mp objection.closes).1

/-- What comes later does not matter for an objection. -/
theorem Objection.of_append (objection : Objection (gs ++ more) j) (inside : j < gs.length) :
    Objection gs j := by
  rcases objection with ⟨closes, alone⟩ | ⟨i, mates, long⟩
  · left
    rw [List.getElem?_append_left inside] at closes
    exact ⟨closes, fun i mates => alone i (mates.append more)⟩
  · exact .inr ⟨i, mates.of_append inside, long⟩

theorem firstObjection_of_prefix (sound : ∀ j, ¬ Objection gs j)
    (objection : Objection (gs ++ more) gs.length) : FirstObjection (gs ++ more) gs.length :=
  ⟨objection, fun k before earlier => sound k (earlier.of_append before)⟩

theorem sound_snoc (sound : ∀ j, ¬ Objection gs j) (last : ¬ Objection (gs ++ [g]) gs.length) :
    ∀ j, ¬ Objection (gs ++ [g]) j := by
  intro j objection
  have bound := objection.lt_length
  rw [List.length_append, List.length_singleton] at bound
  rcases Nat.lt_or_ge j gs.length with before | after
  · exact sound j (objection.of_append before)
  · obtain rfl : j = gs.length := by omega
    exact last objection

theorem FirstObjection.unique {k : Nat} (one : FirstObjection gs j) (two : FirstObjection gs k) :
    j = k := by
  rcases Nat.lt_trichotomy j k with less | same | more
  · exact absurd one.1 (two.2 j less)
  · exact same
  · exact absurd two.1 (one.2 k more)

end Objections

/-- A source is blamed for one thing at most. -/
theorem Blames.unique {source : String} {e e' : CompileError} (one : Blames source e)
    (two : Blames source e') : e = e' := by
  cases one with
  | unopened first alone placed =>
    cases two with
    | unopened first' _ placed' =>
      obtain rfl := first.unique first'
      rw [placed.unique placed']
    | tooLong first' mates _ _ =>
      obtain rfl := first.unique first'
      exact absurd mates (alone.2 _)
    | unclosed sound _ _ _ => exact absurd first.1 (sound _)
  | tooLong first mates _ placed =>
    cases two with
    | unopened first' alone _ =>
      obtain rfl := first.unique first'
      exact absurd mates (alone.2 _)
    | tooLong first' mates' _ placed' =>
      obtain rfl := first.unique first'
      obtain rfl := mates.opening_unique mates'
      rw [placed.unique placed']
    | unclosed sound _ _ _ => exact absurd first.1 (sound _)
  | @unclosed i _ sound open' last placed =>
    cases two with
    | unopened first' _ _ => exact absurd first'.1 (sound _)
    | tooLong first' _ _ _ => exact absurd first'.1 (sound _)
    | @unclosed i' _ _ open'' last' placed' =>
      have less : ¬ i < i' := fun before => last i' before open''
      have more : ¬ i' < i := fun before => last' i before open'
      obtain rfl : i = i' := by omega
      rw [placed.unique placed']

/-- A text that has been read and the brackets still open in it, from the innermost outwards, with
their ranks and places: trees, and between them the open brackets. -/
inductive Opened : List (Glyph × Place) → List (Nat × Place) → Prop
  | base {inner : List (Glyph × Place)} {t : Tree} : inner.map Prod.fst = t.glyphs →
      Opened inner []
  | opened {outer inner : List (Glyph × Place)} {pending : List (Nat × Place)} {t : Tree}
      (place : Place) : Opened outer pending → inner.map Prod.fst = t.glyphs →
      Opened (outer ++ (.opening, place) :: inner) ((outer.length, place) :: pending)

namespace Opened

variable {read : List (Glyph × Place)} {pending : List (Nat × Place)} {k : Nat} {place : Place}

/-- A tree more does not change what is open. -/
theorem append (opened : Opened read pending) {more : List (Glyph × Place)} {u : Tree}
    (tree : more.map Prod.fst = u.glyphs) : Opened (read ++ more) pending := by
  cases opened with
  | @base _ t inner => exact .base (t := t.append u) (by simp [inner, tree])
  | @opened outer _ _ t place below inner =>
    rw [List.append_assoc, List.cons_append]
    exact .opened (t := t.append u) place below (by simp [inner, tree])

/-- The innermost open bracket, what was read before it, and the tree behind it. -/
theorem top (opened : Opened read ((k, place) :: pending)) :
    ∃ outer inner t, read = outer ++ (.opening, place) :: inner ∧ outer.length = k ∧
      inner.map Prod.fst = Tree.glyphs t ∧ Opened outer pending := by
  generalize entries : (k, place) :: pending = all at opened
  cases opened with
  | base _ => cases entries
  | opened place below inner =>
    cases entries
    exact ⟨_, _, _, rfl, rfl, inner, below⟩

theorem closeLoop {opener : Place} (opened : Opened read ((k, opener) :: pending)) :
    Opened (read ++ [(.closing, place)]) pending := by
  obtain ⟨outer, inner, t, rfl, _, tree, below⟩ := opened.top
  rw [List.append_assoc]
  exact below.append (u := .loop t .done) (by simp [tree, Tree.glyphs])

/-- The innermost open bracket is the partner of a closing bracket that comes next. -/
theorem mates (opened : Opened read ((k, place) :: pending)) (more : List Glyph) :
    Mates (read.map Prod.fst ++ .closing :: more) k read.length := by
  obtain ⟨outer, inner, t, rfl, rfl, tree, _⟩ := opened.top
  refine ⟨outer.map Prod.fst, t, more, by simp [tree], by simp, ?_⟩
  have sized := congrArg List.length tree
  rw [List.length_map, Tree.length_glyphs] at sized
  rw [List.length_append, List.length_cons, sized]
  omega

/-- With nothing open a closing bracket that comes next closes nothing. -/
theorem unopened (opened : Opened read []) (more : List Glyph) :
    Unopened (read.map Prod.fst ++ .closing :: more) read.length := by
  generalize entries : ([] : List (Nat × Place)) = all at opened
  cases opened with
  | opened _ _ _ => cases entries
  | @base _ t tree =>
    have sized := congrArg List.length tree
    rw [List.length_map] at sized
    rw [tree, sized]
    refine ⟨by rw [List.getElem?_append_right (Nat.le_refl _), Nat.sub_self]; rfl, ?_⟩
    intro i pair
    have before : i < t.glyphs.length := pair.lt
    have opens := pair.opens
    rw [List.getElem?_append_left before] at opens
    -- The partner that the bracket has in the tree is nearer than the bracket that comes next.
    obtain ⟨j, inner⟩ := t.exists_closing opens
    have nearer := inner.lt_length
    have same := pair.closing_unique (inner.append _)
    omega

/-- What is open stands where its place says. -/
theorem stands (opened : Opened read ((k, place) :: pending)) :
    read[k]? = some (.opening, place) := by
  obtain ⟨outer, inner, t, rfl, rfl, _, _⟩ := opened.top
  simp

/-- The innermost open bracket is never closed. -/
theorem unclosed (opened : Opened read ((k, place) :: pending)) :
    Unclosed (read.map Prod.fst) k := by
  refine ⟨by simp [opened.stands], ?_⟩
  rintro j ⟨before, u, after, whole, first, _⟩
  obtain ⟨outer, inner, t, rfl, rfl, tree, _⟩ := opened.top
  rw [List.map_append, List.map_cons, tree] at whole
  have same := (List.append_inj whole (by rw [List.length_map, first])).2
  exact t.glyphs_ne_append_closing u after (List.cons.inj same).2

/-- Every bracket that opens after the innermost open one is closed. -/
theorem not_unclosed_of_lt (opened : Opened read ((k, place) :: pending)) {i : Nat}
    (after : k < i) : ¬ Unclosed (read.map Prod.fst) i := by
  obtain ⟨outer, inner, t, rfl, rfl, tree, _⟩ := opened.top
  rintro ⟨opens, alone⟩
  obtain ⟨n, rfl⟩ : ∃ n, i = outer.length + 1 + n := ⟨i - outer.length - 1, by omega⟩
  have parted : (outer ++ (Glyph.opening, place) :: inner).map Prod.fst =
      (outer.map Prod.fst ++ [.opening]) ++ t.glyphs := by simp [tree]
  have sized : (outer.map Prod.fst ++ [Glyph.opening]).length = outer.length + 1 := by simp
  rw [parted, List.getElem?_append_right (by omega), sized, Nat.add_sub_cancel_left] at opens
  obtain ⟨j, pair⟩ := t.exists_closing opens
  have placed := pair.prepend (outer.map Prod.fst ++ [.opening])
  rw [sized, ← parted] at placed
  exact alone _ placed

/-- With nothing open every bracket that opens is closed. -/
theorem not_unclosed (opened : Opened read []) (i : Nat) : ¬ Unclosed (read.map Prod.fst) i := by
  generalize entries : ([] : List (Nat × Place)) = all at opened
  cases opened with
  | opened _ _ _ => cases entries
  | @base _ t tree =>
    rw [tree]
    rintro ⟨opens, alone⟩
    obtain ⟨j, pair⟩ := t.exists_closing opens
    exact alone j pair

end Opened

theorem Glyph.exists_act (g : Glyph) (notOpening : g ≠ .opening) (notClosing : g ≠ .closing) :
    ∃ a : Act, a.glyph = g := by
  cases g with
  | right => exact ⟨.right, rfl⟩
  | left => exact ⟨.left, rfl⟩
  | increment => exact ⟨.increment, rfl⟩
  | decrement => exact ⟨.decrement, rfl⟩
  | write => exact ⟨.write, rfl⟩
  | read => exact ⟨.read, rfl⟩
  | opening => exact absurd rfl notOpening
  | closing => exact absurd rfl notClosing

namespace Assembly

/-- What holds of an assembly that has been fed glyphs without optimizations: as many instructions
as glyphs, the open brackets at their ranks, and no bracket that is objected to. -/
structure Reads (read : List (Glyph × Place)) (a : Assembly) : Prop where
  sized : a.body.size = read.length
  opened : Opened read a.pending
  sound : ∀ j, ¬ Objection (read.map Prod.fst) j

structure Refused (gs : List Glyph) (j : Nat) (place : Place) (e : CompileError) : Prop where
  first : FirstObjection gs j
  cause : (Unopened gs j ∧ e = .unmatchedClosing place) ∨
    ∃ i, Mates gs i j ∧ maxOperand < j - i ∧ e = .loopTooLong place (j - i)

theorem reads_empty : Reads [] empty := by
  refine ⟨rfl, .base (t := .done) rfl, ?_⟩
  intro j objection
  cases objection.closes

variable {read : List (Glyph × Place)} {a b : Assembly}

theorem Reads.emit (reads : Reads read a) {g : Glyph} (notOpening : g ≠ .opening)
    (notClosing : g ≠ .closing) (place : Place) :
    Reads (read ++ [(g, place)]) (a.emit .plain (ofGlyph g)) := by
  obtain ⟨sized, opened, sound⟩ := reads
  rcases emit_cases .plain (ofGlyph g) a with ⟨_, pushed⟩ | ⟨coalesce, _⟩
  · obtain ⟨act, rfl⟩ := g.exists_act notOpening notClosing
    rw [pushed]
    refine ⟨by simp [sized], opened.append (u := .act act .done) rfl, ?_⟩
    rw [List.map_append]
    refine sound_snoc sound ?_
    intro objection
    have closes := objection.closes
    simp at closes
    exact notClosing closes
  · cases coalesce

theorem Reads.openLoop (reads : Reads read a) (place : Place) :
    Reads (read ++ [(.opening, place)]) (a.openLoop place) := by
  obtain ⟨sized, opened, sound⟩ := reads
  refine ⟨by simp [Assembly.openLoop, sized], ?_, ?_⟩
  · rw [Assembly.openLoop, sized]
    exact .opened (t := .done) place opened rfl
  · rw [List.map_append]
    refine sound_snoc sound ?_
    intro objection
    have closes := objection.closes
    simp at closes

/-- A closing bracket closes the innermost loop, or it is refused, whatever comes after it. -/
theorem Reads.closeLoop (reads : Reads read a) (place : Place) :
    (∃ b, a.closeLoop .plain place = .ok b ∧ Reads (read ++ [(.closing, place)]) b) ∨
    ∃ e, a.closeLoop .plain place = .error e ∧
      ∀ more, Refused (read.map Prod.fst ++ .closing :: more) read.length place e := by
  obtain ⟨sized, opened, sound⟩ := reads
  obtain ⟨body, pending⟩ := a
  dsimp only at sized opened
  have ranked : (read.map Prod.fst).length = read.length := List.length_map ..
  cases pending with
  | nil =>
    refine .inr ⟨_, rfl, fun more => ⟨?_, .inl ⟨opened.unopened more, rfl⟩⟩⟩
    rw [← ranked]
    exact firstObjection_of_prefix sound (.inl (ranked ▸ opened.unopened more))
  | cons entry pending =>
    obtain ⟨start, opener⟩ := entry
    by_cases fits : body.size - start ≤ maxOperand
    · left
      refine ⟨⟨(body.setIfInBounds start (make .jumpForward _ fits)).push
        (make .jumpBackward _ fits), pending⟩, ?_, ?_, opened.closeLoop, ?_⟩
      · simp [Assembly.closeLoop, Flags.plain, fits]
      · simp [sized]
      · rw [List.map_append]
        refine sound_snoc sound ?_
        have pair := opened.mates []
        rw [ranked]
        rintro (⟨_, alone⟩ | ⟨i, pair', long⟩)
        · exact alone start pair
        · obtain rfl := pair.opening_unique pair'
          omega
    · right
      refine ⟨.loopTooLong place (body.size - start), ?_, ?_⟩
      · simp [Assembly.closeLoop, Flags.plain, fits]
      · intro more
        have pair := opened.mates more
        have long : maxOperand < read.length - start := by omega
        refine ⟨?_, .inr ⟨start, pair, long, by rw [sized]⟩⟩
        rw [← ranked]
        exact firstObjection_of_prefix sound (.inr ⟨start, ranked ▸ pair, ranked ▸ long⟩)

/-- One glyph more is read, or it is a closing bracket that is refused. -/
theorem Reads.feed (reads : Reads read a) (g : Glyph) (place : Place) :
    (∃ b, a.feed .plain g place = .ok b ∧ Reads (read ++ [(g, place)]) b) ∨
    ∃ e, a.feed .plain g place = .error e ∧
      ∀ more, Refused (read.map Prod.fst ++ g :: more) read.length place e := by
  cases g with
  | opening => exact .inl ⟨_, rfl, reads.openLoop place⟩
  | closing => exact reads.closeLoop place
  | _ => exact .inl ⟨_, rfl, reads.emit Glyph.noConfusion Glyph.noConfusion place⟩

theorem Reads.feedGlyphs (reads : Reads read a) (more : List (Glyph × Place)) :
    (∃ b, feedGlyphs .plain more a = .ok b ∧ Reads (read ++ more) b) ∨
    ∃ j g place e, feedGlyphs .plain more a = .error e ∧ (read ++ more)[j]? = some (g, place) ∧
      Refused ((read ++ more).map Prod.fst) j place e := by
  induction more generalizing read a with
  | nil => exact .inl ⟨a, rfl, by rwa [List.append_nil]⟩
  | cons entry more ih =>
    obtain ⟨g, place⟩ := entry
    rcases reads.feed g place with ⟨b, fed, reads'⟩ | ⟨e, fed, refused⟩
    · have later := ih reads'
      simp only [Assembly.feedGlyphs, fed]
      rwa [List.append_assoc, List.singleton_append] at later
    · refine .inr ⟨read.length, g, place, e, ?_, by simp, ?_⟩
      · simp only [Assembly.feedGlyphs, fed]
      · rw [List.map_append]
        exact refused (more.map Prod.fst)

end Assembly

/-- A source compiles without optimizations, or it is blamed for the error that is given. -/
theorem compile_plain_cases (source : String) :
    (∃ code, compile .plain source = .ok code ∧ (∀ j, ¬ Objection (glyphsOf source) j) ∧
      ∀ i, ¬ Unclosed (glyphsOf source) i) ∨
    ∃ e, compile .plain source = .error e ∧ Blames source e := by
  have glyphs : (placedGlyphs source.toList .start).map Prod.fst = glyphsOf source :=
    map_fst_placedGlyphs ..
  unfold compile
  rw [Assembly.feedText_eq_feedGlyphs]
  rcases Assembly.reads_empty.feedGlyphs (placedGlyphs source.toList .start) with
    ⟨a, fed, _, opened, sound⟩ | ⟨j, g, place, e, fed, here, first, cause⟩
  · rw [fed]
    rw [List.nil_append] at opened sound
    rw [glyphs] at sound
    obtain ⟨body, pending⟩ := a
    cases pending with
    | nil => exact .inl ⟨_, rfl, sound, glyphs ▸ opened.not_unclosed⟩
    | cons entry pending =>
      obtain ⟨i, place⟩ := entry
      refine .inr ⟨_, rfl, .unclosed sound ?_ ?_ (standsAt_iff.mpr ⟨_, opened.stands⟩)⟩
      · exact glyphs ▸ opened.unclosed
      · intro k after
        exact glyphs ▸ opened.not_unclosed_of_lt after
  · rw [fed]
    rw [List.nil_append] at here first cause
    rw [glyphs] at first cause
    have placed : StandsAt source j place := standsAt_iff.mpr ⟨g, here⟩
    rcases cause with ⟨alone, rfl⟩ | ⟨i, pair, long, rfl⟩
    · exact .inr ⟨_, rfl, .unopened first alone placed⟩
    · exact .inr ⟨_, rfl, .tooLong first pair long placed⟩

/-- A source that is blamed although no closing bracket is objected to leaves a bracket open. -/
theorem Blames.exists_unclosed {source : String} {e : CompileError} (blames : Blames source e)
    (sound : ∀ j, ¬ Objection (glyphsOf source) j) :
    ∃ i, Unclosed (glyphsOf source) i := by
  cases blames with
  | unopened first _ _ => exact absurd first.1 (sound _)
  | tooLong first _ _ _ => exact absurd first.1 (sound _)
  | unclosed _ unclosed _ _ => exact ⟨_, unclosed⟩

/-- Without optimizations the error of a source is what the source is blamed for: the first closing
bracket that closes nothing or too long a loop, or, if there is none, the last opening bracket that
is never closed, at its place. A source compiles if and only if no bracket of it is one of these. -/
theorem compile_plain_iff (source : String) :
    (∀ e, compile .plain source = .error e ↔ Blames source e) ∧
    ((∃ code, compile .plain source = .ok code) ↔
      (∀ j, ¬ Objection (glyphsOf source) j) ∧ ∀ i, ¬ Unclosed (glyphsOf source) i) := by
  rcases compile_plain_cases source with ⟨code, compiled, sound, closed⟩ | ⟨e, refused, blames⟩
  · refine ⟨fun e => ⟨?_, ?_⟩, fun _ => ⟨sound, closed⟩, fun _ => ⟨code, compiled⟩⟩
    · intro failed
      cases failed.symm.trans compiled
    · intro blames
      obtain ⟨i, unclosed⟩ := blames.exists_unclosed sound
      exact absurd unclosed (closed i)
  · refine ⟨fun e' => ⟨?_, ?_⟩, ?_, ?_⟩
    · intro failed
      cases failed.symm.trans refused
      exact blames
    · intro blames'
      rw [refused, blames.unique blames']
    · rintro ⟨code, compiled⟩
      cases compiled.symm.trans refused
    · rintro ⟨sound, closed⟩
      obtain ⟨i, unclosed⟩ := blames.exists_unclosed sound
      exact absurd unclosed (closed i)

/-- Columns count from the last line feed, and a comment counts like any other text. -/
example : compile .plain "[é]
 ] [" = .error (.unmatchedClosing ⟨2, 2, 5⟩) := rfl

end Brainfuck
