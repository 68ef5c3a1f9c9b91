import Brainfuck.Proofs.Commentary
import Brainfuck.Proofs.Enlargement
import Brainfuck.Proofs.Refusal

/-!
# Writing code back

Whether a text compiles, and to which code, depends on its glyphs and not on where they stand
(`compile_eq_ok_iff`). Loops that are dropped from the start leave nothing behind, so what comes
after them compiles alone to the same code. Main statement: code written back as text compiles to
the same code again, and unless loops may be dropped this text has every glyph of the source
(`compile_text_of_compile`).
-/
namespace Brainfuck

open Instruction

/-- Each instruction but the last written as its glyph, as often as it counts. -/
def Code.text (code : Code) : String :=
  String.ofList ((spelled code.body.toList).map Glyph.char)

theorem filterMap_ofChar?_map_char (gs : List Glyph) :
    (gs.map Glyph.char).filterMap Glyph.ofChar? = gs := by
  induction gs with
  | nil => rfl
  | cons g gs ih => simp [ih]

theorem map_char_filterMap_ofChar? (cs : List Char) :
    (cs.filterMap Glyph.ofChar?).map Glyph.char = cs.filter fun c => (Glyph.ofChar? c).isSome := by
  induction cs with
  | nil => rfl
  | cons c cs ih =>
    cases glyph : Glyph.ofChar? c with
    | none => simp [glyph, ih]
    | some g =>
      have written := Glyph.ofChar?_eq_some_iff.mp glyph
      simp [ih, written]

theorem glyphsOf_ofList (gs : List Glyph) : glyphsOf (String.ofList (gs.map Glyph.char)) = gs := by
  rw [glyphsOf, String.toList_ofList, filterMap_ofChar?_map_char]

theorem glyphsOf_text (code : Code) : glyphsOf code.text = spelled code.body.toList :=
  glyphsOf_ofList _

namespace Assembly

variable {flags : Flags} {a b : Assembly}

def unplaced (gs : List Glyph) : List (Glyph × Place) :=
  gs.map fun g => (g, .start)

theorem map_fst_unplaced (gs : List Glyph) : (unplaced gs).map Prod.fst = gs := by
  simp [unplaced, Function.comp_def]

/-- What compiles as a whole compiles up to any glyph, and from there on. -/
theorem feedGlyphs_unplaced_append {first rest : List Glyph} {c : Assembly}
    (fed : feedGlyphs flags (unplaced (first ++ rest)) a = .ok c) :
    ∃ b, feedGlyphs flags (unplaced first) a = .ok b ∧
      feedGlyphs flags (unplaced rest) b = .ok c := by
  rw [unplaced, List.map_append, feedGlyphs_append] at fed
  split at fed
  · cases fed
  · next b part => exact ⟨b, part, fed⟩

theorem feedGlyphs_unplaced_cons {g : Glyph} {rest : List Glyph} {c : Assembly}
    (fed : feedGlyphs flags (unplaced (g :: rest)) a = .ok c) :
    ∃ b, a.feed flags g .start = .ok b ∧ feedGlyphs flags (unplaced rest) b = .ok c := by
  rw [unplaced, List.map_cons, feedGlyphs] at fed
  split at fed
  · cases fed
  · next b step => exact ⟨b, step, fed⟩

/-- A tree closes the loops that it opens. -/
theorem pending_of_feedGlyphs_tree {t : Tree}
    (fed : feedGlyphs flags (unplaced t.glyphs) a = .ok b) : b.pending = a.pending := by
  induction t generalizing a b with
  | done =>
    cases fed
    rfl
  | act act rest ih =>
    obtain ⟨a₁, step, after⟩ := feedGlyphs_unplaced_cons fed
    have emitted : a₁ = a.emit flags (ofGlyph act.glyph) := by
      cases act <;> exact (Except.ok.inj step).symm
    rw [ih after, emitted, (size_emit flags _ a).1]
  | loop body rest ihBody ihRest =>
    obtain ⟨a₁, step, after⟩ := feedGlyphs_unplaced_cons fed
    obtain ⟨a₂, inside, tail⟩ := feedGlyphs_unplaced_append after
    obtain ⟨a₃, closed, outside⟩ := feedGlyphs_unplaced_cons tail
    cases step
    obtain ⟨_, _, top, _⟩ := closeLoop_cases closed
    have opened : a₂.pending = (a.body.size, .start) :: a.pending := ihBody inside
    rw [opened] at top
    rw [ihRest outside, (List.cons.inj top).2]

/-- Dropped loops leave nothing behind. -/
theorem feedGlyphs_loopGlyphs (strip : flags.stripCommentBlock = true) {bodies : List Tree}
    (fed : feedGlyphs flags (unplaced (loopGlyphs bodies)) empty = .ok b) : b = empty := by
  induction bodies with
  | nil =>
    cases fed
    rfl
  | cons t bodies ih =>
    have whole : loopGlyphs (t :: bodies) =
        .opening :: (t.glyphs ++ .closing :: loopGlyphs bodies) := by
      simp [loopGlyphs, Tree.glyphs]
    rw [whole] at fed
    obtain ⟨a₁, step, after⟩ := feedGlyphs_unplaced_cons fed
    obtain ⟨a₂, inside, tail⟩ := feedGlyphs_unplaced_append after
    obtain ⟨a₃, closed, outside⟩ := feedGlyphs_unplaced_cons tail
    cases step
    have opened : a₂.pending = [(0, .start)] := pending_of_feedGlyphs_tree inside
    obtain rfl : empty = a₃ :=
      Except.ok.inj ((closeLoop_strip strip .start opened).symm.trans closed)
    exact ih outside

end Assembly

variable {flags : Flags} {source : String} {code : Code}

/-- Whether a text compiles, and to what, is a matter of its glyphs. -/
theorem compile_eq_ok_iff : compile flags source = .ok code ↔
    Assembly.feedGlyphs flags (Assembly.unplaced (glyphsOf source)) .empty =
      .ok ⟨code.body, []⟩ := by
  have glyphs : (placedGlyphs source.toList .start).map Prod.fst =
      (Assembly.unplaced (glyphsOf source)).map Prod.fst := by
    rw [map_fst_placedGlyphs, Assembly.map_fst_unplaced, glyphsOf]
  have same := compiles_of_corresponds flags (corresponds_of_map_fst glyphs)
  rw [compile_eq_bind, Assembly.feedText_eq_feedGlyphs, same.eq_ok_iff]
  cases Assembly.feedGlyphs flags (Assembly.unplaced (glyphsOf source)) .empty with
  | ok b =>
    constructor
    · intro finished
      rw [Assembly.finish_eq_ok_iff.mp finished]
    · intro fed
      exact Assembly.finish_eq_ok_iff.mpr (Except.ok.inj fed)
  | error e =>
    constructor
    · intro accepted
      cases accepted
    · intro accepted
      cases accepted

/-- The loops dropped from the start are not needed for the code. -/
theorem feedGlyphs_spelled (compiled : compile flags source = .ok code) :
    Assembly.feedGlyphs flags (Assembly.unplaced (spelled code.body.toList)) .empty =
      .ok ⟨code.body, []⟩ := by
  obtain ⟨bodies, whole, kept⟩ := (renders_of_compile compiled).dropped
  have fed := compile_eq_ok_iff.mp compiled
  rw [whole] at fed
  obtain ⟨b, dropped, rest⟩ := Assembly.feedGlyphs_unplaced_append fed
  by_cases strip : flags.stripCommentBlock = true
  · obtain rfl := Assembly.feedGlyphs_loopGlyphs strip dropped
    exact rest
  · obtain rfl := kept (Bool.eq_false_iff.mpr strip)
    cases dropped
    exact rest

/-- If no loop may be dropped, the code is written with all glyphs of the source. -/
theorem glyphsOf_eq_spelled (kept : flags.stripCommentBlock = false)
    (compiled : compile flags source = .ok code) :
    glyphsOf source = spelled code.body.toList := by
  obtain ⟨bodies, whole, noLoops⟩ := (renders_of_compile compiled).dropped
  rw [whole, noLoops kept]
  rfl

/-- Code written back as text compiles to the same code again. If no loop may be dropped, the text
is what remains of the source without its comments. -/
theorem compile_text_of_compile (compiled : compile flags source = .ok code) :
    compile flags code.text = .ok code ∧
    (flags.stripCommentBlock = false →
      code.text.toList = source.toList.filter fun c => (Glyph.ofChar? c).isSome) := by
  constructor
  · apply compile_eq_ok_iff.mpr
    rw [glyphsOf_text]
    exact feedGlyphs_spelled compiled
  · intro kept
    rw [Code.text, String.toList_ofList, ← glyphsOf_eq_spelled kept compiled, glyphsOf,
      map_char_filterMap_ofChar?]

/-- A folded run and a dropped loop, and a folded run with comments in it. -/
theorem compile_text_of_compile_folded_run :
    (∃ code, compile .all "[a comment]++ +[>++[-]<-]," = .ok code ∧
      code.text = "+++[>++[-]<-]," ∧ compile .all code.text = .ok code) ∧
    ∃ code, compile ⟨true, false⟩ "[a] twice: +\n+, once: >." = .ok code ∧
      compile ⟨true, false⟩ code.text = .ok code ∧ code.text.toList = "[]++,>.".toList := by
  have stripped : compile .all "[a comment]++ +[>++[-]<-]," = .ok _ := rfl
  have kept : compile ⟨true, false⟩ "[a] twice: +\n+, once: >." = .ok _ := rfl
  obtain ⟨again, _⟩ := compile_text_of_compile stripped
  obtain ⟨again', remains⟩ := compile_text_of_compile kept
  refine ⟨⟨_, stripped, rfl, again⟩, ⟨_, kept, again', ?_⟩⟩
  rw [remains rfl]
  rfl

end Brainfuck
