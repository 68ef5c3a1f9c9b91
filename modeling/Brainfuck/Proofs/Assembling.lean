import Brainfuck.Compile.Basic
import Brainfuck.Proofs.BracketTree

/-!
# What compilation builds

While a text is compiled, the code so far is nested between the jumps that still await their
distance (`Framed`), and it is written with the glyphs read so far, less the loops that were dropped
from the start (`Assembly.Written`). Main statement: code that compilation gives is nested and is
written with the glyphs of the source (`renders_of_compile`).
-/
namespace Brainfuck

open Instruction

def glyphsOf (source : String) : List Glyph :=
  source.toList.filterMap Glyph.ofChar?

/-- The glyphs of a text that begins at a place, with their places. -/
def placedGlyphs : List Char → Place → List (Glyph × Place)
  | [], _ => []
  | c :: cs, place =>
    match Glyph.ofChar? c with
    | none => placedGlyphs cs (place.after c)
    | some g => (g, place) :: placedGlyphs cs (place.after c)

theorem map_fst_placedGlyphs (cs : List Char) (place : Place) :
    (placedGlyphs cs place).map Prod.fst = cs.filterMap Glyph.ofChar? := by
  induction cs generalizing place with
  | nil => rfl
  | cons c cs ih =>
    cases glyph : Glyph.ofChar? c with
    | none => simp only [placedGlyphs, glyph, List.filterMap_cons, ih]
    | some g => simp only [placedGlyphs, glyph, List.filterMap_cons, List.map_cons, ih]

namespace Assembly

def feedGlyphs (flags : Flags) : List (Glyph × Place) → Assembly → Except CompileError Assembly
  | [], a => .ok a
  | (g, place) :: rest, a =>
    match a.feed flags g place with
    | .error e => .error e
    | .ok a => feedGlyphs flags rest a

theorem feedText_eq_feedGlyphs (flags : Flags) (cs : List Char) (place : Place) (a : Assembly) :
    feedText flags cs place a = feedGlyphs flags (placedGlyphs cs place) a := by
  induction cs generalizing place a with
  | nil => rfl
  | cons c cs ih =>
    cases glyph : Glyph.ofChar? c with
    | none => simp only [feedText, placedGlyphs, glyph, ih]
    | some g =>
      simp only [feedText, placedGlyphs, glyph, feedGlyphs]
      cases a.feed flags g place with
      | error e => rfl
      | ok b => exact ih (place.after c) b

theorem feedText_append (flags : Flags) (cs ds : List Char) (place : Place) (a : Assembly) :
    feedText flags (cs ++ ds) place a =
      match feedText flags cs place a with
      | .error e => .error e
      | .ok b => feedText flags ds (place.past cs) b := by
  induction cs generalizing place a with
  | nil => rfl
  | cons c cs ih =>
    cases glyph : Glyph.ofChar? c with
    | none => simp only [List.cons_append, feedText, glyph, ih, Place.past_cons]
    | some g =>
      simp only [List.cons_append, feedText, glyph]
      cases a.feed flags g place with
      | error e => rfl
      | ok b => exact ih (place.after c) b

theorem feedText_opening (flags : Flags) (cs : List Char) (place : Place) (a : Assembly) :
    feedText flags ('[' :: cs) place a =
      feedText flags cs (place.after '[') (a.openLoop place) := rfl

theorem feedText_closing (flags : Flags) (cs : List Char) (place : Place) (a : Assembly) :
    feedText flags (']' :: cs) place a =
      match a.closeLoop flags place with
      | .error e => .error e
      | .ok b => feedText flags cs (place.after ']') b := rfl

end Assembly

theorem compile_eq_bind (flags : Flags) (source : String) : compile flags source =
    (Assembly.feedText flags source.toList .start .empty).bind Assembly.finish := by
  unfold compile
  cases Assembly.feedText flags source.toList .start .empty with
  | error e => rfl
  | ok a => rfl

theorem Nested.of_append_act {is : List Instruction} {i : Instruction} (nested : Nested (is ++ [i]))
    (here : i.IsAct) : Nested is := by
  generalize whole : is ++ [i] = js at nested
  induction nested generalizing is with
  | nil => simp at whole
  | @act j rest first _ ih =>
    cases is with
    | nil => exact .nil
    | cons k is =>
      obtain ⟨rfl, tail⟩ := List.cons.inj whole
      exact .act first (ih tail)
  | @loop body rest fits inner _ _ ih =>
    have closing : (make .jumpBackward (body.length + 1) fits).isA .jumpBackward = true :=
      isA_iff.mpr (opcode?_make ..)
    cases is with
    | nil => simp at whole
    | cons k is =>
      obtain ⟨rfl, tail⟩ := List.cons.inj whole
      rcases List.eq_nil_or_concat rest with rfl | ⟨rest', last, rfl⟩
      · obtain ⟨_, same⟩ := List.append_inj' tail rfl
        obtain rfl := (List.cons.inj same).1
        exact Bool.noConfusion ((here.not_isA _ rfl rfl).symm.trans closing)
      · rw [List.concat_eq_append, ← List.cons_append, ← List.append_assoc] at tail
        obtain ⟨rfl, same⟩ := List.append_inj' tail rfl
        exact .loop fits inner (ih (by rw [(List.cons.inj same).1, List.concat_eq_append]))

theorem Nested.isAct_of_mem {is : List Instruction} (nested : Nested is) {i : Instruction}
    (here : i ∈ is) (counts : i.isRepeatable = true) : i.IsAct := by
  induction nested with
  | nil => cases here
  | act first _ ih =>
    rcases List.mem_cons.mp here with rfl | later
    · exact first
    · exact ih later
  | loop fits _ _ ihBody ihRest =>
    rcases List.mem_cons.mp here with rfl | later
    · rw [isRepeatable_make] at counts
      cases counts
    rcases List.mem_append.mp later with inside | after
    · exact ihBody inside
    rcases List.mem_cons.mp after with rfl | last
    · rw [isRepeatable_make] at counts
      cases counts
    · exact ihRest last

/-- Partly compiled code: nested code, and between its parts the jumps of the open loops. The
pending list has the index of each of these jumps, from the innermost outwards. -/
inductive Framed : List Instruction → List (Nat × Place) → Prop
  | base {inner : List Instruction} : Nested inner → Framed inner []
  | opened {outer inner : List Instruction} {pending : List (Nat × Place)} (place : Place) :
      Framed outer pending → Nested inner →
      Framed (outer ++ ofGlyph .opening :: inner) ((outer.length, place) :: pending)

namespace Framed

variable {body : List Instruction} {pending : List (Nat × Place)}

theorem append (framed : Framed body pending) {more : List Instruction} (nested : Nested more) :
    Framed (body ++ more) pending := by
  cases framed with
  | base inner => exact .base (inner.append nested)
  | opened place outer inner =>
    rw [List.append_assoc, List.cons_append]
    exact .opened place outer (inner.append nested)

theorem push (framed : Framed body pending) {i : Instruction} (here : i.IsAct) :
    Framed (body ++ [i]) pending := framed.append (.single here)

theorem of_push {i : Instruction} (framed : Framed (body ++ [i]) pending) (here : i.IsAct) :
    Framed body pending := by
  generalize whole : body ++ [i] = js at framed
  cases framed with
  | base inner => exact .base (Nested.of_append_act (whole ▸ inner) here)
  | @opened outer inner pending place below nested =>
    rcases List.eq_nil_or_concat inner with rfl | ⟨inner', last, rfl⟩
    · obtain ⟨_, same⟩ := List.append_inj' whole rfl
      obtain rfl := (List.cons.inj same).1
      exact Bool.noConfusion ((here.not_isA .jumpForward rfl rfl).symm.trans rfl)
    · rw [List.concat_eq_append] at whole nested
      rw [← List.cons_append, ← List.append_assoc] at whole
      obtain ⟨rfl, same⟩ := List.append_inj' whole rfl
      obtain rfl := (List.cons.inj same).1
      exact .opened place below (nested.of_append_act here)

theorem isAct_of_mem (framed : Framed body pending) {i : Instruction} (here : i ∈ body)
    (counts : i.isRepeatable = true) : i.IsAct := by
  induction framed with
  | base inner => exact inner.isAct_of_mem here counts
  | opened place _ nested ih =>
    rcases List.mem_append.mp here with before | later
    · exact ih before
    rcases List.mem_cons.mp later with rfl | after
    · cases counts
    · exact nested.isAct_of_mem after counts

theorem openLoop (framed : Framed body pending) (place : Place) :
    Framed (body ++ [ofGlyph .opening]) ((body.length, place) :: pending) :=
  .opened place framed .nil

/-- A loop that is closed becomes nested code. -/
theorem closeLoop {outer inner : List Instruction} (below : Framed outer pending)
    (nested : Nested inner) (fits : inner.length + 1 ≤ maxOperand) :
    Framed (outer ++ make .jumpForward (inner.length + 1) fits ::
      (inner ++ [make .jumpBackward (inner.length + 1) fits])) pending :=
  below.append (.loop fits nested .nil)

theorem nested (framed : Framed body []) : Nested body := by
  cases framed with
  | base inner => exact inner

/-- Only the outermost open loop can stand at the very start. -/
theorem pending_eq_nil {place : Place} (framed : Framed body ((0, place) :: pending)) :
    pending = [] ∧ ∃ inner, body = ofGlyph .opening :: inner ∧ Nested inner := by
  generalize entry : (0, place) :: pending = entries at framed
  cases framed with
  | base inner => cases entry
  | @opened outer inner others other below nested =>
    obtain ⟨first, rfl⟩ := List.cons.inj entry
    have empty : outer = [] := List.eq_nil_of_length_eq_zero (congrArg Prod.fst first).symm
    subst empty
    refine ⟨?_, inner, rfl, nested⟩
    generalize start : ([] : List Instruction) = js at below
    cases below with
    | base _ => rfl
    | opened _ _ _ => simp at start

end Framed

def loopGlyphs (bodies : List Tree) : List Glyph :=
  bodies.flatMap fun t => (Tree.loop t .done).glyphs

theorem loopGlyphs_append_singleton (bodies : List Tree) (t : Tree) :
    loopGlyphs (bodies ++ [t]) = loopGlyphs bodies ++ (Tree.loop t .done).glyphs := by
  simp [loopGlyphs]

/-- Compiled code and the glyphs it was made from. The loops with the given bodies were dropped from
the start, and only if that was asked for. -/
structure Code.Renders (code : Code) (flags : Flags) (gs : List Glyph) : Prop where
  nested : Nested code.body.toList
  dropped : ∃ bodies, gs = loopGlyphs bodies ++ spelled code.body.toList ∧
    (flags.stripCommentBlock = false → bodies = [])
  single : flags.coalesceRuns = false → ∀ i ∈ code.body.toList, i.glyphs.length = 1

namespace Assembly

/-- What holds of an assembly that has been fed some glyphs. -/
structure Written (flags : Flags) (gs : List Glyph) (a : Assembly) : Prop where
  framed : Framed a.body.toList a.pending
  dropped : ∃ bodies, gs = loopGlyphs bodies ++ spelled a.body.toList ∧
    (flags.stripCommentBlock = false → bodies = [])
  single : flags.coalesceRuns = false → ∀ i ∈ a.body.toList, i.glyphs.length = 1

theorem written_empty (flags : Flags) : Written flags [] empty :=
  ⟨.base .nil, ⟨[], rfl, fun _ => rfl⟩, fun _ _ member => by cases member⟩

theorem bumped?_eq_some {last? : Option Instruction} {i b : Instruction}
    (counted : bumped? last? i = some b) :
    ∃ last fits, last? = some last ∧ last.code = i.code ∧
      b = last.withOperand (last.operand + 1) fits := by
  unfold bumped? at counted
  split at counted
  · cases counted
  · next last =>
    split at counted
    · next fits =>
      split at counted
      · next same => exact ⟨last, fits, rfl, same, (Option.some.inj counted).symm⟩
      · cases counted
    · cases counted

theorem glyphs_bumped {last i : Instruction} (same : last.code = i.code)
    (counts : i.isRepeatable = true) (once : i.operand = 1)
    (fits : last.operand + 1 ≤ maxOperand) :
    (last.withOperand (last.operand + 1) fits).glyphs = last.glyphs ++ i.glyphs := by
  have sameOp : last.opcode? = i.opcode? := by rw [opcode?, opcode?, same]
  have bumpedOp : (last.withOperand (last.operand + 1) fits).opcode? = i.opcode? := sameOp
  have sameCounts : last.isRepeatable = true := by rw [isRepeatable, sameOp]; exact counts
  have bumpedCounts : (last.withOperand (last.operand + 1) fits).isRepeatable = true := sameCounts
  unfold glyphs
  rw [sameOp, bumpedOp, sameCounts, bumpedCounts, counts, once]
  cases i.opcode?.bind Opcode.glyph? with
  | none => rfl
  | some g => exact List.replicate_succ'

theorem isAct_bumped {last : Instruction} (here : last.IsAct) (counts : last.isRepeatable = true)
    (fits : last.operand + 1 ≤ maxOperand) :
    (last.withOperand (last.operand + 1) fits).IsAct := by
  cases here with
  | counted repeatable _ _ => exact .counted repeatable (Nat.succ_pos _) fits
  | transfer transfers _ =>
    rw [isRepeatable_make, Opcode.not_isRepeatable_of_isTransfer transfers] at counts
    cases counts

/-- What adding an operation comes to: one more instruction, if the last cannot count it, or a
higher count of the last. -/
theorem emit_cases (flags : Flags) (i : Instruction) (a : Assembly) :
    ((flags.coalesceRuns = true → i.isRepeatable = true → bumped? a.body.back? i = none) ∧
      a.emit flags i = ⟨a.body.push i, a.pending⟩) ∨
    (flags.coalesceRuns = true ∧ i.isRepeatable = true ∧
      ∃ before last fits, a.body.toList = before ++ [last] ∧ last.code = i.code ∧
        (a.emit flags i).body.toList = before ++ [last.withOperand (last.operand + 1) fits] ∧
        (a.emit flags i).pending = a.pending) := by
  obtain ⟨body, pending⟩ := a
  unfold emit
  dsimp only
  split
  · next both =>
    obtain ⟨coalesce, counts⟩ := Bool.and_eq_true_iff.mp both
    split
    · next b counted =>
      obtain ⟨last, fits, final, same, rfl⟩ := bumped?_eq_some counted
      rw [← Array.getLast?_toList, List.getLast?_eq_some_iff] at final
      obtain ⟨before, whole⟩ := final
      refine .inr ⟨coalesce, counts, before, last, fits, whole, same, ?_, rfl⟩
      have sized : body.size - 1 = before.length := by
        rw [← Array.length_toList, whole, List.length_append, List.length_singleton]
        rfl
      rw [Array.toList_setIfInBounds, whole, sized, List.set_append_right _ _ (Nat.le_refl _)]
      simp
    · next uncounted => exact .inl ⟨fun _ _ => uncounted, rfl⟩
  · next neither =>
    refine .inl ⟨fun coalesce counts => absurd ?_ neither, rfl⟩
    rw [coalesce, counts]
    rfl

variable {flags : Flags} {gs : List Glyph} {a b : Assembly}

theorem Written.push (written : Written flags gs a) {g : Glyph} (here : (ofGlyph g).IsAct) :
    Written flags (gs ++ [g]) ⟨a.body.push (ofGlyph g), a.pending⟩ := by
  obtain ⟨framed, ⟨bodies, whole, kept⟩, single⟩ := written
  refine ⟨?_, ⟨bodies, ?_, kept⟩, ?_⟩
  · rw [Array.toList_push]
    exact framed.push here
  · rw [Array.toList_push, whole, spelled_append, List.append_assoc]
    simp [glyphs_ofGlyph]
  · intro off i member
    rw [Array.toList_push] at member
    rcases List.mem_append.mp member with old | new
    · exact single off i old
    · rw [List.mem_singleton.mp new, glyphs_ofGlyph]
      rfl

/-- A higher count of the last instruction is one glyph more. -/
theorem Written.bump (written : Written flags gs a) (coalesce : flags.coalesceRuns = true)
    {g : Glyph} (counts : (ofGlyph g).isRepeatable = true) {before : List Instruction}
    {last : Instruction} {fits : last.operand + 1 ≤ maxOperand}
    (parted : a.body.toList = before ++ [last]) (same : last.code = (ofGlyph g).code)
    (bumped : b.body.toList = before ++ [last.withOperand (last.operand + 1) fits])
    (pending : b.pending = a.pending) : Written flags (gs ++ [g]) b := by
  obtain ⟨framed, ⟨bodies, whole, kept⟩, _⟩ := written
  have sameCounts : last.isRepeatable = true := by
    rw [isRepeatable, opcode?, same]
    exact counts
  have once : (ofGlyph g).operand = 1 := by
    cases g <;> first | rfl | cases counts
  have lastAct : last.IsAct := framed.isAct_of_mem (by simp [parted]) sameCounts
  refine ⟨?_, ⟨bodies, ?_, kept⟩, ?_⟩
  · rw [bumped, pending]
    exact ((parted ▸ framed).of_push lastAct).push (isAct_bumped lastAct sameCounts fits)
  · rw [bumped, whole, parted]
    simp only [spelled_append, spelled_cons, spelled_nil, List.append_nil, List.append_assoc]
    rw [glyphs_bumped same counts once fits, glyphs_ofGlyph]
  · intro off
    rw [coalesce] at off
    cases off

theorem Written.emit (written : Written flags gs a) {g : Glyph} (notOpening : g ≠ .opening)
    (notClosing : g ≠ .closing) :
    Written flags (gs ++ [g]) (a.emit flags (ofGlyph g)) := by
  rcases emit_cases flags (ofGlyph g) a with ⟨_, pushed⟩ | ⟨coalesce, counts, before, last, fits,
    parted, same, bumped, pending⟩
  · rw [pushed]
    exact written.push (isAct_ofGlyph notOpening notClosing)
  · exact written.bump coalesce counts parted same bumped pending

theorem Written.openLoop (written : Written flags gs a) (place : Place) :
    Written flags (gs ++ [.opening]) (a.openLoop place) := by
  obtain ⟨framed, ⟨bodies, whole, kept⟩, single⟩ := written
  refine ⟨?_, ⟨bodies, ?_, kept⟩, ?_⟩
  · rw [Assembly.openLoop, Array.toList_push, ← Array.length_toList]
    exact framed.openLoop place
  · rw [Assembly.openLoop, Array.toList_push, whole, spelled_append, List.append_assoc]
    rfl
  · intro off i member
    rw [Assembly.openLoop, Array.toList_push] at member
    rcases List.mem_append.mp member with old | new
    · exact single off i old
    · rw [List.mem_singleton.mp new]
      rfl

/-- What closing a loop comes to when it succeeds: the loop is dropped, or both its brackets get the
distance between them. -/
theorem closeLoop_cases {flags : Flags} {place : Place} {a b : Assembly}
    (closed : a.closeLoop flags place = .ok b) :
    ∃ start opener, a.pending = (start, opener) :: b.pending ∧
      ((flags.stripCommentBlock = true ∧ start = 0 ∧ b.body = #[]) ∨
        ∃ fits : a.body.size - start ≤ maxOperand,
          b.body =
            (a.body.setIfInBounds start (make .jumpForward (a.body.size - start) fits)).push
              (make .jumpBackward (a.body.size - start) fits)) := by
  obtain ⟨body, pending⟩ := a
  cases pending with
  | nil => cases closed
  | cons entry pending =>
    obtain ⟨start, opener⟩ := entry
    refine ⟨start, opener, ?_⟩
    simp only [closeLoop] at closed
    split at closed
    · next both =>
      obtain ⟨strip, first⟩ := Bool.and_eq_true_iff.mp both
      cases closed
      exact ⟨rfl, .inl ⟨strip, beq_iff_eq.mp first, rfl⟩⟩
    · split at closed
      · next fits =>
        cases closed
        exact ⟨rfl, .inr ⟨fits, rfl⟩⟩
      · cases closed

/-- A loop that is dropped is one of those dropped from the start, and nothing else is open then. -/
theorem Written.dropLoop {opener : Place} (written : Written flags gs a)
    (strip : flags.stripCommentBlock = true)
    (top : a.pending = (0, opener) :: b.pending) (emptied : b.body = #[]) :
    Written flags (gs ++ [.closing]) b := by
  obtain ⟨framed, ⟨bodies, whole, _⟩, _⟩ := written
  rw [top] at framed
  obtain ⟨alone, inner, opened, nested⟩ := framed.pending_eq_nil
  obtain ⟨t, spells⟩ := nested.exists_tree
  refine ⟨?_, ⟨bodies ++ [t], ?_, ?_⟩, ?_⟩
  · rw [emptied, alone]
    exact .base .nil
  · rw [emptied, whole, opened, loopGlyphs_append_singleton, Tree.glyphs, Tree.glyphs, spells]
    simp [glyphs_ofGlyph]
  · intro off
    rw [strip] at off
    cases off
  · intro _ i member
    rw [emptied] at member
    cases member

/-- Where the brackets of a loop get their distance: between the code before the loop and nested
code. -/
theorem exists_patched {start : Nat} {opener : Place}
    (framed : Framed a.body.toList ((start, opener) :: b.pending))
    (fits : a.body.size - start ≤ maxOperand)
    (patched : b.body =
      (a.body.setIfInBounds start (make .jumpForward (a.body.size - start) fits)).push
        (make .jumpBackward (a.body.size - start) fits)) :
    ∃ (outer inner : List Instruction) (fits : inner.length + 1 ≤ maxOperand),
      Framed outer b.pending ∧ Nested inner ∧
        a.body.toList = outer ++ ofGlyph .opening :: inner ∧
        b.body.toList = outer ++ make .jumpForward (inner.length + 1) fits ::
          (inner ++ [make .jumpBackward (inner.length + 1) fits]) := by
  generalize distance : a.body.size - start = d at fits patched
  generalize held : a.body.toList = code at framed
  generalize entries : (start, opener) :: b.pending = pending at framed
  cases framed with
  | base _ => cases entries
  | @opened outer inner others place below nested =>
    obtain ⟨first, rfl⟩ := List.cons.inj entries
    obtain rfl : start = outer.length := congrArg Prod.fst first
    have sized : a.body.size = outer.length + (inner.length + 1) := by
      rw [← Array.length_toList, held, List.length_append, List.length_cons]
    obtain rfl : d = inner.length + 1 := by omega
    refine ⟨outer, inner, fits, below, nested, rfl, ?_⟩
    rw [patched, Array.toList_push, Array.toList_setIfInBounds, held,
      List.set_append_right _ _ (Nat.le_refl _)]
    simp

/-- A loop whose brackets get their distance becomes nested code with the same glyphs. -/
theorem Written.patchLoop {start : Nat} {opener : Place} (written : Written flags gs a)
    (top : a.pending = (start, opener) :: b.pending) (fits : a.body.size - start ≤ maxOperand)
    (patched : b.body =
      (a.body.setIfInBounds start (make .jumpForward (a.body.size - start) fits)).push
        (make .jumpBackward (a.body.size - start) fits)) :
    Written flags (gs ++ [.closing]) b := by
  obtain ⟨framed, ⟨bodies, whole, kept⟩, single⟩ := written
  rw [top] at framed
  obtain ⟨outer, inner, fits, below, nested, held, result⟩ := exists_patched framed fits patched
  refine ⟨?_, ⟨bodies, ?_, kept⟩, ?_⟩
  · rw [result]
    exact below.closeLoop nested fits
  · rw [result, whole, held]
    simp [glyphs_ofGlyph]
  · intro off i member
    rw [result] at member
    simp only [List.mem_append, List.mem_cons, List.not_mem_nil, or_false] at member
    rcases member with old | rfl | old | rfl
    · exact single off i (by simp [held, old])
    · rw [glyphs_jumpForward]
      rfl
    · exact single off i (by simp [held, old])
    · rw [glyphs_jumpBackward]
      rfl

theorem Written.closeLoop (written : Written flags gs a) {place : Place}
    (closed : a.closeLoop flags place = .ok b) : Written flags (gs ++ [.closing]) b := by
  obtain ⟨start, opener, top, ⟨strip, rfl, emptied⟩ | ⟨fits, patched⟩⟩ := closeLoop_cases closed
  · exact written.dropLoop strip top emptied
  · exact written.patchLoop top fits patched

/-- One glyph more is one glyph more written. -/
theorem Written.feed (written : Written flags gs a) {g : Glyph} {place : Place}
    (fed : a.feed flags g place = .ok b) : Written flags (gs ++ [g]) b := by
  cases g with
  | opening =>
    cases fed
    exact written.openLoop place
  | closing => exact written.closeLoop fed
  | _ =>
    cases fed
    exact written.emit Glyph.noConfusion Glyph.noConfusion

/-- What each glyph keeps, with the glyphs read so far, all of them keep. -/
theorem feedGlyphs_keeps {P : List Glyph → Assembly → Prop}
    (step : ∀ {gs : List Glyph} {a b : Assembly} {g : Glyph} {place : Place},
      P gs a → a.feed flags g place = .ok b → P (gs ++ [g]) b)
    (holds : P gs a) {more : List (Glyph × Place)} (fed : feedGlyphs flags more a = .ok b) :
    P (gs ++ more.map Prod.fst) b := by
  induction more generalizing gs a with
  | nil =>
    cases fed
    rwa [List.map_nil, List.append_nil]
  | cons entry more ih =>
    obtain ⟨g, place⟩ := entry
    simp only [Assembly.feedGlyphs] at fed
    split at fed
    · cases fed
    · next first =>
      have rest := ih (step holds first) fed
      rwa [List.append_assoc, List.singleton_append] at rest

theorem Written.feedGlyphs (written : Written flags gs a) {more : List (Glyph × Place)}
    (fed : feedGlyphs flags more a = .ok b) : Written flags (gs ++ more.map Prod.fst) b :=
  feedGlyphs_keeps (P := Written flags) (fun before step => before.feed step) written fed

end Assembly

/-- Compiled code is nested and is written with the glyphs of its source. -/
theorem renders_of_compile {flags : Flags} {source : String} {code : Code}
    (compiled : compile flags source = .ok code) : code.Renders flags (glyphsOf source) := by
  unfold compile at compiled
  rw [Assembly.feedText_eq_feedGlyphs] at compiled
  split at compiled
  · cases compiled
  · next a fed =>
    have written := (Assembly.written_empty flags).feedGlyphs fed
    rw [map_fst_placedGlyphs, List.nil_append] at written
    obtain ⟨framed, dropped, single⟩ := written
    unfold Assembly.finish at compiled
    split at compiled
    · next noneOpen =>
      cases compiled
      rw [noneOpen] at framed
      exact ⟨framed.nested, dropped, single⟩
    · cases compiled

end Brainfuck
