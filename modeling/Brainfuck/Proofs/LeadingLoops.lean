import Brainfuck.Proofs.Respelling
import Mathlib.Data.Nat.Find

/-!
# Loops at the start

Glyphs begin with a longest prefix that consists of complete loops, and `AfterLoops` says what comes
after it. Where loops at the start are dropped, these are the loops that go: none of them leaves
anything behind, and as soon as there is an instruction no later loop stands at the start
(`Assembly.Started`). Main statement: code compiled with loops dropped is the code that what comes
after them compiles to with all loops kept, and it does not begin with a loop
(`compile_afterLoops`).
-/
namespace Brainfuck

open Instruction

/-- What comes after the longest prefix of some glyphs that consists of complete loops. -/
structure AfterLoops (gs rest : List Glyph) : Prop where
  splits : ∃ bodies, gs = loopGlyphs bodies ++ rest
  shortest : ∀ bodies other, gs = loopGlyphs bodies ++ other → rest.length ≤ other.length

section AfterLoops

variable {gs rest : List Glyph}

theorem exists_afterLoops (gs : List Glyph) : ∃ rest, AfterLoops gs rest := by
  have parted : ∃ n bodies rest, gs = loopGlyphs bodies ++ rest ∧ rest.length = n :=
    ⟨_, [], gs, rfl, rfl⟩
  classical
  obtain ⟨bodies, rest, whole, least⟩ := Nat.find_spec parted
  refine ⟨rest, ⟨bodies, whole⟩, fun bodies' other whole' => ?_⟩
  rw [least]
  exact Nat.find_min' parted ⟨bodies', other, whole', rfl⟩

theorem AfterLoops.eq {other : List Glyph} (after : AfterLoops gs rest)
    (after' : AfterLoops gs other) : rest = other := by
  obtain ⟨bodies, whole⟩ := after.splits
  obtain ⟨bodies', whole'⟩ := after'.splits
  have same : rest.length = other.length :=
    Nat.le_antisymm (after.shortest _ _ whole') (after'.shortest _ _ whole)
  exact (List.append_inj' (whole.symm.trans whole') same).2

/-- No loop comes next. -/
theorem AfterLoops.loopGlyphs_eq_nil (after : AfterLoops gs rest) {bodies : List Tree}
    {other : List Glyph} (parted : rest = loopGlyphs bodies ++ other) : loopGlyphs bodies = [] := by
  obtain ⟨before, whole⟩ := after.splits
  have further : gs = loopGlyphs (before ++ bodies) ++ other := by
    rw [whole, parted, loopGlyphs, loopGlyphs, loopGlyphs, List.flatMap_append, List.append_assoc]
  have short := after.shortest _ _ further
  rw [parted, List.length_append] at short
  exact List.eq_nil_of_length_eq_zero (by omega)

/-- So what comes next does not open a loop, if it compiles. -/
theorem AfterLoops.head?_ne_opening {is : List Instruction} (after : AfterLoops gs (spelled is))
    (nested : Nested is) : (spelled is).head? ≠ some .opening := by
  cases nested with
  | nil => nofun
  | act here _ =>
    obtain ⟨a, n, pos, written⟩ := here.exists_act
    obtain ⟨n, rfl⟩ := Nat.exists_eq_succ_of_ne_zero (Nat.ne_of_gt pos)
    rw [spelled_cons, written, List.replicate_succ, List.cons_append, List.head?_cons]
    exact fun same => a.glyph_ne_opening (Option.some.inj same)
  | @loop body rest fits inner _ =>
    obtain ⟨t, spells⟩ := inner.exists_tree
    have parted : spelled (make .jumpForward (body.length + 1) fits ::
        (body ++ make .jumpBackward (body.length + 1) fits :: rest)) =
        loopGlyphs [t] ++ spelled rest := by
      simp [loopGlyphs, Tree.glyphs, spells]
    have noLoops := after.loopGlyphs_eq_nil parted
    simp [loopGlyphs, Tree.glyphs] at noLoops

end AfterLoops

namespace Assembly

variable {flags : Flags} {a b : Assembly}

/-- There is an instruction before every open loop and every loop to come. -/
structure Started (a : Assembly) : Prop where
  size_pos : 0 < a.body.size
  opened : ∀ entry ∈ a.pending, 0 < entry.1

theorem started_emit_empty (flags : Flags) (i : Instruction) : (empty.emit flags i).Started := by
  have pushed : empty.emit flags i = ⟨#[i], []⟩ := by
    unfold emit
    dsimp only [empty]
    split <;> rfl
  rw [pushed]
  exact ⟨Nat.one_pos, fun _ member => by cases member⟩

theorem Started.emit (started : a.Started) (flags : Flags) (i : Instruction) :
    (a.emit flags i).Started := by
  rcases emit_cases flags i a with ⟨_, pushed⟩ | ⟨_, _, before, last, fits, _, _, bumped, pending⟩
  · rw [pushed]
    refine ⟨?_, started.opened⟩
    rw [Array.size_push]
    exact Nat.succ_pos _
  · refine ⟨?_, pending ▸ started.opened⟩
    rw [← Array.length_toList, bumped]
    simp

theorem Started.openLoop (started : a.Started) (place : Place) : (a.openLoop place).Started := by
  refine ⟨?_, List.forall_mem_cons.mpr ⟨started.size_pos, started.opened⟩⟩
  rw [Assembly.openLoop, Array.size_push]
  exact Nat.succ_pos _

theorem Started.closeLoop (started : a.Started) {place : Place}
    (closed : a.closeLoop flags place = .ok b) : b.Started := by
  obtain ⟨start, opener, top, rest⟩ := closeLoop_cases closed
  obtain ⟨pos, opened⟩ := List.forall_mem_cons.mp (top ▸ started.opened)
  rcases rest with ⟨_, rfl, _⟩ | ⟨fits, patched⟩
  · exact absurd pos (Nat.lt_irrefl 0)
  · refine ⟨?_, opened⟩
    rw [patched, Array.size_push]
    exact Nat.succ_pos _

theorem Started.feed (started : a.Started) {g : Glyph} {place : Place}
    (fed : a.feed flags g place = .ok b) : b.Started := by
  cases g with
  | opening =>
    cases fed
    exact started.openLoop place
  | closing => exact started.closeLoop fed
  | _ =>
    cases fed
    exact started.emit flags _

/-- After the first instruction no loop is dropped. -/
theorem Started.closeLoop_eq (started : a.Started) (folds strips strips' : Bool) (place : Place) :
    a.closeLoop ⟨folds, strips⟩ place = a.closeLoop ⟨folds, strips'⟩ place := by
  obtain ⟨body, pending⟩ := a
  cases pending with
  | nil => rfl
  | cons entry pending =>
    obtain ⟨start, opener⟩ := entry
    have inside : (start == 0) = false :=
      beq_eq_false_iff_ne.mpr (Nat.ne_of_gt (started.opened _ List.mem_cons_self))
    simp only [Assembly.closeLoop, inside, Bool.and_false]

theorem Started.feedGlyphs_eq (started : a.Started) (folds strips strips' : Bool)
    (gs : List (Glyph × Place)) :
    feedGlyphs ⟨folds, strips⟩ gs a = feedGlyphs ⟨folds, strips'⟩ gs a := by
  induction gs generalizing a with
  | nil => rfl
  | cons entry gs ih =>
    obtain ⟨g, place⟩ := entry
    have sameFeed : a.feed ⟨folds, strips⟩ g place = a.feed ⟨folds, strips'⟩ g place := by
      cases g with
      | closing => exact started.closeLoop_eq folds strips strips' place
      | _ => rfl
    simp only [feedGlyphs, ← sameFeed]
    cases fed : a.feed ⟨folds, strips⟩ g place with
    | error e => rfl
    | ok b => exact ih (started.feed fed)

/-- Glyphs that do not begin with a loop compile alike whether loops are dropped or not. -/
theorem feedGlyphs_unplaced_eq {gs : List Glyph} (first : gs.head? ≠ some .opening)
    (folds strips strips' : Bool) :
    feedGlyphs ⟨folds, strips⟩ (unplaced gs) empty =
      feedGlyphs ⟨folds, strips'⟩ (unplaced gs) empty := by
  cases gs with
  | nil => rfl
  | cons g gs =>
    cases g with
    | opening => exact absurd rfl first
    | closing => rfl
    | _ => exact (started_emit_empty _ _).feedGlyphs_eq folds strips strips' (unplaced gs)

end Assembly

variable {flags : Flags} {source : String} {code : Code} {rest : List Glyph}

/-- Code from which the loops at the start are dropped is written with what comes after them. -/
theorem spelled_eq_of_afterLoops (strip : flags.stripCommentBlock = true)
    (after : AfterLoops (glyphsOf source) rest) (compiled : compile flags source = .ok code) :
    spelled code.body.toList = rest := by
  obtain ⟨bodies, whole⟩ := after.splits
  have fed := compile_eq_ok_iff.mp compiled
  rw [whole] at fed
  obtain ⟨b, dropped, remaining⟩ := Assembly.feedGlyphs_unplaced_append fed
  obtain rfl := Assembly.feedGlyphs_loopGlyphs strip dropped
  rw [← glyphsOf_ofList rest] at remaining
  obtain ⟨bodies', parted, _⟩ := (renders_of_compile (compile_eq_ok_iff.mpr remaining)).dropped
  rw [glyphsOf_ofList] at parted
  rw [parted, after.loopGlyphs_eq_nil parted, List.nil_append]

/-- Code that is not written with an opening bracket first does not begin with a jump. -/
theorem exists_first_instruction (first : (spelled code.body.toList).head? ≠ some .opening) :
    ∃ i, code.get? 0 = some i ∧ i.opcode? ≠ some .jumpForward := by
  obtain ⟨i, here⟩ := Option.isSome_iff_exists.mp (Code.get?_isSome_iff.mpr (Nat.succ_pos _))
  refine ⟨i, here, fun jumps => ?_⟩
  rw [Code.get?_eq_getElem?, Code.toArray, ← Array.getElem?_toList, Array.toList_push] at here
  generalize code.body.toList = is at first here
  cases is with
  | nil =>
    cases here
    cases jumps
  | cons j is =>
    cases here
    have opens : i.glyphs = [.opening] := by
      rw [glyphs, isRepeatable, jumps]
      rfl
    exact first (by rw [spelled_cons, opens, List.singleton_append, List.head?_cons])

/-- Glyphs have one rest after their longest prefix of complete loops. If a source compiles with
loops at the start dropped, its rest compiles with all loops kept, to the same code, and this code
does not begin with a loop. What compiles with all loops kept compiles with some dropped. -/
theorem compile_afterLoops (flags : Flags) (kept : flags.stripCommentBlock = false)
    (source : String) :
    (∃! rest, AfterLoops (glyphsOf source) rest) ∧
    ∀ rest, AfterLoops (glyphsOf source) rest →
      (∀ code, compile { flags with stripCommentBlock := true } source = .ok code →
        compile flags (String.ofList (rest.map Glyph.char)) = .ok code ∧
        ∃ i, code.get? 0 = some i ∧ i.opcode? ≠ some .jumpForward) ∧
      ((∃ code, compile flags source = .ok code) →
        ∃ code, compile { flags with stripCommentBlock := true } source = .ok code) := by
  obtain ⟨folds, strips⟩ := flags
  obtain rfl : strips = false := kept
  constructor
  · obtain ⟨rest, after⟩ := exists_afterLoops (glyphsOf source)
    exact ⟨rest, after, fun other after' => after'.eq after⟩
  refine fun rest after => ⟨fun code compiled => ?_, fun ⟨code, compiled⟩ => ?_⟩
  · obtain rfl := spelled_eq_of_afterLoops rfl after compiled
    have first := after.head?_ne_opening (renders_of_compile compiled).nested
    refine ⟨?_, exists_first_instruction first⟩
    rw [compile_eq_ok_iff, glyphsOf_ofList, Assembly.feedGlyphs_unplaced_eq first folds false true]
    exact feedGlyphs_spelled compiled
  · have within : Flags.Within ⟨folds, false⟩ ⟨folds, true⟩ := ⟨id, fun _ => rfl⟩
    exact compile_of_within within compiled

/-- Two loops at the start and one after an instruction, with a comment before each, and a run that
is folded. -/
theorem compile_afterLoops_past_two_loops : ∃ rest code,
    AfterLoops (glyphsOf "a[b[-],] c[,]\nd+ +[-]") rest ∧
    compile .all "a[b[-],] c[,]\nd+ +[-]" = .ok code ∧
    compile ⟨true, false⟩ (String.ofList (rest.map Glyph.char)) = .ok code ∧
    code.body.size = 4 := by
  have compiled : compile .all "a[b[-],] c[,]\nd+ +[-]" = .ok _ := rfl
  obtain ⟨⟨rest, after, _⟩, sameCode⟩ :=
    compile_afterLoops ⟨true, false⟩ rfl "a[b[-],] c[,]\nd+ +[-]"
  obtain ⟨alone, _⟩ := (sameCode rest after).1 _ compiled
  exact ⟨rest, _, after, compiled, alone, rfl⟩

end Brainfuck
