import Brainfuck.Proofs.Assembling

/-!
# More optimizations accept more

Two compilations of one text under flags of which the second has all of the first go in lockstep:
the same loops are open, none of them is longer in the second code, and a count goes up in the
second whenever it does in the first (`Assembly.Lockstep`). So what compiles under the first flags
compiles under the second (`compile_of_within`).
-/
namespace Brainfuck

open Instruction

/-- Whether each simplification of the first is one of the second. -/
structure Flags.Within (F G : Flags) : Prop where
  coalesces : F.coalesceRuns = true → G.coalesceRuns = true
  strips : F.stripCommentBlock = true → G.stripCommentBlock = true

theorem Flags.plain_within (G : Flags) : Flags.plain.Within G :=
  ⟨nofun, nofun⟩

namespace Assembly

/-- Open loops of two assemblies, given the sizes of what has been compiled. A loop is as long or
longer in the first, and where it is at the very start of the first it is so in the second. -/
inductive OpenAlike (sizeA sizeB : Nat) : List (Nat × Place) → List (Nat × Place) → Prop
  | nil : OpenAlike sizeA sizeB [] []
  | cons {x y : Nat} {place : Place} {ps qs : List (Nat × Place)} :
      x ≤ sizeA → sizeB + x ≤ sizeA + y → (x = 0 → y = 0) → OpenAlike sizeA sizeB ps qs →
      OpenAlike sizeA sizeB ((x, place) :: ps) ((y, place) :: qs)

theorem OpenAlike.grow {sizeA sizeB sizeA' sizeB' : Nat} {ps qs : List (Nat × Place)}
    (alike : OpenAlike sizeA sizeB ps qs) (larger : sizeA ≤ sizeA')
    (slower : sizeB' + sizeA ≤ sizeA' + sizeB) : OpenAlike sizeA' sizeB' ps qs := by
  induction alike with
  | nil => exact .nil
  | cons inside shorter first _ ih => exact .cons (by omega) (by omega) first ih

/-- Two assemblies that have been fed the same glyphs, the second one under more flags. -/
structure Lockstep (F : Flags) (a b : Assembly) : Prop where
  size : b.body.size ≤ a.body.size
  pending : OpenAlike a.body.size b.body.size a.pending b.pending
  counts : F.coalesceRuns = true → ∀ i : Instruction, i.isRepeatable = true →
    bumped? a.body.back? i = bumped? b.body.back? i

theorem lockstep_empty (F : Flags) : Lockstep F empty empty :=
  ⟨Nat.le_refl _, .nil, fun _ _ _ => rfl⟩

theorem bumped?_closing {distance : Nat} (fits : distance ≤ maxOperand) {i : Instruction}
    (counts : i.isRepeatable = true) :
    bumped? (some (make .jumpBackward distance fits)) i = none := by
  simp only [bumped?]
  split
  · split
    · next same =>
      rw [isRepeatable, opcode?, ← same] at counts
      cases counts
    · rfl
  · rfl

theorem emit_push {G : Flags} {i : Instruction} (b : Assembly)
    (alone : (G.coalesceRuns && i.isRepeatable) = false) :
    b.emit G i = ⟨b.body.push i, b.pending⟩ := by
  unfold emit
  simp only [alone, Bool.false_eq_true, if_false]

theorem size_emit (G : Flags) (i : Instruction) (b : Assembly) :
    (b.emit G i).pending = b.pending ∧ (b.emit G i).body.size ≤ b.body.size + 1 := by
  unfold emit
  dsimp only
  split
  · split
    · rw [Array.size_setIfInBounds]
      exact ⟨rfl, Nat.le_succ _⟩
    · rw [Array.size_push]
      exact ⟨rfl, Nat.le_refl _⟩
  · rw [Array.size_push]
    exact ⟨rfl, Nat.le_refl _⟩

variable {F G : Flags} {a b : Assembly}

/-- An instruction that ends both codes keeps them in lockstep. -/
theorem Lockstep.push (lock : Lockstep F a b) (i : Instruction) :
    Lockstep F ⟨a.body.push i, a.pending⟩ ⟨b.body.push i, b.pending⟩ := by
  obtain ⟨size, pending, counts⟩ := lock
  refine ⟨?_, ?_, ?_⟩
  · rw [Array.size_push, Array.size_push]
    exact Nat.succ_le_succ size
  · rw [Array.size_push, Array.size_push]
    exact pending.grow (Nat.le_succ _) (by omega)
  · intro _ j _
    rw [Array.back?_push, Array.back?_push]

theorem back?_setIfInBounds {body : Array Instruction} {j : Instruction}
    (last : body.back? = some j) (i : Instruction) :
    (body.setIfInBounds (body.size - 1) i).back? = some i := by
  have inside : body.size - 1 < body.size := by
    rw [Array.back?_eq_getElem?] at last
    exact (Array.getElem?_eq_some_iff.mp last).1
  rw [Array.back?_eq_getElem?, Array.size_setIfInBounds,
    Array.getElem?_setIfInBounds_self_of_lt inside]

/-- A count that goes up in both codes keeps them in lockstep. -/
theorem Lockstep.bump (lock : Lockstep F a b) {j k : Instruction} (last : a.body.back? = some j)
    (last' : b.body.back? = some k) (i : Instruction) :
    Lockstep F ⟨a.body.setIfInBounds (a.body.size - 1) i, a.pending⟩
      ⟨b.body.setIfInBounds (b.body.size - 1) i, b.pending⟩ := by
  obtain ⟨size, pending, counts⟩ := lock
  refine ⟨?_, ?_, ?_⟩
  · rw [Array.size_setIfInBounds, Array.size_setIfInBounds]
    exact size
  · rw [Array.size_setIfInBounds, Array.size_setIfInBounds]
    exact pending
  · intro _ _ _
    rw [back?_setIfInBounds last, back?_setIfInBounds last']

theorem Lockstep.emit (within : F.Within G) (lock : Lockstep F a b) (i : Instruction) :
    Lockstep F (a.emit F i) (b.emit G i) := by
  by_cases repeatable : i.isRepeatable = true
  · by_cases coalesce : F.coalesceRuns = true
    · have same := lock.counts coalesce i repeatable
      unfold Assembly.emit
      simp only [coalesce, within.coalesces coalesce, repeatable, Bool.and_self, if_true, ← same]
      split
      · next last counted =>
        obtain ⟨j, _, before, _, _⟩ := bumped?_eq_some counted
        obtain ⟨k, _, before', _, _⟩ := bumped?_eq_some (same.symm.trans counted)
        exact lock.bump before before' last
      · exact lock.push i
    · obtain ⟨size, pending, _⟩ := lock
      obtain ⟨open', size'⟩ := size_emit G i b
      rw [emit_push a (by simp [coalesce])]
      refine ⟨?_, ?_, fun on => absurd on coalesce⟩
      · rw [Array.size_push]
        omega
      · rw [open', Array.size_push]
        exact pending.grow (Nat.le_succ _) (by omega)
  · rw [emit_push a (by simp [repeatable]), emit_push b (by simp [repeatable])]
    exact lock.push i

theorem Lockstep.openLoop (lock : Lockstep F a b) (place : Place) :
    Lockstep F (a.openLoop place) (b.openLoop place) := by
  obtain ⟨size, pending, counts⟩ := lock.push (ofGlyph .opening)
  refine ⟨size, ?_, counts⟩
  have started := lock.size
  rw [Array.size_push, Array.size_push] at pending
  simp only [Assembly.openLoop, Array.size_push]
  exact .cons (Nat.le_succ _) (by omega) (by omega) pending

/-- A loop that is short enough can be closed, and the instruction that is last then does not count
on, if there is one. -/
theorem exists_closeLoop (G : Flags) (place : Place) {y : Nat} {opener : Place}
    {qs : List (Nat × Place)} (top : b.pending = (y, opener) :: qs)
    (fits : b.body.size - y ≤ maxOperand) :
    ∃ b', b.closeLoop G place = .ok b' ∧ b'.pending = qs ∧ b'.body.size ≤ b.body.size + 1 ∧
      ∀ i : Instruction, i.isRepeatable = true → bumped? b'.body.back? i = none := by
  obtain ⟨body, pending⟩ := b
  obtain rfl : pending = (y, opener) :: qs := top
  simp only [Assembly.closeLoop]
  split
  · exact ⟨_, rfl, rfl, Nat.zero_le _, fun _ _ => rfl⟩
  · refine ⟨_, rfl, rfl, ?_, ?_⟩
    · exact Nat.le_of_eq (by rw [Array.size_push, Array.size_setIfInBounds])
    · intro i repeatable
      rw [Array.back?_push]
      exact bumped?_closing fits repeatable

/-- A loop at the very start is dropped if so asked. -/
theorem closeLoop_strip (strip : G.stripCommentBlock = true) (place : Place) {opener : Place}
    {qs : List (Nat × Place)} (top : b.pending = (0, opener) :: qs) :
    b.closeLoop G place = .ok ⟨#[], qs⟩ := by
  obtain ⟨body, pending⟩ := b
  obtain rfl : pending = (0, opener) :: qs := top
  simp only [Assembly.closeLoop, strip, beq_self_eq_true, Bool.and_self, if_true]

/-- What can be closed under the first flags can be closed under the second. -/
theorem Lockstep.closeLoop (within : F.Within G) {gs : List Glyph} (written : Written F gs a)
    (lock : Lockstep F a b) {place : Place} {a' : Assembly}
    (closed : a.closeLoop F place = .ok a') :
    ∃ b', b.closeLoop G place = .ok b' ∧ Lockstep F a' b' := by
  obtain ⟨size, pending, _⟩ := lock
  obtain ⟨x, opener, top, ⟨strip, rfl, emptied⟩ | ⟨fits, patched⟩⟩ := closeLoop_cases closed
  · have alone := (top ▸ written.framed).pending_eq_nil.1
    rw [top, alone] at pending
    generalize opened : b.pending = entries at pending
    cases pending with
    | cons _ _ first below =>
      cases below
      obtain rfl := first rfl
      refine ⟨_, closeLoop_strip (within.strips strip) place opened, ?_, ?_, ?_⟩
      · exact Nat.zero_le _
      · rw [alone]
        exact .nil
      · intro _ _ _
        rw [emptied]
  · rw [top] at pending
    generalize opened : b.pending = entries at pending
    cases pending with
    | @cons _ y _ _ qs inside shorter _ below =>
      obtain ⟨b', closed', rest, grown, last'⟩ :=
        exists_closeLoop G place opened (by omega)
      have size' : a'.body.size = a.body.size + 1 := by
        rw [patched, Array.size_push, Array.size_setIfInBounds]
      refine ⟨b', closed', ?_, ?_, ?_⟩
      · omega
      · rw [rest]
        exact below.grow (by omega) (by omega)
      · intro _ i repeatable
        rw [last' i repeatable, patched, Array.back?_push, bumped?_closing fits repeatable]

theorem Lockstep.feed (within : F.Within G) {gs : List Glyph} (written : Written F gs a)
    (lock : Lockstep F a b) {g : Glyph} {place : Place} {a' : Assembly}
    (fed : a.feed F g place = .ok a') : ∃ b', b.feed G g place = .ok b' ∧ Lockstep F a' b' := by
  cases g with
  | opening =>
    cases fed
    exact ⟨_, rfl, lock.openLoop place⟩
  | closing => exact lock.closeLoop within written fed
  | _ =>
    cases fed
    exact ⟨_, rfl, lock.emit within _⟩

theorem Lockstep.feedGlyphs (within : F.Within G) {gs : List Glyph} (written : Written F gs a)
    (lock : Lockstep F a b) {more : List (Glyph × Place)} {a' : Assembly}
    (fed : feedGlyphs F more a = .ok a') :
    ∃ b', feedGlyphs G more b = .ok b' ∧ Lockstep F a' b' := by
  induction more generalizing gs a b with
  | nil =>
    cases fed
    exact ⟨b, rfl, lock⟩
  | cons entry more ih =>
    obtain ⟨g, place⟩ := entry
    simp only [Assembly.feedGlyphs] at fed ⊢
    split at fed
    · cases fed
    · next step =>
      obtain ⟨b₁, step', lock'⟩ := lock.feed within written step
      rw [step']
      exact ih (written.feed step) lock' fed

end Assembly

/-- More optimizations accept every source that fewer accept. -/
theorem compile_of_within {F G : Flags} (within : F.Within G) {source : String} {code : Code}
    (compiled : compile F source = .ok code) : ∃ code', compile G source = .ok code' := by
  unfold compile at compiled ⊢
  rw [Assembly.feedText_eq_feedGlyphs] at compiled ⊢
  split at compiled
  · cases compiled
  · next a fed =>
    obtain ⟨b, fed', lock⟩ :=
      (Assembly.lockstep_empty F).feedGlyphs within (Assembly.written_empty F) fed
    rw [fed']
    obtain ⟨body, pending⟩ := a
    obtain ⟨body', pending'⟩ := b
    cases lock.pending with
    | nil => exact ⟨_, rfl⟩
    | cons _ _ _ _ => cases compiled

end Brainfuck
