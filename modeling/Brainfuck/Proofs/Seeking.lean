import Brainfuck.Proofs.StructuredRun
import Mathlib.Order.Bounds.Basic

/-!
# Seeking a zero

The program `[>]` moves the data pointer to the right until it is at a zero, and `[<]` to the left.
A loop over one act goes on from each cell that is not zero (`Act.Passes`), up to a zero or to the
edge of the tape, where the act fails. Main statement: both programs stop at the zero that is the
nearest, counting the cell where they begin, and fault at the edge if there is none
(`seek_stops_at_nearest_zero`).
-/
namespace Brainfuck

open Machine

/-- An act is done several times or not at all, each time at a cell that is not zero. -/
inductive Act.Passes (a : Act) : Store → Store → Prop
  | here {s : Store} : a.Passes s s
  | on {s s₁ s₂ : Store} :
      s.isZero = false → a.effect s = (.ok (), s₁) → a.Passes s₁ s₂ → a.Passes s s₂

theorem Store.isZero_iff {s : Store} : s.isZero = true ↔ s.tape.get? s.tape.pointer = some 0 := by
  rw [Tape.get?_pointer, Option.some_inj]
  exact beq_iff_eq

theorem Store.isZero_eq_false {s : Store} (nonzero : s.tape.get? s.tape.pointer ≠ some 0) :
    s.isZero = false :=
  Bool.eq_false_iff.mpr (mt isZero_iff.mp nonzero)

namespace Tree

def repeating (a : Act) : Tree :=
  .loop (.act a .done) .done

variable {a : Act} {k : Nat} {s s₁ s₂ : Store} {e : Ending} {kind : FaultKind}

theorem Runs.passes (passes : a.Passes s s₁) (run : (repeating a).Runs k s₁ e s₂) :
    (repeating a).Runs k s e s₂ := by
  induction passes with
  | here => exact run
  | on nonzero effect _ ih => exact .again nonzero (.act effect .done) (ih run)

theorem runs_to_zero (passes : a.Passes s s₁) (zero : s₁.isZero = true) :
    (repeating a).Runs k s .normal s₁ :=
  .passes passes (.skip zero .done)

theorem runs_to_edge (passes : a.Passes s s₁) (nonzero : s₁.isZero = false)
    (failed : a.effect s₁ = (.error kind, s₂)) :
    (repeating a).Runs k s (.fault kind (k + 1)) s₂ :=
  .passes passes (.stop nonzero (.fault failed))

/-- Compiled without optimizations, the text of a tree ends as the tree does, whatever number of
steps has been counted before. -/
theorem Runs.ends_of_compile {t : Tree} (run : t.Runs 0 s e s₁) {source : String}
    (spells : t.glyphs = glyphsOf source) {code : Code}
    (compiled : compile .plain source = .ok code) (strategy : JumpStrategy) (steps : Nat) :
    ∃ last, Ends code ⟨0, steps, strategy, none, s⟩ e.result last ∧ last.store = s₁ := by
  obtain ⟨u, same, sized, laid⟩ := exists_layout_of_compile compiled
  obtain rfl := Tree.glyphs_injective (same.trans spells.symm)
  have reached := run.machine laid strategy (u.entry_start 0) steps
  rw [Nat.zero_add, sized] at reached
  exact reached.ends

end Tree

section

variable {cells : Array Int8} {p q : Nat}

/-- From one index to another on the right, if no cell on the way is zero. -/
theorem passes_right {n : Nat} (way : p + n = q) (start : p < cells.size) (inside : q < cells.size)
    (nonzero : ∀ k, p ≤ k → k < q → cells[k]? ≠ some 0) (input : Input) (output : Output) :
    Act.right.Passes ⟨⟨cells, p, start⟩, input, output⟩ ⟨⟨cells, q, inside⟩, input, output⟩ := by
  induction n generalizing p with
  | zero =>
    obtain rfl : p = q := way
    exact .here
  | succ n ih =>
    have stays : p + 1 < cells.size := by omega
    have first : Store.isZero ⟨⟨cells, p, start⟩, input, output⟩ = false :=
      Store.isZero_eq_false (nonzero p (Nat.le_refl p) (by omega))
    have moved : Act.right.effect ⟨⟨cells, p, start⟩, input, output⟩ =
        (.ok (), ⟨⟨cells, p + 1, stays⟩, input, output⟩) := dif_pos stays
    refine .on first moved (ih (by omega) stays ?_)
    intro k beyond before
    exact nonzero k (by omega) before

/-- From one index to another on the left, if no cell on the way is zero. -/
theorem passes_left {n : Nat} (way : q + n = p) (start : p < cells.size) (inside : q < cells.size)
    (nonzero : ∀ k, q < k → k ≤ p → cells[k]? ≠ some 0) (input : Input) (output : Output) :
    Act.left.Passes ⟨⟨cells, p, start⟩, input, output⟩ ⟨⟨cells, q, inside⟩, input, output⟩ := by
  induction n generalizing p with
  | zero =>
    obtain rfl : q = p := way
    exact .here
  | succ n ih =>
    obtain rfl : q + n + 1 = p := way
    have first : Store.isZero ⟨⟨cells, q + n + 1, start⟩, input, output⟩ = false :=
      Store.isZero_eq_false (nonzero (q + n + 1) (by omega) (Nat.le_refl _))
    refine .on first rfl (ih rfl (Nat.lt_of_succ_lt start) ?_)
    intro k beyond before
    exact nonzero k beyond (by omega)

end

namespace Machine

/-- A run ends with a result and with the data pointer at an index. It has changed neither the cells
nor the streams. -/
def EndsAt (code : Code) (m : Machine) (result : Except Fault Unit) (q : Nat) : Prop :=
  ∃ last, Ends code m result last ∧ last.store.tape.pointer = q ∧ last.store.SameContents m.store

variable {code : Code} {strategy : JumpStrategy} {steps q : Nat} {store s : Store}

theorem endsAt_of_runs {t : Tree} {e : Ending} (run : t.Runs 0 store e s) {source : String}
    (spells : t.glyphs = glyphsOf source) (compiled : compile .plain source = .ok code)
    (strategy : JumpStrategy) (steps : Nat) (pointer : s.tape.pointer = q)
    (same : s.SameContents store) : EndsAt code ⟨0, steps, strategy, none, store⟩ e.result q := by
  obtain ⟨last, ended, rfl⟩ := run.ends_of_compile spells compiled strategy steps
  exact ⟨last, ended, pointer, same⟩

theorem endsAt_of_zero_right (compiled : compile .plain "[>]" = .ok code)
    (nearest : IsLeast {q | store.tape.pointer ≤ q ∧ store.tape.get? q = some 0} q) :
    EndsAt code ⟨0, steps, strategy, none, store⟩ (.ok ()) q := by
  obtain ⟨⟨cells, p, start⟩, input, output⟩ := store
  obtain ⟨⟨way, zero⟩, least⟩ := nearest
  have inside : q < cells.size := (Array.getElem?_eq_some_iff.mp zero).1
  have nonzero : ∀ k, p ≤ k → k < q → cells[k]? ≠ some 0 :=
    fun k after before here => Nat.not_lt.mpr (least ⟨after, here⟩) before
  have passes := passes_right (Nat.add_sub_cancel' way) start inside nonzero input output
  exact endsAt_of_runs (Tree.runs_to_zero passes (Store.isZero_iff.mpr zero)) (by decide) compiled
    strategy steps rfl ⟨rfl, rfl, rfl⟩

theorem endsAt_of_no_zero_right (compiled : compile .plain "[>]" = .ok code)
    (nowhere : ∀ q, store.tape.pointer ≤ q → store.tape.get? q ≠ some 0) :
    EndsAt code ⟨0, steps, strategy, none, store⟩
      (.error ⟨.pastLastCell (store.tape.size - 1) 1 store.tape.size, 1⟩)
      (store.tape.size - 1) := by
  obtain ⟨⟨cells, p, start⟩, input, output⟩ := store
  have way : p ≤ cells.size - 1 := by omega
  have inside : cells.size - 1 < cells.size := by omega
  have passes := passes_right (Nat.add_sub_cancel' way) start inside
    (fun k after _ => nowhere k after) input output
  have edge : ¬ cells.size - 1 + 1 < cells.size := by omega
  have failed : Act.right.effect ⟨⟨cells, cells.size - 1, inside⟩, input, output⟩ =
      (.error (.pastLastCell (cells.size - 1) 1 cells.size),
        ⟨⟨cells, cells.size - 1, inside⟩, input, output⟩) := dif_neg edge
  have nonzero := Store.isZero_eq_false
    (s := ⟨⟨cells, cells.size - 1, inside⟩, input, output⟩) (nowhere _ way)
  exact endsAt_of_runs (Tree.runs_to_edge passes nonzero failed) (by decide) compiled strategy steps
    rfl ⟨rfl, rfl, rfl⟩

theorem endsAt_of_zero_left (compiled : compile .plain "[<]" = .ok code)
    (nearest : IsGreatest {q | q ≤ store.tape.pointer ∧ store.tape.get? q = some 0} q) :
    EndsAt code ⟨0, steps, strategy, none, store⟩ (.ok ()) q := by
  obtain ⟨⟨cells, p, start⟩, input, output⟩ := store
  obtain ⟨⟨way, zero⟩, greatest⟩ := nearest
  have inside : q < cells.size := Nat.lt_of_le_of_lt way start
  have nonzero : ∀ k, q < k → k ≤ p → cells[k]? ≠ some 0 :=
    fun k after before here => Nat.not_lt.mpr (greatest ⟨before, here⟩) after
  have passes := passes_left (Nat.add_sub_cancel' way) start inside nonzero input output
  exact endsAt_of_runs (Tree.runs_to_zero passes (Store.isZero_iff.mpr zero)) (by decide) compiled
    strategy steps rfl ⟨rfl, rfl, rfl⟩

theorem endsAt_of_no_zero_left (compiled : compile .plain "[<]" = .ok code)
    (nowhere : ∀ q, q ≤ store.tape.pointer → store.tape.get? q ≠ some 0) :
    EndsAt code ⟨0, steps, strategy, none, store⟩ (.error ⟨.beforeFirstCell 0 1, 1⟩) 0 := by
  obtain ⟨⟨cells, p, start⟩, input, output⟩ := store
  have inside : 0 < cells.size := Nat.zero_lt_of_lt start
  have passes := passes_left (Nat.zero_add p) start inside (fun k _ before => nowhere k before)
    input output
  have nonzero := Store.isZero_eq_false (s := ⟨⟨cells, 0, inside⟩, input, output⟩)
    (nowhere 0 (Nat.zero_le p))
  exact endsAt_of_runs (Tree.runs_to_edge passes nonzero rfl) (by decide) compiled strategy steps
    rfl ⟨rfl, rfl, rfl⟩

end Machine

/-- The programs `[>]` and `[<]` compile, and leading loops being kept, they run so on any store and
from any count of steps: the cells and the streams stay as they are. With a zero at the data pointer
or on the right of it, `[>]` halts at the first of them, and with none it faults at its second
instruction, with the data pointer at the last cell. With a zero at the data pointer or on the left
of it, `[<]` halts at the last of them, and with none it faults at its second instruction, with the
data pointer at the first cell. -/
theorem seek_stops_at_nearest_zero {flags : Flags} (keeps : flags.stripCommentBlock = false)
    (strategy : JumpStrategy) (steps : Nat) (store : Store) :
    ∃ rightward leftward, compile flags "[>]" = .ok rightward ∧
      compile flags "[<]" = .ok leftward ∧
      let m : Machine := ⟨0, steps, strategy, none, store⟩
      let t := store.tape
      (∀ q, IsLeast {q | t.pointer ≤ q ∧ t.get? q = some 0} q → EndsAt rightward m (.ok ()) q) ∧
      ((∀ q, t.pointer ≤ q → t.get? q ≠ some 0) →
        EndsAt rightward m (.error ⟨.pastLastCell (t.size - 1) 1 t.size, 1⟩) (t.size - 1)) ∧
      (∀ q, IsGreatest {q | q ≤ t.pointer ∧ t.get? q = some 0} q → EndsAt leftward m (.ok ()) q) ∧
      ((∀ q, q ≤ t.pointer → t.get? q ≠ some 0) →
        EndsAt leftward m (.error ⟨.beforeFirstCell 0 1, 1⟩) 0) := by
  obtain ⟨folds, strips⟩ := flags
  obtain rfl : strips = false := keeps
  have sameRightward : compile ⟨folds, false⟩ "[>]" = compile .plain "[>]" := by cases folds <;> rfl
  have sameLeftward : compile ⟨folds, false⟩ "[<]" = compile .plain "[<]" := by cases folds <;> rfl
  have compiled : compile .plain "[>]" = .ok _ := rfl
  have compiled' : compile .plain "[<]" = .ok _ := rfl
  exact ⟨_, _, sameRightward.trans compiled, sameLeftward.trans compiled',
    fun _ => endsAt_of_zero_right compiled, endsAt_of_no_zero_right compiled,
    fun _ => endsAt_of_zero_left compiled', endsAt_of_no_zero_left compiled'⟩

/-- A zero on the right, beyond two other cells, and none on the left. -/
theorem seek_stops_at_nearest_zero_on_one_side :
    Flags.stripCommentBlock ⟨true, false⟩ = false ∧ ∃ rightward leftward,
      compile ⟨true, false⟩ "[>]" = .ok rightward ∧ compile ⟨true, false⟩ "[<]" = .ok leftward ∧
      let tape : Tape := ⟨#[5, -1, 3, 1, 0, 0], 2, by decide⟩
      let m : Machine := ⟨0, 7, .scan, none, ⟨tape, ⟨[]⟩, .scripted [] []⟩⟩
      EndsAt rightward m (.ok ()) 4 ∧
        EndsAt leftward m (.error ⟨.beforeFirstCell 0 1, 1⟩) 0 := by
  have keeps : Flags.stripCommentBlock ⟨true, false⟩ = false := rfl
  obtain ⟨rightward, leftward, compiled, compiled', halts, _, _, faults⟩ :=
    seek_stops_at_nearest_zero keeps .scan 7
      ⟨⟨#[5, -1, 3, 1, 0, 0], 2, by decide⟩, ⟨[]⟩, .scripted [] []⟩
  refine ⟨keeps, rightward, leftward, compiled, compiled', halts 4 ⟨⟨by decide, rfl⟩, ?_⟩,
    faults (by decide)⟩
  rintro q ⟨after, zero⟩
  by_contra before
  have low : 2 ≤ q := after
  obtain rfl | rfl : q = 2 ∨ q = 3 := by omega
  · cases zero
  · cases zero

end Brainfuck
