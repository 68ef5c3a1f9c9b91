import Brainfuck.Proofs.Programs
import Brainfuck.Proofs.WiderTape

/-!
# Addition that keeps its operand

A program counts two cells up, adds the first to the second by way of a third, and puts the first
back. It needs three cells and does on any wider tape what it does on these (`Tree.Runs.mapped`).
Both of its loops count down a cell, which may have wrapped before: the cells that they count up are
told by what they will hold in the end, and then a count that wraps to zero is as good as zero
(`Tree.Runs.countdown`). Main statement: the sum and the operand are right for operands of any size
(`addition_keeps_operand`).
-/
namespace Brainfuck

def additionText (a b : Nat) : String :=
  String.ofList (List.replicate a '+' ++ '>' ::
    (List.replicate b '+' ++ "<[->+>+<<]>>[-<<+>>]".toList))

namespace Addition

open Act

/-- Counts both operands up, and goes back to the first. -/
def prologue (a b : Nat) : List Act :=
  List.replicate a increment ++ right :: (List.replicate b increment ++ [left])

/-- Takes one from the first cell and adds one to the other two. -/
def copying : List Act :=
  [decrement, right, increment, right, increment, left, left]

/-- Takes one from the third cell and adds one to the first. -/
def restoring : List Act :=
  [decrement, left, left, increment, right, right]

def loops : Tree :=
  .loop (.acts copying .done) (.acts [right, right] (.loop (.acts restoring .done) .done))

theorem short (a b : Nat) : (Tree.acts (prologue a b) loops).Short := by
  rw [Tree.short_acts]
  exact ⟨by decide, trivial, by decide, trivial, trivial⟩

theorem spells (a b : Nat) :
    (Tree.acts (prologue a b) loops).glyphs = glyphsOf (additionText a b) := by
  have counts (n : Nat) : (List.replicate n '+').filterMap Glyph.ofChar? =
      List.replicate n .increment := List.filterMap_replicate_of_some rfl
  have last : "<[->+>+<<]>>[-<<+>>]".toList.filterMap Glyph.ofChar? = .left :: loops.glyphs := by
    decide
  have right : Glyph.ofChar? '>' = some .right := rfl
  rw [Tree.glyphs_acts, prologue, glyphsOf, additionText, String.toList_ofList,
    List.filterMap_append, List.filterMap_cons_some right, List.filterMap_append, counts, counts,
    last]
  simp [Act.glyph]

def three (x y z : Int8) (pointer : Fin 3) (input : Input) (output : Output) : Store :=
  ⟨⟨#[x, y, z], pointer, pointer.isLt⟩, input, output⟩

/-- Adding one to what a count leaves is taking one from the count. -/
theorem sub_sub_one (u count : Int8) : u - (count - 1) = u - count + 1 := by
  rw [Int8.sub_eq_add_neg count, ← Int8.sub_sub, Int8.sub_neg]

variable {x y z : Int8} {input : Input} {output : Output} {k : Nat} {rest : Tree} {s : Store}
  {e : Ending}

theorem prologue_done (a b : Nat) : Act.sequence (prologue a b) (three 0 0 0 0 input output) =
    (.ok (), three (Int8.ofNat a) (Int8.ofNat b) 0 0 input output) := by
  have first : Act.sequence (List.replicate a increment) (three 0 0 0 0 input output) =
      (.ok (), three (0 + Int8.ofNat a) 0 0 0 input output) := by
    rw [Act.sequence_replicate, Act.repeated_increment]
    rfl
  have second : Act.sequence (List.replicate b increment)
      (three (0 + Int8.ofNat a) 0 0 1 input output) =
      (.ok (), three (0 + Int8.ofNat a) (0 + Int8.ofNat b) 0 1 input output) := by
    rw [Act.sequence_replicate, Act.repeated_increment]
    rfl
  have between : right.effect (three (0 + Int8.ofNat a) 0 0 0 input output) =
      (.ok (), three (0 + Int8.ofNat a) 0 0 1 input output) := rfl
  rw [prologue, Act.sequence_append first, Act.sequence_cons between, Act.sequence_append second,
    Int8.zero_add, Int8.zero_add]
  rfl

/-- The first loop takes its count from the first cell, and the others have it in the end. -/
theorem runs_copying (u v : Int8)
    (after : rest.Runs (k + 9) (three 0 u v 0 input output) e s) (n : Nat) :
    (Tree.loop (.acts copying .done) rest).Runs k
      (three (Int8.ofNat n) (u - Int8.ofNat n) (v - Int8.ofNat n) 0 input output) e s := by
  refine Tree.Runs.countdown
    (fun count => three count (u - count) (v - count) 0 input output) ?_ ?_ ?_ n
  · exact fun count => beq_iff_eq
  · intro count _
    rw [sub_sub_one, sub_sub_one]
    exact .acts rfl .done
  · rw [Int8.sub_zero, Int8.sub_zero]
    exact after

/-- The second loop takes its count from the third cell, and the first has it in the end. -/
theorem runs_restoring (u : Int8)
    (after : rest.Runs (k + 8) (three u y 0 2 input output) e s) (n : Nat) :
    (Tree.loop (.acts restoring .done) rest).Runs k
      (three (u - Int8.ofNat n) y (Int8.ofNat n) 2 input output) e s := by
  refine Tree.Runs.countdown
    (fun count => three (u - count) y count 2 input output) ?_ ?_ ?_ n
  · exact fun count => beq_iff_eq
  · intro count _
    rw [sub_sub_one]
    exact .acts rfl .done
  · rw [Int8.sub_zero]
    exact after

/-- The loops add the first cell to the second, and end at the third. -/
theorem runs_loops (a b : Nat) : loops.Runs k
    (three (Int8.ofNat a) (Int8.ofNat b) 0 0 input output) .normal
    (three (Int8.ofNat a) (Int8.ofNat (a + b)) 0 2 input output) := by
  have restored : (Tree.loop (.acts restoring .done) .done).Runs (k + 9 + 2)
      (three (Int8.ofNat a - Int8.ofNat a) (Int8.ofNat (a + b)) (Int8.ofNat a) 2 input output)
      .normal (three (Int8.ofNat a) (Int8.ofNat (a + b)) 0 2 input output) :=
    runs_restoring _ .done a
  rw [Int8.sub_self] at restored
  have moved : (Tree.acts [right, right] (.loop (.acts restoring .done) .done)).Runs (k + 9)
      (three 0 (Int8.ofNat (a + b)) (Int8.ofNat a) 0 input output) .normal
      (three (Int8.ofNat a) (Int8.ofNat (a + b)) 0 2 input output) := .acts rfl restored
  have copied := runs_copying _ _ moved a
  have sum : Int8.ofNat (a + b) - Int8.ofNat a = Int8.ofNat b := by
    rw [Int8.ofNat_add, Int8.add_comm, Int8.add_sub_cancel]
  rw [sum, Int8.sub_self] at copied
  exact copied

end Addition

open Addition

/-- On a tape of three cells or more, the program runs to its end, and halts if the output can be
flushed. The pointer is then at the third cell. The first cell holds the first operand and the
second cell the sum, both modulo 256, and the other cells are zero. -/
theorem addition_keeps_operand {cells : Nat} (enough : 3 ≤ cells) (a b : Nat) (flags : Flags)
    (strategy : JumpStrategy) (input : Input) (output : Output) :
    ∃ result s,
      (Session.fresh (additionText a b) flags strategy cells input output).RunsTo (result, s) ∧
      (output.flush.1 = .ok () → result = .ok () ∧ s.phase = .halted) ∧
      s.machine.store.tape.pointer = 2 ∧ s.machine.store.tape.size = cells ∧
      s.machine.store.tape.get? 0 = some (Int8.ofNat a) ∧
      s.machine.store.tape.get? 1 = some (Int8.ofNat (a + b)) ∧
      ∀ k, 2 ≤ k → k < cells → s.machine.store.tape.get? k = some 0 := by
  have small : (Tree.acts (prologue a b) loops).Runs 0 (three 0 0 0 0 input output) .normal
      (three (Int8.ofNat a) (Int8.ofNat (a + b)) 0 2 input output) :=
    .acts (prologue_done a b) (runs_loops a b)
  have large := small.mapped (Store.carries_widened (cells - 3)) rfl
  have start : Store.widened (cells - 3) (three 0 0 0 0 input output) =
      ⟨.blank cells, input, output⟩ := by
    rw [← Tape.widened_blank (by decide) enough]
    rfl
  rw [start] at large
  obtain ⟨⟨result, s⟩, runs, finishes⟩ :=
    Session.runsTo_of_tree (short a b) (spells a b) large flags strategy
  have tape : s.machine.store.tape =
      (three (Int8.ofNat a) (Int8.ofNat (a + b)) 0 2 input output).tape.widened (cells - 3) := by
    rw [finishes.store_eq]
    rfl
  refine ⟨result, s, runs, finishes.halts, ?_⟩
  rw [tape]
  refine ⟨rfl, ?_, ?_, ?_, ?_⟩
  · rw [Tape.size_widened]
    exact Nat.add_sub_cancel' enough
  · exact Tape.get?_widened_of_lt _ _ (show 0 < 3 by decide)
  · exact Tape.get?_widened_of_lt _ _ (show 1 < 3 by decide)
  · intro k low high
    rcases Nat.eq_or_lt_of_le low with rfl | beyond
    · exact Tape.get?_widened_of_lt _ _ (show 2 < 3 by decide)
    · have inside : k < 3 + (cells - 3) := by omega
      exact Tape.get?_widened_of_le _ _ beyond inside

/-- The first operand wraps and leaves a negative cell, and there are more cells than needed. -/
theorem addition_keeps_operand_of_wrapping_count :
    3 ≤ 5 ∧ ∃ s, (Session.fresh (additionText 400 2) .all .scan 5 ⟨[]⟩
        (.scripted [] [])).RunsTo (.ok (), s) ∧ s.phase = .halted ∧
      s.machine.store.tape.pointer = 2 ∧ s.machine.store.tape.get? 0 = some (-112) ∧
      s.machine.store.tape.get? 1 = some (-110) ∧ s.machine.store.tape.get? 4 = some 0 := by
  have enough : 3 ≤ 5 := by decide
  obtain ⟨result, s, runs, halts, pointer, _, first, second, others⟩ :=
    addition_keeps_operand enough 400 2 .all .scan ⟨[]⟩ (.scripted [] [])
  obtain ⟨rfl, halted⟩ := halts rfl
  exact ⟨enough, s, runs, halted, pointer, first, second, others 4 (by decide) (by decide)⟩

end Brainfuck
