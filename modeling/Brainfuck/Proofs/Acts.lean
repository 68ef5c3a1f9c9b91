import Brainfuck.Machine.Step
import Brainfuck.Proofs.BracketTree

/-!
# What acts do

An act is done once by `Act.effect` and several times by `Act.repeated`, which stops at the first
failure. A compiled operation with a count does at once what its act does when repeated
(`Instruction.IsAct.perform_alike`). Where it fails, the repeated act fails too, but later and with
other numbers in the fault: the pointer has been moved up to the edge of the tape by then. So the
two are only alike, and no claim is made about the pointer after a failure.
-/
namespace Brainfuck

/-- What an act does: move by one cell if there is one, count the cell up or down by one, which
wraps, or transfer one byte. -/
def Act.effect : Act → Store → Except FaultKind Unit × Store
  | right, ⟨⟨cells, pointer, inside⟩, input, output⟩ =>
    if stays : pointer + 1 < cells.size then (.ok (), ⟨⟨cells, pointer + 1, stays⟩, input, output⟩)
    else (.error (.pastLastCell pointer 1 cells.size), ⟨⟨cells, pointer, inside⟩, input, output⟩)
  | left, ⟨⟨cells, 0, inside⟩, input, output⟩ =>
    (.error (.beforeFirstCell 0 1), ⟨⟨cells, 0, inside⟩, input, output⟩)
  | left, ⟨⟨cells, pointer + 1, inside⟩, input, output⟩ =>
    (.ok (), ⟨⟨cells, pointer, Nat.lt_of_succ_lt inside⟩, input, output⟩)
  | increment, ⟨tape, input, output⟩ => (.ok (), ⟨tape.put (tape.current + 1), input, output⟩)
  | decrement, ⟨tape, input, output⟩ => (.ok (), ⟨tape.put (tape.current - 1), input, output⟩)
  | write, store => store.write
  | read, store => store.read

def Act.repeated (a : Act) : Nat → Store → Except FaultKind Unit × Store
  | 0, s => (.ok (), s)
  | n + 1, s =>
    match a.effect s with
    | (.ok (), s) => a.repeated n s
    | (.error kind, s) => (.error kind, s)

/-- A fault without the numbers that tell where it happened. The error of a stream stays. -/
def FaultKind.variant : FaultKind → FaultKind
  | pastLastCell _ _ _ => pastLastCell 0 0 0
  | beforeFirstCell _ _ => beforeFirstCell 0 0
  | noInstruction _ => noInstruction 0
  | unknownOpcode _ => unknownOpcode 0
  | mismatchedJump _ => mismatchedJump 0
  | unbalancedJump => unbalancedJump
  | stepLimit _ => stepLimit 0
  | stream error => stream error

/-- Whether two stores differ in the data pointer at most. -/
structure Store.SameContents (s s' : Store) : Prop where
  cells : s.tape.cells = s'.tape.cells
  input : s.input = s'.input
  output : s.output = s'.output

theorem Store.SameContents.refl (s : Store) : s.SameContents s := ⟨rfl, rfl, rfl⟩

theorem Store.SameContents.trans {s s' s'' : Store} (first : s.SameContents s')
    (second : s'.SameContents s'') : s.SameContents s'' :=
  ⟨first.cells.trans second.cells, first.input.trans second.input,
    first.output.trans second.output⟩

/-- Outcomes that are the same if they are successes. Failures may differ in the numbers of the
fault and in the data pointer. -/
inductive Alike : Except FaultKind Unit × Store → Except FaultKind Unit × Store → Prop
  | ok (s : Store) : Alike (.ok (), s) (.ok (), s)
  | error {kind kind' : FaultKind} {s s' : Store} :
      kind.variant = kind'.variant → s.SameContents s' → Alike (.error kind, s) (.error kind', s')

namespace Alike

variable {x y z : Except FaultKind Unit × Store}

theorem refl (x : Except FaultKind Unit × Store) : Alike x x := by
  obtain ⟨kind | _, s⟩ := x
  · exact .error rfl (.refl s)
  · exact .ok s

theorem trans (first : Alike x y) (second : Alike y z) : Alike x z := by
  cases first with
  | ok s => exact second
  | error same contents =>
    cases second with
    | error same' contents' => exact .error (same.trans same') (contents.trans contents')

end Alike

namespace Tape

theorem put_current (t : Tape) : t.put t.current = t := by
  obtain ⟨cells, pointer, inside⟩ := t
  simp [put, current]

theorem put_put (t : Tape) (v w : Int8) : (t.put v).put w = t.put w := by
  obtain ⟨cells, pointer, inside⟩ := t
  simp [put]

theorem add_zero (t : Tape) : t.add 0 = t := by
  simpa [add] using t.put_current

theorem subtract_zero (t : Tape) : t.subtract 0 = t := by
  simpa [subtract] using t.put_current

theorem add_succ (t : Tape) (n : Nat) : t.add (n + 1) = (t.put (t.current + 1)).add n := by
  have sum : t.current + Int8.ofNat (n + 1) = t.current + 1 + Int8.ofNat n := by
    rw [Nat.add_comm, Int8.ofNat_add, Int8.add_assoc]
    rfl
  rw [add, add, current_put, put_put, sum]

theorem subtract_succ (t : Tape) (n : Nat) :
    t.subtract (n + 1) = (t.put (t.current - 1)).subtract n := by
  have difference : t.current - Int8.ofNat (n + 1) = t.current - 1 - Int8.ofNat n := by
    rw [Nat.add_comm, Int8.ofNat_add, Int8.sub_sub]
    rfl
  rw [subtract, subtract, current_put, put_put, difference]

end Tape

namespace Act

theorem repeated_one (a : Act) (s : Store) : a.repeated 1 s = a.effect s := by
  rw [repeated]
  split
  · next same => rw [repeated, same]
  · next same => rw [same]

theorem repeated_increment (n : Nat) (s : Store) : increment.repeated n s = (.ok (), s.add n) := by
  induction n generalizing s with
  | zero =>
    rw [repeated, Store.add, Tape.add_zero]
  | succ n ih =>
    simp only [repeated, effect, ih]
    rw [Store.add, Store.add, Tape.add_succ]

theorem repeated_decrement (n : Nat) (s : Store) :
    decrement.repeated n s = (.ok (), s.subtract n) := by
  induction n generalizing s with
  | zero =>
    rw [repeated, Store.subtract, Tape.subtract_zero]
  | succ n ih =>
    simp only [repeated, effect, ih]
    rw [Store.subtract, Store.subtract, Tape.subtract_succ]

/-- Moving to the right at once is like moving cell by cell. -/
theorem right_alike_repeated (n : Nat) (s : Store) : Alike (s.right n) (right.repeated n s) := by
  induction n generalizing s with
  | zero =>
    obtain ⟨⟨cells, pointer, inside⟩, input, output⟩ := s
    have still : Store.right 0 ⟨⟨cells, pointer, inside⟩, input, output⟩ =
        (.ok (), ⟨⟨cells, pointer, inside⟩, input, output⟩) := by
      simp [Store.right, Tape.right, inside]
    rw [repeated, still]
    exact .ok _
  | succ n ih =>
    obtain ⟨⟨cells, pointer, inside⟩, input, output⟩ := s
    by_cases stays : pointer + 1 < cells.size
    · rw [repeated, effect, dif_pos stays]
      have later := ih ⟨⟨cells, pointer + 1, stays⟩, input, output⟩
      refine Alike.trans ?_ later
      by_cases fits : pointer + (n + 1) < cells.size
      · have fits' : pointer + 1 + n < cells.size := by omega
        have landing : pointer + (n + 1) = pointer + 1 + n := by omega
        simp only [Store.right, Tape.right, landing, fits', dif_pos]
        exact .ok _
      · have beyond : ¬ pointer + 1 + n < cells.size := by omega
        simp only [Store.right, Tape.right, fits, beyond, dif_neg, not_false_eq_true]
        exact .error rfl ⟨rfl, rfl, rfl⟩
    · have beyond : ¬ pointer + (n + 1) < cells.size := by omega
      rw [repeated, effect, dif_neg stays]
      simp only [Store.right, Tape.right, beyond, dif_neg, not_false_eq_true]
      exact .error rfl ⟨rfl, rfl, rfl⟩

/-- Moving to the left at once is like moving cell by cell. -/
theorem left_alike_repeated (n : Nat) (s : Store) : Alike (s.left n) (left.repeated n s) := by
  induction n generalizing s with
  | zero =>
    obtain ⟨⟨cells, pointer, inside⟩, input, output⟩ := s
    have still : Store.left 0 ⟨⟨cells, pointer, inside⟩, input, output⟩ =
        (.ok (), ⟨⟨cells, pointer, inside⟩, input, output⟩) := by
      simp [Store.left, Tape.left]
    rw [repeated, still]
    exact .ok _
  | succ n ih =>
    obtain ⟨⟨cells, pointer, inside⟩, input, output⟩ := s
    cases pointer with
    | zero =>
      simp only [Store.left, Tape.left, repeated, effect]
      exact .error rfl ⟨rfl, rfl, rfl⟩
    | succ pointer =>
      have later := ih ⟨⟨cells, pointer, Nat.lt_of_succ_lt inside⟩, input, output⟩
      refine Alike.trans ?_ later
      by_cases fits : n ≤ pointer
      · have fits' : n + 1 ≤ pointer + 1 := by omega
        have landing : pointer + 1 - (n + 1) = pointer - n := by omega
        simp only [Store.left, Tape.left, landing, fits, fits']
        exact .ok _
      · have beyond : ¬ n + 1 ≤ pointer + 1 := by omega
        simp only [Store.left, Tape.left, fits, beyond, if_false]
        exact .error rfl ⟨rfl, rfl, rfl⟩

end Act

open Instruction

/-- A glyph's instruction does what the act does. -/
theorem Act.perform_eq (a : Act) : ∃ op, (ofGlyph a.glyph).opcode? = some op ∧ op ≠ .eof ∧
    ∀ (code : Code) (strategy : JumpStrategy) (ip : Nat) (s : Store),
      perform code strategy ip op (ofGlyph a.glyph).operand s = andThenNext ip (a.effect s) := by
  cases a with
  | right =>
    refine ⟨.moveRight, rfl, Opcode.noConfusion, ?_⟩
    intro code strategy ip s
    obtain ⟨⟨cells, pointer, inside⟩, input, output⟩ := s
    by_cases stays : pointer + 1 < cells.size
    · simp [perform, Store.right, Tape.right, effect, glyph, ofGlyph, stays]
    · simp [perform, Store.right, Tape.right, effect, glyph, ofGlyph, stays]
  | left =>
    refine ⟨.moveLeft, rfl, Opcode.noConfusion, ?_⟩
    intro code strategy ip s
    obtain ⟨⟨cells, pointer, inside⟩, input, output⟩ := s
    cases pointer with
    | zero => simp [perform, Store.left, Tape.left, effect, glyph, ofGlyph]
    | succ pointer => simp [perform, Store.left, Tape.left, effect, glyph, ofGlyph]
  | increment => exact ⟨.add, rfl, Opcode.noConfusion, fun _ _ _ _ => rfl⟩
  | decrement => exact ⟨.subtract, rfl, Opcode.noConfusion, fun _ _ _ _ => rfl⟩
  | write => exact ⟨.write, rfl, Opcode.noConfusion, fun _ _ _ _ => rfl⟩
  | read => exact ⟨.read, rfl, Opcode.noConfusion, fun _ _ _ _ => rfl⟩

/-- A compiled operation does at once what the act it is written with does when repeated. -/
theorem Instruction.IsAct.perform_alike {i : Instruction} (here : i.IsAct) :
    ∃ (a : Act) (n : Nat) (op : Opcode), 0 < n ∧ i.glyphs = List.replicate n a.glyph ∧
      i.opcode? = some op ∧ op ≠ .eof ∧
      ∀ (code : Code) (strategy : JumpStrategy) (ip : Nat) (s : Store), ∃ outcome,
        perform code strategy ip op i.operand s = andThenNext ip outcome ∧
        Alike outcome (a.repeated n s) := by
  cases here with
  | @counted op repeatable n pos fits =>
    have written : (make op n fits).glyphs = op.glyph?.elim [] (List.replicate n) := by
      rw [glyphs_make, repeatable]
      rfl
    cases op with
    | moveRight =>
      refine ⟨.right, n, .moveRight, pos, written, opcode?_make .., Opcode.noConfusion, ?_⟩
      intro code strategy ip s
      exact ⟨s.right n, rfl, Act.right_alike_repeated n s⟩
    | moveLeft =>
      refine ⟨.left, n, .moveLeft, pos, written, opcode?_make .., Opcode.noConfusion, ?_⟩
      intro code strategy ip s
      exact ⟨s.left n, rfl, Act.left_alike_repeated n s⟩
    | add =>
      refine ⟨.increment, n, .add, pos, written, opcode?_make .., Opcode.noConfusion, ?_⟩
      intro code strategy ip s
      refine ⟨(.ok (), s.add n), rfl, ?_⟩
      rw [Act.repeated_increment]
      exact .ok _
    | subtract =>
      refine ⟨.decrement, n, .subtract, pos, written, opcode?_make .., Opcode.noConfusion, ?_⟩
      intro code strategy ip s
      refine ⟨(.ok (), s.subtract n), rfl, ?_⟩
      rw [Act.repeated_decrement]
      exact .ok _
    | _ => cases repeatable
  | @transfer op transfers fits =>
    cases op with
    | read =>
      refine ⟨.read, 1, .read, Nat.one_pos, rfl, rfl, Opcode.noConfusion, ?_⟩
      intro code strategy ip s
      exact ⟨s.read, rfl, Act.repeated_one .read s ▸ .refl _⟩
    | write =>
      refine ⟨.write, 1, .write, Nat.one_pos, rfl, rfl, Opcode.noConfusion, ?_⟩
      intro code strategy ip s
      exact ⟨s.write, rfl, Act.repeated_one .write s ▸ .refl _⟩
    | _ => cases transfers

end Brainfuck
