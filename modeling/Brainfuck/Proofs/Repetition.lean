import Brainfuck.Proofs.Acts
import Brainfuck.Proofs.Addressing
import Mathlib.Logic.Function.Iterate

/-!
# At once and one by one

An operation with an amount is compared with as many operations with the amount one. Additions and
subtractions are iterated (`Store.eq_iterate`). Moves by one are called in turn, also after one of
them has failed (`Store.calls`): within the room that there is in a direction they add up
(`Direction.calls_within`), and beyond it they take the pointer to the edge of the tape, where all
the others fail (`Direction.calls_beyond`). Main statement: for every store and every amount both
come to the same, but for the pointer where a move goes too far (`at_once_equals_one_by_one`).
-/
namespace Brainfuck

namespace Tape

theorem subtract_add (t : Tape) (n : Nat) : (t.add n).subtract n = t := by
  rw [subtract, add, current_put, put_put, Int8.add_sub_cancel, put_current]

theorem add_subtract (t : Tape) (n : Nat) : (t.subtract n).add n = t := by
  rw [subtract, add, current_put, put_put, Int8.sub_add_cancel, put_current]

end Tape

namespace Store

theorem subtract_add (s : Store) (n : Nat) : (s.add n).subtract n = s := by
  rw [add, subtract, Tape.subtract_add]

theorem add_subtract (s : Store) (n : Nat) : (s.subtract n).add n = s := by
  rw [subtract, add, Tape.add_subtract]

/-- An operation that adds up is the iteration of what it does with one. -/
theorem eq_iterate {operation : Nat → Store → Store} (idle : ∀ s, operation 0 s = s)
    (more : ∀ n s, operation (n + 1) s = operation n (operation 1 s)) (n : Nat) (s : Store) :
    operation n s = (operation 1)^[n] s := by
  induction n generalizing s with
  | zero => exact idle s
  | succ n ih => rw [more, ih, Function.iterate_succ_apply]

theorem add_eq_iterate (n : Nat) (s : Store) : s.add n = (add 1)^[n] s := by
  refine eq_iterate ?_ ?_ n s
  · intro s
    rw [add, Tape.add_zero]
  · intro n s
    rw [add, add, Tape.add_succ]
    rfl

theorem subtract_eq_iterate (n : Nat) (s : Store) : s.subtract n = (subtract 1)^[n] s := by
  refine eq_iterate ?_ ?_ n s
  · intro s
    rw [subtract, Tape.subtract_zero]
  · intro n s
    rw [subtract, subtract, Tape.subtract_succ]
    rfl

/-- Calls an operation several times, whether or not it fails: what the calls come to, in order, and
the store after all of them. -/
def calls (operation : Store → Except FaultKind Unit × Store) :
    Nat → Store → List (Except FaultKind Unit) × Store
  | 0, s => ([], s)
  | n + 1, s =>
    let (result, next) := operation s
    let (results, last) := calls operation n next
    (result :: results, last)

variable {operation : Store → Except FaultKind Unit × Store} {s t u : Store}
  {result : Except FaultKind Unit} {results more : List (Except FaultKind Unit)}

theorem calls_succ {n : Nat} (first : operation s = (result, t))
    (rest : calls operation n t = (results, u)) :
    calls operation (n + 1) s = (result :: results, u) := by
  simp only [calls, first, rest]

theorem calls_add {m n : Nat} (first : calls operation m s = (results, t))
    (rest : calls operation n t = (more, u)) :
    calls operation (m + n) s = (results ++ more, u) := by
  induction m generalizing s results with
  | zero =>
    cases first
    rw [Nat.zero_add, rest]
    rfl
  | succ m ih =>
    cases first
    rw [Nat.add_right_comm]
    exact calls_succ rfl (ih rfl)

/-- A call that changes nothing comes to the same each time. -/
theorem calls_of_idle (idle : operation s = (result, s)) (n : Nat) :
    calls operation n s = (List.replicate n result, s) := by
  induction n with
  | zero => rfl
  | succ n ih => exact calls_succ idle ih

end Store

inductive Direction
  | right
  | left

namespace Direction

def move : Direction → Nat → Store → Except FaultKind Unit × Store
  | right => Store.right
  | left => Store.left

def edge : Direction → Tape → Nat
  | right, t => t.size - 1
  | left, _ => 0

/-- How far the pointer is from the last cell in a direction. -/
def room : Direction → Tape → Nat
  | right, t => t.size - 1 - t.pointer
  | left, t => t.pointer

def fault : Direction → Tape → Nat → FaultKind
  | right, t, distance => .pastLastCell t.pointer distance t.size
  | left, t, distance => .beforeFirstCell t.pointer distance

variable {way : Direction} {s t : Store} {n : Nat}

theorem edge_eq_of_sameContents (way : Direction) (same : t.SameContents s) :
    way.edge t.tape = way.edge s.tape := by
  cases way with
  | right => exact congrArg (fun cells : Array Int8 => cells.size - 1) same.cells
  | left => rfl

/-- Where there is no room the pointer is at the edge. -/
theorem pointer_of_room_eq_zero {tape : Tape} (full : way.room tape = 0) :
    tape.pointer = way.edge tape := by
  have inside : tape.pointer < tape.size := tape.pointer_lt
  cases way with
  | right =>
    have last : tape.size - 1 - tape.pointer = 0 := full
    rw [edge]
    omega
  | left => exact full

theorem move_zero (way : Direction) (s : Store) : way.move 0 s = (.ok (), s) := by
  cases way with
  | right => simp only [move, Store.right, Tape.right, Nat.add_zero, dif_pos s.tape.pointer_lt]
  | left => simp only [move, Store.left, Tape.left, Nat.zero_le, if_pos, Nat.sub_zero]

/-- A move beyond the room that there is changes nothing. -/
theorem move_beyond (beyond : way.room s.tape < n) :
    way.move n s = (.error (way.fault s.tape n), s) := by
  cases way with
  | right =>
    have far : s.tape.cells.size - 1 - s.tape.pointer < n := beyond
    have leaves : ¬ s.tape.pointer + n < s.tape.cells.size := by omega
    simp only [move, Store.right, Tape.right, dif_neg leaves]
    rfl
  | left =>
    have leaves : ¬ n ≤ s.tape.pointer := Nat.not_le.mpr beyond
    simp only [move, Store.left, Tape.left, if_neg leaves]
    rfl

/-- A move within the room that there is can begin with a move by one. -/
theorem exists_move_one (within : n < way.room s.tape) :
    ∃ t, way.move 1 s = (.ok (), t) ∧ way.move (n + 1) s = way.move n t ∧
      way.room t.tape + 1 = way.room s.tape ∧ t.SameContents s := by
  obtain ⟨⟨cells, pointer, inside⟩, input, output⟩ := s
  cases way with
  | right =>
    have near : n < cells.size - 1 - pointer := within
    have stays : pointer + 1 < cells.size := by omega
    have arrives : pointer + (n + 1) < cells.size := by omega
    refine ⟨⟨⟨cells, pointer + 1, stays⟩, input, output⟩, ?_, ?_, ?_, ⟨rfl, rfl, rfl⟩⟩
    · simp only [move, Store.right, Tape.right, dif_pos stays]
    · simp only [move, Store.right, Tape.right, dif_pos arrives, Nat.add_assoc, Nat.add_comm 1 n]
    · have shorter : cells.size - 1 - (pointer + 1) + 1 = cells.size - 1 - pointer := by omega
      exact shorter
  | left =>
    have near : n < pointer := within
    have stays : 1 ≤ pointer := by omega
    have arrives : n + 1 ≤ pointer := near
    have arrives' : n ≤ pointer - 1 := by omega
    have inside' : pointer - 1 < cells.size := by omega
    refine ⟨⟨⟨cells, pointer - 1, inside'⟩, input, output⟩, ?_, ?_, ?_, ⟨rfl, rfl, rfl⟩⟩
    · simp only [move, Store.left, Tape.left, if_pos stays]
    · simp only [move, Store.left, Tape.left, if_pos arrives, if_pos arrives',
        Nat.sub_sub, Nat.add_comm 1 n]
    · exact Nat.sub_add_cancel stays

/-- Within the room that there is, a move and as many moves by one all succeed, and lead to the same
store. -/
theorem calls_within (within : n ≤ way.room s.tape) :
    ∃ t, way.move n s = (.ok (), t) ∧
      Store.calls (way.move 1) n s = (List.replicate n (.ok ()), t) ∧
      way.room t.tape + n = way.room s.tape ∧ t.SameContents s := by
  induction n generalizing s with
  | zero => exact ⟨s, way.move_zero s, rfl, rfl, .refl s⟩
  | succ n ih =>
    obtain ⟨t, once, same, nearer, contents⟩ := exists_move_one within
    obtain ⟨u, moved, called, left, contents'⟩ := ih (s := t) (by omega)
    exact ⟨u, same.trans moved, Store.calls_succ once called, by omega, contents'.trans contents⟩

/-- Beyond it, moves by one go to the edge, and from there on each of them fails. -/
theorem calls_beyond (beyond : way.room s.tape < n) :
    ∃ t, Store.calls (way.move 1) n s =
        (List.replicate (way.room s.tape) (.ok ()) ++
          List.replicate (n - way.room s.tape) (.error (way.fault t.tape 1)), t) ∧
      t.tape.pointer = way.edge s.tape ∧ t.SameContents s := by
  obtain ⟨t, -, called, left, contents⟩ := calls_within (Nat.le_refl (way.room s.tape))
  have full : way.room t.tape = 0 := by omega
  have idle : way.move 1 t = (.error (way.fault t.tape 1), t) := move_beyond (by omega)
  refine ⟨t, ?_, ?_, contents⟩
  · have joined := Store.calls_add called (Store.calls_of_idle idle (n - way.room s.tape))
    rwa [Nat.add_sub_cancel' (Nat.le_of_lt beyond)] at joined
  · exact (pointer_of_room_eq_zero full).trans (way.edge_eq_of_sameContents contents)

end Direction

namespace WordTape

/-- Adds the lowest byte of a word, taken as signed, to the cell at the pointer, if the pointer is
at one. -/
def add? (amount : UInt64) (t : WordTape) : Option WordTape :=
  t.current?.bind fun value => t.put? (value + amount.toUInt8.toInt8)

/-- Subtracts the lowest byte of a word, taken as signed, from the cell at the pointer, if the
pointer is at one. -/
def subtract? (amount : UInt64) (t : WordTape) : Option WordTape :=
  t.current?.bind fun value => t.put? (value - amount.toUInt8.toInt8)

end WordTape

namespace Tape

/-- Cut down to a signed byte, a word is what its number is modulo 256. -/
theorem toInt8_toUInt8 (amount : UInt64) : amount.toUInt8.toInt8 = Int8.ofNat amount.toNat :=
  UInt8.toInt8_ofNat'

/-- Words are enough for a tape, and for the amounts that are added to its cells too. -/
structure Reckonable (t : Tape) : Prop extends t.Addressable where
  add : ∀ amount : UInt64, t.inWords.add? amount = some (t.add amount.toNat).inWords
  subtract : ∀ amount : UInt64,
    t.inWords.subtract? amount = some (t.subtract amount.toNat).inWords

theorem Addressable.reckonable {t : Tape} (addressable : t.Addressable) : t.Reckonable where
  toAddressable := addressable
  add := by
    intro amount
    rw [WordTape.add?, addressable.current, Option.bind_some, addressable.put, toInt8_toUInt8, add]
  subtract := by
    intro amount
    rw [WordTape.subtract?, addressable.current, Option.bind_some, addressable.put, toInt8_toUInt8,
      subtract]

end Tape

/-- Adding an amount at once leaves the store as adding one as many times does, and so it is with
subtracting; each undoes the other. A move by a distance, to the right or to the left, succeeds if
and only if as many moves by one all do, and then leaves the same store. If it fails it leaves the
store as it was. The moves by one then succeed as long as there is room; the others fail, and the
pointer stops at the last cell on the right or at the first on the left. They change nothing else.
With words of 64 bits all this comes to the same on a tape that can be allocated. -/
theorem at_once_equals_one_by_one (s : Store) (n : Nat) :
    (s.add n = (Store.add 1)^[n] s ∧ s.subtract n = (Store.subtract 1)^[n] s ∧
      (s.add n).subtract n = s ∧ (s.subtract n).add n = s) ∧
    (∀ way : Direction,
      let atOnce := way.move n s
      let oneByOne := Store.calls (way.move 1) n s
      (atOnce.1 = .ok () ↔ ∀ result ∈ oneByOne.1, result = .ok ()) ∧
      (atOnce.1 = .ok () → atOnce.2 = oneByOne.2) ∧
      (atOnce.1 ≠ .ok () → atOnce = (.error (way.fault s.tape n), s) ∧
        oneByOne.1 = List.replicate (way.room s.tape) (.ok ()) ++
          List.replicate (n - way.room s.tape) (.error (way.fault oneByOne.2.tape 1)) ∧
        oneByOne.2.tape.pointer = way.edge s.tape ∧ oneByOne.2.SameContents s)) ∧
    (s.tape.size ≤ Session.maxCells → s.tape.Reckonable) := by
  refine ⟨⟨s.add_eq_iterate n, s.subtract_eq_iterate n, s.subtract_add n, s.add_subtract n⟩, ?_,
    fun small => (Tape.addressable_of_size small).reckonable⟩
  intro way
  by_cases within : n ≤ way.room s.tape
  · obtain ⟨t, moved, called, -, -⟩ := Direction.calls_within within
    rw [moved, called]
    refine ⟨iff_of_true rfl ?_, fun _ => rfl, fun failed => absurd rfl failed⟩
    intro result member
    exact List.eq_of_mem_replicate member
  · have beyond := Nat.not_le.mp within
    obtain ⟨t, called, arrived, contents⟩ := Direction.calls_beyond beyond
    rw [Direction.move_beyond beyond, called]
    refine ⟨iff_of_false nofun ?_, nofun, fun _ => ⟨rfl, rfl, arrived, contents⟩⟩
    intro succeed
    have more : n - way.room s.tape ≠ 0 := by omega
    cases succeed _ (List.mem_append_right _ (List.mem_replicate.mpr ⟨more, rfl⟩))

/-- The largest word: adding it takes one away, and moving by it does not wrap. -/
theorem at_once_equals_one_by_one_of_largest_word :
    let s : Store := ⟨⟨#[0, 100, 0, 0], 1, by decide⟩, ⟨[]⟩, .scripted [] []⟩
    let n := 0xffffffffffffffff
    ((Store.add 1)^[n] s).tape.current = 99 ∧
      s.right n = (.error (.pastLastCell 1 n 4), s) ∧
      (Store.calls (Direction.right.move 1) n s).2.tape.pointer = 3 ∧
      (Store.calls (Direction.left.move 1) n s).2.tape.pointer = 0 ∧
      ∃ t, s.tape.inWords.add? 0xffffffffffffffff = some t ∧ t.cells = #[0, 99, 0, 0] := by
  intro s n
  obtain ⟨⟨added, -⟩, moves, reckonable⟩ := at_once_equals_one_by_one s n
  have fails : ∀ way : Direction, (way.move n s).1 ≠ .ok () := by
    intro way succeeded
    cases way <;> cases succeeded
  obtain ⟨-, -, rightward⟩ := moves .right
  obtain ⟨-, -, leftward⟩ := moves .left
  obtain ⟨stays, -, atLast, -⟩ := rightward (fails .right)
  obtain ⟨-, -, atFirst, -⟩ := leftward (fails .left)
  have word := (reckonable (by decide)).add 0xffffffffffffffff
  refine ⟨?_, stays, atLast, atFirst, _, word, by decide⟩
  rw [← added]
  decide

end Brainfuck
