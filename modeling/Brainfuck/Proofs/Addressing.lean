import Brainfuck.Proofs.History
import Brainfuck.Proofs.TapeSize

/-!
# The data pointer always has a cell

A pointer of 64 bits that nothing is known of may be at no cell, and sums of such pointers wrap
(`WordTape`). On a tape that can be allocated this makes no difference: every access finds a cell,
and moves come to what they come to with numbers of any size (`Tape.addressable_of_size`). Main
statement: whatever is asked of a machine, and whatever codes it steps through, it has as many cells
as were last asked for, at least one, its tape is addressable, and nothing but a new tape changes a
cell away from the pointer (`data_pointer_at_cell`).
-/
namespace Brainfuck

/-- A row of cells and a pointer of 64 bits, which need not be at a cell. -/
structure WordTape where
  cells : Array Int8
  pointer : UInt64

namespace WordTape

def current? (t : WordTape) : Option Int8 :=
  t.cells[t.pointer.toNat]?

def put? (value : Int8) (t : WordTape) : Option WordTape :=
  if inside : t.pointer.toNat < t.cells.size then
    some ⟨t.cells.set t.pointer.toNat value inside, t.pointer⟩
  else none

def right (distance : UInt64) (t : WordTape) : Except FaultKind WordTape :=
  if t.pointer ≤ t.pointer + distance ∧ (t.pointer + distance).toNat < t.cells.size then
    .ok ⟨t.cells, t.pointer + distance⟩
  else .error (.pastLastCell t.pointer.toNat distance.toNat t.cells.size)

def left (distance : UInt64) (t : WordTape) : Except FaultKind WordTape :=
  if distance ≤ t.pointer then .ok ⟨t.cells, t.pointer - distance⟩
  else .error (.beforeFirstCell t.pointer.toNat distance.toNat)

end WordTape

namespace Tape

def inWords (t : Tape) : WordTape :=
  ⟨t.cells, UInt64.ofNat t.pointer⟩

/-- Words are enough for a tape: no access misses, and what is reckoned with words is what is
reckoned with numbers. -/
structure Addressable (t : Tape) : Prop where
  pointer : t.inWords.pointer.toNat = t.pointer
  current : t.inWords.current? = some t.current
  put : ∀ value, t.inWords.put? value = some (t.put value).inWords
  right : ∀ distance : UInt64,
    t.inWords.right distance = (t.right distance.toNat).map inWords
  left : ∀ distance : UInt64, t.inWords.left distance = (t.left distance.toNat).map inWords

variable {t : Tape}

theorem pointer_lt_words (small : t.size ≤ Session.maxCells) : t.pointer < UInt64.size :=
  calc t.pointer < t.size := t.pointer_lt
    _ ≤ Session.maxCells := small
    _ < UInt64.size := by decide

theorem toNat_pointer_inWords (small : t.size ≤ Session.maxCells) :
    t.inWords.pointer.toNat = t.pointer :=
  UInt64.toNat_ofNat_of_lt' (pointer_lt_words small)

/-- A sum of words that does not wrap is that of the numbers. -/
theorem right_inWords (small : t.size ≤ Session.maxCells) (distance : UInt64) :
    t.inWords.right distance = (t.right distance.toNat).map inWords := by
  have samePointer := toNat_pointer_inWords small
  have inside := t.pointer_lt
  have bound : t.cells.size ≤ 0x7fffffffffffffff := small
  have range := distance.toNat_lt
  have sum : (t.inWords.pointer + distance).toNat = (t.pointer + distance.toNat) % 2 ^ 64 := by
    rw [UInt64.toNat_add, samePointer]
  by_cases stays : t.pointer + distance.toNat < t.cells.size
  · have same : UInt64.ofNat (t.pointer + distance.toNat) = t.inWords.pointer + distance := by
      rw [UInt64.ofNat_add, UInt64.ofNat_toNat]
      rfl
    have kept : t.inWords.pointer ≤ t.inWords.pointer + distance ∧
        (t.inWords.pointer + distance).toNat < t.inWords.cells.size := by
      rw [UInt64.le_iff_toNat_le, sum, samePointer, Nat.mod_eq_of_lt (by omega)]
      exact ⟨Nat.le_add_right _ _, stays⟩
    rw [WordTape.right, if_pos kept, Tape.right, dif_pos stays, ← same]
    rfl
  · -- A sum that wraps is less than the pointer, since no tape is as long as a word is large.
    have refused : ¬ (t.inWords.pointer ≤ t.inWords.pointer + distance ∧
        (t.inWords.pointer + distance).toNat < t.inWords.cells.size) := by
      rw [UInt64.le_iff_toNat_le, sum, samePointer]
      rintro ⟨rises, within⟩
      have within' : (t.pointer + distance.toNat) % 2 ^ 64 < t.cells.size := within
      omega
    rw [WordTape.right, if_neg refused, Tape.right, dif_neg stays, samePointer]
    rfl

/-- So is a difference. -/
theorem left_inWords (small : t.size ≤ Session.maxCells) (distance : UInt64) :
    t.inWords.left distance = (t.left distance.toNat).map inWords := by
  have samePointer := toNat_pointer_inWords small
  by_cases stays : distance.toNat ≤ t.pointer
  · have kept : distance ≤ t.inWords.pointer := by rwa [UInt64.le_iff_toNat_le, samePointer]
    have same : UInt64.ofNat (t.pointer - distance.toNat) = t.inWords.pointer - distance := by
      apply UInt64.toNat_inj.mp
      rw [UInt64.toNat_sub_of_le _ _ kept, samePointer]
      exact UInt64.toNat_ofNat_of_lt' (Nat.lt_of_le_of_lt (Nat.sub_le ..) (pointer_lt_words small))
    rw [WordTape.left, if_pos kept, Tape.left, if_pos stays, ← same]
    rfl
  · have beyond : ¬ distance ≤ t.inWords.pointer := by rwa [UInt64.le_iff_toNat_le, samePointer]
    rw [WordTape.left, if_neg beyond, Tape.left, if_neg stays, samePointer]
    rfl

/-- A tape that can be allocated is addressed with words. -/
theorem addressable_of_size (small : t.size ≤ Session.maxCells) : t.Addressable where
  pointer := toNat_pointer_inWords small
  current := by
    rw [WordTape.current?, toNat_pointer_inWords small]
    exact t.get?_pointer
  put := by
    intro value
    have samePointer := toNat_pointer_inWords small
    have inside : t.inWords.pointer.toNat < t.inWords.cells.size := by
      rw [samePointer]
      exact t.pointer_lt
    rw [WordTape.put?, dif_pos inside]
    simp only [samePointer]
    rfl
  right := right_inWords small
  left := left_inWords small

/-- The cells of a tape but the one at its pointer are those of another. -/
structure SameElsewhere (t t' : Tape) : Prop where
  size : t'.size = t.size
  cell : ∀ k, k ≠ t.pointer → t'.get? k = t.get? k

theorem SameElsewhere.refl (t : Tape) : t.SameElsewhere t := ⟨rfl, fun _ _ => rfl⟩

theorem sameElsewhere_put (t : Tape) (value : Int8) : t.SameElsewhere (t.put value) :=
  ⟨t.size_put value, fun _ other => t.get?_put_of_ne value other⟩

end Tape

open Tape

namespace Store

variable (s : Store)

theorem sameElsewhere_right (distance : Nat) : s.tape.SameElsewhere (s.right distance).2.tape := by
  refine ⟨s.size_right distance, ?_⟩
  obtain ⟨tape, input, output⟩ := s
  intro k _
  by_cases stays : tape.pointer + distance < tape.cells.size
  · simp only [right, Tape.right, dif_pos stays, get?]
  · simp only [right, Tape.right, dif_neg stays]

theorem sameElsewhere_left (distance : Nat) : s.tape.SameElsewhere (s.left distance).2.tape := by
  refine ⟨s.size_left distance, ?_⟩
  obtain ⟨tape, input, output⟩ := s
  intro k _
  by_cases stays : distance ≤ tape.pointer
  · simp only [left, Tape.left, if_pos stays, get?]
  · simp only [left, Tape.left, if_neg stays]

theorem sameElsewhere_read : s.tape.SameElsewhere s.read.2.tape := by
  obtain ⟨tape, input, output⟩ := s
  rw [read]
  split
  · exact sameElsewhere_put tape _
  · exact .refl tape

theorem sameElsewhere_write : s.tape.SameElsewhere s.write.2.tape := by
  rw [tape_write]
  exact .refl s.tape

theorem sameElsewhere_flush : s.tape.SameElsewhere s.flush.2.tape := by
  rw [tape_flush]
  exact .refl s.tape

end Store

/-- An operation changes no cell but the one at the pointer. -/
theorem sameElsewhere_perform (code : Code) (strategy : JumpStrategy) (ip : Nat) (op : Opcode)
    (operand : Nat) (s : Store) :
    s.tape.SameElsewhere (perform code strategy ip op operand s).2.tape := by
  rcases perform_store_cases code strategy ip op operand s with
    after | after | after | after | after | after | after
  · rw [after]
    exact .refl s.tape
  · rw [after]
    exact s.sameElsewhere_right operand
  · rw [after]
    exact s.sameElsewhere_left operand
  · rw [after]
    exact sameElsewhere_put s.tape _
  · rw [after]
    exact sameElsewhere_put s.tape _
  · rw [after]
    exact s.sameElsewhere_read
  · rw [after]
    exact s.sameElsewhere_write

namespace Request

/-- Whether a request can be met at once: it is no run, which need not end, and asks for no tape
that cannot be allocated. -/
def IsMet : Request → Prop
  | run _ _ => False
  | resize cells => cells ≤ Session.maxCells
  | _ => True

/-- Whether a request asks for one operation or one step, and not for a tape of zeros. -/
def IsSingle : Request → Prop
  | clear | resize _ | run _ _ => False
  | _ => True

def cells? : Request → Option Nat
  | resize cells => some cells
  | _ => none

end Request

def lastCells (first : Nat) (requests : List Request) : Nat :=
  (requests.filterMap Request.cells?).getLast?.getD first

theorem lastCells_cons (first : Nat) (request : Request) (requests : List Request) :
    lastCells first (request :: requests) =
      lastCells (request.cells?.getD first) requests := by
  unfold lastCells
  cases asked : request.cells? with
  | none => rw [List.filterMap_cons_none asked, Option.getD_none]
  | some cells =>
    rw [List.filterMap_cons_some asked, List.getLast?_cons, Option.getD_some, Option.getD_some]

namespace Machine

variable {m next : Machine} {request : Request} {answer : Answer}

theorem sameElsewhere_step (code : Code) (m : Machine) :
    m.store.tape.SameElsewhere (m.step code).2.store.tape := by
  rcases step_stops_or_performs code m with ⟨result, _, _, stopped⟩ | ⟨i, op, _, _, _, _, stepped⟩
  · rw [stopped]
    exact .refl _
  · have same := sameElsewhere_perform code m.strategy m.ip op i.operand m.store
    rw [stepped]
    generalize perform code m.strategy m.ip op i.operand m.store = outcome at same ⊢
    obtain ⟨kind | target, after⟩ := outcome
    · exact same
    · exact same

/-- A single request changes no cell but the one at the pointer. -/
theorem sameElsewhere_handle (single : request.IsSingle)
    (handled : m.handle request = some (answer, next)) :
    m.store.tape.SameElsewhere next.store.tape := by
  cases request with
  | read =>
    cases handled
    exact m.store.sameElsewhere_read
  | write =>
    cases handled
    exact m.store.sameElsewhere_write
  | flush =>
    cases handled
    exact m.store.sameElsewhere_flush
  | right distance =>
    cases handled
    exact m.store.sameElsewhere_right distance
  | left distance =>
    cases handled
    exact m.store.sameElsewhere_left distance
  | add amount =>
    cases handled
    exact sameElsewhere_put m.store.tape _
  | subtract amount =>
    cases handled
    exact sameElsewhere_put m.store.tape _
  | step code =>
    cases handled
    exact sameElsewhere_step code m
  | rewind =>
    cases handled
    exact .refl _
  | withStrategy strategy =>
    cases handled
    exact .refl _
  | withLimit limit =>
    cases handled
    exact .refl _
  | clear => cases single
  | resize cells => cases single
  | run code bound => cases single

/-- A request is met if it is neither an endless run nor asks for too much. -/
theorem exists_handle (met : request.IsMet) (m : Machine) :
    ∃ answer next, m.handle request = some (answer, next) := by
  cases request with
  | run code bound => cases met
  | resize cells => exact ⟨_, _, if_pos met⟩
  | _ => exact ⟨_, _, rfl⟩

/-- A request leaves as many cells as it found, unless it asks for others, and then not too many. -/
theorem size_of_handle (handled : m.handle request = some (answer, next)) :
    (request.cells? = none ∧ next.store.tape.size = m.store.tape.size) ∨
      ∃ cells, request.cells? = some cells ∧ cells ≤ Session.maxCells ∧
        next.store.tape.size = max 1 cells := by
  by_cases single : request.IsSingle
  · have same := (sameElsewhere_handle single handled).size
    cases request with
    | clear => cases single
    | resize cells => cases single
    | run code bound => cases single
    | _ => exact .inl ⟨rfl, same⟩
  · cases request with
    | clear =>
      cases handled
      have least : 0 < m.store.tape.size := Nat.zero_lt_of_lt m.store.tape.pointer_lt
      exact .inl ⟨rfl, (Tape.size_blank _).trans (Nat.max_eq_right least)⟩
    | resize cells =>
      simp only [handle] at handled
      split at handled
      · next small =>
        cases handled
        exact .inr ⟨cells, rfl, small, Tape.size_blank cells⟩
      · cases handled
    | run code bound =>
      obtain ⟨r, run, answered⟩ := Option.map_eq_some_iff.mp handled
      cases answered
      have ended : Ends code m r.1 r.2 := ⟨bound, run⟩
      exact .inl ⟨rfl, ended.view_eq (keeps_size code)⟩
    | _ => exact absurd trivial single

theorem exists_handles {requests : List Request} (met : ∀ request ∈ requests, request.IsMet)
    (m : Machine) : ∃ answers next, m.handles requests = some (answers, next) := by
  induction requests generalizing m with
  | nil => exact ⟨[], m, rfl⟩
  | cons request requests ih =>
    obtain ⟨answer, next, handled⟩ := exists_handle (met request List.mem_cons_self) m
    obtain ⟨answers, last, rest⟩ := ih (fun r later => met r (List.mem_cons_of_mem _ later)) next
    exact ⟨answer :: answers, last, by rw [handles, handled]; simp only [rest, Option.map_some]⟩

/-- After requests there are as many cells as were last asked for, and at least one. -/
theorem size_of_handles {requests : List Request} {answers : List Answer} {first : Nat}
    (sized : m.store.tape.size = max 1 first)
    (handled : m.handles requests = some (answers, next)) :
    next.store.tape.size = max 1 (lastCells first requests) ∧
      (first ≤ Session.maxCells → lastCells first requests ≤ Session.maxCells) := by
  induction requests generalizing m answers first with
  | nil =>
    cases handled
    exact ⟨sized, id⟩
  | cons request requests ih =>
    rw [handles] at handled
    split at handled
    · cases handled
    · next answer after first' =>
      obtain ⟨⟨answers', last⟩, rest, same⟩ := Option.map_eq_some_iff.mp handled
      cases same
      rw [lastCells_cons]
      rcases size_of_handle first' with ⟨unasked, kept⟩ | ⟨cells, asked, fits, given⟩
      · rw [unasked]
        exact ih (kept.trans sized) rest
      · obtain ⟨size, small⟩ := ih given rest
        rw [asked]
        exact ⟨size, fun _ => small fits⟩

end Machine

/-- A machine that is made with some cells, and then asked for operations, steps and runs of any
codes, new tapes and zeros in any order, has as many cells as were last asked for, but at least
one. Its pointer is at a cell, and if the first cells could be allocated, then with pointers of 64
bits no access would miss and no move come to something else. A single operation or step, and
whatever else does not ask for a tape of zeros, then changes no cell but the one at the pointer. All
requests are answered but for runs that have not ended and tapes that cannot be allocated. -/
theorem data_pointer_at_cell (cells : Nat) (strategy : JumpStrategy) (limit : Option Nat)
    (input : Input) (output : Output) (requests : List Request) :
    let first : Machine := .start strategy limit ⟨.blank cells, input, output⟩
    ((∀ request ∈ requests, request.IsMet) →
      ∃ answers m, first.handles requests = some (answers, m)) ∧
    ∀ answers m, first.handles requests = some (answers, m) →
      m.store.tape.size = max 1 (lastCells cells requests) ∧
      m.store.tape.pointer < m.store.tape.size ∧
      (cells ≤ Session.maxCells → m.store.tape.Addressable) ∧
      ∀ request answer next, request.IsSingle → m.handle request = some (answer, next) →
        m.store.tape.SameElsewhere next.store.tape := by
  intro first
  refine ⟨fun met => Machine.exists_handles met first, ?_⟩
  intro answers m handled
  have made : first.store.tape.size = max 1 cells := Tape.size_blank cells
  obtain ⟨sized, small⟩ := Machine.size_of_handles made handled
  refine ⟨sized, m.store.tape.pointer_lt, ?_, ?_⟩
  · intro allocatable
    apply addressable_of_size
    rw [sized]
    exact Nat.max_le.mpr ⟨by decide, small allocatable⟩
  · intro request answer next single given
    exact Machine.sameElsewhere_handle single given

/-- A move that would take a pointer of 64 bits back to the first cell, after a tape of no cells, a
larger one and one of two. -/
theorem data_pointer_at_cell_of_wrapping_move :
    let requests : List Request := [.right 3, .add 300, .resize 4, .right 2,
      .step (Code.ofWords [0x105]), .resize 2, .right 1]
    ∃ answers m, (Machine.start .scan none ⟨.blank 0, ⟨[]⟩, .scripted [] []⟩).handles requests =
        some (answers, m) ∧ m.store.tape.size = 2 ∧
      m.store.tape.inWords.right 0xffffffffffffffff =
        .error (.pastLastCell 1 0xffffffffffffffff 2) := by
  intro requests
  obtain ⟨_, holds⟩ := data_pointer_at_cell 0 .scan none ⟨[]⟩ (.scripted [] []) requests
  have handled : (Machine.start .scan none ⟨.blank 0, ⟨[]⟩, .scripted [] []⟩).handles requests =
    some (_, _) := rfl
  obtain ⟨sized, _, addressable, _⟩ := holds _ _ handled
  exact ⟨_, _, handled, sized, (addressable (Nat.zero_le _)).right 0xffffffffffffffff⟩

end Brainfuck
