import Brainfuck.Proofs.Stepping
import Brainfuck.Proofs.StoreMap
import Brainfuck.Proofs.TapeSize

/-!
# More cells

A tape with more cells at its end is one on which every operation comes to the same, unless it runs
past the last cell of the shorter tape (`Store.carries_widened`). So a run that does not fail in
this way does the same on the longer tape, and the cells that are added stay zero. Main statement:
a program that halts halts with more cells too, and one that faults otherwise than by running past
the last cell faults alike (`more_cells_make_no_difference`).
-/
namespace Brainfuck

namespace Tape

def widened (extra : Nat) (t : Tape) : Tape :=
  ⟨t.cells ++ Array.replicate extra 0, t.pointer, by
    rw [Array.size_append]
    exact Nat.lt_add_right _ t.pointer_lt⟩

variable (extra : Nat) (t : Tape)

theorem current_widened : (t.widened extra).current = t.current :=
  Array.getElem_append_left t.pointer_lt

theorem put_widened (value : Int8) : (t.widened extra).put value = (t.put value).widened extra := by
  obtain ⟨cells, pointer, inside⟩ := t
  simp only [widened, put, Array.set_append_left inside]

theorem left_widened (distance : Nat) :
    (t.widened extra).left distance = (t.left distance).map (widened extra) := by
  by_cases stays : distance ≤ t.pointer
  · rw [left, left, if_pos stays]
    exact if_pos stays
  · rw [left, left, if_neg stays]
    exact if_neg stays

/-- A move to the right comes to the same if it does not pass the last cell of the shorter tape. -/
theorem right_widened (distance : Nat) :
    t.right distance = .error (.pastLastCell t.pointer distance t.cells.size) ∨
      (t.widened extra).right distance = (t.right distance).map (widened extra) := by
  by_cases stays : t.pointer + distance < t.cells.size
  · right
    have stays' : t.pointer + distance < (t.cells ++ Array.replicate extra 0).size := by
      rw [Array.size_append]
      exact Nat.lt_add_right _ stays
    rw [right, right, dif_pos stays]
    exact dif_pos stays'
  · left
    rw [right, dif_neg stays]

theorem get?_widened_of_lt {k : Nat} (inside : k < t.size) :
    (t.widened extra).get? k = t.get? k :=
  Array.getElem?_append_left inside

theorem get?_widened_of_le {k : Nat} (beyond : t.size ≤ k) (inside : k < t.size + extra) :
    (t.widened extra).get? k = some 0 := by
  have cell : (t.cells ++ Array.replicate extra 0)[k]? = (Array.replicate extra 0)[k - t.size]? :=
    Array.getElem?_append_right beyond
  rw [get?, widened, cell, Array.getElem?_replicate, if_pos (by omega)]

theorem size_widened : (t.widened extra).size = t.size + extra := by
  simp only [size, widened, Array.size_append, Array.size_replicate]

theorem widened_blank {n m : Nat} (least : 1 ≤ n) (wider : n ≤ m) :
    (blank n).widened (m - n) = blank m := by
  have cells : Array.replicate (max 1 n) (0 : Int8) ++ Array.replicate (m - n) 0 =
      Array.replicate (max 1 m) 0 := by
    rw [Array.replicate_append_replicate]
    congr 1
    omega
  simp only [widened, blank, cells]

end Tape

namespace Store

def widened (extra : Nat) : Store → Store
  | ⟨tape, input, output⟩ => ⟨tape.widened extra, input, output⟩

end Store

def FaultKind.IsPastLastCell (kind : FaultKind) : Prop :=
  ∃ pointer distance cells, kind = .pastLastCell pointer distance cells

/-- Only a move past the last cell notices that there are more. -/
theorem Store.carries_widened (extra : Nat) :
    Store.Carries (Store.widened extra) FaultKind.IsPastLastCell where
  isZero := by
    rintro ⟨tape, input, output⟩
    simp only [Store.widened, Store.isZero, Tape.current_widened]
  add := by
    rintro amount ⟨tape, input, output⟩
    simp only [Store.widened, Store.add, Tape.add, Tape.current_widened, Tape.put_widened]
  subtract := by
    rintro amount ⟨tape, input, output⟩
    simp only [Store.widened, Store.subtract, Tape.subtract, Tape.current_widened,
      Tape.put_widened]
  right := by
    rintro distance ⟨tape, input, output⟩
    simp only [Store.widened, Store.right]
    rcases tape.right_widened extra distance with past | same
    · exact .inl ⟨_, by rw [past], _, _, _, rfl⟩
    · right
      rw [same]
      cases tape.right distance with
      | error kind => rfl
      | ok moved => rfl
  left := by
    rintro distance ⟨tape, input, output⟩
    right
    simp only [Store.widened, Store.left, Tape.left_widened]
    cases tape.left distance with
    | error kind => rfl
    | ok moved => rfl
  read := by
    rintro ⟨tape, input, output⟩
    right
    simp only [Store.widened, Store.read, Tape.put_widened]
    rcases input.read with ⟨e | value, after⟩
    · rfl
    · rfl
  write := by
    rintro ⟨tape, input, output⟩
    right
    simp only [Store.widened, Store.write, Tape.current_widened]
    rcases output.write tape.current.toUInt8 with ⟨e | _, after⟩
    · rfl
    · rfl
  flush := by
    rintro ⟨tape, input, output⟩
    simp only [Store.widened, Store.flush]
    rcases output.flush with ⟨e | _, after⟩
    · rfl
    · rfl

namespace Session

/-- A session that differs from another in nothing but the number of cells on its tape: it has `m`
where the other has `n`, and those that are added are zero. -/
structure Widens (n m : Nat) (s t : Session) : Prop where
  phase : t.phase = s.phase
  ip : t.machine.ip = s.machine.ip
  steps : t.machine.steps = s.machine.steps
  pointer : t.machine.store.tape.pointer = s.machine.store.tape.pointer
  input : t.machine.store.input = s.machine.store.input
  output : t.machine.store.output = s.machine.store.output
  size : t.machine.store.tape.size = m
  kept : ∀ k < n, t.machine.store.tape.get? k = s.machine.store.tape.get? k
  added : ∀ k, n ≤ k → k < m → t.machine.store.tape.get? k = some 0

theorem widens_of_size {n m : Nat} (wider : n ≤ m) {s : Session}
    (size : s.machine.store.tape.size = n) :
    s.Widens n m (s.mapStore (Store.widened (m - n))) := by
  subst size
  have tape : (s.mapStore (Store.widened (m - s.machine.store.tape.size))).machine.store.tape =
    s.machine.store.tape.widened (m - s.machine.store.tape.size) := rfl
  refine ⟨rfl, rfl, rfl, rfl, rfl, rfl, ?_, ?_, ?_⟩
  · rw [tape, Tape.size_widened]
    omega
  · intro k inside
    rw [tape, Tape.get?_widened_of_lt _ _ inside]
  · intro k beyond inside
    rw [tape, Tape.get?_widened_of_le _ _ beyond (by omega)]

variable {n m : Nat}

theorem mapStore_widened_fresh (least : 1 ≤ n) (wider : n ≤ m) (source : String) (flags : Flags)
    (strategy : JumpStrategy) (limit : Option Nat) (input : Input) (output : Output) :
    ((fresh source flags strategy n input output).withLimit limit).mapStore
      (Store.widened (m - n)) = (fresh source flags strategy m input output).withLimit limit := by
  have store : Store.widened (m - n) ⟨.blank n, input, output⟩ = ⟨.blank m, input, output⟩ := by
    simp only [Store.widened, Tape.widened_blank least wider]
  exact congrArg (fun store => (⟨source, flags, none, .ready,
    .start strategy limit store⟩ : Session)) store

theorem size_of_runsTo (least : 1 ≤ n) {source : String} {flags : Flags} {strategy : JumpStrategy}
    {limit : Option Nat} {input : Input} {output : Output}
    {r : Except SessionError Unit × Session}
    (runs : ((fresh source flags strategy n input output).withLimit limit).RunsTo r) :
    r.2.machine.store.tape.size = n := by
  obtain ⟨bound, run⟩ := runs
  exact (size_of_executes (executes_of_run run)).trans
    ((Tape.size_blank n).trans (Nat.max_eq_right least))

end Session

/-- A program that halts on a tape of `n` cells halts on one of `m` cells, if these are not fewer,
and one that faults otherwise than by running past the last cell has the same fault. The sessions
are then the same, but for the cells that are added, and these are zero. -/
theorem more_cells_make_no_difference {n m : Nat} (least : 1 ≤ n) (wider : n ≤ m) (source : String)
    (flags : Flags) (strategy : JumpStrategy) (limit : Option Nat) (input : Input)
    (output : Output) :
    let small := (Session.fresh source flags strategy n input output).withLimit limit
    let large := (Session.fresh source flags strategy m input output).withLimit limit
    (∀ s, small.RunsTo (.ok (), s) →
      s.phase = .halted ∧ ∃ t, large.RunsTo (.ok (), t) ∧ s.Widens n m t) ∧
    ∀ fault s, small.RunsTo (.error (.crashed fault), s) → ¬ fault.kind.IsPastLastCell →
      s.phase = .faulted ∧ ∃ t, large.RunsTo (.error (.crashed fault), t) ∧ s.Widens n m t := by
  intro small large
  have mapped : small.mapStore (Store.widened (m - n)) = large :=
    Session.mapStore_widened_fresh least wider source flags strategy limit input output
  have carried (r : Except SessionError Unit × Session) (runs : small.RunsTo r)
      (inside : ∀ fault, r.1 = .error (.crashed fault) → ¬ fault.kind.IsPastLastCell) :
      ∃ t, large.RunsTo (r.1, t) ∧ r.2.Widens n m t := by
    have size := Session.size_of_runsTo least runs
    obtain ⟨bound, run⟩ := runs
    refine ⟨_, ⟨bound, ?_⟩, Session.widens_of_size wider size⟩
    rcases Session.run_mapStore (Store.carries_widened (m - n)) bound small with
      ⟨fault, s, crashed, past⟩ | same
    · cases run.symm.trans crashed
      exact absurd past (inside fault rfl)
    · rw [← mapped, same, run]
      rfl
  constructor
  · intro s runs
    refine ⟨?_, carried _ runs nofun⟩
    obtain ⟨bound, run⟩ := runs
    exact (Session.executes_of_run run).phase_eq
  · intro fault s runs other
    refine ⟨?_, carried _ runs ?_⟩
    · obtain ⟨bound, run⟩ := runs
      exact (Session.executes_of_run run).phase_of_crashed
    · rintro _ ⟨⟩
      exact other

theorem more_cells_make_no_difference_to_addition :
    let adding (source : String) (cells : Nat) : Session :=
      (Session.fresh source .all .scan cells ⟨[]⟩ (.scripted [] [])).withLimit (some 40)
    let fault : Fault := ⟨.beforeFirstCell 0 1, 11⟩
    (∃ s t : Session, (adding "++>+++[<+>-]<." 5).RunsTo (.ok (), t) ∧ s.Widens 2 5 t) ∧
    ∃ s t : Session, (adding "++>+++[<+>-]<.<" 5).RunsTo (.error (.crashed fault), t) ∧
      s.Widens 2 5 t := by
  intro adding fault
  have halts : ((adding "++>+++[<+>-]<." 2).run 40).map Prod.fst = some (.ok ()) := rfl
  have faults : ((adding "++>+++[<+>-]<.<" 2).run 40).map Prod.fst =
    some (.error (.crashed fault)) := rfl
  obtain ⟨⟨_, s⟩, run, rfl⟩ := Option.map_eq_some_iff.mp halts
  obtain ⟨⟨_, s'⟩, run', rfl⟩ := Option.map_eq_some_iff.mp faults
  have least : 1 ≤ 2 := by decide
  have wider : 2 ≤ 5 := by decide
  obtain ⟨_, t, runs, widens⟩ := (more_cells_make_no_difference least wider
    "++>+++[<+>-]<." .all .scan (some 40) ⟨[]⟩ (.scripted [] [])).1 s ⟨40, run⟩
  obtain ⟨_, t', runs', widens'⟩ := (more_cells_make_no_difference least wider
    "++>+++[<+>-]<.<" .all .scan (some 40) ⟨[]⟩ (.scripted [] [])).2 fault s' ⟨40, run'⟩ nofun
  exact ⟨⟨s, t, runs, widens⟩, s', t', runs', widens'⟩

end Brainfuck
