import Brainfuck.Proofs.Executing
import Brainfuck.Proofs.History

/-!
# The size of the tape

Whatever code does, it neither adds cells nor takes any away (`keeps_size`), and so a session's
tape has the cells it was last given (`Session.size_of_executes`). Main statement: a session could
always be asked for a tape of the size it has (`Session.size_le_of_reaches`).
-/
namespace Brainfuck

theorem Tape.size_right {t t' : Tape} {n : Nat} (moved : t.right n = .ok t') :
    t'.size = t.size := by
  unfold Tape.right at moved
  split at moved
  · cases moved
    rfl
  · cases moved

theorem Tape.size_left {t t' : Tape} {n : Nat} (moved : t.left n = .ok t') : t'.size = t.size := by
  unfold Tape.left at moved
  split at moved
  · cases moved
    rfl
  · cases moved

/-- A tape made of the size of a blank one is that one. -/
theorem Tape.blank_size (n : Nat) : blank (blank n).size = blank n := by
  have least : max 1 (max 1 n) = max 1 n := Nat.max_eq_right (Nat.le_max_left 1 n)
  rw [size_blank]
  simp only [blank, least]

namespace Store

theorem size_right (n : Nat) (s : Store) : (s.right n).2.tape.size = s.tape.size := by
  obtain ⟨tape, input, output⟩ := s
  simp only [right]
  cases moved : tape.right n with
  | error kind => rfl
  | ok tape' => exact Tape.size_right moved

theorem size_left (n : Nat) (s : Store) : (s.left n).2.tape.size = s.tape.size := by
  obtain ⟨tape, input, output⟩ := s
  simp only [left]
  cases moved : tape.left n with
  | error kind => rfl
  | ok tape' => exact Tape.size_left moved

theorem size_read (s : Store) : s.read.2.tape.size = s.tape.size := by
  obtain ⟨tape, input, output⟩ := s
  simp only [read]
  split
  · exact Tape.size_put tape _
  · rfl

theorem tape_write (s : Store) : s.write.2.tape = s.tape := by
  obtain ⟨tape, input, output⟩ := s
  simp only [write]
  split <;> rfl

theorem tape_flush (s : Store) : s.flush.2.tape = s.tape := by
  obtain ⟨tape, input, output⟩ := s
  simp only [flush]
  split <;> rfl

end Store

/-- No operation changes the number of cells. -/
theorem keeps_size (code : Code) : code.Keeps fun s => s.tape.size :=
  code.keeps_of_store Store.size_right Store.size_left (fun _ s => Tape.size_put s.tape _)
    (fun _ s => Tape.size_put s.tape _) Store.size_read
    (fun s => congrArg Tape.size s.tape_write)

namespace Session

variable {s t : Session}

/-- An execution leaves as many cells as it found. -/
theorem size_of_executes {outcome : Except SessionError Phase} (executes : s.Executes outcome t) :
    t.machine.store.tape.size = s.machine.store.tape.size := by
  cases executes with
  | refused => rfl
  | @going code next active going =>
    have kept := Machine.view_step (keeps_size code) s.machine
    rw [going] at kept
    exact kept
  | @ended code result last active ended =>
    obtain ⟨phase, _, left⟩ := conclude_closes result (s.stopped code last)
    rw [left, ← ended.view_eq (keeps_size code)]
    exact congrArg Tape.size last.store.tape_flush

/-- A move leaves as many cells as it found, unless it asks for others, and then not too many. -/
theorem size_of_perform {move : Move} {reply : Reply}
    (performed : move.perform s = some (reply, t)) :
    t.machine.store.tape.size = s.machine.store.tape.size ∨
      ∃ cells, move = .resize cells ∧ cells ≤ maxCells ∧
        t.machine.store.tape.size = max 1 cells := by
  cases move with
  | compile =>
    cases performed
    rcases s.compile_cases with ⟨code, _, compiled⟩ | ⟨_, _, _, compiled⟩
    · rw [compiled]
      exact .inl rfl
    · rw [compiled]
      exact .inl rfl
  | run bound =>
    obtain ⟨r, run, answered⟩ := Option.map_eq_some_iff.mp performed
    cases answered
    exact .inl (size_of_executes (executes_of_run run))
  | step =>
    cases performed
    exact .inl (size_of_executes s.executes_step)
  | reset =>
    cases performed
    have least : 0 < s.machine.store.tape.size := Nat.zero_lt_of_lt s.machine.store.tape.pointer_lt
    exact .inl ((Tape.size_blank _).trans (Nat.max_eq_right least))
  | resize cells =>
    obtain ⟨resized, fits, answered⟩ := Option.map_eq_some_iff.mp performed
    cases answered
    unfold resize? at fits
    split at fits
    · next small =>
      cases fits
      exact .inr ⟨cells, rfl, small, Tape.size_blank cells⟩
    · cases fits
  | withFlags flags =>
    cases performed
    exact .inl rfl
  | withStrategy strategy =>
    cases performed
    exact .inl rfl
  | withLimit limit =>
    cases performed
    exact .inl rfl

/-- A session could be asked for a tape of the size it has. -/
theorem size_le_of_reaches {source : String} {input : Input} {output : Output} {past : List Event}
    (reached : (ofSource source input output).Reaches past s) :
    s.machine.store.tape.size ≤ maxCells := by
  induction reached with
  | start =>
    have usual : (ofSource source input output).machine.store.tape.size = max 1 usualCells :=
      Tape.size_blank usualCells
    rw [usual]
    decide
  | move _ performed ih =>
    rcases size_of_perform performed with kept | ⟨cells, _, small, sized⟩
    · rw [kept]
      exact ih
    · rw [sized]
      exact Nat.max_le.mpr ⟨by decide, small⟩

end Session
end Brainfuck
