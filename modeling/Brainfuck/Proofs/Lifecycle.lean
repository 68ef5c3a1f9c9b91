import Brainfuck.Proofs.Moves

/-!
# What the phases of a session say

A session that is ready has nothing done (`Session.Untouched`), however often it has been used
before: every reset brings it back to its start, and moves that leave it at rest keep it there.
Main statement: only an execution takes a session out of the ready phase, only a reset brings it
back, and a session that has come to its end stays as it is until then (`phases_of_reaches`).
-/
namespace Brainfuck

theorem Tape.get?_blank {size k : Nat} {value : Int8} (here : (blank size).get? k = some value) :
    value = 0 := by
  have cell : (Array.replicate (max 1 size) (0 : Int8))[k]? = some value := here
  rw [Array.getElem?_replicate] at cell
  split at cell
  · exact (Option.some.inj cell).symm
  · cases cell

namespace Session

/-- A session with nothing done: the first instruction is next, no step is counted, and the data
pointer is at the first of cells that are all zero. -/
structure Untouched (s : Session) : Prop where
  ip : s.machine.ip = 0
  steps : s.machine.steps = 0
  pointer : s.machine.store.tape.pointer = 0
  cells : ∀ k value, s.machine.store.tape.get? k = some value → value = 0

theorem untouched_of_blank {s : Session} (ip : s.machine.ip = 0) (steps : s.machine.steps = 0)
    {size : Nat} (tape : s.machine.store.tape = .blank size) : s.Untouched where
  ip := ip
  steps := steps
  pointer := by
    rw [tape]
    rfl
  cells := by
    intro k value here
    rw [tape] at here
    exact Tape.get?_blank here

variable {s t : Session} {move : Move} {reply : Reply}

theorem Rests.untouched (rests : s.Rests move t) (untouched : s.Untouched) : t.Untouched := by
  have ip : t.machine.ip = 0 := rests.ip.trans untouched.ip
  have steps : t.machine.steps = 0 := rests.steps.trans untouched.steps
  rcases rests.tape with same | ⟨size, made⟩
  · refine ⟨ip, steps, ?_, ?_⟩
    · rw [same]
      exact untouched.pointer
    · rw [same]
      exact untouched.cells
  · exact untouched_of_blank ip steps made

/-- A move leaves a ready session with nothing done, if it leaves it ready. -/
theorem untouched_of_perform (before : s.phase = .ready → s.Untouched)
    (performed : move.perform s = some (reply, t)) (ready : t.phase = .ready) : t.Untouched := by
  rcases perform_cases performed with ⟨_, outcome, executes⟩ | ⟨_, rfl⟩ | rests
  · rcases executes.cases_kept with ⟨rfl, _⟩ | ⟨started, _⟩
    · exact before ready
    · exact absurd ready started
  · exact untouched_of_blank rfl rfl rfl
  · have wasReady : s.phase = .ready := rests.phase.symm.trans ready
    exact rests.untouched (before wasReady)

theorem untouched_of_reaches {source : String} {input : Input} {output : Output}
    {past : List Event} (reached : (ofSource source input output).Reaches past s) :
    s.phase = .ready → s.Untouched := by
  induction reached with
  | start =>
    intro _
    exact untouched_of_blank rfl rfl rfl
  | move _ performed ih => exact untouched_of_perform ih performed

/-- Only an execution takes a session out of the ready phase. -/
theorem executes_of_leaves_ready (performed : move.perform s = some (reply, t))
    (ready : s.phase = .ready) (leaves : t.phase ≠ .ready) : move.executes = true := by
  rcases perform_cases performed with ⟨executes, _⟩ | ⟨_, rfl⟩ | rests
  · exact executes
  · exact absurd rfl leaves
  · exact absurd (rests.phase.trans ready) leaves

/-- Only a reset brings a session into the ready phase. -/
theorem reset_of_enters_ready (performed : move.perform s = some (reply, t))
    (started : s.phase ≠ .ready) (ready : t.phase = .ready) : move = .reset := by
  rcases perform_cases performed with ⟨_, outcome, executes⟩ | ⟨resets, _⟩ | rests
  · rcases executes.cases_kept with ⟨rfl, _⟩ | ⟨running, _⟩
    · exact absurd ready started
    · exact absurd ready running
  · exact resets
  · exact absurd (rests.phase.symm.trans ready) started

/-- Nothing that a finished session is asked for, short of a reset, moves it or its streams. -/
theorem stays_of_isFinal (final : s.phase.isFinal = true) (keeps : move ≠ .reset)
    (performed : move.perform s = some (reply, t)) :
    t.phase = s.phase ∧ t.machine.ip = s.machine.ip ∧ t.machine.steps = s.machine.steps ∧
      t.machine.store.input = s.machine.store.input ∧
      t.machine.store.output = s.machine.store.output := by
  rcases perform_cases performed with ⟨_, outcome, executes⟩ | ⟨resets, _⟩ | rests
  · obtain rfl := executes.eq_of_isFinal final
    exact ⟨rfl, rfl, rfl, rfl, rfl⟩
  · exact absurd resets keeps
  · exact ⟨rests.phase, rests.ip, rests.steps, rests.input, rests.output⟩

theorem perform_run_of_isFinal (final : s.phase.isFinal = true) (bound : Nat) :
    (Move.run bound).perform s = some (.ran (.error (.finished s.phase)), s) := by
  have refused : s.begin = (.error (.finished s.phase), s) := by
    rw [begin, if_pos final]
  rw [Move.perform, run_of_begin_error refused]
  rfl

theorem perform_step_of_isFinal (final : s.phase.isFinal = true) :
    Move.step.perform s = some (.stepped (.error (.finished s.phase)), s) := by
  have refused : s.begin = (.error (.finished s.phase), s) := by
    rw [begin, if_pos final]
  rw [Move.perform, step_of_begin_error refused]

end Session

/-- However a session has come about, it is ready only with nothing done. It leaves the ready phase
only by a run or a step and enters it only by a reset. Once it has halted or faulted, every move but
a reset leaves its phase, its counters and its streams as they are, and a run or a step is answered
that it has finished and changes nothing at all. -/
theorem phases_of_reaches {source : String} {input : Input} {output : Output} {past : List Event}
    {s : Session} (reached : (Session.ofSource source input output).Reaches past s) :
    (s.phase = .ready → s.Untouched) ∧
    (∀ (move : Move) (reply : Reply) (t : Session), move.perform s = some (reply, t) →
      (s.phase = .ready → t.phase ≠ .ready → move = .step ∨ ∃ bound, move = .run bound) ∧
      (s.phase ≠ .ready → t.phase = .ready → move = .reset)) ∧
    (s.phase = .halted ∨ s.phase = .faulted →
      (∀ (move : Move) (reply : Reply) (t : Session), move ≠ .reset →
        move.perform s = some (reply, t) →
          t.phase = s.phase ∧ t.machine.ip = s.machine.ip ∧ t.machine.steps = s.machine.steps ∧
          t.machine.store.input = s.machine.store.input ∧
          t.machine.store.output = s.machine.store.output) ∧
      (∀ bound, (Move.run bound).perform s = some (.ran (.error (.finished s.phase)), s)) ∧
      Move.step.perform s = some (.stepped (.error (.finished s.phase)), s)) := by
  refine ⟨Session.untouched_of_reaches reached, ?_, ?_⟩
  · intro move reply t performed
    constructor
    · intro ready left
      exact Move.exists_of_executes (Session.executes_of_leaves_ready performed ready left)
    · intro started ready
      exact Session.reset_of_enters_ready performed started ready
  · intro ended
    have final : s.phase.isFinal = true := by
      rcases ended with halted | faulted
      · rw [halted]
        rfl
      · rw [faulted]
        rfl
    refine ⟨?_, Session.perform_run_of_isFinal final, Session.perform_step_of_isFinal final⟩
    intro move reply t keeps performed
    exact Session.stays_of_isFinal final keeps performed

theorem phases_of_reaches_after_fault :
    let first := Session.ofSource "+<" ⟨[]⟩ (.scripted [] [])
    let s := ((first.resize 1).step.2.step.2).withFlags .all
    ∃ past past', first.Reaches past s ∧ s.phase = .faulted ∧ s.machine.steps = 2 ∧
      (Move.run 9).perform s = some (.ran (.error (.finished .faulted)), s) ∧
      first.Reaches past' s.reset ∧ s.reset.phase = .ready ∧ s.reset.Untouched := by
  intro first s
  have resized : (Move.resize 1).perform first = some (.done, first.resize 1) := rfl
  have stepped : Move.step.perform (first.resize 1) = some (_, (first.resize 1).step.2) := rfl
  have failed : Move.step.perform (first.resize 1).step.2 =
    some (_, (first.resize 1).step.2.step.2) := rfl
  have changed : (Move.withFlags .all).perform (first.resize 1).step.2.step.2 = some (_, s) := rfl
  have renewed : Move.reset.perform s = some (_, s.reset) := rfl
  have reached := (((Session.Reaches.start.move resized).move stepped).move failed).move changed
  have faulted : s.phase = .faulted := rfl
  have refused := (phases_of_reaches reached).2.2 (.inr faulted)
  have untouched := (phases_of_reaches (reached.move renewed)).1 rfl
  exact ⟨_, _, reached, faulted, rfl, refused.2.1 9, reached.move renewed, rfl, untouched⟩

end Brainfuck
