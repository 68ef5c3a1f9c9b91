import Brainfuck.Proofs.Execution
import Brainfuck.Session.Basic

/-!
# What a session does when it executes

A session that is asked to run or to step is refused, or it has or gets its code, does what its
machine does and concludes with a flush when the machine has come to an end. Main statements: a run
is the run of the machine, concluded (`Session.Active.run_eq`), so is a step
(`Session.Active.step_cases`), and `Session.Executes` tells what either may come to.
-/
namespace Brainfuck

open Machine

/-- A session that has begun and can go on is running. -/
theorem Phase.eq_running {phase : Phase} (unfinished : phase.isFinal = false)
    (started : phase ≠ .ready) : phase = .running := by
  cases phase with
  | ready => exact absurd rfl started
  | running => rfl
  | halted => cases unfinished
  | faulted => cases unfinished

namespace Session

def stopped (s : Session) (code : Code) (m : Machine) : Session :=
  ⟨s.source, s.flags, some code, .running, m⟩

/-- The session after its output has been flushed at the end of an execution. -/
def closed (s : Session) (phase : Phase) : Session :=
  ⟨s.source, s.flags, s.code?, phase, { s.machine with store := s.machine.store.flush.2 }⟩

/-- How an execution concludes: it halts and the output is flushed, or there is a fault, its own or
that of a failing flush. -/
theorem conclude_cases (result : Except Fault Unit) (s : Session) :
    (result = .ok () ∧ s.machine.store.flush.1 = .ok () ∧
      conclude result s = (.ok (), s.closed .halted)) ∨
    ∃ fault, conclude result s = (.error (.crashed fault), s.closed .faulted) ∧
      (result = .error fault ∨
        result = .ok () ∧ ∃ kind, s.machine.store.flush.1 = .error kind ∧
          fault = ⟨kind, s.machine.ip⟩) := by
  obtain ⟨source, flags, code?, phase, ip, steps, strategy, limit, store⟩ := s
  simp only [conclude, closed]
  rcases store.flush with ⟨kind | _, flushed⟩
  · cases result with
    | error fault => exact .inr ⟨fault, rfl, .inl rfl⟩
    | ok => exact .inr ⟨⟨kind, ip⟩, rfl, .inr ⟨rfl, kind, rfl, rfl⟩⟩
  · cases result with
    | error fault => exact .inr ⟨fault, rfl, .inl rfl⟩
    | ok => exact .inl ⟨rfl, rfl, rfl⟩

/-- After a fault it makes no difference whether the flush succeeds. -/
theorem conclude_error (fault : Fault) (s : Session) :
    conclude (.error fault) s = (.error (.crashed fault), s.closed .faulted) := by
  rcases conclude_cases (.error fault) s with ⟨halted, _⟩ | ⟨other, concluded, own | ⟨halted, _⟩⟩
  · cases halted
  · cases own
    exact concluded
  · cases halted

/-- What an execution leaves when it has concluded: a final phase, and its output flushed. -/
theorem conclude_closes (result : Except Fault Unit) (s : Session) :
    ∃ phase : Phase, phase.isFinal = true ∧ (conclude result s).2 = s.closed phase := by
  rcases conclude_cases result s with ⟨_, _, concluded⟩ | ⟨fault, concluded, _⟩
  · exact ⟨.halted, rfl, by rw [concluded]⟩
  · exact ⟨.faulted, rfl, by rw [concluded]⟩

theorem steps_conclude (result : Except Fault Unit) (s : Session) :
    (conclude result s).2.machine.steps = s.machine.steps := by
  obtain ⟨phase, _, left⟩ := conclude_closes result s
  rw [left]
  rfl

theorem isFinal_conclude (result : Except Fault Unit) (s : Session) :
    (conclude result s).2.phase.isFinal = true := by
  obtain ⟨phase, final, left⟩ := conclude_closes result s
  rw [left]
  exact final

/-- A step that ends the execution tells the phase in place of the bare success. -/
theorem ended_eq (result : Except Fault Unit) (s : Session) :
    step.ended result s = ((conclude result s).1.map fun _ => .halted, (conclude result s).2) := by
  rcases conclude_cases result s with ⟨_, _, concluded⟩ | ⟨fault, concluded, _⟩
  · rw [step.ended, concluded]
    rfl
  · rw [step.ended, concluded]
    rfl

/-- A session that is not finished and that has the code, or would get it by compiling. -/
structure Active (s : Session) (code : Code) : Prop where
  unfinished : s.phase.isFinal = false
  compiled : s.compile.1 = .ok code

theorem Active.begin_eq {s : Session} {code : Code} (active : s.Active code) :
    s.begin = (.ok code, s.stopped code s.machine) := by
  obtain ⟨source, flags, code?, phase, machine⟩ := s
  obtain ⟨unfinished, compiled⟩ := active
  dsimp only at unfinished
  unfold begin
  simp only [unfinished, Bool.false_eq_true, if_false]
  cases code? with
  | some cached =>
    cases compiled
    rfl
  | none =>
    simp only [compile] at compiled ⊢
    split at compiled
    · cases compiled
      rfl
    · cases compiled

theorem Active.run_eq {s : Session} {code : Code} (active : s.Active code) (bound : Nat) :
    s.run bound =
      (s.machine.run code bound).map fun r => conclude r.1 (s.stopped code r.2) := by
  unfold run
  rw [active.begin_eq]
  simp only [stopped]
  cases s.machine.run code bound with
  | none => rfl
  | some r => rfl

theorem Active.run_of_ends {s : Session} {code : Code} (active : s.Active code)
    {r : Except Fault Unit × Machine} (ended : Ends code s.machine r.1 r.2) :
    ∃ bound, s.run bound = some (conclude r.1 (s.stopped code r.2)) := by
  obtain ⟨bound, run⟩ := ended
  refine ⟨bound, ?_⟩
  rw [active.run_eq, run]
  rfl

theorem Active.run_of_runsOn {s : Session} {code : Code} (active : s.Active code)
    (on : RunsOn code s.machine) (bound : Nat) : s.run bound = none := by
  rw [active.run_eq, on]
  rfl

/-- A step of a session that has its code is a step of its machine, concluded if a run would end
with it. -/
theorem Active.step_cases {s : Session} {code : Code} (active : s.Active code) :
    (∃ next, s.machine.step code = (.ok .going, next) ∧
      s.step = (.ok .running, s.stopped code next)) ∨
    ∃ result last, (∀ bound, s.machine.run code (bound + 1) = some (result, last)) ∧
      s.step = ((conclude result (s.stopped code last)).1.map fun _ => .halted,
        (conclude result (s.stopped code last)).2) := by
  rcases stepped : s.machine.step code with ⟨fault | ⟨_ | _⟩, next⟩
  · refine .inr ⟨.error fault, next, fun bound => by rw [run_succ, stepped], ?_⟩
    rw [← ended_eq]
    simp only [step, active.begin_eq, stopped, stepped]
  · refine .inl ⟨next, rfl, ?_⟩
    simp only [step, active.begin_eq, stopped, stepped]
  · refine .inr ⟨.ok (), next, fun bound => by rw [run_succ, stepped], ?_⟩
    rw [← ended_eq]
    simp only [step, active.begin_eq, stopped, stepped]

/-- A step either finishes the session or takes its machine one step on. -/
theorem Active.isFinal_or_going {s : Session} {code : Code} (active : s.Active code) :
    s.step.2.phase.isFinal = true ∨
      ∃ next, s.machine.step code = (.ok .going, next) ∧
        s.step = (.ok .running, s.stopped code next) := by
  rcases active.step_cases with going | ⟨result, last, _, ended⟩
  · exact .inr going
  · left
    rw [ended]
    exact isFinal_conclude _ _

theorem active_stopped (s : Session) (code : Code) (m : Machine) : (s.stopped code m).Active code :=
  ⟨rfl, rfl⟩

/-- Code is given if the session has it or can compile it; a compile error changes nothing. -/
theorem compile_cases (s : Session) :
    (∃ code, (s.code? = some code ∨
        s.code? = none ∧ Brainfuck.compile s.flags s.source = .ok code) ∧
      s.compile = (.ok code, ⟨s.source, s.flags, some code, s.phase, s.machine⟩)) ∨
    ∃ e, s.code? = none ∧ Brainfuck.compile s.flags s.source = .error e ∧
      s.compile = (.error e, s) := by
  obtain ⟨source, flags, code?, phase, machine⟩ := s
  cases code? with
  | some code => exact .inl ⟨code, .inl rfl, rfl⟩
  | none =>
    cases compiled : Brainfuck.compile flags source with
    | ok code =>
      refine .inl ⟨code, .inr ⟨rfl, rfl⟩, ?_⟩
      simp only [compile, compiled]
    | error e =>
      refine .inr ⟨e, rfl, rfl, ?_⟩
      simp only [compile, compiled]

/-- A session is finished, or its source does not compile, or it can go on. In the first two cases
it stays as it is. -/
theorem begin_cases (s : Session) :
    (s.phase.isFinal = true ∧ s.begin = (.error (.finished s.phase), s)) ∨
    (s.phase.isFinal = false ∧ ∃ e, s.code? = none ∧
      Brainfuck.compile s.flags s.source = .error e ∧ s.begin = (.error (.malformed e), s)) ∨
    ∃ code, s.Active code := by
  by_cases final : s.phase.isFinal = true
  · exact .inl ⟨final, by rw [begin, if_pos final]⟩
  · have unfinished : s.phase.isFinal = false := Bool.eq_false_iff.mpr final
    rcases s.compile_cases with ⟨code, _, compiled⟩ | ⟨e, missing, failed, compiled⟩
    · exact .inr (.inr ⟨code, unfinished, by rw [compiled]⟩)
    · exact .inr (.inl ⟨unfinished, e, missing, failed, by rw [begin, if_neg final, compiled]⟩)

/-- A session is refused because it is finished or because its source does not compile. -/
theorem begin_error_cases {s : Session} {e : SessionError} (refused : s.begin = (.error e, s)) :
    (s.phase.isFinal = true ∧ e = .finished s.phase) ∨
    (s.phase.isFinal = false ∧ ∃ cause, s.code? = none ∧
      Brainfuck.compile s.flags s.source = .error cause ∧ e = .malformed cause) := by
  rcases s.begin_cases with
    ⟨final, other⟩ | ⟨unfinished, cause, missing, failed, other⟩ | ⟨code, active⟩
  · cases refused.symm.trans other
    exact .inl ⟨final, rfl⟩
  · cases refused.symm.trans other
    exact .inr ⟨unfinished, cause, missing, failed, rfl⟩
  · cases refused.symm.trans active.begin_eq

theorem begin_error_or_active (s : Session) :
    (∃ e, s.begin = (.error e, s)) ∨ ∃ code, s.Active code := by
  rcases s.begin_cases with ⟨_, refused⟩ | ⟨_, e, _, _, refused⟩ | active
  · exact .inl ⟨_, refused⟩
  · exact .inl ⟨_, refused⟩
  · exact .inr active

theorem run_of_begin_error {s : Session} {e : SessionError} (refused : s.begin = (.error e, s))
    (bound : Nat) : s.run bound = some (.error e, s) := by
  rw [run, refused]

theorem step_of_begin_error {s : Session} {e : SessionError} (refused : s.begin = (.error e, s)) :
    s.step = (.error e, s) := by
  rw [step, refused]

theorem step_of_isFinal {s : Session} (final : s.phase.isFinal = true) : s.step.2 = s := by
  rw [step, begin, if_pos final]

/-- How an execution goes that a session is asked for: it is refused, it does one step and is not at
its end, or it is concluded at its end. The result tells the phase in place of a bare success. -/
inductive Executes (s : Session) : Except SessionError Phase → Session → Prop
  | refused {e : SessionError} : s.begin = (.error e, s) → Executes s (.error e) s
  | going {code : Code} {next : Machine} :
      s.Active code → s.machine.step code = (.ok .going, next) →
      Executes s (.ok .running) (s.stopped code next)
  | ended {code : Code} {result : Except Fault Unit} {last : Machine} :
      s.Active code → Ends code s.machine result last →
      Executes s ((conclude result (s.stopped code last)).1.map fun _ => .halted)
        (conclude result (s.stopped code last)).2

theorem executes_of_run {s t : Session} {bound : Nat} {result : Except SessionError Unit}
    (run : s.run bound = some (result, t)) : s.Executes (result.map fun _ => .halted) t := by
  rcases s.begin_error_or_active with ⟨e, refused⟩ | ⟨code, active⟩
  · rw [run_of_begin_error refused] at run
    cases run
    exact .refused refused
  · rw [active.run_eq] at run
    obtain ⟨⟨ended, last⟩, ran, concluded⟩ := Option.map_eq_some_iff.mp run
    have executes := Executes.ended active ⟨bound, ran⟩
    rw [concluded] at executes
    exact executes

theorem executes_step (s : Session) : s.Executes s.step.1 s.step.2 := by
  rcases s.begin_error_or_active with ⟨e, refused⟩ | ⟨code, active⟩
  · rw [step_of_begin_error refused]
    exact .refused refused
  · rcases active.step_cases with ⟨next, going, stepped⟩ | ⟨result, last, ran, stepped⟩
    · rw [stepped]
      exact .going active going
    · rw [stepped]
      exact .ended active ⟨1, ran 0⟩

/-- An execution that is answered with a phase leaves the session in it. -/
theorem Executes.phase_eq {s t : Session} {phase : Phase} (executes : s.Executes (.ok phase) t) :
    t.phase = phase := by
  generalize answered : Except.ok (ε := SessionError) phase = outcome at executes
  cases executes with
  | refused => cases answered
  | going =>
    cases answered
    rfl
  | @ended code result last _ _ =>
    rcases conclude_cases result (s.stopped code last) with
      ⟨_, _, concluded⟩ | ⟨_, concluded, _⟩
    · rw [concluded] at answered ⊢
      cases answered
      rfl
    · rw [concluded] at answered
      cases answered

/-- An execution that is answered with an error is refused or ends in a fault. -/
theorem Executes.error_cases {s t : Session} {e : SessionError}
    (executes : s.Executes (.error e) t) :
    (t = s ∧ s.begin = (.error e, s)) ∨ ∃ fault, e = .crashed fault ∧ t.phase = .faulted := by
  generalize answered : Except.error e = outcome at executes
  cases executes with
  | refused refused =>
    cases answered
    exact .inl ⟨rfl, refused⟩
  | going => cases answered
  | @ended code result last _ _ =>
    rcases conclude_cases result (s.stopped code last) with
      ⟨_, _, concluded⟩ | ⟨fault, concluded, _⟩
    · rw [concluded] at answered
      cases answered
    · rw [concluded] at answered ⊢
      cases answered
      exact .inr ⟨fault, rfl, rfl⟩

theorem Executes.phase_of_crashed {s t : Session} {fault : Fault}
    (executes : s.Executes (.error (.crashed fault)) t) : t.phase = .faulted := by
  rcases executes.error_cases with ⟨_, refused⟩ | ⟨_, _, faulted⟩
  · rcases begin_error_cases refused with ⟨_, other⟩ | ⟨_, _, _, _, other⟩
    · cases other
    · cases other
  · exact faulted

/-- An execution is answered with a compile error only if the source does not compile, and then
nothing is done. -/
theorem Executes.malformed {s t : Session} {e : CompileError}
    (executes : s.Executes (.error (.malformed e)) t) :
    t = s ∧ s.phase.isFinal = false ∧ s.code? = none ∧
      Brainfuck.compile s.flags s.source = .error e := by
  rcases executes.error_cases with ⟨same, refused⟩ | ⟨_, other, _⟩
  · rcases begin_error_cases refused with ⟨_, other⟩ | ⟨unfinished, _, missing, failed, cause⟩
    · cases other
    · cases cause
      exact ⟨same, unfinished, missing, failed⟩
  · cases other

/-- An execution is answered that the session has finished only if it has, and then nothing is
done. -/
theorem Executes.finished {s t : Session} {phase : Phase}
    (executes : s.Executes (.error (.finished phase)) t) :
    t = s ∧ s.phase.isFinal = true ∧ phase = s.phase := by
  rcases executes.error_cases with ⟨same, refused⟩ | ⟨_, other, _⟩
  · rcases begin_error_cases refused with ⟨final, cause⟩ | ⟨_, _, _, _, other⟩
    · cases cause
      exact ⟨same, final, rfl⟩
    · cases other
  · cases other

theorem run_mono {s : Session} {bound : Nat} {r : Except SessionError Unit × Session}
    (ended : s.run bound = some r) (more : Nat) : s.run (bound + more) = some r := by
  rcases s.begin_error_or_active with ⟨e, refused⟩ | ⟨code, active⟩
  · rw [run_of_begin_error refused] at ended ⊢
    exact ended
  · rw [active.run_eq] at ended ⊢
    obtain ⟨last, ran, concluded⟩ := Option.map_eq_some_iff.mp ended
    rw [Machine.run_mono ran more, Option.map_some, concluded]

/-- How a run ends does not depend on the bound. -/
theorem run_unique {s : Session} {bound bound' : Nat} {r r' : Except SessionError Unit × Session}
    (one : s.run bound = some r) (two : s.run bound' = some r') : r = r' := by
  have same := run_mono one bound'
  rw [Nat.add_comm, run_mono two bound] at same
  exact (Option.some.inj same).symm

def afterSteps (s : Session) : Nat → Session
  | 0 => s
  | k + 1 => (s.afterSteps k).step.2

end Session
end Brainfuck
