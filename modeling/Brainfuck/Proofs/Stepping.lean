import Brainfuck.Proofs.SessionRun
import Brainfuck.Session.Basic

/-!
# One execution in three ways

A session can be run in one go, in single steps or in a trace. `Session.StepsTo` is the run in
single steps: it repeats a step until one is answered with an end. Main statement: all three end
alike and leave the same session, and steps that leave it running may be done before a run
(`run_step_trace_agree`).
-/
namespace Brainfuck

open Machine

namespace Session

def RunsTo (s : Session) (r : Except SessionError Unit × Session) : Prop :=
  ∃ bound, s.run bound = some r

/-- Single steps are repeated until one is not answered with the running phase: the answer to this
one, and the session after it. -/
inductive StepsTo : Session → Except SessionError Phase × Session → Prop
  | last {s : Session} {r : Except SessionError Phase × Session} :
      s.step = r → r.1 ≠ .ok .running → StepsTo s r
  | going {s next : Session} {r : Except SessionError Phase × Session} :
      s.step = (.ok .running, next) → StepsTo next r → StepsTo s r

def TracesTo (s : Session) (lines : Array TraceLine) (r : Except SessionError Unit × Session) :
    Prop :=
  ∃ bound all, s.trace bound lines = some (all, r)

def lastAnswer (result : Except SessionError Unit) : Except SessionError Phase :=
  result.map fun _ => .halted

theorem lastAnswer_ne_running (result : Except SessionError Unit) :
    lastAnswer result ≠ .ok .running := by
  cases result with
  | error e => exact nofun
  | ok => exact nofun

theorem lastAnswer_injective {result other : Except SessionError Unit}
    (same : lastAnswer result = lastAnswer other) : result = other := by
  cases result with
  | error e =>
    cases other with
    | error e' => exact congrArg _ (Except.error.inj same)
    | ok => cases same
  | ok =>
    cases other with
    | error e' => cases same
    | ok => rfl

/-- A run of one step more does a step and goes on from there, or it ends with the step. -/
theorem run_succ_cases (s : Session) :
    (∃ next, s.step = (.ok .running, next) ∧ ∀ bound, s.run (bound + 1) = next.run bound) ∨
    ∃ result t, s.step = (lastAnswer result, t) ∧
      ∀ bound, s.run (bound + 1) = some (result, t) := by
  rcases s.begin_error_or_active with ⟨e, refused⟩ | ⟨code, active⟩
  · exact .inr ⟨.error e, s, step_of_begin_error refused, fun _ => run_of_begin_error refused _⟩
  · rcases active.step_cases with ⟨next, going, stepped⟩ | ⟨result, last, ran, stepped⟩
    · refine .inl ⟨s.stopped code next, stepped, ?_⟩
      intro bound
      rw [active.run_eq, Machine.run_succ, going, (active_stopped s code next).run_eq]
      rfl
    · refine .inr ⟨_, _, stepped, ?_⟩
      intro bound
      rw [active.run_eq, ran]
      rfl

variable {s t : Session} {result : Except SessionError Unit}

theorem stepsTo_of_run {bound : Nat} (run : s.run bound = some (result, t)) :
    s.StepsTo (lastAnswer result, t) := by
  induction bound generalizing s with
  | zero =>
    rcases s.begin_error_or_active with ⟨e, refused⟩ | ⟨code, active⟩
    · rw [run_of_begin_error refused] at run
      cases run
      exact .last (step_of_begin_error refused) (lastAnswer_ne_running (.error e))
    · rw [active.run_eq] at run
      cases run
  | succ bound ih =>
    rcases s.run_succ_cases with ⟨next, stepped, later⟩ | ⟨other, last, stepped, ends⟩
    · rw [later] at run
      exact .going stepped (ih run)
    · rw [ends] at run
      cases run
      exact .last stepped (lastAnswer_ne_running result)

theorem runsTo_of_stepsTo {r : Except SessionError Phase × Session} (steps : s.StepsTo r) :
    ∃ result, r.1 = lastAnswer result ∧ s.RunsTo (result, r.2) := by
  induction steps with
  | @last s r stepped stops =>
    rcases s.run_succ_cases with ⟨next, going, _⟩ | ⟨result, t, ended, ends⟩
    · rw [← stepped, going] at stops
      exact absurd rfl stops
    · obtain rfl := stepped.symm.trans ended
      exact ⟨result, rfl, 1, ends 0⟩
  | @going s next r stepped _ ih =>
    obtain ⟨result, answered, bound, run⟩ := ih
    refine ⟨result, answered, bound + 1, ?_⟩
    rcases s.run_succ_cases with ⟨other, going, later⟩ | ⟨other, t, ended, _⟩
    · cases stepped.symm.trans going
      rw [later, run]
    · have running := congrArg Prod.fst (stepped.symm.trans ended)
      exact absurd running.symm (lastAnswer_ne_running other)

/-- Single steps end if and only if a run does, and alike. -/
theorem stepsTo_iff (s : Session) (answer : Except SessionError Phase) (t : Session) :
    s.StepsTo (answer, t) ↔ ∃ result, answer = lastAnswer result ∧ s.RunsTo (result, t) := by
  constructor
  · exact runsTo_of_stepsTo
  · rintro ⟨result, rfl, bound, run⟩
    exact stepsTo_of_run run

theorem trace_succ_going {next : Session} (going : s.step = (.ok .running, next)) (bound : Nat)
    (lines : Array TraceLine) :
    s.trace (bound + 1) lines = next.trace bound (lines.push (lineFor s.moment next)) := by
  simp only [trace, going, if_true]

theorem trace_succ_ended (ended : s.step = (lastAnswer result, t)) (bound : Nat)
    (lines : Array TraceLine) : ∃ all, s.trace (bound + 1) lines = some (all, result, t) := by
  rw [trace, ended]
  cases result with
  | error e => exact ⟨lines, rfl⟩
  | ok => exact ⟨lines.push (lineFor s.moment t), rfl⟩

/-- A trace ends if and only if single steps do, and alike, whatever lines were there before. -/
theorem tracesTo_iff (s : Session) (lines : Array TraceLine) (result : Except SessionError Unit)
    (t : Session) : s.TracesTo lines (result, t) ↔ s.StepsTo (lastAnswer result, t) := by
  constructor
  · rintro ⟨bound, all, trace⟩
    induction bound generalizing s lines with
    | zero => cases trace
    | succ bound ih =>
      rcases s.run_succ_cases with ⟨next, going, _⟩ | ⟨other, last, ended, _⟩
      · rw [trace_succ_going going] at trace
        exact .going going (ih next _ trace)
      · obtain ⟨all', ends⟩ := trace_succ_ended ended bound lines
        rw [ends] at trace
        cases trace
        exact .last ended (lastAnswer_ne_running result)
  · intro steps
    generalize final : (lastAnswer result, t) = r at steps
    induction steps generalizing lines with
    | last stepped _ =>
      subst final
      obtain ⟨all, ends⟩ := trace_succ_ended stepped 0 lines
      exact ⟨1, all, ends⟩
    | @going s next _ stepped _ ih =>
      obtain ⟨bound, all, trace⟩ := ih (lines.push (lineFor s.moment next)) final
      exact ⟨bound + 1, all, (trace_succ_going stepped bound lines).trans trace⟩

/-- A step that does not finish a session leaves it to run on as it would have. -/
theorem runsTo_step_iff (unfinished : s.step.2.phase.isFinal = false)
    (r : Except SessionError Unit × Session) : s.step.2.RunsTo r ↔ s.RunsTo r := by
  rcases s.begin_error_or_active with ⟨e, refused⟩ | ⟨code, active⟩
  · rw [step_of_begin_error refused]
  · rcases active.isFinal_or_going with final | ⟨machine, _, stepped⟩
    · cases unfinished.symm.trans final
    rcases s.run_succ_cases with ⟨next, going, later⟩ | ⟨other, last, ended, _⟩
    · rw [going]
      constructor
      · rintro ⟨bound, run⟩
        exact ⟨bound + 1, (later bound).trans run⟩
      · rintro ⟨bound, run⟩
        exact ⟨bound, (later bound).symm.trans (run_mono run 1)⟩
    · have running := congrArg Prod.fst (stepped.symm.trans ended)
      exact absurd running.symm (lastAnswer_ne_running other)

theorem runsTo_afterSteps_iff {k : Nat} (unfinished : (s.afterSteps k).phase.isFinal = false)
    (r : Except SessionError Unit × Session) : (s.afterSteps k).RunsTo r ↔ s.RunsTo r := by
  induction k with
  | zero => exact Iff.rfl
  | succ k ih =>
    have before : (s.afterSteps k).phase.isFinal = false := by
      by_cases final : (s.afterSteps k).phase.isFinal = true
      · rw [afterSteps, step_of_isFinal final] at unfinished
        exact unfinished
      · exact Bool.eq_false_iff.mpr final
    exact (runsTo_step_iff unfinished r).trans (ih before)

end Session

/-- Running, stepping and tracing are one execution. Steps that are repeated until one is answered
with an end do come to one if and only if a run ends; then the answer is the result of the run, with
the halted phase in place of the bare success, and the session is the same. A run after some steps
that have left the session running ends as the run without them does. A trace ends with the result
and the session of the run. -/
theorem run_step_trace_agree (s : Session) :
    (∀ (answer : Except SessionError Phase) (t : Session), s.StepsTo (answer, t) ↔
      ∃ result : Except SessionError Unit,
        answer = result.map (fun _ => .halted) ∧ s.RunsTo (result, t)) ∧
    (∀ (k : Nat), (s.afterSteps k).phase = .running →
      ∀ r : Except SessionError Unit × Session, (s.afterSteps k).RunsTo r ↔ s.RunsTo r) ∧
    ∀ (lines : Array TraceLine) (r : Except SessionError Unit × Session),
      s.TracesTo lines r ↔ s.RunsTo r := by
  refine ⟨s.stepsTo_iff, ?_, ?_⟩
  · intro k running r
    have unfinished : (s.afterSteps k).phase.isFinal = false := by
      rw [running]
      rfl
    exact Session.runsTo_afterSteps_iff unfinished r
  · rintro lines ⟨result, t⟩
    rw [Session.tracesTo_iff, Session.stepsTo_iff]
    constructor
    · rintro ⟨other, same, runs⟩
      obtain rfl := Session.lastAnswer_injective same
      exact runs
    · intro runs
      exact ⟨result, rfl, runs⟩

theorem run_step_trace_agree_in_failing_flush :
    let s := Session.fresh "++[-]." .all .distance 1 ⟨[]⟩ (.scripted [] [.failed .brokenPipe])
    ∃ t, (s.afterSteps 3).RunsTo (.error (.crashed ⟨.stream .brokenPipe, 5⟩), t) ∧
      s.TracesTo #[] (.error (.crashed ⟨.stream .brokenPipe, 5⟩), t) := by
  intro s
  have run : s.run 9 = some (.error (.crashed ⟨.stream .brokenPipe, 5⟩), _) := rfl
  have running : (s.afterSteps 3).phase = .running := rfl
  have agree := run_step_trace_agree s
  exact ⟨_, (agree.2.1 3 running _).mpr ⟨9, run⟩, (agree.2.2 #[] _).mpr ⟨9, run⟩⟩

end Brainfuck
