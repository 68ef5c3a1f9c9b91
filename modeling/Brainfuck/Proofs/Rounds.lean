import Brainfuck.Proofs.Stepping

/-!
# Executions one after the other

A session may be executed, set back and executed again (`Session.RoundsTo`). Main statements: what
this comes to is told by rounds with a large enough bound on the steps of each
(`Session.roundsTo_iff`), and if the source has been compiled it halts or ends in a fault
(`Session.Active.rounds_cases`). A trace with a bound is a run with this bound
(`Session.Active.map_trace`).
-/
namespace Brainfuck

namespace Session

/-- Executions one after the other, each on the session that the one before has left, set back. The
first that does not halt ends them. -/
inductive RoundsTo : Nat → Session → Except SessionError Unit → Prop
  | none {s : Session} : RoundsTo 0 s (.ok ())
  | halted {n : Nat} {s t : Session} {result : Except SessionError Unit} :
      s.RunsTo (.ok (), t) → RoundsTo n t.reset result → RoundsTo (n + 1) s result
  | failed {n : Nat} {s t : Session} {e : SessionError} :
      s.RunsTo (.error e, t) → RoundsTo (n + 1) s (.error e)

def rounds (bound : Nat) : Nat → Session → Option (Except SessionError Unit)
  | 0, _ => some (.ok ())
  | n + 1, s =>
    match s.run bound with
    | .none => .none
    | some (.error e, _) => some (.error e)
    | some (.ok (), t) => rounds bound n t.reset

variable {s t : Session} {bound n : Nat} {result : Except SessionError Unit}

theorem rounds_of_halted (halted : s.run bound = some (.ok (), t)) (n : Nat) :
    s.rounds bound (n + 1) = t.reset.rounds bound n := by
  rw [rounds, halted]

theorem rounds_of_failed {e : SessionError} (failed : s.run bound = some (.error e, t)) (n : Nat) :
    s.rounds bound (n + 1) = some (.error e) := by
  rw [rounds, failed]

theorem rounds_mono (ended : s.rounds bound n = some result) (more : Nat) :
    s.rounds (bound + more) n = some result := by
  induction n generalizing s with
  | zero => exact ended
  | succ n ih =>
    rcases run : s.run bound with _ | ⟨e | _, t⟩
    · rw [rounds, run] at ended
      cases ended
    · rw [rounds_of_failed run] at ended
      rw [rounds_of_failed (run_mono run more), ended]
    · rw [rounds_of_halted run] at ended
      rw [rounds_of_halted (run_mono run more), ih ended]

/-- Rounds end if and only if they do within some bound. -/
theorem roundsTo_iff : RoundsTo n s result ↔ ∃ bound, s.rounds bound n = some result := by
  constructor
  · intro rounds
    induction rounds with
    | none => exact ⟨0, rfl⟩
    | @halted n s t result runs _ ih =>
      obtain ⟨bound, run⟩ := runs
      obtain ⟨bound', later⟩ := ih
      refine ⟨bound + bound', ?_⟩
      rw [rounds_of_halted (run_mono run bound'), Nat.add_comm]
      exact rounds_mono later bound
    | failed runs =>
      obtain ⟨bound, run⟩ := runs
      exact ⟨bound, rounds_of_failed run _⟩
  · rintro ⟨bound, ended⟩
    induction n generalizing s with
    | zero =>
      cases ended
      exact .none
    | succ n ih =>
      rcases run : s.run bound with _ | ⟨e | _, t⟩
      · rw [rounds, run] at ended
        cases ended
      · rw [rounds_of_failed run] at ended
        cases ended
        exact .failed ⟨bound, run⟩
      · rw [rounds_of_halted run] at ended
        exact .halted ⟨bound, run⟩ (ih ended)

variable {code : Code}

/-- A session that has its code halts, and it may be executed again once it is set back, or it
ends in a fault. -/
theorem Active.run_cases (active : s.Active code) (ran : s.run bound = some (result, t)) :
    (result = .ok () ∧ t.reset.Active code) ∨ ∃ fault, result = .error (.crashed fault) := by
  rw [active.run_eq] at ran
  obtain ⟨⟨ended, last⟩, _, concluded⟩ := Option.map_eq_some_iff.mp ran
  rcases conclude_cases ended (s.stopped code last) with ⟨_, _, halted⟩ | ⟨fault, faulted, _⟩
  · cases halted.symm.trans concluded
    exact .inl ⟨rfl, rfl, rfl⟩
  · cases faulted.symm.trans concluded
    exact .inr ⟨fault, rfl⟩

theorem Active.rounds_cases (active : s.Active code) (ended : s.rounds bound n = some result) :
    result = .ok () ∨ ∃ fault, result = .error (.crashed fault) := by
  induction n generalizing s with
  | zero =>
    cases ended
    exact .inl rfl
  | succ n ih =>
    rcases run : s.run bound with _ | ⟨result', t⟩
    · rw [rounds, run] at ended
      cases ended
    · rcases active.run_cases run with ⟨rfl, active'⟩ | ⟨fault, rfl⟩
      · rw [rounds_of_halted run] at ended
        exact ih active' ended
      · rw [rounds_of_failed run] at ended
        cases ended
        exact .inr ⟨fault, rfl⟩

/-- But for its lines a trace is a run. -/
theorem Active.map_trace (active : s.Active code) (bound : Nat) (lines : Array TraceLine) :
    (s.trace bound lines).map Prod.snd = s.run bound := by
  induction bound generalizing s lines with
  | zero =>
    rw [active.run_eq]
    rfl
  | succ bound ih =>
    rcases active.step_cases with ⟨next, going, stepped⟩ | ⟨result, last, ran, stepped⟩
    · rw [trace_succ_going stepped, ih (active_stopped s code next), active.run_eq,
        (active_stopped s code next).run_eq, Machine.run_succ, going]
      rfl
    · obtain ⟨all, ended⟩ := trace_succ_ended stepped bound lines
      rw [ended, active.run_eq, ran]
      rfl

theorem trace_mono {lines : Array TraceLine}
    {r : Array TraceLine × Except SessionError Unit × Session}
    (ended : s.trace bound lines = some r) (more : Nat) :
    s.trace (bound + more) lines = some r := by
  induction bound generalizing s lines with
  | zero => cases ended
  | succ bound ih =>
    rw [Nat.add_right_comm]
    rcases stepped : s.step with ⟨e | phase, next⟩
    · rw [trace, stepped] at ended ⊢
      exact ended
    · rw [trace, stepped] at ended ⊢
      dsimp only at ended ⊢
      by_cases running : phase = .running
      · rw [if_pos running] at ended ⊢
        exact ih ended
      · rw [if_neg running] at ended ⊢
        exact ended

/-- A session that has been compiled runs as it would have without this. -/
theorem run_of_compile (compiled : s.compile = (.ok code, t)) (unfinished : s.phase.isFinal = false)
    (bound : Nat) : t.run bound = s.run bound := by
  have active : s.Active code := ⟨unfinished, by rw [compiled]⟩
  rcases s.compile_cases with ⟨code', _, other⟩ | ⟨e, _, _, other⟩
  · cases compiled.symm.trans other
    have active' : Active ⟨s.source, s.flags, some code, s.phase, s.machine⟩ code :=
      ⟨unfinished, rfl⟩
    rw [active'.run_eq, active.run_eq]
    rfl
  · cases compiled.symm.trans other

theorem rounds_of_compile (compiled : s.compile = (.ok code, t))
    (unfinished : s.phase.isFinal = false) (bound n : Nat) :
    t.rounds bound n = s.rounds bound n := by
  cases n with
  | zero => rfl
  | succ n => rw [rounds, rounds, run_of_compile compiled unfinished]

end Session

end Brainfuck
