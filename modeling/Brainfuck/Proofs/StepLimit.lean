import Brainfuck.Proofs.Execution

/-!
# Step limits

A step looks at the limit only when it is about to be counted: after it has found an operation that
is no end, and before it does anything (`Machine.step_cases`). So a limit lets a run be what it
would be without one, up to the first step that would be counted beyond it. Main statement: with any
code, a run under a limit ends, as the run without one if that counts no more steps than allowed,
and otherwise just where that stands after so many steps (`step_limit_exact`).
-/
namespace Brainfuck
namespace Machine

def withLimit (limit : Option Nat) : Machine → Machine
  | ⟨ip, steps, strategy, _, store⟩ => ⟨ip, steps, strategy, limit, store⟩

@[simp] theorem ip_withLimit (limit : Option Nat) (m : Machine) :
    (m.withLimit limit).ip = m.ip := rfl

@[simp] theorem steps_withLimit (limit : Option Nat) (m : Machine) :
    (m.withLimit limit).steps = m.steps := rfl

theorem limitReached?_of_lt {limit steps : Nat} (few : steps < limit) :
    limitReached? (some limit) steps = none := by
  simp [limitReached?, few]

theorem limitReached?_self (limit : Nat) : limitReached? (some limit) limit = some limit := by
  simp [limitReached?]

/-- What a step does, whatever the limit is. Either it is not counted and ends the run where the
machine stands; or it is counted, unless the limit has been reached. -/
theorem step_cases (code : Code) (m : Machine) :
    (∃ result : Except Fault Step, result ≠ .ok .going ∧
      ∀ limit, (m.withLimit limit).step code = (result, m.withLimit limit)) ∨
    ∃ (result : Except Fault Step) (next : Machine), next.steps = m.steps + 1 ∧
      ∀ limit, (m.withLimit limit).step code =
        match limitReached? limit m.steps with
        | some reached => (.error ⟨.stepLimit reached, m.ip⟩, m.withLimit limit)
        | none => (result, next.withLimit limit) := by
  obtain ⟨ip, steps, strategy, current, store⟩ := m
  cases here : code.get? ip with
  | none =>
    refine .inl ⟨.error ⟨.noInstruction code.size, ip⟩, by rintro ⟨⟩, fun limit => ?_⟩
    simp only [withLimit, step, here]
  | some i =>
    cases assigned : i.opcode? with
    | none =>
      refine .inl ⟨.error ⟨.unknownOpcode i.code, ip⟩, by rintro ⟨⟩, fun limit => ?_⟩
      simp only [withLimit, step, here, assigned]
    | some op =>
      by_cases ends : op = .eof
      · subst ends
        refine .inl ⟨.ok .halted, by rintro ⟨⟩, fun limit => ?_⟩
        simp only [withLimit, step, here, assigned]
      · right
        have stepped (limit : Option Nat) : step code ⟨ip, steps, strategy, limit, store⟩ = _ :=
          step_eq_perform here assigned ends limit
        rcases done : perform code strategy ip op i.operand store with ⟨kind | next, after⟩
        · rw [done] at stepped
          exact ⟨.error ⟨kind, ip⟩, ⟨ip, steps + 1, strategy, none, after⟩, rfl, stepped⟩
        · rw [done] at stepped
          exact ⟨.ok .going, ⟨next, steps + 1, strategy, none, after⟩, rfl, stepped⟩

variable {code : Code} {m next last : Machine} {result : Except Fault Unit} {n limit : Nat}

/-- A run ends with a step that does not go on, with a result that only the step decides. -/
theorem exists_run_of_stop (code : Code) {outcome : Except Fault Step}
    (stops : outcome ≠ .ok .going) : ∃ result, ∀ {m last : Machine}, m.step code = (outcome, last) →
      ∀ bound, m.run code (bound + 1) = some (result, last) := by
  match outcome with
  | .ok .going => exact absurd rfl stops
  | .ok .halted => exact ⟨.ok (), fun stepped bound => by rw [run_succ, stepped]⟩
  | .error fault => exact ⟨.error fault, fun stepped bound => by rw [run_succ, stepped]⟩

/-- Where steps lead that go on, a run ends as it does from where they began. -/
theorem Goes.ends_iff (goes : Goes code n m next) :
    Ends code next result last ↔ Ends code m result last := by
  constructor
  · exact goes.ends
  · rintro ⟨bound, run⟩
    refine ⟨bound, ?_⟩
    rw [← goes.run, Nat.add_comm]
    exact run_mono run n

/-- No step is counted back. -/
theorem steps_le_step (code : Code) (m : Machine) : m.steps ≤ (m.step code).2.steps := by
  rcases m.step_cases code with ⟨outcome, _, uncounted⟩ | ⟨outcome, next, counted, stepped⟩
  · have same : m.step code = (outcome, m) := uncounted m.limit
    exact Nat.le_of_eq (by rw [same])
  · have same : m.step code = _ := stepped m.limit
    rw [same]
    split
    · exact Nat.le_refl _
    · rw [steps_withLimit, counted]
      exact Nat.le_succ _

/-- At the end of a run at least as many steps have been counted as after its first. -/
theorem Ends.step_steps_le (ended : Ends code m result last) :
    (m.step code).2.steps ≤ last.steps := by
  induction ended using Ends.head_induction with
  | @going m next going _ ih =>
    rw [going]
    exact Nat.le_trans (steps_le_step code next) ih
  | halted _ halted _ => exact Nat.le_of_eq (by rw [halted])
  | faulted _ fault faulted _ => exact Nat.le_of_eq (by rw [faulted])

/-- A run under a limit that allows `k` steps more ends as the run without one does, or it stops
where that stands after `k` steps and is about to be counted once more. -/
theorem run_limited (code : Code) {k : Nat} (allowed : m.steps + k = limit) :
    (∃ result last, Ends code (m.withLimit none) result last ∧ last.steps ≤ limit ∧
      (m.withLimit (some limit)).run code (k + 1) = some (result, last.withLimit (some limit))) ∨
    ∃ next, Goes code k (m.withLimit none) next ∧ next.steps = limit ∧
      (m.withLimit (some limit)).run code (k + 1) =
        some (.error ⟨.stepLimit limit, next.ip⟩, next.withLimit (some limit)) ∧
      limit < (next.step code).2.steps := by
  -- On the steps that are still allowed. With none left, only a step that is not counted is free.
  induction k generalizing m with
  | zero =>
    obtain rfl : m.steps = limit := allowed
    rcases m.step_cases code with ⟨outcome, stops, uncounted⟩ | ⟨outcome, next, counted, stepped⟩
    · obtain ⟨result, ends⟩ := exists_run_of_stop code stops
      exact .inl ⟨result, m.withLimit none, ⟨1, ends (uncounted none) 0⟩, Nat.le_refl _,
        ends (uncounted _) 0⟩
    · refine .inr ⟨m.withLimit none, .refl _, rfl, ?_, ?_⟩
      · have faults := stepped (some m.steps)
        rw [limitReached?_self] at faults
        rw [run_succ, faults]
        rfl
      · have free : (m.withLimit none).step code = (outcome, next.withLimit none) := stepped none
        rw [free, steps_withLimit, counted]
        exact Nat.lt_succ_self _
  | succ k ih =>
    rcases m.step_cases code with ⟨outcome, stops, uncounted⟩ | ⟨outcome, next, counted, stepped⟩
    · obtain ⟨result, ends⟩ := exists_run_of_stop code stops
      have few : m.steps ≤ limit := by omega
      exact .inl ⟨result, m.withLimit none, ⟨1, ends (uncounted none) 0⟩, few,
        ends (uncounted _) _⟩
    · have free : (m.withLimit none).step code = (outcome, next.withLimit none) := stepped none
      have same := stepped (some limit)
      rw [limitReached?_of_lt (by omega)] at same
      by_cases going : outcome = .ok .going
      · subst going
        have first := Goes.single free
        have run : (m.withLimit (some limit)).run code (k + 1 + 1) =
            (next.withLimit (some limit)).run code (k + 1) := by rw [run_succ, same]
        rw [run]
        rcases ih (m := next) (by omega) with ⟨result, last, ended, few, ends⟩ | ⟨stop, goes, rest⟩
        · exact .inl ⟨result, last, first.ends ended, few, ends⟩
        · exact .inr ⟨stop, .step free goes, rest⟩
      · obtain ⟨result, ends⟩ := exists_run_of_stop code going
        have few : next.steps ≤ limit := by omega
        exact .inl ⟨result, next.withLimit none, ⟨1, ends free 0⟩, few, ends same _⟩

end Machine

/-- With any code, made of whatever words, a run under a limit makes no more than one step beyond
the limit, and then it has ended. If the run without a limit ends and has counted no more steps than
the limit, it has the same result and leaves the same machine. Otherwise it faults with the limit,
and leaves the machine as it is without a limit after just so many steps. A run ends with the step
that halts or faults, after the steps that go on. -/
theorem step_limit_exact (words : List UInt32) (strategy : JumpStrategy) (limit : Nat)
    (store : Store) :
    let code := Code.ofWords words
    let free := Machine.start strategy none store
    let limited := Machine.start strategy (some limit) store
    (∃ r, limited.run code (limit + 1) = some r) ∧
    (∀ result last, Machine.Ends code free result last → last.steps ≤ limit →
      limited.run code (limit + 1) = some (result, last.withLimit (some limit))) ∧
    ((∀ result last, Machine.Ends code free result last → limit < last.steps) →
      ∃ next, Machine.Goes code limit free next ∧ next.steps = limit ∧
        limited.run code (limit + 1) =
          some (.error ⟨.stepLimit limit, next.ip⟩, next.withLimit (some limit))) ∧
    ∀ m result last, Machine.Ends code m result last ↔
      ∃ n stop, Machine.Goes code n m stop ∧
        stop.step code = (result.map fun _ => .halted, last) := by
  intro code free limited
  have allowed : free.steps + limit = limit := Nat.zero_add limit
  rcases Machine.run_limited code allowed with
    ⟨result, last, ended, few, run⟩ | ⟨next, goes, steps, run, more⟩
  · refine ⟨⟨_, run⟩, ?_, ?_, fun _ _ _ => Machine.ends_iff_goes⟩
    · intro other last' ended' _
      obtain ⟨rfl, rfl⟩ := ended.unique ended'
      exact run
    · intro long
      exact absurd (long result last ended) (Nat.not_lt.mpr few)
  · refine ⟨⟨_, run⟩, ?_, fun _ => ⟨next, goes, steps, run⟩, fun _ _ _ => Machine.ends_iff_goes⟩
    intro result last ended few
    have counted := (goes.ends_iff.mpr ended).step_steps_le
    omega

/-- An end is no step: it is found even when none is left. -/
example : ((Machine.start .distance (some 1) ⟨.blank 1, ⟨[]⟩, .scripted [] []⟩).run
    (Code.ofWords [0x104]) 2).map (·.1) = some (.ok ()) := by
  rfl

end Brainfuck
