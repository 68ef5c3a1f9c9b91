import Brainfuck.Proofs.Acts
import Brainfuck.Proofs.Jumping

/-!
# Executions

Steps that go on are counted by `Machine.Goes`. A run ends in one way or runs on: how many steps it
is given makes no difference to its end (`Ends.unique`, `ends_or_runsOn`). It ends with a step that
halts or faults, after steps that go on (`ends_iff_goes`), and what is said of it is shown step by
step, from its first step on (`Ends.head_induction`). Main statement: when each step of one machine
is matched by at least one step of another, either both end or both run on (`Simulation.outcome`).
-/
namespace Brainfuck

/-- Whether no operation in a code changes a part of the store. -/
def Code.Keeps {α : Type} (code : Code) (view : Store → α) : Prop :=
  ∀ (strategy : JumpStrategy) (ip : Nat) (op : Opcode) (operand : Nat) (store : Store),
    view (perform code strategy ip op operand store).2 = view store

/-- Whether a step that faults in this way has been counted before it did. -/
def FaultKind.isCounted : FaultKind → Bool
  | noInstruction _ | unknownOpcode _ | stepLimit _ => false
  | pastLastCell _ _ _ | beforeFirstCell _ _ | mismatchedJump _ | unbalancedJump | stream _ => true

theorem andThenNext_snd (ip : Nat) (r : Except FaultKind Unit × Store) :
    (andThenNext ip r).2 = r.2 := by
  obtain ⟨kind | _, store⟩ := r
  · rfl
  · rfl

/-- An operation changes the store as one of six does, or not at all. -/
theorem perform_store_cases (code : Code) (strategy : JumpStrategy) (ip : Nat) (op : Opcode)
    (operand : Nat) (store : Store) :
    let after := (perform code strategy ip op operand store).2
    after = store ∨ after = (store.right operand).2 ∨ after = (store.left operand).2 ∨
      after = store.add operand ∨ after = store.subtract operand ∨ after = store.read.2 ∨
      after = store.write.2 := by
  intro after
  cases op with
  | eof => exact .inl rfl
  | nop => exact .inl rfl
  | moveRight => exact .inr (.inl (andThenNext_snd ip _))
  | moveLeft => exact .inr (.inr (.inl (andThenNext_snd ip _)))
  | add => exact .inr (.inr (.inr (.inl rfl)))
  | subtract => exact .inr (.inr (.inr (.inr (.inl rfl))))
  | read => exact .inr (.inr (.inr (.inr (.inr (.inl (andThenNext_snd ip _))))))
  | write => exact .inr (.inr (.inr (.inr (.inr (.inr (andThenNext_snd ip _))))))
  | jumpForward =>
    left
    simp only [after, perform]
    split <;> rfl
  | jumpBackward =>
    left
    simp only [after, perform]
    split <;> rfl

/-- What the six do not change, no operation changes. -/
theorem Code.keeps_of_store {α : Type} {view : Store → α} (code : Code)
    (keptRight : ∀ distance s, view (Store.right distance s).2 = view s)
    (keptLeft : ∀ distance s, view (Store.left distance s).2 = view s)
    (keptAdd : ∀ amount s, view (Store.add amount s) = view s)
    (keptSubtract : ∀ amount s, view (Store.subtract amount s) = view s)
    (keptRead : ∀ s : Store, view s.read.2 = view s)
    (keptWrite : ∀ s : Store, view s.write.2 = view s) : code.Keeps view := by
  intro strategy ip op operand store
  rcases perform_store_cases code strategy ip op operand store with
    after | after | after | after | after | after | after
  · rw [after]
  · rw [after, keptRight]
  · rw [after, keptLeft]
  · rw [after, keptAdd]
  · rw [after, keptSubtract]
  · rw [after, keptRead]
  · rw [after, keptWrite]

namespace Machine

/-- So many steps that go on lead from one machine to another. -/
inductive Goes (code : Code) : Nat → Machine → Machine → Prop
  | refl (m : Machine) : Goes code 0 m m
  | step {n : Nat} {m next last : Machine} :
      m.step code = (.ok .going, next) → Goes code n next last → Goes code (n + 1) m last

def Ends (code : Code) (m : Machine) (result : Except Fault Unit) (last : Machine) : Prop :=
  ∃ bound, m.run code bound = some (result, last)

def RunsOn (code : Code) (m : Machine) : Prop :=
  ∀ bound, m.run code bound = none

variable {code : Code} {m next last : Machine} {n : Nat}

theorem Goes.single (going : m.step code = (.ok .going, next)) : Goes code 1 m next :=
  .step going (.refl next)

theorem Goes.trans {k : Nat} (first : Goes code n m next) (second : Goes code k next last) :
    Goes code (n + k) m last := by
  induction first with
  | refl m => rwa [Nat.zero_add]
  | step going _ ih =>
    rw [Nat.add_right_comm]
    exact .step going (ih second)

theorem run_succ (code : Code) (bound : Nat) (m : Machine) :
    m.run code (bound + 1) =
      match m.step code with
      | (.ok .going, m) => run code bound m
      | (.ok .halted, m) => some (.ok (), m)
      | (.error fault, m) => some (.error fault, m) := rfl

theorem Goes.run (goes : Goes code n m next) (bound : Nat) :
    m.run code (n + bound) = next.run code bound := by
  induction goes with
  | refl m => rw [Nat.zero_add]
  | step going _ ih => rw [Nat.add_right_comm, run_succ, going, ← ih]

theorem run_mono {bound : Nat} {r : Except Fault Unit × Machine}
    (ended : m.run code bound = some r) (more : Nat) : m.run code (bound + more) = some r := by
  induction bound generalizing m with
  | zero => cases ended
  | succ bound ih =>
    rw [Nat.add_right_comm, run_succ]
    rw [run_succ] at ended
    split at ended
    · exact ih ended
    · exact ended
    · exact ended

/-- How a run ends does not depend on the bound. -/
theorem Ends.unique {result other : Except Fault Unit} {last' : Machine}
    (one : Ends code m result last) (two : Ends code m other last') :
    result = other ∧ last = last' := by
  obtain ⟨b, hb⟩ := one
  obtain ⟨c, hc⟩ := two
  have same := run_mono hc b
  rw [Nat.add_comm c b, run_mono hb c] at same
  exact Prod.mk.inj (Option.some.inj same)

theorem ends_or_runsOn (code : Code) (m : Machine) :
    (∃ result last, Ends code m result last) ∨ RunsOn code m := by
  by_cases ended : ∃ bound, (m.run code bound).isSome
  · obtain ⟨bound, isSome⟩ := ended
    obtain ⟨⟨result, last⟩, run⟩ := Option.isSome_iff_exists.mp isSome
    exact .inl ⟨result, last, bound, run⟩
  · exact .inr fun bound => Option.not_isSome_iff_eq_none.mp fun isSome => ended ⟨bound, isSome⟩

theorem RunsOn.not_ends {result : Except Fault Unit} (on : RunsOn code m) :
    ¬ Ends code m result last := by
  rintro ⟨bound, run⟩
  cases (on bound).symm.trans run

theorem Goes.ends {result : Except Fault Unit} (goes : Goes code n m next)
    (ended : Ends code next result last) : Ends code m result last := by
  obtain ⟨bound, run⟩ := ended
  exact ⟨n + bound, (goes.run bound).trans run⟩

theorem Goes.runsOn (goes : Goes code n m next) (on : RunsOn code next) : RunsOn code m := by
  intro bound
  cases run : m.run code bound with
  | none => rfl
  | some r =>
    have later := run_mono run n
    rw [Nat.add_comm, goes.run, on] at later
    cases later

theorem Ends.of_step {result : Except Fault Unit} (ended : m.run code 1 = some (result, last)) :
    Ends code m result last := ⟨1, ended⟩

/-- Induction over a run that ends. Its first step goes on, or it ends the run. -/
@[elab_as_elim]
theorem Ends.head_induction {result : Except Fault Unit}
    {motive : (m : Machine) → Ends code m result last → Prop}
    (going : ∀ {m next : Machine} (step : m.step code = (.ok .going, next))
      (ended : Ends code next result last),
      motive next ended → motive m ((Goes.single step).ends ended))
    (halted : ∀ {m : Machine} (ended : Ends code m result last),
      m.step code = (.ok .halted, last) → result = .ok () → motive m ended)
    (faulted : ∀ {m : Machine} (ended : Ends code m result last) (fault : Fault),
      m.step code = (.error fault, last) → result = .error fault → motive m ended)
    {m : Machine} (ended : Ends code m result last) : motive m ended := by
  obtain ⟨bound, run⟩ := ended
  induction bound generalizing m with
  | zero => cases run
  | succ bound ih =>
    have first := run
    rw [run_succ] at first
    split at first
    · next next step => exact going step ⟨bound, first⟩ (ih first)
    · next next step =>
      cases first
      exact halted ⟨bound + 1, run⟩ step rfl
    · next fault next step =>
      cases first
      exact faulted ⟨bound + 1, run⟩ fault step rfl

/-- A run ends with a step that halts or faults, after some that go on. -/
theorem ends_iff_goes {result : Except Fault Unit} : Ends code m result last ↔
    ∃ n stop, Goes code n m stop ∧ stop.step code = (result.map fun _ => .halted, last) := by
  constructor
  · intro ended
    induction ended using Ends.head_induction with
    | going step _ ih =>
      obtain ⟨n, stop, goes, stops⟩ := ih
      exact ⟨n + 1, stop, .step step goes, stops⟩
    | halted _ halted same => exact ⟨0, _, .refl _, same ▸ halted⟩
    | faulted _ fault faulted same => exact ⟨0, _, .refl _, same ▸ faulted⟩
  · rintro ⟨n, stop, goes, stops⟩
    apply goes.ends
    cases result with
    | ok => exact ⟨1, by rw [run_succ, stops]; rfl⟩
    | error fault => exact ⟨1, by rw [run_succ, stops]; rfl⟩

/-- A machine that goes on as often as one likes runs on. -/
theorem runsOn_of_goes (often : ∀ n, ∃ k next, n ≤ k ∧ Goes code k m next) : RunsOn code m := by
  intro bound
  cases run : m.run code bound with
  | none => rfl
  | some r =>
    obtain ⟨k, next, enough, goes⟩ := often bound
    have stuck := goes.run 0
    rw [← Nat.add_sub_cancel' enough, Nat.add_zero, run_mono run] at stuck
    cases stuck

theorem RunsOn.step (on : RunsOn code m) :
    ∃ next, m.step code = (.ok .going, next) ∧ RunsOn code next := by
  have first := on 1
  rw [run_succ] at first
  split at first
  · next next going =>
    refine ⟨next, going, ?_⟩
    intro bound
    have later := on (bound + 1)
    rwa [run_succ, going] at later
  · cases first
  · cases first

/-- What matches a step on the side of another machine: one or more steps that keep up the relation
when it goes on, and an end that agrees when it ends. -/
def Matched (code : Code) (Related : Machine → Machine → Prop)
    (Agree : Except Fault Unit × Machine → Except Fault Unit × Machine → Prop) (b : Machine) :
    Except Fault Step × Machine → Prop
  | (.ok .going, a') => ∃ k b', Goes code (k + 1) b b' ∧ Related a' b'
  | (.ok .halted, a') => ∃ r, Ends code b r.1 r.2 ∧ Agree (.ok (), a') r
  | (.error fault, a') => ∃ r, Ends code b r.1 r.2 ∧ Agree (.error fault, a') r

/-- A relation between two machines under which every step of the first is matched. -/
def Simulation (codeA codeB : Code) (Related : Machine → Machine → Prop)
    (Agree : Except Fault Unit × Machine → Except Fault Unit × Machine → Prop) : Prop :=
  ∀ ⦃a b : Machine⦄, Related a b → Matched codeB Related Agree b (a.step codeA)

namespace Simulation

variable {codeA codeB : Code} {Related : Machine → Machine → Prop}
  {Agree : Except Fault Unit × Machine → Except Fault Unit × Machine → Prop} {a b : Machine}

theorem ends (sim : Simulation codeA codeB Related Agree) (related : Related a b)
    {result : Except Fault Unit} {last : Machine} (ended : Ends codeA a result last) :
    ∃ r, Ends codeB b r.1 r.2 ∧ Agree (result, last) r := by
  induction ended using Ends.head_induction generalizing b with
  | going step _ ih =>
    have matched := sim related
    rw [step] at matched
    obtain ⟨k, b', goes, related'⟩ := matched
    obtain ⟨r, ended, agree⟩ := ih related'
    exact ⟨r, goes.ends ended, agree⟩
  | halted _ step same =>
    have matched := sim related
    rw [step] at matched
    rw [same]
    exact matched
  | faulted _ fault step same =>
    have matched := sim related
    rw [step] at matched
    rw [same]
    exact matched

theorem runsOn (sim : Simulation codeA codeB Related Agree) (related : Related a b)
    (on : RunsOn codeA a) : RunsOn codeB b := by
  apply runsOn_of_goes
  intro n
  induction n generalizing a b with
  | zero => exact ⟨0, b, Nat.le_refl 0, .refl b⟩
  | succ n ih =>
    obtain ⟨a', step, on'⟩ := on.step
    have matched := sim related
    rw [step] at matched
    obtain ⟨k, b', goes, related'⟩ := matched
    obtain ⟨k', last, enough, goes'⟩ := ih related' on'
    exact ⟨k + 1 + k', last, by omega, goes.trans goes'⟩

/-- Both machines end, in agreement, or both run on. -/
theorem outcome (sim : Simulation codeA codeB Related Agree) (related : Related a b) :
    (∃ r r', Ends codeA a r.1 r.2 ∧ Ends codeB b r'.1 r'.2 ∧ Agree r r') ∨
      (RunsOn codeA a ∧ RunsOn codeB b) := by
  rcases ends_or_runsOn codeA a with ⟨result, last, ended⟩ | on
  · obtain ⟨r, ended', agree⟩ := sim.ends related ended
    exact .inl ⟨(result, last), r, ended, ended', agree⟩
  · exact .inr ⟨on, sim.runsOn related on⟩

end Simulation

/-! ### Steps by what they perform -/

section Performed

variable {ip steps : Nat} {strategy : JumpStrategy} {store after : Store} {i : Instruction}
  {op : Opcode}

theorem step_eq_perform (here : code.get? ip = some i) (assigned : i.opcode? = some op)
    (notEnd : op ≠ .eof) (limit : Option Nat) :
    step code ⟨ip, steps, strategy, limit, store⟩ =
      match limitReached? limit steps with
      | some limit' => (.error ⟨.stepLimit limit', ip⟩, ⟨ip, steps, strategy, limit, store⟩)
      | none =>
        match perform code strategy ip op i.operand store with
        | (.ok next, store) => (.ok .going, ⟨next, steps + 1, strategy, limit, store⟩)
        | (.error kind, store) =>
          (.error ⟨kind, ip⟩, ⟨ip, steps + 1, strategy, limit, store⟩) := by
  simp only [step, here]
  split
  · next unassigned => cases assigned.symm.trans unassigned
  · next ends => exact absurd (Option.some.inj (assigned.symm.trans ends)) notEnd
  · next same =>
    obtain rfl := Option.some.inj (assigned.symm.trans same)
    rfl

/-- What a step does: it ends the run where the machine stands and nothing is counted, or it is
counted and performs the instruction at the pointer. -/
theorem step_stops_or_performs (code : Code) (m : Machine) :
    (∃ result, result ≠ .ok .going ∧
      (∀ fault, result = .error fault → fault.ip = m.ip ∧ fault.kind.isCounted = false ∧
        ∀ size, fault.kind = .noInstruction size → code.get? m.ip = none) ∧
      m.step code = (result, m)) ∨
    ∃ i op, code.get? m.ip = some i ∧ i.opcode? = some op ∧ op ≠ .eof ∧
      limitReached? m.limit m.steps = none ∧
      m.step code =
        match perform code m.strategy m.ip op i.operand m.store with
        | (.ok next, store) => (.ok .going, ⟨next, m.steps + 1, m.strategy, m.limit, store⟩)
        | (.error kind, store) =>
          (.error ⟨kind, m.ip⟩, ⟨m.ip, m.steps + 1, m.strategy, m.limit, store⟩) := by
  cases here : code.get? m.ip with
  | none =>
    left
    refine ⟨.error ⟨.noInstruction code.size, m.ip⟩, by rintro ⟨⟩, ?_, ?_⟩
    · rintro fault ⟨⟩
      exact ⟨rfl, rfl, fun _ _ => rfl⟩
    · simp only [step, here]
  | some i =>
    cases assigned : i.opcode? with
    | none =>
      left
      refine ⟨.error ⟨.unknownOpcode i.code, m.ip⟩, by rintro ⟨⟩, ?_, ?_⟩
      · rintro fault ⟨⟩
        exact ⟨rfl, rfl, fun _ => FaultKind.noConfusion⟩
      · simp only [step, here, assigned]
    | some op =>
      by_cases ends : op = .eof
      · left
        refine ⟨.ok .halted, by rintro ⟨⟩, ?_, ?_⟩
        · rintro fault ⟨⟩
        · simp only [step, here, assigned, ends]
      · have stepped : step code m = _ := step_eq_perform here assigned ends m.limit
        cases reached : limitReached? m.limit m.steps with
        | some limit =>
          left
          rw [reached] at stepped
          refine ⟨.error ⟨.stepLimit limit, m.ip⟩, by rintro ⟨⟩, ?_, stepped⟩
          rintro fault ⟨⟩
          exact ⟨rfl, rfl, fun _ => FaultKind.noConfusion⟩
        | none =>
          right
          rw [reached] at stepped
          exact ⟨i, op, rfl, assigned, ends, rfl, stepped⟩

/-- A step that goes on is counted. -/
theorem steps_of_going (going : m.step code = (.ok .going, next)) : next.steps = m.steps + 1 := by
  rcases step_stops_or_performs code m with
    ⟨result, stops, _, stopped⟩ | ⟨i, op, _, _, _, _, stepped⟩
  · rw [stopped] at going
    cases going
    exact absurd rfl stops
  · rw [stepped] at going
    split at going
    · cases going
      rfl
    · cases going

/-- What no operation changes of the store, no step changes. -/
theorem view_step {α : Type} {view : Store → α} (kept : code.Keeps view) (m : Machine) :
    view (m.step code).2.store = view m.store := by
  rcases step_stops_or_performs code m with ⟨result, _, _, stopped⟩ | ⟨i, op, _, _, _, _, stepped⟩
  · rw [stopped]
  · rw [stepped, ← kept m.strategy m.ip op i.operand m.store]
    rcases perform code m.strategy m.ip op i.operand m.store with ⟨kind | next, after⟩
    · rfl
    · rfl

/-- What holds after a step if it did before holds at the end of a run. -/
theorem Ends.keeps {P : Machine → Prop} (step : ∀ m, P m → P (m.step code).2)
    {result : Except Fault Unit} (ended : Ends code m result last) (holds : P m) : P last := by
  induction ended using Ends.head_induction with
  | going going _ ih =>
    have next := step _ holds
    rw [going] at next
    exact ih next
  | halted _ halted _ =>
    have last := step _ holds
    rwa [halted] at last
  | faulted _ fault faulted _ =>
    have last := step _ holds
    rwa [faulted] at last

/-- What no operation changes of the store, no run changes. -/
theorem Ends.view_eq {α : Type} {view : Store → α} (kept : code.Keeps view)
    {result : Except Fault Unit} (ended : Ends code m result last) :
    view last.store = view m.store :=
  ended.keeps (P := fun n => view n.store = view m.store)
    (fun n same => (view_step kept n).trans same) rfl

theorem step_going (here : code.get? ip = some i) (assigned : i.opcode? = some op)
    (notEnd : op ≠ .eof) {next : Nat}
    (done : perform code strategy ip op i.operand store = (.ok next, after)) :
    step code ⟨ip, steps, strategy, none, store⟩ =
      (.ok .going, ⟨next, steps + 1, strategy, none, after⟩) := by
  rw [step_eq_perform here assigned notEnd, done]
  rfl

theorem step_fault (here : code.get? ip = some i) (assigned : i.opcode? = some op)
    (notEnd : op ≠ .eof) {kind : FaultKind}
    (failed : perform code strategy ip op i.operand store = (.error kind, after)) :
    step code ⟨ip, steps, strategy, none, store⟩ =
      (.error ⟨kind, ip⟩, ⟨ip, steps + 1, strategy, none, after⟩) := by
  rw [step_eq_perform here assigned notEnd, failed]
  rfl

theorem step_act {a : Act} (here : code.get? ip = some (.ofGlyph a.glyph))
    (effect : a.effect store = (.ok (), after)) :
    step code ⟨ip, steps, strategy, none, store⟩ =
      (.ok .going, ⟨ip + 1, steps + 1, strategy, none, after⟩) := by
  obtain ⟨op, assigned, notEnd, performs⟩ := a.perform_eq
  exact step_going here assigned notEnd (by rw [performs, effect]; rfl)

theorem step_failing_act {a : Act} (here : code.get? ip = some (.ofGlyph a.glyph))
    {kind : FaultKind} (effect : a.effect store = (.error kind, after)) :
    step code ⟨ip, steps, strategy, none, store⟩ =
      (.error ⟨kind, ip⟩, ⟨ip, steps + 1, strategy, none, after⟩) := by
  obtain ⟨op, assigned, notEnd, performs⟩ := a.perform_eq
  exact step_fault here assigned notEnd (by rw [performs, effect]; rfl)

theorem step_last (code : Code) (steps : Nat) (strategy : JumpStrategy) (limit : Option Nat)
    (store : Store) : step code ⟨code.body.size, steps, strategy, limit, store⟩ =
      (.ok .halted, ⟨code.body.size, steps, strategy, limit, store⟩) := by
  simp only [step, Code.get?_last]
  rfl

variable {start distance : Nat}

/-- An opening bracket at a zero cell leads past its loop. -/
theorem step_opening_zero (pair : code.Paired start distance) (zero : store.isZero = true) :
    step code ⟨start, steps, strategy, none, store⟩ =
      (.ok .going, ⟨start + distance + 1, steps + 1, strategy, none, store⟩) := by
  obtain ⟨fits, opens⟩ := pair.opens
  refine step_going opens (Instruction.opcode?_make ..) Opcode.noConfusion ?_
  simp only [perform, zero, if_true, Instruction.operand_make, pair.forwardTarget]

/-- An opening bracket at another cell leads into its loop. -/
theorem step_opening_nonzero (pair : code.Paired start distance) (nonzero : store.isZero = false) :
    step code ⟨start, steps, strategy, none, store⟩ =
      (.ok .going, ⟨start + 1, steps + 1, strategy, none, store⟩) := by
  obtain ⟨fits, opens⟩ := pair.opens
  refine step_going opens (Instruction.opcode?_make ..) Opcode.noConfusion ?_
  simp only [perform, nonzero, Bool.false_eq_true, if_false]

/-- A closing bracket at a zero cell leads past its loop. -/
theorem step_closing_zero (pair : code.Paired start distance) (zero : store.isZero = true) :
    step code ⟨start + distance, steps, strategy, none, store⟩ =
      (.ok .going, ⟨start + distance + 1, steps + 1, strategy, none, store⟩) := by
  obtain ⟨fits, closes⟩ := pair.closes
  refine step_going closes (Instruction.opcode?_make ..) Opcode.noConfusion ?_
  simp only [perform, zero, if_true]

/-- A closing bracket at another cell leads back to the opening one. -/
theorem step_closing_nonzero (pair : code.Paired start distance) (nonzero : store.isZero = false) :
    step code ⟨start + distance, steps, strategy, none, store⟩ =
      (.ok .going, ⟨start, steps + 1, strategy, none, store⟩) := by
  obtain ⟨fits, closes⟩ := pair.closes
  refine step_going closes (Instruction.opcode?_make ..) Opcode.noConfusion ?_
  simp only [perform, nonzero, Bool.false_eq_true, if_false, Instruction.operand_make,
    pair.backwardTarget]

end Performed

end Machine
end Brainfuck
