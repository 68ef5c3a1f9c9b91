import Brainfuck.Proofs.Flushing
import Brainfuck.Proofs.Renewal

/-!
# Executing again over what is left

An output that takes everything still does so after an execution (`Output.Open`), and an execution
changes neither the settings of a machine nor the number of its cells (`Machine.Like`). Main
statement: a session that has been executed over such an output is made anew as it would have been
before, over what is left of the input (`Session.anew_of_run`).
-/
namespace Brainfuck

/-- An output that takes every byte, and of which every flush is done. -/
structure Output.Open (output : Output) : Prop where
  writes : output.writes = []
  flushes : output.flushes = []

section

variable {output : Output}

theorem Output.Open.write (opened : output.Open) (value : UInt8) : (output.write value).2.Open := by
  obtain ⟨taken, writes, flushes, flushCalls, flushed⟩ := output
  obtain rfl := opened.writes
  exact ⟨rfl, opened.flushes⟩

theorem Output.Open.flush (opened : output.Open) : output.flush.2.Open := by
  obtain ⟨taken, writes, flushes, flushCalls, flushed⟩ := output
  obtain rfl := opened.flushes
  exact ⟨opened.writes, rfl⟩

/-- No operation closes the output. -/
theorem Output.Open.perform {store : Store} (opened : store.output.Open) (code : Code)
    (strategy : JumpStrategy) (ip : Nat) (op : Opcode) (operand : Nat) :
    (perform code strategy ip op operand store).2.output.Open := by
  rcases perform_store_cases code strategy ip op operand store with
    after | after | after | after | after | after | after
  · rwa [after]
  · rwa [after, Store.output_right]
  · rwa [after, Store.output_left]
  · rwa [after]
  · rwa [after]
  · rwa [after, Store.output_read]
  · rw [after, Store.output_write]
    exact opened.write _

end

namespace Machine

/-- A machine has the settings and the number of cells of another, and an open output. -/
structure Like (m n : Machine) : Prop where
  strategy : n.strategy = m.strategy
  limit : n.limit = m.limit
  size : n.store.tape.size = m.store.tape.size
  output : n.store.output.Open

variable {m n : Machine}

theorem Like.step (like : m.Like n) (code : Code) : m.Like (n.step code).2 := by
  have size : (n.step code).2.store.tape.size = m.store.tape.size :=
    (view_step (keeps_size code) n).trans like.size
  rcases step_stops_or_performs code n with ⟨result, _, _, stopped⟩ | ⟨i, op, _, _, _, _, stepped⟩
  · rwa [stopped]
  · have opened := like.output.perform code n.strategy n.ip op i.operand
    rw [stepped] at size ⊢
    generalize perform code n.strategy n.ip op i.operand n.store = performed at size opened ⊢
    obtain ⟨kind | next, after⟩ := performed
    · exact ⟨like.strategy, like.limit, size, opened⟩
    · exact ⟨like.strategy, like.limit, size, opened⟩

theorem Like.flush (like : m.Like n) : m.Like { n with store := n.store.flush.2 } where
  strategy := like.strategy
  limit := like.limit
  size := by
    rw [Store.flush_eq]
    exact like.size
  output := by
    rw [Store.flush_eq]
    exact like.output.flush

end Machine

namespace Session

variable {s t : Session} {code : Code} {bound : Nat} {result : Except SessionError Unit}

def withInput (input : Input) (s : Session) : Session :=
  s.mapStore (Store.mapStreams (fun _ => input) id)

/-- An execution over an open output leaves it open, with the settings and cells there were. -/
theorem like_of_run (active : s.Active code) (opened : s.machine.store.output.Open)
    (ran : s.run bound = some (result, t)) : s.machine.Like t.machine := by
  rw [active.run_eq] at ran
  obtain ⟨⟨ended, last⟩, run, concluded⟩ := Option.map_eq_some_iff.mp ran
  have like : s.machine.Like last :=
    Machine.Ends.keeps (fun _ like => like.step code) ⟨bound, run⟩ ⟨rfl, rfl, rfl, opened⟩
  obtain ⟨phase, _, left⟩ := conclude_closes ended (s.stopped code last)
  rw [concluded] at left
  cases left
  exact like.flush

/-- Made anew after an execution, a session is what it would have been before, over what is left of
the input. -/
theorem anew_of_run (active : s.Active code) (opened : s.machine.store.output.Open)
    (ran : s.run bound = some (result, t)) :
    t.code? = some code ∧ t.anew = s.anew.withInput t.machine.store.input := by
  have like := like_of_run active opened ran
  have executes := executes_of_run ran
  refine ⟨executes.code?_eq active, ?_⟩
  rcases executes.cases_kept with ⟨_, refusal, refused⟩ | ⟨_, source, flags, _⟩
  · cases refused.symm.trans active.begin_eq
  · simp only [anew, withInput, mapStore, Store.mapStreams, Machine.start, source, flags,
      like.strategy, like.limit, like.size, like.output.writes, like.output.flushes,
      opened.writes, opened.flushes, id]

/-- What has been put out before makes no difference to a run. -/
theorem run_following (earlier : Output) (s : Session) (bound : Nat) :
    (s.following earlier).run bound = (s.run bound).map fun r => (r.1, r.2.following earlier) :=
  run_of_indifferent (Store.indifferent_following earlier) bound s

/-- Nor does it make a difference whether the code is there that is going to be compiled. -/
theorem Untried.run_holding (untried : s.Untried code) (bound : Nat) :
    (s.holding code).run bound = s.run bound := by
  rw [run, run, untried.begin_holding]

end Session
end Brainfuck
