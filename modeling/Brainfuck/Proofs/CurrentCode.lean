import Brainfuck.Proofs.Consistency
import Brainfuck.Proofs.Moves

/-!
# The code of a session is that of its source

The code that a session keeps is the one that its source has under the optimizations asked for last
(`lastFlags`). Only other optimizations take it away. Main statement: whatever was asked before, a
session hands out, runs and steps this code and no other, and where there is none it does nothing
(`code_current_of_reaches`).
-/
namespace Brainfuck

open Machine

def lastFlags : List Event → Flags
  | [] => .plain
  | e :: past => e.move.flags?.getD (lastFlags past)

theorem Move.flags?_of_executes {move : Move} (executes : move.executes = true) :
    move.flags? = none := by
  cases move with
  | withFlags flags => cases executes
  | _ => rfl

namespace Session

/-- What a session executes when it executes a code: a run is the run of its machine over the code,
a step is one step over it, each concluded where the machine comes to an end, and the session has
the code from then on. -/
structure ExecutesCode (s : Session) (code : Code) : Prop where
  run : ∀ bound, s.run bound =
    (s.machine.run code bound).map fun r => conclude r.1 (s.stopped code r.2)
  going : ∀ next, s.machine.step code = (.ok .going, next) →
    s.step = (.ok .running, s.stopped code next)
  ended : ∀ result last, s.machine.run code 1 = some (result, last) →
    s.step = ((conclude result (s.stopped code last)).1.map fun _ => .halted,
      (conclude result (s.stopped code last)).2)
  kept : ∀ (move : Move) (reply : Reply) (t : Session), move.executes = true →
    move.perform s = some (reply, t) → t.code? = some code

variable {s t : Session} {move : Move} {reply : Reply} {past : List Event}

theorem Active.executesCode {code : Code} (active : s.Active code) : s.ExecutesCode code where
  run := active.run_eq
  going := by
    intro next going
    rcases active.step_cases with ⟨next', going', stepped⟩ | ⟨result, last, ran, _⟩
    · cases going.symm.trans going'
      exact stepped
    · have ended := ran 0
      rw [run_succ, going] at ended
      cases ended
  ended := by
    intro result last ended
    rcases active.step_cases with ⟨next, going, _⟩ | ⟨result', last', ran, stepped⟩
    · rw [run_succ, going] at ended
      cases ended
    · cases (ran 0).symm.trans ended
      exact stepped
  kept := by
    intro move reply t executes performed
    rcases perform_cases performed with ⟨_, outcome, executed⟩ | ⟨rfl, _⟩ | rests
    · exact executed.code?_eq active
    · cases executes
    · cases rests.idle.symm.trans executes

/-- A move keeps the source, and it has the optimizations that it asks for. -/
theorem program_of_perform (performed : move.perform s = some (reply, t)) :
    t.source = s.source ∧ t.flags = move.flags?.getD s.flags := by
  rcases perform_cases performed with ⟨executes, outcome, executed⟩ | ⟨rfl, rfl⟩ | rests
  · rw [Move.flags?_of_executes executes]
    rcases executed.cases_kept with ⟨rfl, _⟩ | ⟨_, source, flags, _⟩
    · exact ⟨rfl, rfl⟩
    · exact ⟨source, flags⟩
  · exact ⟨rfl, rfl⟩
  · exact ⟨rests.source, rests.flags⟩

theorem program_of_reaches {source : String} {input : Input} {output : Output}
    (reached : (ofSource source input output).Reaches past s) :
    s.source = source ∧ s.flags = lastFlags past := by
  induction reached with
  | start => exact ⟨rfl, rfl⟩
  | move _ performed ih =>
    obtain ⟨keptSource, asked⟩ := program_of_perform performed
    constructor
    · exact keptSource.trans ih.1
    · rw [asked, ih.2, lastFlags]

/-- Only a change of the optimizations takes the code away. -/
theorem flags?_of_code_lost (performed : move.perform s = some (reply, t)) {code : Code}
    (given : s.code? = some code) (lost : t.code? = none) : ∃ flags, move = .withFlags flags := by
  rcases perform_cases performed with ⟨_, outcome, executed⟩ | ⟨_, rfl⟩ | rests
  · rcases executed.cases_kept with ⟨rfl, _⟩ | ⟨_, _, _, other, _, present⟩
    · cases given.symm.trans lost
    · cases present.symm.trans lost
  · have present : s.code? = none := lost
    cases given.symm.trans present
  · cases asked : move.flags? with
    | none => cases (rests.code asked code given).symm.trans lost
    | some flags => exact ⟨flags, Move.exists_of_flags? asked⟩

/-- A session that is refused does the same to a run and to a step: nothing. -/
theorem exists_refusal (refused : s.phase.isFinal = true ∨ ∃ e, s.compile = (.error e, s)) :
    ∃ refusal, (∀ bound, s.run bound = some (.error refusal, s)) ∧
      s.step = (.error refusal, s) := by
  rcases s.begin_error_or_active with ⟨refusal, begun⟩ | ⟨code, active⟩
  · exact ⟨refusal, run_of_begin_error begun, step_of_begin_error begun⟩
  · rcases refused with final | ⟨e, failed⟩
    · cases active.unfinished.symm.trans final
    · have compiled := active.compiled
      rw [failed] at compiled
      cases compiled

end Session

/-- However a session has come about, code that it has is that of its source under the optimizations
asked for last, and only a change of these takes it away. If the source compiles under them, this
code is handed out, and it is the one that a session executes that is not finished. If it does not,
or if the session is finished, nothing is executed and nothing changes. -/
theorem code_current_of_reaches {source : String} {input : Input} {output : Output}
    {past : List Event} {s : Session}
    (reached : (Session.ofSource source input output).Reaches past s) :
    (s.source = source ∧ s.flags = lastFlags past) ∧
    (∀ code, s.code? = some code → compile s.flags source = .ok code) ∧
    (∀ (move : Move) (reply : Reply) (t : Session), move.perform s = some (reply, t) →
      s.code?.isSome → t.code? = none → ∃ flags, move = .withFlags flags) ∧
    (∀ code, compile s.flags source = .ok code →
      s.compile = (.ok code, { s with code? := some code }) ∧
      (s.phase.isFinal = false → s.ExecutesCode code)) ∧
    (∀ e, compile s.flags source = .error e → s.compile = (.error e, s)) ∧
    (s.phase.isFinal = true ∨ (∃ e, compile s.flags source = .error e) →
      ∃ refusal, (∀ bound, s.run bound = some (.error refusal, s)) ∧
        s.step = (.error refusal, s)) := by
  obtain ⟨rfl, flags⟩ := Session.program_of_reaches reached
  have current := (Session.coherent_of_reaches reached).current
  have failing : ∀ e, compile s.flags s.source = .error e → s.compile = (.error e, s) := by
    intro e failed
    rcases s.compile_cases with ⟨code, given | ⟨_, made⟩, _⟩ | ⟨e', _, failed', compiled⟩
    · cases (current code given).symm.trans failed
    · cases made.symm.trans failed
    · cases failed'.symm.trans failed
      exact compiled
  refine ⟨⟨rfl, flags⟩, current, ?_, ?_, failing, ?_⟩
  · intro move reply t performed present lost
    obtain ⟨code, given⟩ := Option.isSome_iff_exists.mp present
    exact Session.flags?_of_code_lost performed given lost
  · intro code made
    have compiled : s.compile = (.ok code, { s with code? := some code }) := by
      rcases s.compile_cases with ⟨other, given | ⟨_, made'⟩, compiled⟩ | ⟨_, _, failed, _⟩
      · cases (current other given).symm.trans made
        exact compiled
      · cases made'.symm.trans made
        exact compiled
      · cases failed.symm.trans made
    refine ⟨compiled, ?_⟩
    intro unfinished
    have active : s.Active code := ⟨unfinished, by rw [compiled]⟩
    exact active.executesCode
  · rintro (final | ⟨e, failed⟩)
    · exact Session.exists_refusal (.inl final)
    · exact Session.exists_refusal (.inr ⟨e, failing e failed⟩)

/-- A program whose optimizations are changed after its first step, and changed again. -/
theorem code_current_of_reaches_after_changes :
    let first := Session.ofSource "++[-]." ⟨[]⟩ (.scripted [] [])
    let s := ((((first.resize 1).step.2.withFlags .all).step.2).withFlags .plain).compile.2
    ∃ past code, first.Reaches past s ∧ lastFlags past = .plain ∧ s.code? = some code ∧
      code.size = 7 ∧ compile .plain "++[-]." = .ok code ∧ s.ExecutesCode code := by
  intro first s
  have resized : (Move.resize 1).perform first = some (.done, first.resize 1) := rfl
  have stepped : Move.step.perform (first.resize 1) = some (_, (first.resize 1).step.2) := rfl
  have changed : (Move.withFlags .all).perform (first.resize 1).step.2 =
    some (_, (first.resize 1).step.2.withFlags .all) := rfl
  have onward : Move.step.perform ((first.resize 1).step.2.withFlags .all) =
    some (_, ((first.resize 1).step.2.withFlags .all).step.2) := rfl
  have back : (Move.withFlags .plain).perform ((first.resize 1).step.2.withFlags .all).step.2 =
    some (_, (((first.resize 1).step.2.withFlags .all).step.2).withFlags .plain) := rfl
  have compiled : Move.compile.perform
    ((((first.resize 1).step.2.withFlags .all).step.2).withFlags .plain) = some (_, s) := rfl
  have reached := (((((Session.Reaches.start.move resized).move stepped).move changed).move
    onward).move back).move compiled
  obtain ⟨_, current, _, executes, _⟩ := code_current_of_reaches reached
  have given : s.code? = some _ := rfl
  have made := current _ given
  exact ⟨_, _, reached, rfl, given, rfl, made, (executes _ made).2 rfl⟩

end Brainfuck
