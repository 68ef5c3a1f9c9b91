import Brainfuck.Proofs.Executing
import Brainfuck.Proofs.History

/-!
# What a move does to a session

A move executes the program, or it starts the session over, or it leaves it at rest
(`Session.perform_cases`). A session at rest keeps its program, its phase, its counters and its
streams, and the tape stays or is made of zeros (`Session.Rests`). A session whose execution is
refused stays as it is; else it has its code and is ready no more (`Executes.cases_kept`).
-/
namespace Brainfuck

def Move.executes : Move → Bool
  | run _ | step => true
  | compile | reset | resize _ | withFlags _ | withStrategy _ | withLimit _ => false

def Move.flags? : Move → Option Flags
  | withFlags flags => some flags
  | compile | run _ | step | reset | resize _ | withStrategy _ | withLimit _ => none

theorem Move.exists_of_executes {move : Move} (executes : move.executes = true) :
    move = .step ∨ ∃ bound, move = .run bound := by
  cases move with
  | step => exact .inl rfl
  | run bound => exact .inr ⟨bound, rfl⟩
  | _ => cases executes

theorem Move.exists_of_flags? {move : Move} {flags : Flags} (asked : move.flags? = some flags) :
    move = .withFlags flags := by
  cases move with
  | withFlags other =>
    have same : other = flags := Option.some.inj asked
    rw [same]
  | _ => cases asked

namespace Session

/-- What stays of a session when a move neither executes it nor starts it over. -/
structure Rests (s : Session) (move : Move) (t : Session) : Prop where
  idle : move.executes = false
  source : t.source = s.source
  flags : t.flags = move.flags?.getD s.flags
  code : move.flags? = none → ∀ code, s.code? = some code → t.code? = some code
  phase : t.phase = s.phase
  ip : t.machine.ip = s.machine.ip
  steps : t.machine.steps = s.machine.steps
  tape : t.machine.store.tape = s.machine.store.tape ∨
    ∃ cells, t.machine.store.tape = .blank cells
  input : t.machine.store.input = s.machine.store.input
  output : t.machine.store.output = s.machine.store.output

variable {s t : Session} {move : Move} {reply : Reply}

theorem rests_resize (cells : Nat) (s : Session) : s.Rests (.resize cells) (s.resize cells) where
  idle := rfl
  source := rfl
  flags := rfl
  code := fun _ _ given => given
  phase := rfl
  ip := rfl
  steps := rfl
  tape := .inr ⟨cells, rfl⟩
  input := rfl
  output := rfl

/-- Code that is there or can be made is all that compiling adds. -/
theorem rests_compile (s : Session) : s.Rests .compile s.compile.2 := by
  rcases s.compile_cases with ⟨code, given, compiled⟩ | ⟨e, _, _, compiled⟩
  · rw [compiled]
    refine ⟨rfl, rfl, rfl, ?_, rfl, rfl, rfl, .inl rfl, rfl, rfl⟩
    intro _ kept present
    rcases given with same | ⟨missing, _⟩
    · exact same.symm.trans present
    · cases missing.symm.trans present
  · rw [compiled]
    exact ⟨rfl, rfl, rfl, fun _ _ present => present, rfl, rfl, rfl, .inl rfl, rfl, rfl⟩

/-- There are three kinds of moves: those that execute, a reset, and those that leave the session at
rest. -/
theorem perform_cases (performed : move.perform s = some (reply, t)) :
    (move.executes = true ∧ ∃ outcome, s.Executes outcome t) ∨
    (move = .reset ∧ t = s.reset) ∨
    s.Rests move t := by
  cases move with
  | run bound =>
    obtain ⟨r, run, answered⟩ := Option.map_eq_some_iff.mp performed
    cases answered
    exact .inl ⟨rfl, _, executes_of_run run⟩
  | step =>
    cases performed
    exact .inl ⟨rfl, _, s.executes_step⟩
  | reset =>
    cases performed
    exact .inr (.inl ⟨rfl, rfl⟩)
  | compile =>
    cases performed
    exact .inr (.inr s.rests_compile)
  | resize cells =>
    obtain ⟨resized, fits, answered⟩ := Option.map_eq_some_iff.mp performed
    cases answered
    unfold resize? at fits
    split at fits
    · cases fits
      exact .inr (.inr (s.rests_resize cells))
    · cases fits
  | withFlags flags =>
    cases performed
    exact .inr (.inr ⟨rfl, rfl, rfl, nofun, rfl, rfl, rfl, .inl rfl, rfl, rfl⟩)
  | withStrategy strategy =>
    cases performed
    exact .inr (.inr ⟨rfl, rfl, rfl, fun _ _ given => given, rfl, rfl, rfl, .inl rfl, rfl, rfl⟩)
  | withLimit limit =>
    cases performed
    exact .inr (.inr ⟨rfl, rfl, rfl, fun _ _ given => given, rfl, rfl, rfl, .inl rfl, rfl, rfl⟩)

/-- Only executions are answered with an outcome. -/
theorem executes_of_outcome? (performed : move.perform s = some (reply, t))
    {outcome : Except SessionError Phase} (answered : reply.outcome? = some outcome) :
    s.Executes outcome t := by
  cases move with
  | run bound =>
    obtain ⟨⟨result, after⟩, run, told⟩ := Option.map_eq_some_iff.mp performed
    cases told
    cases answered
    exact executes_of_run run
  | step =>
    cases performed
    cases answered
    exact s.executes_step
  | resize cells =>
    obtain ⟨resized, _, told⟩ := Option.map_eq_some_iff.mp performed
    cases told
    cases answered
  | _ =>
    cases performed
    cases answered

/-- An execution is refused, or it is that of the code, which the session has then. -/
theorem Executes.cases_kept {outcome : Except SessionError Phase}
    (executes : s.Executes outcome t) :
    (t = s ∧ ∃ refusal, s.begin = (.error refusal, s)) ∨
    t.phase ≠ .ready ∧ t.source = s.source ∧ t.flags = s.flags ∧
      ∃ code, s.Active code ∧ t.code? = some code := by
  cases executes with
  | refused begun => exact .inl ⟨rfl, _, begun⟩
  | going active going => exact .inr ⟨nofun, rfl, rfl, _, active, rfl⟩
  | @ended code result last active ended =>
    right
    obtain ⟨phase, final, left⟩ := conclude_closes result (s.stopped code last)
    rw [left]
    refine ⟨?_, rfl, rfl, code, active, rfl⟩
    rintro (ready : phase = .ready)
    rw [ready] at final
    cases final

/-- There is one code that a session can execute, and after the execution it has it. -/
theorem Executes.code?_eq {outcome : Except SessionError Phase} (executes : s.Executes outcome t)
    {code : Code} (active : s.Active code) : t.code? = some code := by
  rcases executes.cases_kept with ⟨_, refusal, refused⟩ | ⟨_, _, _, other, active', present⟩
  · cases refused.symm.trans active.begin_eq
  · have same : some other = some code := by
      cases active'.begin_eq.symm.trans active.begin_eq
      rfl
    exact present.trans same

/-- A session that is finished is not executed. -/
theorem Executes.eq_of_isFinal {outcome : Except SessionError Phase}
    (executes : s.Executes outcome t) (final : s.phase.isFinal = true) : t = s := by
  rcases executes.cases_kept with ⟨same, _⟩ | ⟨_, _, _, code, active, _⟩
  · exact same
  · cases active.unfinished.symm.trans final

end Session
end Brainfuck
