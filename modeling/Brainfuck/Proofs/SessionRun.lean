import Brainfuck.Proofs.Enlargement
import Brainfuck.Proofs.Executing
import Brainfuck.Proofs.Optimization

/-!
# Runs of sessions

Ends of machines that are alike stay alike when a session concludes with them. Main statement: on a
fresh session the optimizations make no difference but to the number of steps, which they never
raise (`optimizations_preserve_behaviour`).
-/
namespace Brainfuck

open Machine

theorem Store.SameContents.flush {s s' : Store} (same : s.SameContents s') :
    s.flush.1 = s'.flush.1 ∧ s.flush.2.SameContents s'.flush.2 := by
  obtain ⟨tape, input, output⟩ := s
  obtain ⟨tape', input', output'⟩ := s'
  obtain ⟨cells, rfl, rfl⟩ := same
  unfold Store.flush
  dsimp only
  split
  · exact ⟨rfl, cells, rfl, rfl⟩
  · exact ⟨rfl, cells, rfl, rfl⟩

namespace Session

/-- How two runs of sessions end alike: both halt with one store, or both fault with one kind of
fault and the same contents. -/
inductive EndAlike :
    Except SessionError Unit × Session → Except SessionError Unit × Session → Prop
  | halted {s s' : Session} : s.phase = .halted → s'.phase = .halted →
      s.machine.store = s'.machine.store → EndAlike (.ok (), s) (.ok (), s')
  | faulted {f f' : Fault} {s s' : Session} : s.phase = .faulted → s'.phase = .faulted →
      f.kind.variant = f'.kind.variant → s.machine.store.SameContents s'.machine.store →
      EndAlike (.error (.crashed f), s) (.error (.crashed f'), s')

/-- Machines that end alike conclude alike, whatever sessions they belong to. -/
theorem endAlike_conclude {r r' : Except Fault Unit × Machine} (alike : Machine.EndAlike r r')
    (s s' : Session) (code code' : Code) :
    EndAlike (conclude r.1 (s.stopped code r.2)) (conclude r'.1 (s'.stopped code' r'.2)) := by
  cases alike with
  | @halted m m' same =>
    obtain ⟨ip, steps, strategy, limit, store⟩ := m
    obtain ⟨ip', steps', strategy', limit', store'⟩ := m'
    obtain rfl : store = store' := same
    simp only [stopped, conclude]
    rcases store.flush with ⟨kind | _, flushed⟩
    · exact .faulted rfl rfl rfl (.refl flushed)
    · exact .halted rfl rfl rfl
  | @faulted f f' m m' variant contents =>
    obtain ⟨ip, steps, strategy, limit, store⟩ := m
    obtain ⟨ip', steps', strategy', limit', store'⟩ := m'
    have flushed := contents.flush.2
    simp only [stopped, conclude]
    exact .faulted rfl rfl variant flushed

def fresh (source : String) (flags : Flags) (strategy : JumpStrategy) (cells : Nat) (input : Input)
    (output : Output) : Session :=
  (((ofSource source input output).resize cells).withFlags flags).withStrategy strategy

theorem active_fresh {source : String} {flags : Flags} {code : Code}
    (compiled : Brainfuck.compile flags source = .ok code) (strategy : JumpStrategy) (cells : Nat)
    (input : Input) (output : Output) :
    (fresh source flags strategy cells input output).Active code := by
  refine ⟨rfl, ?_⟩
  simp only [fresh, ofSource, resize, mapStore, withFlags, withStrategy, compile, start, compiled]

end Session

theorem isZero_blank (cells : Nat) (input : Input) (output : Output) :
    (⟨.blank cells, input, output⟩ : Store).isZero = true := by
  simp [Store.isZero, Tape.current, Tape.blank]

/-- A source that compiles without optimizations compiles with any. Runs of fresh sessions with and
without them both halt, both fault or both never end. Where they end, their stores are the same, but
for the data pointer after a fault; so is the kind of fault, and no more steps have been counted
with optimizations than without. -/
theorem optimizations_preserve_behaviour {source : String} {plain : Code}
    (accepted : compile .plain source = .ok plain) (flags : Flags) (strategy : JumpStrategy)
    (cells : Nat) (input : Input) (output : Output) :
    let optimized := Session.fresh source flags strategy cells input output
    let unchanged := Session.fresh source .plain strategy cells input output
    (∃ bound bound' r r', optimized.run bound = some r ∧ unchanged.run bound' = some r' ∧
      Session.EndAlike r r' ∧ r.2.machine.steps ≤ r'.2.machine.steps) ∨
    ((∀ bound, optimized.run bound = none) ∧ ∀ bound, unchanged.run bound = none) := by
  intro optimized unchanged
  obtain ⟨code, compiled⟩ := compile_of_within flags.plain_within accepted
  have active : optimized.Active code := Session.active_fresh compiled strategy cells input output
  have active' : unchanged.Active plain := Session.active_fresh accepted strategy cells input output
  rcases start_outcome (renders_of_compile compiled) (renders_of_compile accepted)
    (isZero_blank cells input output) strategy strategy with
    ⟨r, r', ended, ended', alike, steps⟩ | ⟨on, on'⟩
  · obtain ⟨bound, run⟩ := active.run_of_ends ended
    obtain ⟨bound', run'⟩ := active'.run_of_ends ended'
    refine .inl ⟨bound, bound', _, _, run, run', Session.endAlike_conclude alike .., ?_⟩
    rw [Session.steps_conclude, Session.steps_conclude]
    exact steps
  · exact .inr ⟨active.run_of_runsOn on, active'.run_of_runsOn on'⟩

theorem optimizations_preserve_behaviour_of_addition :
    ∃ bound r, (Session.fresh "[-]++>+++[<+>-]<." .all .distance 2 ⟨[]⟩
      (.scripted [] [])).run bound = some r := by
  have accepted : compile .plain "[-]++>+++[<+>-]<." = .ok _ := rfl
  have unchanged : ∃ r, (Session.fresh "[-]++>+++[<+>-]<." .plain .distance 2 ⟨[]⟩
    (.scripted [] [])).run 40 = some r := ⟨_, rfl⟩
  rcases optimizations_preserve_behaviour accepted .all .distance 2 ⟨[]⟩ (.scripted [] []) with
    ⟨bound, _, r, _, run, _⟩ | ⟨_, endless⟩
  · exact ⟨bound, r, run⟩
  · obtain ⟨r, run⟩ := unchanged
    cases (endless 40).symm.trans run

end Brainfuck
