import Brainfuck.Proofs.Moves
import Brainfuck.Proofs.TapeSize

/-!
# One flush for each execution

Instructions write and do not flush (`keeps_flushing`), so a session flushes only when it concludes.
It concludes when its machine has got to the end of the program or to a fault
(`Session.Arrives.perform_eq`), and a flush that fails then makes a fault of the first and nothing
of the second. Main statement: as many flushes have been called for as executions have ended, no
other move and no refused execution touches the output, and a session is halted only if its last
flush has succeeded (`flushed_once_of_reaches`).
-/
namespace Brainfuck

open Machine

/-! ### The output of a store -/

/-- What an output has to do with flushes: those to come, the calls, and how many were done. -/
def Output.flushing (output : Output) : List Flush × Nat × Nat :=
  (output.flushes, output.flushCalls, output.flushed)

theorem Output.flushing_write (value : UInt8) (output : Output) :
    (output.write value).2.flushing = output.flushing := by
  obtain ⟨taken, writes, flushes, flushCalls, flushed⟩ := output
  simp only [write]
  split <;> rfl

theorem Output.flushCalls_flush (output : Output) :
    output.flush.2.flushCalls = output.flushCalls + 1 := by
  obtain ⟨taken, writes, flushes, flushCalls, flushed⟩ := output
  match flushes with
  | [] => rfl
  | .done :: rest => rfl
  | .failed error :: rest => rfl

theorem Output.flushed_flush {output : Output} (done : output.flush.1 = .ok ()) :
    output.flush.2.flushed = output.flushed + 1 := by
  obtain ⟨taken, writes, flushes, flushCalls, flushed⟩ := output
  match flushes with
  | [] => rfl
  | .done :: rest => rfl
  | .failed error :: rest => cases done

namespace Store

theorem output_right (distance : Nat) (s : Store) : (s.right distance).2.output = s.output := by
  obtain ⟨tape, input, output⟩ := s
  simp only [right]
  split <;> rfl

theorem output_left (distance : Nat) (s : Store) : (s.left distance).2.output = s.output := by
  obtain ⟨tape, input, output⟩ := s
  simp only [left]
  split <;> rfl

theorem output_read (s : Store) : s.read.2.output = s.output := by
  obtain ⟨tape, input, output⟩ := s
  simp only [read]
  split <;> rfl

theorem output_write (s : Store) :
    s.write.2.output = (s.output.write s.tape.current.toUInt8).2 := by
  obtain ⟨tape, input, output⟩ := s
  simp only [write]
  rcases output.write tape.current.toUInt8 with ⟨error | _, after⟩
  · rfl
  · rfl

/-- A store is flushed by a flush of its output. -/
theorem flush_eq (s : Store) :
    s.flush = (s.output.flush.1.mapError .stream, ⟨s.tape, s.input, s.output.flush.2⟩) := by
  obtain ⟨tape, input, output⟩ := s
  simp only [flush]
  rcases output.flush with ⟨error | _, after⟩
  · rfl
  · rfl

end Store

/-- No operation flushes. -/
theorem keeps_flushing (code : Code) : code.Keeps fun s => s.output.flushing := by
  apply code.keeps_of_store
  · intro distance s
    rw [s.output_right]
  · intro distance s
    rw [s.output_left]
  · intro amount s
    rfl
  · intro amount s
    rfl
  · intro s
    rw [s.output_read]
  · intro s
    rw [s.output_write, Output.flushing_write]

/-! ### The end of an execution -/

namespace Machine

def AtEnd (code : Code) (m : Machine) : Prop :=
  ∃ i, code.get? m.ip = some i ∧ i.opcode? = some .eof

variable {code : Code} {m last : Machine}

theorem step_of_atEnd (atEnd : m.AtEnd code) : m.step code = (.ok .halted, m) := by
  obtain ⟨i, here, ends⟩ := atEnd
  simp only [step, here, ends]

theorem atEnd_of_halted (halted : m.step code = (.ok .halted, last)) : last = m ∧ m.AtEnd code := by
  cases here : code.get? m.ip with
  | none =>
    simp only [step, here] at halted
    cases halted
  | some i =>
    cases assigned : i.opcode? with
    | none =>
      simp only [step, here, assigned] at halted
      cases halted
    | some op =>
      by_cases ends : op = .eof
      · subst ends
        simp only [step, here, assigned] at halted
        cases halted
        exact ⟨rfl, i, here, assigned⟩
      · have stepped : m.step code = _ := step_eq_perform here assigned ends m.limit
        rw [halted] at stepped
        split at stepped
        · cases stepped
        · split at stepped
          · cases stepped
          · cases stepped

/-- A run does steps that go on and then one that does not. -/
theorem exists_goes_of_run {bound : Nat} {r : Except Fault Unit × Machine}
    (ran : m.run code bound = some r) :
    ∃ k next, k < bound ∧ Goes code k m next ∧ next.run code 1 = some r := by
  induction bound generalizing m with
  | zero => cases ran
  | succ bound ih =>
    rcases stepped : m.step code with ⟨fault | ⟨_ | _⟩, next⟩
    · refine ⟨0, m, Nat.zero_lt_succ bound, .refl m, ?_⟩
      rw [run_succ, stepped] at ran ⊢
      exact ran
    · rw [run_succ, stepped] at ran
      obtain ⟨k, last, few, goes, ends⟩ := ih ran
      exact ⟨k + 1, last, Nat.succ_lt_succ few, .step stepped goes, ends⟩
    · refine ⟨0, m, Nat.zero_lt_succ bound, .refl m, ?_⟩
      rw [run_succ, stepped] at ran ⊢
      exact ran

/-- The step with which a run ends finds the end of the program or faults. -/
theorem run_one_cases {result : Except Fault Unit} (ended : m.run code 1 = some (result, last)) :
    (result = .ok () ∧ last = m ∧ m.AtEnd code) ∨
    ∃ fault, result = .error fault ∧ m.step code = (.error fault, last) := by
  rcases stepped : m.step code with ⟨fault | ⟨_ | _⟩, next⟩
  · rw [run_succ, stepped] at ended
    cases ended
    exact .inr ⟨fault, rfl, rfl⟩
  · rw [run_succ, stepped] at ended
    cases ended
  · rw [run_succ, stepped] at ended
    cases ended
    obtain ⟨rfl, atEnd⟩ := atEnd_of_halted stepped
    exact .inl ⟨rfl, rfl, atEnd⟩

end Machine

def Move.allowance : Move → Nat
  | run bound => bound
  | step => 1
  | compile | reset | resize _ | withFlags _ | withStrategy _ | withLimit _ => 0

/-- Whether an event has taken a session to its end. -/
def Event.ends (e : Event) : Bool :=
  e.move.executes && !e.before.phase.isFinal && e.after.phase.isFinal

namespace Session

/-- The execution that a move asks for gets to a machine by steps of a code that go on, and may do
one more. -/
structure Arrives (s : Session) (move : Move) (code : Code) (m : Machine) : Prop where
  active : s.Active code
  goes : ∃ k < move.allowance, Goes code k s.machine m

variable {s t : Session} {move : Move} {reply : Reply} {code : Code} {m last : Machine}

/-- An execution is concluded where its machine ends. -/
theorem Arrives.perform_eq (arrives : s.Arrives move code m) {result : Except Fault Unit}
    (ended : m.run code 1 = some (result, last)) :
    ∃ reply, move.perform s = some (reply, (conclude result (s.stopped code last)).2) ∧
      reply.outcome? = some ((conclude result (s.stopped code last)).1.map fun _ => .halted) := by
  obtain ⟨active, k, few, goes⟩ := arrives
  cases move with
  | run bound =>
    have ran : s.machine.run code bound = some (result, last) := by
      obtain ⟨more, rfl⟩ := Nat.exists_eq_add_of_lt few
      rw [Nat.add_right_comm]
      exact Machine.run_mono ((goes.run 1).trans ended) more
    refine ⟨.ran _, ?_, rfl⟩
    rw [Move.perform, active.run_eq, ran]
    rfl
  | step =>
    obtain rfl : k = 0 := Nat.lt_one_iff.mp few
    cases goes
    rcases active.step_cases with ⟨next, going, _⟩ | ⟨_, _, ran, stepped⟩
    · rw [run_succ, going] at ended
      cases ended
    · cases (ran 0).symm.trans ended
      exact ⟨.stepped _, by rw [Move.perform, stepped], rfl⟩
  | _ => cases few

/-- Where a move takes a session to its end, the machine has got to an end. -/
theorem exists_arrives (performed : move.perform s = some (reply, t))
    (ends : Event.ends ⟨s, move, reply, t⟩ = true) :
    ∃ code m result last, s.Arrives move code m ∧ m.run code 1 = some (result, last) := by
  simp only [Event.ends, Bool.and_eq_true, Bool.not_eq_true'] at ends
  obtain ⟨⟨executes, unfinished⟩, final⟩ := ends
  rcases Move.exists_of_executes executes with rfl | ⟨bound, rfl⟩
  · cases performed
    rcases s.begin_error_or_active with ⟨e, refused⟩ | ⟨code, active⟩
    · rw [step_of_begin_error refused] at final
      cases unfinished.symm.trans final
    · rcases active.step_cases with ⟨next, _, stepped⟩ | ⟨result, last, ran, _⟩
      · rw [stepped] at final
        cases final
      · exact ⟨code, s.machine, result, last, ⟨active, 0, Nat.one_pos, .refl _⟩, ran 0⟩
  · obtain ⟨r, run, answered⟩ := Option.map_eq_some_iff.mp performed
    cases answered
    rcases s.begin_error_or_active with ⟨e, refused⟩ | ⟨code, active⟩
    · rw [run_of_begin_error refused] at run
      cases run
      cases unfinished.symm.trans final
    · rw [active.run_eq] at run
      obtain ⟨⟨result, last⟩, ran, _⟩ := Option.map_eq_some_iff.mp run
      obtain ⟨k, m, few, goes, ended⟩ := exists_goes_of_run ran
      exact ⟨code, m, result, last, ⟨active, k, few, goes⟩, ended⟩

/-- An execution that is concluded flushes once; any other and any other move does not flush. -/
theorem Executes.flushing_cases {outcome : Except SessionError Phase}
    (executes : s.Executes outcome t) :
    (t.phase.isFinal = s.phase.isFinal ∧
      t.machine.store.output.flushing = s.machine.store.output.flushing) ∨
    s.phase.isFinal = false ∧ ∃ code result last, t = (conclude result (s.stopped code last)).2 ∧
      last.store.output.flushing = s.machine.store.output.flushing := by
  cases executes with
  | refused => exact .inl ⟨rfl, rfl⟩
  | @going code next active going =>
    have kept := view_step (keeps_flushing code) s.machine
    rw [going] at kept
    exact .inl ⟨active.unfinished.symm, kept⟩
  | @ended code result last active ended =>
    exact .inr ⟨active.unfinished, code, result, last, rfl, ended.view_eq (keeps_flushing code)⟩

theorem output_closed (s : Session) (phase : Phase) :
    (s.closed phase).machine.store.output = s.machine.store.output.flush.2 := by
  rw [closed, s.machine.store.flush_eq]

theorem output_conclude (result : Except Fault Unit) (s : Session) :
    (conclude result s).2.machine.store.output = s.machine.store.output.flush.2 := by
  obtain ⟨phase, _, left⟩ := conclude_closes result s
  rw [left, output_closed]

/-- A program that has come to its end halts if its output is flushed. -/
theorem conclude_ok_cases (s : Session) :
    (s.machine.store.output.flush.1 = .ok () ∧
      conclude (.ok ()) s = (.ok (), s.closed .halted)) ∨
    ∃ error, s.machine.store.output.flush.1 = .error error ∧
      conclude (.ok ()) s =
        (.error (.crashed ⟨.stream error, s.machine.ip⟩), s.closed .faulted) := by
  have flushed : s.machine.store.flush.1 = s.machine.store.output.flush.1.mapError .stream := by
    rw [s.machine.store.flush_eq]
  rcases conclude_cases (.ok ()) s with
    ⟨_, succeeds, concluded⟩ | ⟨fault, concluded, own | ⟨_, kind, fails, rfl⟩⟩
  · rw [flushed] at succeeds
    cases outcome : s.machine.store.output.flush.1 with
    | ok => exact .inl ⟨rfl, concluded⟩
    | error error =>
      rw [outcome] at succeeds
      cases succeeds
  · cases own
  · rw [flushed] at fails
    cases outcome : s.machine.store.output.flush.1 with
    | ok =>
      rw [outcome] at fails
      cases fails
    | error error =>
      rw [outcome] at fails
      cases fails
      exact .inr ⟨error, rfl, concluded⟩

/-- A move flushes once if it takes the session to its end, and else it does not flush. -/
theorem flushCalls_of_perform (performed : move.perform s = some (reply, t)) :
    t.machine.store.output.flushCalls =
      s.machine.store.output.flushCalls + if Event.ends ⟨s, move, reply, t⟩ then 1 else 0 := by
  rcases perform_cases performed with ⟨does, outcome, executes⟩ | ⟨rfl, rfl⟩ | rests
  · rcases executes.flushing_cases with
      ⟨same, kept⟩ | ⟨unfinished, code, result, last, rfl, kept⟩
    · have stays : Event.ends ⟨s, move, reply, t⟩ = false := by simp [Event.ends, same]
      rw [stays]
      exact congrArg (fun view => view.2.1) kept
    · have ends :
          Event.ends ⟨s, move, reply, (conclude result (s.stopped code last)).2⟩ = true := by
        simp [Event.ends, does, unfinished, isFinal_conclude]
      have calls : last.store.output.flushCalls = s.machine.store.output.flushCalls :=
        congrArg (fun view => view.2.1) kept
      rw [ends, output_conclude, Output.flushCalls_flush, stopped, calls]
      rfl
  · rfl
  · have stays : Event.ends ⟨s, move, reply, t⟩ = false := by simp [Event.ends, rests.idle]
    rw [rests.output, stays]
    rfl

/-- As many flushes have been called for as executions have ended. -/
theorem flushCalls_of_reaches {source : String} {input : Input} {output : Output}
    {past : List Event} (reached : (ofSource source input output).Reaches past s) :
    s.machine.store.output.flushCalls = output.flushCalls + past.countP Event.ends := by
  induction reached with
  | start => rfl
  | move _ performed ih =>
    rw [flushCalls_of_perform performed, ih, List.countP_cons, Nat.add_assoc]

/-- A move that does no instructions leaves the output alone. -/
theorem output_of_idle (performed : move.perform s = some (reply, t))
    (idle : move.executes = false) : t.machine.store.output = s.machine.store.output := by
  rcases perform_cases performed with ⟨executes, _⟩ | ⟨_, rfl⟩ | rests
  · cases idle.symm.trans executes
  · rfl
  · exact rests.output

/-- An execution that finds the end of the program halts if its flush succeeds; else the error of
the flush is the fault, at the end of the program. -/
theorem Arrives.halts (arrives : s.Arrives move code m) (atEnd : m.AtEnd code) :
    ∃ reply t, move.perform s = some (reply, t) ∧ t.machine.ip = m.ip ∧
      t.machine.store.output = m.store.output.flush.2 ∧
      (t.phase = .halted ↔ m.store.output.flush.1 = .ok ()) ∧
      ∀ error, m.store.output.flush.1 = .error error → t.phase = .faulted ∧
        reply.outcome? = some (.error (.crashed ⟨.stream error, m.ip⟩)) := by
  have ended : m.run code 1 = some (.ok (), m) := by rw [run_succ, step_of_atEnd atEnd]
  obtain ⟨reply, performed, answered⟩ := arrives.perform_eq ended
  refine ⟨reply, _, performed, ?_⟩
  rcases conclude_ok_cases (s.stopped code m) with ⟨succeeds, concluded⟩ | ⟨error, fails, concluded⟩
  · rw [concluded]
    refine ⟨rfl, output_closed _ _, ⟨fun _ => succeeds, fun _ => rfl⟩, ?_⟩
    intro error fails
    cases succeeds.symm.trans fails
  · rw [concluded] at answered ⊢
    refine ⟨rfl, output_closed _ _, ⟨nofun, ?_⟩, ?_⟩
    · intro succeeds
      cases fails.symm.trans succeeds
    · intro cause fails'
      cases fails.symm.trans fails'
      exact ⟨rfl, answered⟩

/-- An execution that faults is answered with its own fault, whether its flush succeeds or not. -/
theorem Arrives.faults (arrives : s.Arrives move code m) {fault : Fault}
    (failed : m.step code = (.error fault, last)) :
    ∃ reply t, move.perform s = some (reply, t) ∧ t.phase = .faulted ∧
      t.machine.store.output = last.store.output.flush.2 ∧
      reply.outcome? = some (.error (.crashed fault)) := by
  have ended : m.run code 1 = some (.error fault, last) := by rw [run_succ, failed]
  obtain ⟨reply, performed, answered⟩ := arrives.perform_eq ended
  rw [conclude_error] at performed answered
  exact ⟨reply, _, performed, rfl, output_closed _ _, answered⟩

/-- The end that a halted session has come to: its output was flushed then, and nothing has been
done with it since. -/
def ArrivedIn (e : Event) (s : Session) : Prop :=
  e.ends = true ∧ e.after.phase = .halted ∧
    e.after.machine.store.output = s.machine.store.output ∧
    s.machine.store.output.flushed = e.before.machine.store.output.flushed + 1

/-- An execution that leaves a session halted has ended it with a flush that succeeded, if the
session was not halted before. -/
theorem arrivedIn_of_executes (executes : move.executes = true)
    {outcome : Except SessionError Phase} (executed : s.Executes outcome t)
    (unfinished : s.phase.isFinal = false) (halted : t.phase = .halted) :
    t.ArrivedIn ⟨s, move, reply, t⟩ := by
  have final : t.phase.isFinal = true := by
    rw [halted]
    rfl
  have ends : Event.ends ⟨s, move, reply, t⟩ = true := by
    simp [Event.ends, executes, unfinished, final]
  refine ⟨ends, halted, rfl, ?_⟩
  rcases executed.flushing_cases with ⟨same, _⟩ | ⟨_, code, result, last, rfl, kept⟩
  · rw [halted, unfinished] at same
    cases same
  · have done : last.store.output.flushed = s.machine.store.output.flushed :=
      congrArg (fun view => view.2.2) kept
    cases result with
    | error fault =>
      rw [conclude_error] at halted
      cases halted
    | ok =>
      rcases conclude_ok_cases (s.stopped code last) with
        ⟨succeeds, concluded⟩ | ⟨error, _, concluded⟩
      · rw [concluded, output_closed, Output.flushed_flush succeeds, stopped, done]
      · rw [concluded] at halted
        cases halted

theorem arrived_of_reaches {source : String} {input : Input} {output : Output} {past : List Event}
    (reached : (ofSource source input output).Reaches past s) (halted : s.phase = .halted) :
    ∃ e ∈ past, s.ArrivedIn e := by
  induction reached with
  | start => cases halted
  | @move past s t move reply _ performed ih =>
    have earlier (before : s.phase = .halted)
        (output : t.machine.store.output = s.machine.store.output) :
        ∃ e ∈ (⟨s, move, reply, t⟩ :: past : List Event), t.ArrivedIn e := by
      obtain ⟨e, member, ends, after, same, arrived⟩ := ih before
      refine ⟨e, List.mem_cons_of_mem _ member, ends, after, ?_⟩
      rw [output]
      exact ⟨same, arrived⟩
    rcases perform_cases performed with ⟨executes, outcome, executed⟩ | ⟨_, rfl⟩ | rests
    · cases final : s.phase.isFinal with
      | true =>
        obtain rfl := executed.eq_of_isFinal final
        exact earlier halted rfl
      | false =>
        exact ⟨_, List.mem_cons_self, arrivedIn_of_executes executes executed final halted⟩
    · cases halted
    · exact earlier (rests.phase.symm.trans halted) rests.output

end Session

/-- However a session has come about, it has called for as many flushes as executions have ended.
Moves that do no instructions leave the output alone, and so do executions that are refused. An
execution that finds the end of the program halts if its flush succeeds, and else it faults there
with the error of the flush; one that faults is answered with its own fault, whatever its flush
comes to; and there is no other end. A session is halted only if its output was flushed at the end
that it has come to, with nothing done to it since. -/
theorem flushed_once_of_reaches {source : String} {input : Input} {output : Output}
    {past : List Event} {s : Session}
    (reached : (Session.ofSource source input output).Reaches past s) :
    s.machine.store.output.flushCalls = output.flushCalls + past.countP Event.ends ∧
    (∀ (move : Move) (reply : Reply) (t : Session), move.perform s = some (reply, t) →
      (move.executes = false ∨ (∃ e, reply.outcome? = some (.error (.malformed e))) ∨
        (∃ phase, reply.outcome? = some (.error (.finished phase))) →
          t.machine.store.output = s.machine.store.output) ∧
      (Event.ends ⟨s, move, reply, t⟩ = true → ∃ code m, s.Arrives move code m ∧
        (m.AtEnd code ∨ ∃ fault last, m.step code = (.error fault, last)))) ∧
    (∀ (move : Move) (code : Code) (m : Machine), s.Arrives move code m → m.AtEnd code →
      ∃ reply t, move.perform s = some (reply, t) ∧ t.machine.ip = m.ip ∧
        t.machine.store.output = m.store.output.flush.2 ∧
        (t.phase = .halted ↔ m.store.output.flush.1 = .ok ()) ∧
        ∀ error, m.store.output.flush.1 = .error error → t.phase = .faulted ∧
          reply.outcome? = some (.error (.crashed ⟨.stream error, m.ip⟩))) ∧
    (∀ (move : Move) (code : Code) (m last : Machine) (fault : Fault), s.Arrives move code m →
      m.step code = (.error fault, last) →
      ∃ reply t, move.perform s = some (reply, t) ∧ t.phase = .faulted ∧
        t.machine.store.output = last.store.output.flush.2 ∧
        reply.outcome? = some (.error (.crashed fault))) ∧
    (s.phase = .halted → ∃ e ∈ past, s.ArrivedIn e) := by
  refine ⟨Session.flushCalls_of_reaches reached, ?_, ?_, ?_, Session.arrived_of_reaches reached⟩
  · intro move reply t performed
    constructor
    · rintro (idle | ⟨e, malformed⟩ | ⟨phase, finished⟩)
      · exact Session.output_of_idle performed idle
      · rw [(Session.executes_of_outcome? performed malformed).malformed.1]
      · rw [(Session.executes_of_outcome? performed finished).finished.1]
    · intro ends
      obtain ⟨code, m, result, last, arrives, ended⟩ := Session.exists_arrives performed ends
      refine ⟨code, m, arrives, ?_⟩
      rcases Machine.run_one_cases ended with ⟨_, _, atEnd⟩ | ⟨fault, _, failed⟩
      · exact .inl atEnd
      · exact .inr ⟨fault, last, failed⟩
  · intro move code m arrives atEnd
    exact arrives.halts atEnd
  · intro move code m last fault arrives failed
    exact arrives.faults failed

/-- A run past the last cell and two that find the end, where the first two flushes fail. -/
theorem flushed_once_of_reaches_with_failing_flushes :
    let output := Output.scripted [] [.failed .brokenPipe, .failed .timedOut]
    let first := Session.ofSource "+.>" ⟨[]⟩ output
    (∃ reply t, (Move.run 3).perform (first.resize 1) = some (reply, t) ∧ t.phase = .faulted ∧
      reply.outcome? = some (.error (.crashed ⟨.pastLastCell 0 1 1, 2⟩))) ∧
    ∃ past s, first.Reaches past s ∧ past.countP Event.ends = 3 ∧
      s.machine.store.output.flushCalls = 3 ∧ s.machine.store.output.taken = #[1, 1, 1] ∧
      ∃ e ∈ past, s.ArrivedIn e := by
  intro output first
  have resized : (Move.resize 1).perform first = some (.done, first.resize 1) := rfl
  have begun := Session.Reaches.start.move resized
  have arrives : (first.resize 1).Arrives (.run 3) _ _ :=
    ⟨⟨rfl, rfl⟩, 2, by decide, .step rfl (.step rfl (.refl _))⟩
  obtain ⟨reply, t, overrun, faulted, _, answered⟩ := (flushed_once_of_reaches begun).2.2.2.1
    (.run 3) _ _ _ ⟨.pastLastCell 0 1 1, 2⟩ arrives rfl
  refine ⟨⟨reply, t, overrun, faulted, answered⟩, ?_⟩
  have overran := begun.move (show (Move.run 3).perform _ = some (_, _) from rfl)
  have renewed := overran.move (show Move.reset.perform _ = some (_, _) from rfl)
  have widened := renewed.move (show (Move.resize 2).perform _ = some (_, _) from rfl)
  have failed := widened.move (show (Move.run 4).perform _ = some (_, _) from rfl)
  have again := failed.move (show Move.reset.perform _ = some (_, _) from rfl)
  have reached := again.move (show (Move.run 4).perform _ = some (_, _) from rfl)
  have agrees := flushed_once_of_reaches reached
  exact ⟨_, _, reached, rfl, agrees.1, rfl, agrees.2.2.2.2 rfl⟩

end Brainfuck
