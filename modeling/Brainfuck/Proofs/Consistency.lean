import Brainfuck.Proofs.Inside
import Brainfuck.Proofs.Moves

/-!
# The instruction pointer of a session

Moves may come in any order, so a session can meet code that its instruction pointer does not belong
to: the optimizations may be changed while it runs. `Session.Coherent` is what every move keeps up
nevertheless. Main statement: no session is answered with a fault of code that does not fit
together, and the pointer stays in the code and ends at its end unless the optimizations have been
changed on the way (`consistent_of_reaches`).
-/
namespace Brainfuck

open Machine

namespace Session

/-- What is true of a session with its past, whatever the moves were. The code is that of the
source. A session that can go on has not been at its end since the last reset. Where the
optimizations have only been changed before anything ran, the instruction pointer is an index of the
code. -/
structure Coherent (past : List Event) (s : Session) : Prop where
  current : ∀ code, s.code? = some code → Brainfuck.compile s.flags s.source = .ok code
  atStart : s.phase = .ready → s.machine.ip = 0
  unfinished : s.phase.isFinal = false → ∀ e ∈ sinceReset past, e.before.phase.isFinal = false
  present : Undisturbed past → s.phase ≠ .ready → s.code?.isSome
  inside : Undisturbed past → ∀ code, Brainfuck.compile s.flags s.source = .ok code →
    s.machine.ip ≤ code.body.size
  atEnd : Undisturbed past → s.phase = .halted →
    ∀ code, Brainfuck.compile s.flags s.source = .ok code → s.machine.ip = code.body.size

theorem coherent_start (source : String) (input : Input) (output : Output) :
    (ofSource source input output).Coherent [] where
  current := by
    intro code given
    cases given
  atStart := by
    intro _
    rfl
  unfinished := by
    intro _ e member
    cases member
  present := by
    intro _ started
    exact absurd rfl started
  inside := by
    intro _ code _
    exact Nat.zero_le code.body.size
  atEnd := by
    intro _ halted
    cases halted

variable {past : List Event} {s t : Session} {e : Event}

/-- The code that a session goes on with is that of its source. -/
theorem Coherent.compile_eq (coherent : s.Coherent past) {code : Code} (active : s.Active code) :
    Brainfuck.compile s.flags s.source = .ok code := by
  rcases s.compile_cases with ⟨other, given, compiled⟩ | ⟨_, _, _, compiled⟩
  · have same := active.compiled
    rw [compiled] at same
    cases same
    rcases given with kept | ⟨_, made⟩
    · exact coherent.current code kept
    · exact made
  · have same := active.compiled
    rw [compiled] at same
    cases same

/-- A move that leaves phase and instruction pointer as they are. It may give the session code. -/
theorem Coherent.quiet (coherent : s.Coherent past) (before : e.before = s)
    (keeps : e.move ≠ .reset) {code? : Option Code}
    (current : ∀ code, code? = some code → Brainfuck.compile s.flags s.source = .ok code)
    (present : s.code?.isSome → code?.isSome) {m : Machine} (stays : m.ip = s.machine.ip) :
    Coherent (e :: past) ⟨s.source, s.flags, code?, s.phase, m⟩ where
  current := current
  atStart ready := stays.trans (coherent.atStart ready)
  unfinished going := by
    refine mem_sinceReset_cons ?_ (coherent.unfinished going)
    rw [before]
    exact going
  present undisturbed started := present (coherent.present (undisturbed.of_cons keeps) started)
  inside undisturbed code compiled := by
    rw [stays]
    exact coherent.inside (undisturbed.of_cons keeps) code compiled
  atEnd undisturbed halted code compiled := by
    rw [stays]
    exact coherent.atEnd (undisturbed.of_cons keeps) halted code compiled

theorem Coherent.refused (coherent : s.Coherent past) (before : e.before = s)
    (keeps : e.move ≠ .reset) : s.Coherent (e :: past) :=
  coherent.quiet before keeps coherent.current id rfl

/-- An execution that keeps the pointer in the code, and at its end if it halts. -/
theorem Coherent.advanced (coherent : s.Coherent past) (before : e.before = s)
    (keeps : e.move ≠ .reset) {code : Code} (active : s.Active code) {phase : Phase} {m : Machine}
    (started : phase ≠ .ready) (inside : s.machine.ip ≤ code.body.size → m.ip ≤ code.body.size)
    (atEnd : phase = .halted → m.ip = code.body.size) :
    Coherent (e :: past) ⟨s.source, s.flags, some code, phase, m⟩ where
  current := by
    rintro other ⟨⟩
    exact coherent.compile_eq active
  atStart ready := absurd ready started
  unfinished _ := by
    refine mem_sinceReset_cons ?_ (coherent.unfinished active.unfinished)
    rw [before]
    exact active.unfinished
  present _ _ := rfl
  inside undisturbed other compiled := by
    cases (coherent.compile_eq active).symm.trans compiled
    exact inside (coherent.inside (undisturbed.of_cons keeps) code compiled)
  atEnd _ halted other compiled := by
    cases (coherent.compile_eq active).symm.trans compiled
    exact atEnd halted

/-- An execution leaves the session at an index of its code, at the last one if it halts. -/
theorem Coherent.executed (coherent : s.Coherent past) (before : e.before = s)
    (keeps : e.move ≠ .reset) {outcome : Except SessionError Phase}
    (executes : s.Executes outcome t) : t.Coherent (e :: past) := by
  cases executes with
  | refused refused => exact coherent.refused before keeps
  | @going code next active stepped =>
    have nested := (renders_of_compile (coherent.compile_eq active)).nested
    have landed := comesTo_step nested s.machine
    rw [stepped] at landed
    exact coherent.advanced before keeps active nofun (fun _ => landed.2) nofun
  | @ended code result last active ended =>
    have nested := (renders_of_compile (coherent.compile_eq active)).nested
    obtain ⟨inside, atEnd, _⟩ := ended.inside nested
    rcases conclude_cases result (s.stopped code last) with
      ⟨halted, _, concluded⟩ | ⟨fault, concluded, _⟩
    · rw [concluded]
      exact coherent.advanced before keeps active nofun inside fun _ => atEnd halted
    · rw [concluded]
      exact coherent.advanced before keeps active nofun inside nofun

theorem Coherent.reset (coherent : s.Coherent past) (resets : e.move = .reset) :
    s.reset.Coherent (e :: past) where
  current := coherent.current
  atStart := by
    intro _
    rfl
  unfinished := by
    intro _ event member
    rw [sinceReset_reset resets] at member
    cases member
  present := by
    intro _ started
    exact absurd rfl started
  inside := by
    intro _ code _
    exact Nat.zero_le code.body.size
  atEnd := by
    intro _ halted
    cases halted

/-- Changing the optimizations disturbs a session that has begun. -/
theorem Coherent.withFlags (coherent : s.Coherent past) (before : e.before = s) {flags : Flags}
    (changes : e.move = .withFlags flags) : (s.withFlags flags).Coherent (e :: past) := by
  have ready (undisturbed : Undisturbed (e :: past)) : s.phase = .ready := by
    have changed := undisturbed _ (changedIn_withFlags changes)
    rwa [before] at changed
  constructor
  · exact nofun
  · exact coherent.atStart
  · intro going
    refine mem_sinceReset_cons ?_ (coherent.unfinished going)
    rw [before]
    exact going
  · intro undisturbed started
    exact absurd (ready undisturbed) started
  · intro undisturbed code _
    have start : (s.withFlags flags).machine.ip = 0 := coherent.atStart (ready undisturbed)
    omega
  · intro undisturbed halted
    cases (ready undisturbed).symm.trans halted

theorem Coherent.move (coherent : s.Coherent past) {move : Move} {reply : Reply}
    (performed : move.perform s = some (reply, t)) : t.Coherent (⟨s, move, reply, t⟩ :: past) := by
  cases move with
  | compile =>
    cases performed
    rcases s.compile_cases with ⟨code, given, compiled⟩ | ⟨_, _, _, compiled⟩
    · rw [compiled]
      refine coherent.quiet rfl Move.noConfusion ?_ (fun _ => rfl) rfl
      rintro other ⟨⟩
      rcases given with kept | ⟨_, made⟩
      · exact coherent.current code kept
      · exact made
    · rw [compiled]
      exact coherent.refused rfl Move.noConfusion
  | run bound =>
    obtain ⟨r, run, answered⟩ := Option.map_eq_some_iff.mp performed
    cases answered
    exact coherent.executed rfl Move.noConfusion (executes_of_run run)
  | step =>
    cases performed
    exact coherent.executed rfl Move.noConfusion s.executes_step
  | reset =>
    cases performed
    exact coherent.reset rfl
  | resize cells =>
    obtain ⟨resized, fits, answered⟩ := Option.map_eq_some_iff.mp performed
    cases answered
    unfold resize? at fits
    split at fits
    · cases fits
      exact coherent.quiet rfl Move.noConfusion coherent.current id rfl
    · cases fits
  | withFlags flags =>
    cases performed
    exact coherent.withFlags rfl rfl
  | withStrategy strategy =>
    cases performed
    exact coherent.quiet rfl Move.noConfusion coherent.current id rfl
  | withLimit limit =>
    cases performed
    exact coherent.quiet rfl Move.noConfusion coherent.current id rfl

theorem coherent_of_reaches {source : String} {input : Input} {output : Output}
    (reached : (ofSource source input output).Reaches past s) : s.Coherent past := by
  induction reached with
  | start => exact coherent_start source input output
  | move _ performed ih => exact ih.move performed

/-- No session goes on after its end. So if the optimizations of one that can go on have been
changed after something ran, that was while it ran. -/
theorem Coherent.changedIn_running (coherent : s.Coherent past)
    (unfinished : s.phase.isFinal = false) (disturbed : ¬ Undisturbed past) :
    ChangedIn .running past := by
  obtain ⟨phase, notAll⟩ := Classical.not_forall.mp disturbed
  obtain ⟨changed, started⟩ := Classical.not_imp.mp notAll
  have running : phase = .running := by
    obtain ⟨event, member, within, _⟩ := changed
    have going := coherent.unfinished unfinished event member
    rw [within] at going
    exact Phase.eq_running going started
  rwa [running] at changed

/-- Only a change of the optimizations in the middle of a run can take the pointer off the code. -/
theorem Coherent.changedIn_of_beyond (coherent : s.Coherent past) {code : Code}
    (active : s.Active code) (beyond : code.body.size < s.machine.ip) :
    ChangedIn .running past := by
  apply coherent.changedIn_running active.unfinished
  intro undisturbed
  have inside := coherent.inside undisturbed code (coherent.compile_eq active)
  omega

/-- An execution faults as nested code may. -/
theorem Coherent.fitsAt (coherent : s.Coherent past) {fault : Fault}
    (executes : s.Executes (.error (.crashed fault)) t) :
    fault.kind.isInconsistency = false ∧
      ∀ size, fault.kind = .noInstruction size → ChangedIn .running past := by
  generalize crashed : Except.error (SessionError.crashed fault) = outcome at executes
  cases executes with
  | refused refused =>
    cases crashed
    rcases begin_error_cases refused with ⟨_, other⟩ | ⟨_, _, _, _, other⟩
    · cases other
    · cases other
  | going => cases crashed
  | @ended code result last active ended =>
    have nested := (renders_of_compile (coherent.compile_eq active)).nested
    obtain ⟨_, _, faults⟩ := ended.inside nested
    rcases conclude_cases result (s.stopped code last) with
      ⟨_, _, concluded⟩ | ⟨other, concluded, cause⟩
    · rw [concluded] at crashed
      cases crashed
    · rw [concluded] at crashed
      cases crashed
      rcases cause with own | ⟨_, kind, failed, rfl⟩
      · obtain ⟨consistent, beyond⟩ := faults fault own
        refine ⟨consistent, ?_⟩
        intro size missing
        exact coherent.changedIn_of_beyond active (beyond size missing)
      · have refused := Store.refused_flush (Prod.ext failed rfl)
        obtain ⟨consistent, other⟩ := FaultKind.of_isExternal refused.external
        refine ⟨consistent, ?_⟩
        intro size missing
        exact absurd missing (other size)

end Session

/-- However a session has come about, no move is answered with an unknown operation, a mismatched
jump or an unbalanced one, and only a session whose optimizations have been changed while it ran is
answered that there is no instruction. Where they have been changed before anything ran or not at
all since the last reset, there is an instruction at the pointer whenever there is code, and in a
halted session it is the one at the end of its code. -/
theorem consistent_of_reaches {source : String} {input : Input} {output : Output}
    {past : List Event} {s : Session}
    (reached : (Session.ofSource source input output).Reaches past s) :
    (∀ (move : Move) (reply : Reply) (t : Session) (fault : Fault),
      move.perform s = some (reply, t) → reply.fault? = some fault →
        fault.kind.isInconsistency = false ∧
          ∀ size, fault.kind = .noInstruction size → ChangedIn .running past) ∧
    (Undisturbed past →
      (∀ code, s.code? = some code → ∃ i, code.get? s.machine.ip = some i) ∧
      (s.phase = .halted → ∃ code, s.code? = some code ∧ s.machine.ip + 1 = code.size ∧
        code.get? s.machine.ip = some .eof)) := by
  have coherent := Session.coherent_of_reaches reached
  constructor
  · intro move reply t fault performed faulted
    have answered := Reply.outcome?_of_fault? faulted
    exact coherent.fitsAt (Session.executes_of_outcome? performed answered)
  · intro undisturbed
    constructor
    · intro code given
      have inside := coherent.inside undisturbed code (coherent.current code given)
      rw [← Option.isSome_iff_exists, Code.get?_isSome_iff, Code.size]
      omega
    · intro halted
      have started : s.phase ≠ .ready := by
        rw [halted]
        exact Phase.noConfusion
      obtain ⟨code, given⟩ := Option.isSome_iff_exists.mp (coherent.present undisturbed started)
      have last := coherent.atEnd undisturbed halted code (coherent.current code given)
      refine ⟨code, given, ?_, ?_⟩
      · rw [last]
        rfl
      · rw [last]
        exact code.get?_last

theorem consistent_of_reaches_past_dropped_loop :
    let first := Session.ofSource "[]." ⟨[]⟩ (.scripted [] [])
    let s := (first.resize 1).step.2.withFlags ⟨false, true⟩
    ∃ past, first.Reaches past s ∧ s.step.1 = .error (.crashed ⟨.noInstruction 2, 2⟩) ∧
      ChangedIn .running past := by
  intro first s
  have resized : (Move.resize 1).perform first = some (.done, first.resize 1) := rfl
  have stepped : Move.step.perform (first.resize 1) = some (_, (first.resize 1).step.2) := rfl
  have changed : (Move.withFlags ⟨false, true⟩).perform (first.resize 1).step.2 = some (_, s) := rfl
  have reached := ((Session.Reaches.start.move resized).move stepped).move changed
  have faults : s.step.1 = .error (.crashed ⟨.noInstruction 2, 2⟩) := rfl
  have consistent := (consistent_of_reaches reached).1 .step _ _ ⟨.noInstruction 2, 2⟩ rfl rfl
  exact ⟨_, reached, faults, consistent.2 2 rfl⟩

end Brainfuck
