import Brainfuck.CommandLine.Record
import Brainfuck.Proofs.Consistency
import Brainfuck.Proofs.Faulting
import Brainfuck.Proofs.Flushing
import Brainfuck.Proofs.Lifecycle
import Brainfuck.Proofs.Stepping
import Brainfuck.Proofs.TraceText

/-!
# What a trace shows

A line of a trace is put together from two sessions: where the instruction and the data pointer
stood before a step, and the cell there after it. So it is a line for that step only if no step in
between is missed (`Session.trace_going`). A session that has its code stands inside of it after
every step that leaves it running, and has counted all of them (`Session.standsIn_afterSteps`).
Main statement: a trace of such a session has one line for each step that does not fail, in order;
each line shows the step as it is listed; and how many lines there are is told by the steps counted
and the way in which the trace ends (`trace_shows_steps`).
-/
namespace Brainfuck

open CommandLine Machine

/-! ### Lines and steps -/

/-- A line shows the step that a session is about to do with its code: the index and the instruction
as they are listed, the data pointer, and the value that the step leaves in the cell there. So it is
printed, with or without tints, and with no question mark in place of the instruction. -/
structure TraceLine.Shows (line : TraceLine) (code : Code) (s : Session) : Prop where
  active : s.Active code
  ip : line.ip = s.machine.ip
  listed : ∃ i, line.instruction? = some i ∧ code.get? s.machine.ip = some i ∧
    code.listingLines[s.machine.ip]? =
      some (Code.listingLine (decimalWidth code.size) s.machine.ip i) ∧
    ∀ elapsed, Displays s.machine.ip i s.machine.store.tape.pointer line.value
      ((Note.step line).text false elapsed)
  tinted : ∀ elapsed,
    untinted ((Note.step line).text true elapsed) = (Note.step line).text false elapsed
  legible : ∀ colored elapsed, Lacks '?' ((Note.step line).text colored elapsed)
  pointer : line.pointer = s.machine.store.tape.pointer
  value : s.step.2.machine.store.tape.get? s.machine.store.tape.pointer = some line.value

/-- How the lines of a trace agree with the steps counted at its end. There is one line more if the
program halts, and the last is for its end. There are as many if the step limit is reached or if
nothing but the flush at the end fails, and one less if an instruction fails. -/
inductive TraceEnds (code : Code) (lines : Array TraceLine) :
    Except SessionError Unit → Session → Prop
  | halted {t : Session} {last : TraceLine} :
      lines.back? = some last → last.instruction? = some .eof →
      lines.size = t.machine.steps + 1 → TraceEnds code lines (.ok ()) t
  | limited {t : Session} {limit : Nat} :
      ¬ t.machine.AtEnd code → lines.size = t.machine.steps →
      TraceEnds code lines (.error (.crashed ⟨.stepLimit limit, t.machine.ip⟩)) t
  | faulted {t : Session} {kind : FaultKind} :
      ¬ t.machine.AtEnd code → (∀ limit, kind ≠ .stepLimit limit) →
      lines.size + 1 = t.machine.steps →
      TraceEnds code lines (.error (.crashed ⟨kind, t.machine.ip⟩)) t
  | unflushed {t : Session} {e : StreamError} :
      t.machine.AtEnd code → lines.size = t.machine.steps →
      TraceEnds code lines (.error (.crashed ⟨.stream e, t.machine.ip⟩)) t

theorem Code.listingLines_getElem? {code : Code} {ip : Nat} {i : Instruction}
    (here : code.get? ip = some i) :
    code.listingLines[ip]? = some (listingLine (decimalWidth code.size) ip i) := by
  simp only [listingLines, List.getElem?_map, List.getElem?_zipIdx, getElem?_toList, here,
    Option.map_some, Nat.zero_add]

/-- The only fault that nested code may cause and that is not counted is the step limit. -/
theorem FaultKind.FitsAt.exists_stepLimit {kind : FaultKind} {size ip : Nat}
    (fits : kind.FitsAt size ip) (inside : ip ≤ size) (uncounted : kind.isCounted = false) :
    ∃ limit, kind = .stepLimit limit := by
  obtain ⟨consistent, beyond⟩ := fits
  cases kind with
  | stepLimit limit => exact ⟨limit, rfl⟩
  | noInstruction n => exact absurd (beyond n rfl) (Nat.not_lt.mpr inside)
  | unknownOpcode byte => cases consistent
  | _ => cases uncounted

theorem Machine.not_atEnd_of_fault {code : Code} {m last : Machine} {fault : Fault}
    (failed : m.step code = (.error fault, last)) : ¬ m.AtEnd code := by
  intro atEnd
  cases failed.symm.trans (step_of_atEnd atEnd)

/-- The end of nested code is its last instruction and no other. -/
theorem Nested.get?_of_atEnd {code : Code} (nested : Nested code.body.toList) {m : Machine}
    (atEnd : m.AtEnd code) : code.get? m.ip = some .eof := by
  obtain ⟨i, here, ends⟩ := atEnd
  rcases nested.role_of_get? here with ⟨_, rfl⟩ | ⟨_, role⟩
  · exact here
  · obtain ⟨op, assigned, notEnd⟩ := role.exists_opcode
    exact absurd (Option.some.inj (assigned.symm.trans ends)) notEnd

namespace Session

def nextLine (s : Session) : TraceLine :=
  lineFor s.moment s.step.2

def firstLines (s : Session) : Nat → Array TraceLine
  | 0 => #[]
  | k + 1 => (s.firstLines k).push (s.afterSteps k).nextLine

def GoesFor (s : Session) (k : Nat) : Prop :=
  ∀ j < k, (s.afterSteps j).step.1 = .ok .running

/-- A session has its code and stands inside of it with so many steps counted. -/
structure StandsIn (code : Code) (steps : Nat) (s : Session) : Prop where
  given : s.code? = some code
  active : s.Active code
  inside : s.machine.ip ≤ code.body.size
  counted : s.machine.steps = steps

variable {s t : Session} {code : Code} {k : Nat} {result : Except SessionError Unit}

theorem GoesFor.succ (goes : s.GoesFor k) (going : (s.afterSteps k).step.1 = .ok .running) :
    s.GoesFor (k + 1) := by
  intro j before
  rcases Nat.lt_succ_iff_lt_or_eq.mp before with earlier | rfl
  · exact goes j earlier
  · exact going

theorem size_firstLines (s : Session) (k : Nat) : (s.firstLines k).size = k := by
  induction k with
  | zero => rfl
  | succ k ih => rw [firstLines, Array.size_push, ih]

theorem firstLines_getElem? {j : Nat} {line : TraceLine}
    (shown : (s.firstLines k)[j]? = some line) : j < k ∧ line = (s.afterSteps j).nextLine := by
  induction k with
  | zero => cases shown
  | succ k ih =>
    rw [firstLines, Array.getElem?_push, size_firstLines] at shown
    split at shown
    · next last => exact ⟨last ▸ Nat.lt_succ_self _, last ▸ (Option.some.inj shown).symm⟩
    · obtain ⟨before, same⟩ := ih shown
      exact ⟨Nat.lt_succ_of_lt before, same⟩

/-- While steps leave a session running, its trace keeps the lines for them and goes on. -/
theorem trace_going (goes : s.GoesFor k) (bound : Nat) :
    s.trace (k + bound) #[] = (s.afterSteps k).trace bound (s.firstLines k) := by
  induction k generalizing bound with
  | zero => rw [Nat.zero_add]; rfl
  | succ k ih =>
    have earlier : s.GoesFor k := fun j before => goes j (Nat.lt_succ_of_lt before)
    have going : (s.afterSteps k).step = (.ok .running, s.afterSteps (k + 1)) :=
      Prod.ext (goes k (Nat.lt_succ_self k)) rfl
    rw [Nat.add_right_comm, Nat.add_assoc, ih earlier, trace_succ_going going, firstLines, nextLine,
      going]

/-- The last step of a trace that ends is the first that does not leave the session running. It has
a line too if it does not fail. -/
theorem exists_last_step {bound : Nat} {lines : Array TraceLine} (goes : s.GoesFor k)
    (ended : (s.afterSteps k).trace bound (s.firstLines k) = some (lines, result, t)) :
    ∃ n, s.GoesFor n ∧ (s.afterSteps n).step = (lastAnswer result, t) ∧
      lines = s.firstLines (if result.isOk then n + 1 else n) := by
  induction bound generalizing k with
  | zero => cases ended
  | succ bound ih =>
    rcases (s.afterSteps k).run_succ_cases with ⟨next, going, _⟩ | ⟨other, last, stepped, _⟩
    · rw [trace_succ_going going] at ended
      refine ih (goes.succ (congrArg Prod.fst going)) ?_
      rw [firstLines, nextLine, afterSteps, going]
      exact ended
    · rw [trace, stepped] at ended
      cases other with
      | error e =>
        cases ended
        exact ⟨k, goes, stepped, rfl⟩
      | ok =>
        cases ended
        refine ⟨k, goes, stepped, ?_⟩
        change _ = s.firstLines (k + 1)
        rw [firstLines, nextLine, stepped]

/-- A trace ends, unless all steps leave the session running. -/
theorem goesFor_or_trace_ends (s : Session) :
    (∀ k, s.GoesFor k) ∨ ∃ bound r, s.trace bound #[] = some r := by
  by_cases ends : ∃ bound r, s.trace bound #[] = some r
  · exact .inr ends
  left
  intro k
  induction k with
  | zero => exact fun _ => nofun
  | succ k ih =>
    rcases (s.afterSteps k).run_succ_cases with ⟨next, going, _⟩ | ⟨result, t, stepped, _⟩
    · exact ih.succ (congrArg Prod.fst going)
    · obtain ⟨lines, ended⟩ := trace_succ_ended stepped 0 (s.firstLines k)
      exact absurd ⟨k + 1, _, (trace_going ih 1).trans ended⟩ ends

/-- As many steps are not answered with an error as a trace has lines. -/
theorem countP_isOk (goes : s.GoesFor k)
    (stepped : (s.afterSteps k).step = (lastAnswer result, t)) :
    (List.range (k + 1)).countP (fun j => (s.afterSteps j).step.1.isOk) =
      if result.isOk then k + 1 else k := by
  have earlier : (List.range k).countP (fun j => (s.afterSteps j).step.1.isOk) = k := by
    have all : ∀ j ∈ List.range k, (s.afterSteps j).step.1.isOk = true := by
      intro j before
      rw [goes j (List.mem_range.mp before)]
      rfl
    rw [List.countP_eq_length.mpr all, List.length_range]
  rw [List.range_succ, List.countP_append, earlier, List.countP_singleton, stepped]
  cases result with
  | error e => rfl
  | ok => rfl

/-! ### Steps inside of the code -/

theorem standsIn_of_untouched (ready : s.phase = .ready) (given : s.code? = some code)
    (untouched : s.Untouched) : s.StandsIn code 0 := by
  have compiled : s.compile.1 = .ok code := by
    obtain ⟨source, flags, code?, phase, machine⟩ := s
    cases given
    rfl
  have unfinished : s.phase.isFinal = false := by
    rw [ready]
    rfl
  refine ⟨given, ⟨unfinished, compiled⟩, ?_, untouched.steps⟩
  rw [untouched.ip]
  exact Nat.zero_le _

/-- A step that leaves a session running leaves it inside its code and is counted. -/
theorem StandsIn.step (nested : Nested code.body.toList) (stands : s.StandsIn code k)
    (going : s.step.1 = .ok .running) : s.step.2.StandsIn code (k + 1) := by
  rcases stands.active.step_cases with ⟨next, goes, stepped⟩ | ⟨result, last, _, stepped⟩
  · have comes := comesTo_step nested s.machine
    rw [goes] at comes
    have counted : next.steps = k + 1 := by rw [steps_of_going goes, stands.counted]
    rw [stepped]
    exact ⟨rfl, active_stopped s code next, comes.2, counted⟩
  · rw [stepped] at going
    exact absurd going (lastAnswer_ne_running _)

theorem standsIn_afterSteps (nested : Nested code.body.toList) (stands : s.StandsIn code 0)
    (goes : s.GoesFor k) : (s.afterSteps k).StandsIn code k := by
  induction k with
  | zero => exact stands
  | succ k ih =>
    have earlier := ih fun j before => goes j (Nat.lt_succ_of_lt before)
    exact earlier.step nested (goes k (Nat.lt_succ_self k))

theorem StandsIn.exists_instruction (nested : Nested code.body.toList)
    (stands : s.StandsIn code k) :
    ∃ i op, code.get? s.machine.ip = some i ∧ i.opcode? = some op := by
  have present : (code.get? s.machine.ip).isSome :=
    Code.get?_isSome_iff.mpr (Nat.lt_succ_of_le stands.inside)
  obtain ⟨i, here⟩ := Option.isSome_iff_exists.mp present
  rcases nested.role_of_get? here with ⟨_, rfl⟩ | ⟨_, role⟩
  · exact ⟨.eof, .eof, here, rfl⟩
  · obtain ⟨op, assigned, _⟩ := role.exists_opcode
    exact ⟨i, op, here, assigned⟩

/-- The line for the next step of a session that stands inside its code shows this step. -/
theorem StandsIn.shows (nested : Nested code.body.toList) (stands : s.StandsIn code k) :
    s.nextLine.Shows code s := by
  obtain ⟨i, op, here, assigned⟩ := stands.exists_instruction nested
  have shown : s.nextLine.instruction? = some i := by
    simp only [nextLine, lineFor, moment, stands.given, Option.bind_some, here]
  refine ⟨stands.active, rfl, ⟨i, shown, here, Code.listingLines_getElem? here, ?_⟩, ?_, ?_, rfl,
    ?_⟩
  · exact fun _ => displays_lineText shown
  · exact fun _ => untinted_lineText shown assigned
  · exact fun colored _ => legible_lineText shown assigned colored
  · have within : s.machine.store.tape.pointer < s.step.2.machine.store.tape.cells.size := by
      have kept : s.step.2.machine.store.tape.size = s.machine.store.tape.size :=
        size_of_executes s.executes_step
      exact Nat.lt_of_lt_of_eq s.machine.store.tape.pointer_lt kept.symm
    simp only [nextLine, lineFor, moment, Tape.get?, Array.getElem?_eq_getElem within,
      Option.getD_some]

/-- While steps leave a session running, the lines for them and for one step more show each its
step. -/
theorem StandsIn.shows_of_getElem? (nested : Nested code.body.toList) (stands : s.StandsIn code 0)
    (goes : s.GoesFor k) {n j : Nat} (few : n ≤ k + 1) {line : TraceLine}
    (shown : (s.firstLines n)[j]? = some line) : line.Shows code (s.afterSteps j) := by
  obtain ⟨before, rfl⟩ := firstLines_getElem? shown
  have earlier : s.GoesFor j := fun i first => goes i (by omega)
  exact (standsIn_afterSteps nested stands earlier).shows nested

/-- What a session that stands inside its code has come to when a step ends its execution: the end
of the code, or a fault of the instruction there. The only one that is not counted is the limit. -/
theorem StandsIn.end_cases (nested : Nested code.body.toList) (stands : s.StandsIn code k)
    (stepped : s.step = (lastAnswer result, t)) :
    t.machine.ip = s.machine.ip ∧
    ((t.machine.AtEnd code ∧ t.machine.steps = k ∧
      (result = .ok () ∨ ∃ e, result = .error (.crashed ⟨.stream e, t.machine.ip⟩))) ∨
    ∃ kind, ¬ t.machine.AtEnd code ∧ result = .error (.crashed ⟨kind, t.machine.ip⟩) ∧
      t.machine.steps = k + (if kind.isCounted then 1 else 0) ∧
      (kind.isCounted = false → ∃ limit, kind = .stepLimit limit)) := by
  rcases stands.active.step_cases with ⟨next, _, other⟩ | ⟨outcome, last, ran, other⟩
  · have running := congrArg Prod.fst (other.symm.trans stepped)
    exact absurd running.symm (lastAnswer_ne_running result)
  obtain ⟨answered, rfl⟩ := Prod.mk.inj (stepped.symm.trans other)
  obtain rfl := lastAnswer_injective answered
  rcases run_one_cases (ran 0) with ⟨rfl, rfl, atEnd⟩ | ⟨⟨kind, ip⟩, rfl, failed⟩
  · rcases conclude_ok_cases (s.stopped code s.machine) with ⟨_, concluded⟩ | ⟨e, _, concluded⟩
    · rw [concluded]
      exact ⟨rfl, .inl ⟨atEnd, stands.counted, .inl rfl⟩⟩
    · rw [concluded]
      exact ⟨rfl, .inl ⟨atEnd, stands.counted, .inr ⟨e, rfl⟩⟩⟩
  · obtain ⟨here, stays, _, _, _, _, steps, _⟩ := faulting_step_spares failed
    have comes := comesTo_step nested s.machine
    rw [failed] at comes
    have fits : kind.FitsAt code.body.size s.machine.ip := comes.2
    rw [conclude_error]
    have notEnd : ¬ AtEnd code last := by
      rw [AtEnd, stays]
      exact not_atEnd_of_fault failed
    have same : ip = last.ip := here.trans stays.symm
    refine ⟨stays, .inr ⟨kind, notEnd, ?_, ?_, fits.exists_stepLimit stands.inside⟩⟩
    · rw [same]
      rfl
    · rw [← stands.counted]
      exact steps

/-- A trace ends with the step that ends the execution of a session which stands inside its code,
and with a line for it if it does not fail. -/
theorem StandsIn.traceEnds (nested : Nested code.body.toList) (stands : s.StandsIn code k)
    (stepped : s.step = (lastAnswer result, t)) {lines : Array TraceLine}
    (sized : lines.size = if result.isOk then k + 1 else k)
    (last : result = .ok () → lines.back? = some s.nextLine) : TraceEnds code lines result t := by
  obtain ⟨stays, ends⟩ := stands.end_cases nested stepped
  rcases ends with ⟨atEnd, rfl, rfl | ⟨e, rfl⟩⟩ | ⟨kind, notEnd, rfl, steps, uncounted⟩
  · obtain ⟨i, shown, here, _⟩ := (stands.shows nested).listed
    have eof : code.get? s.machine.ip = some .eof := by rw [← stays, nested.get?_of_atEnd atEnd]
    exact .halted (last rfl) (shown.trans (here.symm.trans eof)) sized
  · exact .unflushed atEnd sized
  · cases counted : kind.isCounted with
    | false =>
      obtain ⟨limit, rfl⟩ := uncounted counted
      exact .limited notEnd (sized.trans steps.symm)
    | true =>
      have other : ∀ limit, kind ≠ .stepLimit limit := by
        rintro limit rfl
        cases counted
      rw [counted] at steps
      exact .faulted notEnd other ((congrArg (· + 1) sized).trans steps.symm)

end Session

/-- The tracing of a session that has been compiled and is ready, whatever was asked before. While
its steps leave it running, its trace has one line for each of them and goes on. Unless they all do,
its trace ends: with the first step that is answered with anything but the running phase, and then
it has one line for each step that is not answered with an error. The lines are in the order of the
steps, and the printed text of each shows its step: index and instruction as listed and the data
pointer as they stood before it, and the cell at this pointer as it stands after it. The number of
lines is one more than the steps that are counted if the program halts, then with a line for its
end; it is the same if the step limit is reached or nothing but the last flush fails, and one less
if an instruction fails. What is noted of the trace are its lines and nothing else. -/
theorem trace_shows_steps {source : String} {input : Input} {output : Output} {past : List Event}
    {s : Session} {code : Code} (reached : (Session.ofSource source input output).Reaches past s)
    (ready : s.phase = .ready) (given : s.code? = some code) :
    (∀ k, s.GoesFor k → ∃ lines : Array TraceLine, lines.size = k ∧
      (∀ bound, s.trace (k + bound) #[] = (s.afterSteps k).trace bound lines) ∧
      ∀ (j : Nat) (line : TraceLine), lines[j]? = some line → line.Shows code (s.afterSteps j)) ∧
    ((∀ k, s.GoesFor k) ∨ ∃ bound r, s.trace bound #[] = some r) ∧
    ∀ (bound : Nat) (lines : Array TraceLine) (result : Except SessionError Unit) (t : Session),
      s.trace bound #[] = some (lines, result, t) →
      (∃ k, s.GoesFor k ∧ (s.afterSteps k).step = (result.map fun _ => .halted, t) ∧
        lines.size = (List.range (k + 1)).countP fun j => (s.afterSteps j).step.1.isOk) ∧
      (∀ (j : Nat) (line : TraceLine), lines[j]? = some line → line.Shows code (s.afterSteps j)) ∧
      TraceEnds code lines result t ∧
      ∀ before : Record, ∃ after, (Record.host bound).trace s before = some ((result, t), after) ∧
        after.notes = before.notes ++ lines.map .step := by
  have untouched := Session.untouched_of_reaches reached ready
  have compiled := (Session.coherent_of_reaches reached).current code given
  have nested : Nested code.body.toList := (renders_of_compile compiled).nested
  have stands : s.StandsIn code 0 := Session.standsIn_of_untouched ready given untouched
  refine ⟨?_, s.goesFor_or_trace_ends, ?_⟩
  · intro k goes
    refine ⟨s.firstLines k, s.size_firstLines k, Session.trace_going goes, ?_⟩
    intro j line shown
    exact stands.shows_of_getElem? nested goes (Nat.le_succ k) shown
  · intro bound lines result t ended
    have begun : s.GoesFor 0 := fun _ => nofun
    obtain ⟨k, goes, stepped, rfl⟩ := Session.exists_last_step begun ended
    have few : (if result.isOk then k + 1 else k) ≤ k + 1 := by
      split
      · exact Nat.le_refl _
      · exact Nat.le_succ k
    refine ⟨⟨k, goes, stepped, ?_⟩, ?_, ?_, ?_⟩
    · rw [Session.size_firstLines, Session.countP_isOk goes stepped]
    · intro j line shown
      exact stands.shows_of_getElem? nested goes few shown
    · have last := Session.standsIn_afterSteps nested stands goes
      refine last.traceEnds nested stepped (s.size_firstLines _) ?_
      rintro rfl
      exact Array.back?_push ..
    · intro before
      simp [Record.host, Record.keep, ended]

/-- A program that moves past the last cell after a loop: four lines, and the fifth step is
counted. -/
theorem trace_shows_steps_up_to_fault :
    let s := ((Session.ofSource "+[-]>" ⟨[]⟩ (.scripted [] [])).resize 1).compile.2
    ∃ code lines t,
      s.trace 9 #[] = some (lines, .error (.crashed ⟨.pastLastCell 0 1 1, 4⟩), t) ∧
      lines.toList.map (fun line => (line.ip, line.value)) = [(0, 1), (1, 1), (2, 0), (3, 0)] ∧
      t.machine.steps = 5 ∧ TraceEnds code lines (.error (.crashed ⟨.pastLastCell 0 1 1, 4⟩)) t ∧
      ∀ (j : Nat) (line : TraceLine), lines[j]? = some line → line.Shows code (s.afterSteps j) := by
  intro s
  have resized : (Move.resize 1).perform (Session.ofSource "+[-]>" ⟨[]⟩ (.scripted [] [])) =
    some (_, _) := rfl
  have reached := (Session.Reaches.start.move resized).move
    (show Move.compile.perform _ = some (_, s) from rfl)
  have traced : s.trace 9 #[] = some (_, .error (.crashed ⟨.pastLastCell 0 1 1, 4⟩), _) := rfl
  obtain ⟨_, shows, ends, _⟩ := (trace_shows_steps reached rfl rfl).2.2 9 _ _ _ traced
  exact ⟨_, _, _, traced, rfl, rfl, ends, shows⟩

end Brainfuck
