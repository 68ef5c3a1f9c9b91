import Brainfuck.Proofs.CurrentCode
import Brainfuck.Proofs.FlagErrors
import Brainfuck.Proofs.Lifecycle

/-!
# Compile errors of a running session

A session compiles when code is first needed, so a compile error should find it ready. But changing
the optimizations of a running session drops its code, and under fewer of them a loop may be too
long that has been folded or dropped before. Main statement: such a session stays running, with its
steps counted, and a compile error finds no other session that is not ready
(`malformed_of_reaches`).
-/
namespace Brainfuck

open Instruction Machine

theorem Flags.within_all (F : Flags) : F.Within .all :=
  ⟨fun _ => rfl, fun _ => rfl⟩

theorem Flags.not_within_iff {F G : Flags} : ¬ F.Within G ↔
    (F.coalesceRuns = true ∧ G.coalesceRuns = false) ∨
      (F.stripCommentBlock = true ∧ G.stripCommentBlock = false) := by
  obtain ⟨folds, strips⟩ := F
  obtain ⟨folds', strips'⟩ := G
  constructor
  · intro lacks
    by_cases folded : folds = true ∧ folds' = false
    · exact .inl folded
    · by_cases dropped : strips = true ∧ strips' = false
      · exact .inr dropped
      · exact absurd ⟨by simpa using folded, by simpa using dropped⟩ lacks
  · rintro (⟨folded, lacks⟩ | ⟨dropped, lacks⟩) within
    · cases (within.coalesces folded).symm.trans lacks
    · cases (within.strips dropped).symm.trans lacks

/-- A source that compiles under some optimizations is refused under others only for a loop that is
too long, and only if one is missing. -/
theorem compile_error_of_accepted {F G : Flags} {source : String} {code : Code} {e : CompileError}
    (accepted : compile F source = .ok code) (failed : compile G source = .error e) :
    (∃ place distance, e = .loopTooLong place distance) ∧ ¬ F.Within G := by
  constructor
  · obtain ⟨_, compiled⟩ := compile_of_within F.within_all accepted
    cases e with
    | unmatchedClosing place =>
      cases compiled.symm.trans (compile_unmatchedClosing_of_within G.within_all failed)
    | unmatchedOpening place =>
      cases compiled.symm.trans (compile_unmatchedOpening_of_within G.within_all failed)
    | loopTooLong place distance => exact ⟨place, distance, rfl⟩
  · intro within
    obtain ⟨_, compiled⟩ := compile_of_within within accepted
    cases compiled.symm.trans failed

/-! ### Loops that compile under some optimizations only -/

section Loops

variable {flags : Flags} {n : Nat}

namespace Assembly

/-- A write adds its instruction. -/
theorem feedText_write (flags : Flags) (place : Place) (a : Assembly) :
    feedText flags ['.'] place a = .ok ⟨a.body.push (ofGlyph .write), a.pending⟩ :=
  congrArg Except.ok (emit_push a (not_folded_write flags))

/-- A loop of one instruction behind a write. -/
theorem closeLoop_single (flags : Flags) (i : Instruction) (opener place : Place) :
    closeLoop flags place ⟨#[ofGlyph .write, ofGlyph .opening].push i, [(1, opener)]⟩ =
      .ok ⟨#[ofGlyph .write, make .jumpForward 2 (by decide), i,
        make .jumpBackward 2 (by decide)], []⟩ := by
  obtain ⟨_, strips⟩ := flags
  cases strips with
  | false => rfl
  | true => rfl

end Assembly

def loopText (before : List Char) (g : Glyph) (n : Nat) : String :=
  String.ofList (before ++ '[' :: (List.replicate n g.char ++ [']', '.']))

theorem compile_loopText {before : List Char} {g : Glyph} {a : Assembly}
    (read : Assembly.feedText flags before .start .empty = .ok a) :
    compile flags (loopText before g n) =
      (Assembly.feedText flags ('[' :: (List.replicate n g.char ++ [']', '.']))
        (Place.start.past before) a).bind Assembly.finish := by
  rw [compile_eq_bind, loopText, String.toList_ofList, Assembly.feedText_append, read]

/-- Folded, a loop behind a write is short. -/
theorem compile_loopText_of_folded (folds : flags.coalesceRuns = true) (fits : n + 1 ≤ maxOperand) :
    ∃ code, compile flags (loopText ['.'] .increment (n + 1)) = .ok code ∧
      code.get? 0 = some (ofGlyph .write) := by
  have folded : (flags.coalesceRuns && (ofGlyph .increment).isRepeatable) = true := by
    rw [folds]
    rfl
  have counted : (ofGlyph .increment).operand + n ≤ maxOperand := by
    rw [Nat.add_comm]
    exact fits
  have first (place : Place) : Assembly.emit flags (ofGlyph .increment)
      (Assembly.openLoop place ⟨#[ofGlyph .write], []⟩) =
        ⟨#[ofGlyph .write, ofGlyph .opening].push (ofGlyph .increment), [(1, place)]⟩ := by
    unfold Assembly.emit
    rw [folded]
    rfl
  rw [compile_loopText (a := ⟨#[ofGlyph .write], []⟩) (Assembly.feedText_write flags _ _),
    Assembly.feedText_opening, List.replicate_succ, List.cons_append,
    Assembly.feedText_emit (g := .increment) flags nofun nofun, first,
    Assembly.feedText_folded folded nofun nofun rfl counted, Assembly.feedText_closing,
    Assembly.closeLoop_single]
  dsimp only
  rw [Assembly.feedText_write]
  exact ⟨⟨_⟩, rfl, rfl⟩

/-- Dropped, a loop at the start is none. -/
theorem compile_loopText_of_dropped (strips : flags.stripCommentBlock = true) (n : Nat) :
    ∃ code, compile flags (loopText [] .write n) = .ok code ∧
      code.get? 0 = some (ofGlyph .write) := by
  rw [compile_loopText (a := .empty) rfl, Assembly.feedText_opening,
    Assembly.feedText_single (g := .write) flags nofun nofun (Assembly.not_folded_write flags),
    Assembly.feedText_closing, Assembly.closeLoop_strip strips _ rfl]
  dsimp only
  rw [Assembly.feedText_write]
  exact ⟨⟨_⟩, rfl, rfl⟩

/-- A loop that is neither folded nor dropped is refused if it is too long. -/
theorem exists_refused_loopText {before : List Char} {g : Glyph} {a : Assembly}
    (read : Assembly.feedText flags before .start .empty = .ok a) (notOpening : g ≠ .opening)
    (notClosing : g ≠ .closing) (alone : (flags.coalesceRuns && (ofGlyph g).isRepeatable) = false)
    (kept : (flags.stripCommentBlock && a.body.size == 0) = false) (long : maxOperand ≤ n) :
    ∃ e, compile flags (loopText before g n) = .error e := by
  rw [compile_loopText read,
    Assembly.feedText_long_loop flags notOpening notClosing alone kept long]
  exact ⟨_, rfl⟩

/-- For two choices of optimizations of which the second lacks one of the first, there is a text
that compiles under the first, begins with a write and is refused under the second. -/
theorem exists_loopText {F G : Flags} (lacks : ¬ F.Within G) : ∃ source,
    (∃ code, compile F source = .ok code ∧ code.get? 0 = some (ofGlyph .write)) ∧
      ∃ e, compile G source = .error e := by
  rcases Flags.not_within_iff.mp lacks with ⟨folds, keeps⟩ | ⟨strips, keeps⟩
  · have alone : (G.coalesceRuns && (ofGlyph .increment).isRepeatable) = false := by
      rw [keeps]
      rfl
    refine ⟨_, compile_loopText_of_folded (n := maxOperand - 1) folds (by decide), ?_⟩
    exact exists_refused_loopText (Assembly.feedText_write G _ _) nofun nofun alone
      (Bool.and_false _) (by decide)
  · have kept : (G.stripCommentBlock && Assembly.empty.body.size == 0) = false := by
      rw [keeps]
      rfl
    refine ⟨_, compile_loopText_of_dropped strips maxOperand, ?_⟩
    exact exists_refused_loopText rfl nofun nofun (Assembly.not_folded_write G) kept (Nat.le_refl _)

end Loops

/-! ### Sessions that have begun -/

namespace Session

/-- What has happened since the last reset, as far as the phase tells. A session that is not ready
has been executed with code of its source, and a running one has counted steps. -/
structure Begun (past : List Event) (s : Session) : Prop where
  executed : s.phase ≠ .ready → ∃ event ∈ sinceReset past, event.move.executes = true ∧
    ∃ code, Brainfuck.compile event.before.flags s.source = .ok code
  counted : s.phase = .running → 0 < s.machine.steps

variable {source : String} {input : Input} {output : Output} {past : List Event} {s t : Session}
  {move : Move} {reply : Reply}

theorem begun_of_ready (ready : s.phase = .ready) : s.Begun past where
  executed started := absurd ready started
  counted running := by cases ready.symm.trans running

/-- An execution that leaves the session running has counted a step. -/
theorem Executes.counted {outcome : Except SessionError Phase} (executes : s.Executes outcome t)
    (before : s.phase = .running → 0 < s.machine.steps) (running : t.phase = .running) :
    0 < t.machine.steps := by
  cases executes with
  | refused => exact before running
  | @going code next active going =>
    have counted : next.steps = s.machine.steps + 1 := steps_of_going going
    show 0 < next.steps
    omega
  | @ended code result last active ended =>
    have final := isFinal_conclude result (s.stopped code last)
    rw [running] at final
    cases final

theorem Begun.perform (begun : s.Begun past) (coherent : s.Coherent past)
    (performed : move.perform s = some (reply, t)) : t.Begun (⟨s, move, reply, t⟩ :: past) := by
  by_cases resets : move = .reset
  · subst resets
    cases performed
    exact begun_of_ready rfl
  rcases perform_cases performed with ⟨executing, outcome, executes⟩ | ⟨same, _⟩ | rests
  · refine ⟨?_, executes.counted begun.counted⟩
    intro started
    rcases executes.cases_kept with ⟨rfl, _⟩ | ⟨_, sourced, _, code, active, _⟩
    · exact exists_sinceReset_cons resets (begun.executed started)
    · refine ⟨_, mem_sinceReset_self resets, executing, code, ?_⟩
      rw [sourced]
      exact coherent.compile_eq active
  · exact absurd same resets
  · constructor
    · intro started
      rw [rests.phase] at started
      rw [rests.source]
      exact exists_sinceReset_cons resets (begun.executed started)
    · rw [rests.phase, rests.steps]
      exact begun.counted

theorem begun_of_reaches (reached : (ofSource source input output).Reaches past s) :
    s.Begun past := by
  induction reached with
  | start => exact begun_of_ready rfl
  | move before performed ih => exact ih.perform (coherent_of_reaches before) performed

/-- A change of the optimizations drops the code, so a session that could go on is refused if its
source does not compile under the new ones. -/
theorem step_withFlags_of_failed (unfinished : s.phase.isFinal = false) {flags : Flags}
    {e : CompileError} (failed : Brainfuck.compile flags s.source = .error e) :
    (s.withFlags flags).step = (.error (.malformed e), s.withFlags flags) := by
  apply step_of_begin_error
  have missing : (s.withFlags flags).compile = (.error e, s.withFlags flags) := by
    simp only [withFlags, compile, failed]
  have going : (s.withFlags flags).phase.isFinal = false := unfinished
  rw [begin, going, missing]
  rfl

/-- Whether a running session that has its code can be refused for its source once its optimizations
are changed from the first to the second. -/
def RefusedAfterChange (F G : Flags) : Prop :=
  ∃ (source : String) (input : Input) (output : Output) (past : List Event) (s : Session)
    (e : CompileError), (ofSource source input output).Reaches past s ∧ s.flags = F ∧
      s.code?.isSome ∧ s.phase = .running ∧
      (s.withFlags G).step = (.error (.malformed e), s.withFlags G)

/-- A source whose code begins with a write has a session that is running, after one step. -/
theorem exists_running {flags : Flags} {code : Code}
    (compiled : Brainfuck.compile flags source = .ok code)
    (first : code.get? 0 = some (ofGlyph .write)) :
    ∃ past s, (ofSource source ⟨[]⟩ (.scripted [] [])).Reaches past s ∧ s.source = source ∧
      s.flags = flags ∧ s.code?.isSome ∧ s.phase = .running := by
  generalize started : ((ofSource source ⟨[]⟩ (.scripted [] [])).resize 1).withFlags flags = s
  have resized : (Move.resize 1).perform (ofSource source ⟨[]⟩ (.scripted [] [])) =
    some (.done, (ofSource source ⟨[]⟩ (.scripted [] [])).resize 1) := rfl
  have changed : (Move.withFlags flags).perform
      ((ofSource source ⟨[]⟩ (.scripted [] [])).resize 1) = some (.done, s) := by
    rw [← started]
    rfl
  have active : s.Active code := by
    rw [← started]
    exact ⟨rfl, by simp only [ofSource, resize, mapStore, withFlags, compile, compiled]⟩
  obtain ⟨next, going⟩ : ∃ next, s.machine.step code = (.ok .going, next) := by
    rw [← started]
    exact ⟨_, step_act (a := .write) first rfl⟩
  have stepped : Move.step.perform s =
      some (.stepped (.ok .running), s.stopped code next) := by
    rw [Move.perform, active.executesCode.going next going]
  refine ⟨_, _, ((Reaches.start.move resized).move changed).move stepped, ?_, ?_, rfl, rfl⟩
  · rw [← started]
    rfl
  · rw [← started]
    rfl

/-- Such a change is one that takes an optimization away. -/
theorem refusedAfterChange_iff {F G : Flags} : RefusedAfterChange F G ↔ ¬ F.Within G := by
  constructor
  · rintro ⟨source, input, output, past, s, e, reached, rfl, given, running, refused⟩
    obtain ⟨code, present⟩ := Option.isSome_iff_exists.mp given
    have compiled := (coherent_of_reaches reached).current code present
    have executes := (s.withFlags G).executes_step
    rw [refused] at executes
    obtain ⟨_, _, _, failed⟩ := executes.malformed
    exact (compile_error_of_accepted compiled failed).2
  · intro lacks
    obtain ⟨source, ⟨code, compiled, first⟩, e, failed⟩ := exists_loopText lacks
    obtain ⟨past, s, reached, rfl, flags, given, running⟩ := exists_running compiled first
    have unfinished : s.phase.isFinal = false := congrArg Phase.isFinal running
    exact ⟨s.source, _, _, past, s, e, reached, flags, given, running,
      step_withFlags_of_failed unfinished failed⟩

end Session

/-- An execution that is answered with a compile error changes nothing. If the session is ready,
nothing is done yet. Else it is running, with steps counted, and stays so: its optimizations have
been changed while it ran, a loop of its source is too long under those it has now, and one of them
is missing that it has been executed with since its last reset. For any two choices of optimizations
a running session can be refused so after a change from the one to the other if and only if the
other lacks one of the first. -/
theorem malformed_of_reaches {source : String} {input : Input} {output : Output}
    {past : List Event} {s : Session}
    (reached : (Session.ofSource source input output).Reaches past s) :
    (∀ (move : Move) (reply : Reply) (t : Session) (e : CompileError),
      move.perform s = some (reply, t) → reply.outcome? = some (.error (.malformed e)) →
        t = s ∧ compile s.flags source = .error e ∧
        (s.phase = .ready ∧ s.Untouched ∨
          s.phase = .running ∧ 0 < s.machine.steps ∧ ChangedIn .running past ∧
            (∃ place distance, e = .loopTooLong place distance) ∧
            ∃ event ∈ sinceReset past, event.move.executes = true ∧
              (∃ code, compile event.before.flags source = .ok code) ∧
              ¬ event.before.flags.Within s.flags)) ∧
    ∀ F G, Session.RefusedAfterChange F G ↔ ¬ F.Within G := by
  refine ⟨?_, fun _ _ => Session.refusedAfterChange_iff⟩
  intro move reply t e performed answered
  obtain ⟨rfl, _⟩ := Session.program_of_reaches reached
  have executes := Session.executes_of_outcome? performed answered
  obtain ⟨same, unfinished, missing, failed⟩ := executes.malformed
  refine ⟨same, failed, ?_⟩
  have coherent := Session.coherent_of_reaches reached
  have begun := Session.begun_of_reaches reached
  by_cases ready : s.phase = .ready
  · exact .inl ⟨ready, Session.untouched_of_reaches reached ready⟩
  · right
    have running : s.phase = .running := Phase.eq_running unfinished ready
    have changed : ChangedIn .running past := by
      apply coherent.changedIn_running unfinished
      intro undisturbed
      have present := coherent.present undisturbed ready
      rw [missing] at present
      cases present
    obtain ⟨event, member, executing, code, compiled⟩ := begun.executed ready
    obtain ⟨long, lacks⟩ := compile_error_of_accepted compiled failed
    exact ⟨running, begun.counted running, changed, long, event, member, executing,
      ⟨code, compiled⟩, lacks⟩

/-- A loop of as many glyphs as an operand can count, which is folded at first and then is not. -/
theorem malformed_of_reaches_after_folding :
    ∃ past s e, (Session.ofSource (loopText ['.'] .increment maxOperand) ⟨[]⟩
        (.scripted [] [])).Reaches past s ∧
      Move.step.perform s = some (.stepped (.error (.malformed e)), s) ∧
      s.phase = .running ∧ 0 < s.machine.steps ∧ ChangedIn .running past := by
  have folds : Flags.all.coalesceRuns = true := rfl
  have fits : maxOperand - 1 + 1 ≤ maxOperand := by decide
  obtain ⟨code, compiled, first⟩ := compile_loopText_of_folded folds fits
  obtain ⟨past, s, reached, sourced, _, _, running⟩ := Session.exists_running compiled first
  have changed : (Move.withFlags .plain).perform s = some (.done, s.withFlags .plain) := rfl
  obtain ⟨e, failed⟩ : ∃ e, compile .plain s.source = .error e := by
    rw [sourced]
    exact exists_refused_loopText (Assembly.feedText_write .plain _ _) nofun nofun rfl rfl
      (by decide)
  have unfinished : s.phase.isFinal = false := congrArg Phase.isFinal running
  have refused : Move.step.perform (s.withFlags .plain) =
      some (.stepped (.error (.malformed e)), s.withFlags .plain) := by
    rw [Move.perform, Session.step_withFlags_of_failed unfinished failed]
  obtain ⟨_, _, ⟨ready, _⟩ | ⟨phase, steps, change, _⟩⟩ :=
    (malformed_of_reaches (reached.move changed)).1 _ _ _ e refused rfl
  · have stays : (s.withFlags .plain).phase = .running := running
    cases stays.symm.trans ready
  · exact ⟨_, _, e, reached.move changed, refused, phase, steps, change⟩

end Brainfuck
