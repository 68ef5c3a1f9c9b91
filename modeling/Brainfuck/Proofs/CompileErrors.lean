import Brainfuck.Proofs.Malformed

/-!
# Compile errors change nothing

A session whose source does not compile has no code, and every attempt to get some is answered with
the same error (`Session.Malformed`). Main statement: a compile error finds a session so and leaves
it as it is, and it stays so for as long as its optimizations are the same; a compilation that
succeeds gives the session its code and does nothing else (`compile_errors_change_nothing`).
-/
namespace Brainfuck

def Reply.compileError? : Reply → Option CompileError
  | compiled (.error e) => some e
  | ran (.error (.malformed e)) | stepped (.error (.malformed e)) => some e
  | _ => none

/-- A reply with a compile error comes from compiling, or it is the outcome of an execution. -/
theorem Reply.compileError?_cases {reply : Reply} {e : CompileError}
    (told : reply.compileError? = some e) :
    reply = .compiled (.error e) ∨ reply.outcome? = some (.error (.malformed e)) := by
  unfold compileError? at told
  split at told
  · cases told
    exact .inl rfl
  · cases told
    exact .inr rfl
  · cases told
    exact .inr rfl
  · cases told

namespace Session

/-- What a session answers whose source does not compile. It has no code and gets none. It is
executed no more than it is compiled, unless it is finished and says so. -/
structure Malformed (s : Session) (e : CompileError) : Prop where
  missing : s.code? = none
  compiles : s.compile = (.error e, s)
  runs : s.phase = .ready ∨ s.phase = .running →
    ∀ bound, s.run bound = some (.error (.malformed e), s)
  steps : s.phase = .ready ∨ s.phase = .running → s.step = (.error (.malformed e), s)

variable {s t : Session} {move : Move} {reply : Reply} {e : CompileError}

theorem malformed_of_failed (missing : s.code? = none)
    (failed : Brainfuck.compile s.flags s.source = .error e) : s.Malformed e := by
  have compiles : s.compile = (.error e, s) := by
    rcases s.compile_cases with ⟨code, given | ⟨_, made⟩, _⟩ | ⟨e', _, failed', compiles⟩
    · cases given.symm.trans missing
    · cases made.symm.trans failed
    · cases failed'.symm.trans failed
      exact compiles
  have begins (unfinished : s.phase = .ready ∨ s.phase = .running) :
      s.begin = (.error (.malformed e), s) := by
    have going : s.phase.isFinal = false := by
      rcases unfinished with ready | running
      · rw [ready]
        rfl
      · rw [running]
        rfl
    rw [begin, going, compiles]
    rfl
  exact ⟨missing, compiles, fun unfinished => run_of_begin_error (begins unfinished),
    fun unfinished => step_of_begin_error (begins unfinished)⟩

/-- A move that is answered with a compile error has found no code and none that could be made. -/
theorem failed_of_compileError? (performed : move.perform s = some (reply, t))
    (told : reply.compileError? = some e) :
    t = s ∧ s.code? = none ∧ Brainfuck.compile s.flags s.source = .error e := by
  rcases Reply.compileError?_cases told with rfl | outcome
  · cases move with
    | compile =>
      rcases s.compile_cases with ⟨code, _, compiled⟩ | ⟨e', missing, failed, compiled⟩
      · rw [Move.perform, compiled] at performed
        cases performed
      · rw [Move.perform, compiled] at performed
        cases performed
        exact ⟨rfl, missing, failed⟩
    | run bound =>
      obtain ⟨_, _, answered⟩ := Option.map_eq_some_iff.mp performed
      cases answered
    | resize cells =>
      obtain ⟨_, _, answered⟩ := Option.map_eq_some_iff.mp performed
      cases answered
    | _ => cases performed
  · obtain ⟨same, _, missing, failed⟩ := (executes_of_outcome? performed outcome).malformed
    exact ⟨same, missing, failed⟩

/-- A session stays malformed, whatever it is asked for, as long as its optimizations are the
same. -/
theorem malformed_of_reaches_failed {source : String} {input : Input} {output : Output}
    {past later : List Event} (reached : (ofSource source input output).Reaches past s)
    (failed : Brainfuck.compile s.flags s.source = .error e) (onward : s.Reaches later t)
    (same : t.flags = s.flags) : t.Malformed e := by
  have whole := reached.append onward
  have sourced : t.source = s.source :=
    (program_of_reaches whole).1.trans (program_of_reaches reached).1.symm
  have failing : Brainfuck.compile t.flags t.source = .error e := by
    rw [same, sourced, failed]
  have missing : t.code? = none := by
    cases given : t.code? with
    | none => rfl
    | some code => cases ((coherent_of_reaches whole).current code given).symm.trans failing
  exact malformed_of_failed missing failing

/-- Only a change of the optimizations changes them. -/
theorem flags_of_perform (performed : move.perform s = some (reply, t))
    (keeps : ∀ flags, move ≠ .withFlags flags) : t.flags = s.flags := by
  cases asked : move.flags? with
  | none =>
    rw [(program_of_perform performed).2, asked]
    rfl
  | some flags => exact absurd (Move.exists_of_flags? asked) (keeps flags)

end Session

/-- However a session has come about: if a move is answered with a compile error, the session is
after it just what it was before, streams and all, and has no code. Whatever is asked of it later,
as long as its optimizations are the same, and only a change of them makes them others, the same
error is the answer to compiling it, and to running or stepping it unless it is finished. If it is
compiled with success, it has the code then, and nothing else is changed. -/
theorem compile_errors_change_nothing {source : String} {input : Input} {output : Output}
    {past : List Event} {s : Session}
    (reached : (Session.ofSource source input output).Reaches past s) :
    (∀ (move : Move) (reply : Reply) (t : Session) (e : CompileError),
      move.perform s = some (reply, t) → reply.compileError? = some e →
        t = s ∧ s.code? = none ∧
        ∀ (later : List Event) (u : Session), t.Reaches later u → u.flags = t.flags →
          u.Malformed e) ∧
    (∀ (move : Move) (reply : Reply) (t : Session), move.perform s = some (reply, t) →
      (∀ flags, move ≠ .withFlags flags) → t.flags = s.flags) ∧
    ∀ (code : Code) (t : Session), s.compile = (.ok code, t) →
      (s.code? = none ∨ s.code? = some code) ∧ t = { s with code? := some code } := by
  refine ⟨?_, fun _ _ _ => Session.flags_of_perform, ?_⟩
  · intro move reply t e performed told
    obtain ⟨rfl, missing, failed⟩ := Session.failed_of_compileError? performed told
    exact ⟨rfl, missing, fun _ _ => Session.malformed_of_reaches_failed reached failed⟩
  · intro code t compiled
    rcases s.compile_cases with ⟨made, given, compiles⟩ | ⟨e, _, _, compiles⟩
    · cases compiled.symm.trans compiles
      exact ⟨given.symm.imp And.left id, rfl⟩
    · cases compiled.symm.trans compiles

/-- A loop that is not closed, and a step, another strategy and a reset between two errors. -/
theorem compile_errors_change_nothing_until_reset :
    let s := (Session.ofSource "+[>\n[-]" ⟨[]⟩ (.scripted [] [])).resize 2
    let e := CompileError.unmatchedOpening ⟨1, 2, 1⟩
    let u := (s.withStrategy .scan).reset
    Move.step.perform s = some (.stepped (.error (.malformed e)), s) ∧ u.flags = s.flags ∧
      u.phase = .ready ∧ u.Malformed e := by
  intro s e u
  have resized : (Move.resize 2).perform (Session.ofSource "+[>\n[-]" ⟨[]⟩ (.scripted [] [])) =
    some (.done, s) := rfl
  have refused : Move.step.perform s = some (.stepped (.error (.malformed e)), s) := rfl
  have changed : (Move.withStrategy .scan).perform s = some (.done, s.withStrategy .scan) := rfl
  have renewed : Move.reset.perform (s.withStrategy .scan) = some (.done, u) := rfl
  have onward := (Session.Reaches.start.move changed).move renewed
  obtain ⟨_, _, stays⟩ :=
    (compile_errors_change_nothing (Session.Reaches.start.move resized)).1 .step _ _ e refused rfl
  exact ⟨refused, rfl, rfl, stays _ u onward rfl⟩

end Brainfuck
