import Brainfuck.Proofs.SessionRun

/-!
# Changing the optimizations of a running session

Changing the optimizations drops the code and keeps the instruction pointer, which then points into
other code. So the session goes on at the place of its text that the index has in the new code,
which need not be where it was, and beyond the end of the new code it faults at once. For every two
different choices of optimizations there is a program whose outcome changes
(`flag_change_while_running`).
-/
namespace Brainfuck

open Machine

namespace Machine

def placed (place : Nat) : Machine → Machine
  | ⟨_, steps, strategy, limit, store⟩ => ⟨place, steps, strategy, limit, store⟩

/-- An index of any code of a text has a place in the plain code of the text. -/
theorem exists_abreast {code plain : Code} {flags : Flags} {gs : List Glyph}
    (optimized : code.Renders flags gs) (unchanged : plain.Renders .plain gs) {m : Machine}
    (inside : m.ip ≤ code.body.size) (unlimited : m.limit = none) :
    ∃ place ≤ plain.body.size, plain.textFrom place = code.textFrom m.ip ∧
      Abreast code plain m (m.placed place) := by
  obtain ⟨bodies, parted, _⟩ := optimized.dropped
  obtain ⟨single, text⟩ := unchanged.toSingle
  obtain ⟨before, rest⟩ := code.textFrom_zero_split m.ip
  have whole : plain.textFrom 0 = loopGlyphs bodies ++ before ++ code.textFrom m.ip := by
    rw [text, parted, ← Code.textFrom_zero, rest, List.append_assoc]
  obtain ⟨place, inside', remaining⟩ := single.exists_index whole
  exact ⟨place, inside', remaining, inside, inside', remaining, rfl, unlimited, unlimited,
    Nat.le_refl _⟩

end Machine

namespace Session

/-- What is seen of a session after a run: phase, cells and output. -/
def seen (r : Except SessionError Unit × Session) : Phase × Array Int8 × Array UInt8 :=
  (r.2.phase, r.2.machine.store.tape.cells, r.2.machine.store.output.taken)

/-- Whether runs of two sessions end with the same phase, cells and output, or both never end. -/
def RunsSame (s s' : Session) : Prop :=
  (∃ bound bound' r r', s.run bound = some r ∧ s'.run bound' = some r' ∧ seen r = seen r') ∨
    ((∀ bound, s.run bound = none) ∧ ∀ bound, s'.run bound = none)

theorem EndAlike.seen_eq {r r' : Except SessionError Unit × Session} (alike : EndAlike r r') :
    seen r = seen r' := by
  cases alike with
  | halted phase phase' same => simp only [seen, phase, phase', same]
  | faulted phase phase' variant contents =>
    simp only [seen, phase, phase', contents.cells, contents.output]

/-- Whether the given optimizations can be changed in the middle of every run of every program. -/
def FlagChangeSafe (F G : Flags) : Prop :=
  ∀ (source : String) (plain : Code), Brainfuck.compile .plain source = .ok plain →
    ∀ (k : Nat) (strategy : JumpStrategy) (cells : Nat) (input : Input) (output : Output),
      ((fresh source F strategy cells input output).afterSteps k).phase = .running →
      RunsSame (((fresh source F strategy cells input output).afterSteps k).withFlags G)
        ((fresh source F strategy cells input output).afterSteps k)

theorem RunsSame.symm {s s' : Session} (same : RunsSame s s') : RunsSame s' s := by
  rcases same with ⟨bound, bound', r, r', run, run', seen⟩ | ⟨endless, endless'⟩
  · exact .inl ⟨bound', bound, r', r, run', run, seen.symm⟩
  · exact .inr ⟨endless', endless⟩

theorem RunsSame.trans {s s' s'' : Session} (first : RunsSame s s') (second : RunsSame s' s'') :
    RunsSame s s'' := by
  rcases first with ⟨bound, bound', r, r', run, run', seen⟩ | ⟨endless, endless'⟩
  · rcases second with ⟨c, c', t, t', again, again', seen'⟩ | ⟨endless', _⟩
    · rw [run_unique run' again] at seen
      exact .inl ⟨bound, c', r, t', run, again', seen.trans seen'⟩
    · cases (endless' bound').symm.trans run'
  · rcases second with ⟨c, _, t, _, again, _⟩ | ⟨_, endless''⟩
    · cases (endless' c).symm.trans again
    · exact .inr ⟨endless, endless''⟩

/-- Two runs that have been seen to end differently are not the same. -/
theorem not_runsSame {s s' : Session} (bound bound' : Nat)
    (x y : Phase × Array Int8 × Array UInt8) (one : (s.run bound).map seen = some x)
    (two : (s'.run bound').map seen = some y) (differ : x ≠ y) : ¬ RunsSame s s' := by
  obtain ⟨r, run, rfl⟩ := Option.map_eq_some_iff.mp one
  obtain ⟨r', run', rfl⟩ := Option.map_eq_some_iff.mp two
  rintro (⟨c, c', t, t', again, again', same⟩ | ⟨endless, _⟩)
  · rw [run_unique again run, run_unique again' run'] at same
    exact differ same
  · cases (endless bound).symm.trans run

/-- A session on its way through the code of its source. -/
structure Underway (source : String) (code : Code) (s : Session) : Prop where
  source : s.source = source
  active : s.Active code
  inside : s.machine.ip ≤ code.body.size
  unlimited : s.machine.limit = none

def resumed (s : Session) (plain : Code) (place : Nat) : Session :=
  ⟨s.source, .plain, some plain, .running, s.machine.placed place⟩

variable {source : String} {flags : Flags} {code plain : Code}

theorem underway_fresh (compiled : Brainfuck.compile flags source = .ok code)
    (strategy : JumpStrategy) (cells : Nat) (input : Input) (output : Output) :
    (fresh source flags strategy cells input output).Underway source code :=
  ⟨rfl, active_fresh compiled strategy cells input output, Nat.zero_le _, rfl⟩

theorem Underway.step {s : Session} (underway : s.Underway source code)
    (optimized : code.Renders flags (glyphsOf source))
    (unchanged : plain.Renders .plain (glyphsOf source)) :
    s.step.2.phase.isFinal = true ∨ s.step.2.Underway source code := by
  obtain ⟨sourced, active, inside, unlimited⟩ := underway
  rcases active.isFinal_or_going with final | ⟨next, going, stepped⟩
  · exact .inl final
  · obtain ⟨place, _, _, abreast⟩ := exists_abreast optimized unchanged inside unlimited
    have matched := simulation_of_renders optimized unchanged abreast
    rw [going] at matched
    obtain ⟨_, b, _, abreast'⟩ := matched
    rw [stepped]
    exact .inr ⟨sourced, ⟨rfl, rfl⟩, abreast'.inside, abreast'.unlimited⟩

theorem Underway.afterSteps {s : Session} (underway : s.Underway source code)
    (optimized : code.Renders flags (glyphsOf source))
    (unchanged : plain.Renders .plain (glyphsOf source)) (k : Nat) :
    (s.afterSteps k).phase.isFinal = true ∨ (s.afterSteps k).Underway source code := by
  induction k with
  | zero => exact .inr underway
  | succ k ih =>
    rcases ih with final | underway
    · left
      rw [Session.afterSteps, step_of_isFinal final]
      exact final
    · exact underway.step optimized unchanged

/-- A session that is running after some steps is on its way through its code. -/
theorem underway_of_running (compiled : Brainfuck.compile flags source = .ok code)
    (accepted : Brainfuck.compile .plain source = .ok plain) {k : Nat} {strategy : JumpStrategy}
    {cells : Nat} {input : Input} {output : Output}
    (running : ((fresh source flags strategy cells input output).afterSteps k).phase = .running) :
    ((fresh source flags strategy cells input output).afterSteps k).Underway source code := by
  have started := underway_fresh compiled strategy cells input output
  rcases started.afterSteps (renders_of_compile compiled) (renders_of_compile accepted) k with
    final | underway
  · rw [running] at final
    cases final
  · exact underway

theorem Underway.active_withFlags {s : Session} (underway : s.Underway source code) {G : Flags}
    {code' : Code} (compiled : Brainfuck.compile G source = .ok code') :
    (s.withFlags G).Active code' := by
  obtain ⟨rfl, ⟨unfinished, _⟩, _, _⟩ := underway
  refine ⟨unfinished, ?_⟩
  simp only [Session.withFlags, compile, compiled]

theorem Underway.withFlags {s : Session} (underway : s.Underway source code) {G : Flags}
    {code' : Code} (compiled : Brainfuck.compile G source = .ok code')
    (inside : s.machine.ip ≤ code'.body.size) : (s.withFlags G).Underway source code' :=
  ⟨underway.source, underway.active_withFlags compiled, inside, underway.unlimited⟩

/-- A session on its way goes on as the plain code does from the place where it stands. -/
theorem Underway.runsSame_resumed {s : Session} (underway : s.Underway source code)
    (optimized : code.Renders flags (glyphsOf source))
    (unchanged : plain.Renders .plain (glyphsOf source)) :
    ∃ place ≤ plain.body.size, plain.textFrom place = code.textFrom s.machine.ip ∧
      RunsSame s (s.resumed plain place) := by
  obtain ⟨_, active, inside, unlimited⟩ := underway
  obtain ⟨place, inside', remaining, abreast⟩ :=
    exists_abreast optimized unchanged inside unlimited
  refine ⟨place, inside', remaining, ?_⟩
  have active' : (s.resumed plain place).Active plain := ⟨rfl, rfl⟩
  rcases (simulation_of_renders optimized unchanged).outcome abreast with
    ⟨r, r', ended, ended', sooner⟩ | ⟨on, on'⟩
  · obtain ⟨bound, run⟩ := active.run_of_ends ended
    obtain ⟨bound', run'⟩ := active'.run_of_ends ended'
    exact .inl ⟨bound, bound', _, _, run, run', (endAlike_conclude sooner.alike ..).seen_eq⟩
  · exact .inr ⟨active.run_of_runsOn on, active'.run_of_runsOn on'⟩

/-- Where the same glyphs remain in the new code, the run goes on as it would have. -/
theorem Underway.runsSame_withFlags {s : Session} (underway : s.Underway source code) {G : Flags}
    {code' : Code} (accepted : Brainfuck.compile .plain source = .ok plain)
    (compiled : Brainfuck.compile flags source = .ok code)
    (compiled' : Brainfuck.compile G source = .ok code')
    (inside : s.machine.ip ≤ code'.body.size)
    (text : code'.textFrom s.machine.ip = code.textFrom s.machine.ip) :
    RunsSame (s.withFlags G) s := by
  have unchanged := renders_of_compile accepted
  obtain ⟨place, fits, remaining, same⟩ :=
    underway.runsSame_resumed (renders_of_compile compiled) unchanged
  obtain ⟨place', fits', remaining', same'⟩ :=
    (underway.withFlags compiled' inside).runsSame_resumed (renders_of_compile compiled') unchanged
  have located : place' = place := by
    apply unchanged.toSingle.1.index_unique fits' fits
    rw [remaining, remaining', ← text]
    rfl
  rw [located] at same'
  exact same'.trans same.symm

/-- Beyond the end of its code a session faults at once. -/
theorem Active.run_beyond {s : Session} (active : s.Active code)
    (beyond : code.body.size < s.machine.ip) (bound : Nat) :
    (s.run (bound + 1)).map Prod.fst =
      some (.error (.crashed ⟨.noInstruction code.size, s.machine.ip⟩)) := by
  have missing : code.get? s.machine.ip = none := by
    rw [← Option.not_isSome_iff_eq_none, Code.get?_isSome_iff, Code.size]
    omega
  have faults : s.machine.step code =
      (.error ⟨.noInstruction code.size, s.machine.ip⟩, s.machine) := by
    simp only [Machine.step, missing]
  rw [active.run_eq, run_succ, faults]
  rfl

/-- Whether runs are folded cannot be changed within a run of equal glyphs: one of them is left out
or done twice. -/
theorem not_flagChangeSafe_of_coalesceRuns {F G : Flags}
    (differ : F.coalesceRuns ≠ G.coalesceRuns) : ¬ FlagChangeSafe F G := by
  intro safe
  obtain ⟨folds, strips⟩ := F
  obtain ⟨folds', strips'⟩ := G
  have accepted : Brainfuck.compile .plain "++" = .ok _ := rfl
  have same := safe "++" _ accepted 1 .distance 1 ⟨[]⟩ (.scripted [] [])
  cases folds with
  | false =>
    obtain rfl : folds' = true := by simpa using differ.symm
    exact not_runsSame 3 3 (.halted, #[1], #[]) (.halted, #[2], #[]) rfl rfl (by decide) (same rfl)
  | true =>
    obtain rfl : folds' = false := by simpa using differ.symm
    exact not_runsSame 3 3 (.halted, #[3], #[]) (.halted, #[2], #[]) rfl rfl (by decide) (same rfl)

/-- Whether a loop at the start is dropped cannot be changed after it: the index is too large or too
small then. -/
theorem not_flagChangeSafe_of_stripCommentBlock {F G : Flags}
    (differ : F.stripCommentBlock ≠ G.stripCommentBlock) : ¬ FlagChangeSafe F G := by
  intro safe
  obtain ⟨folds, strips⟩ := F
  obtain ⟨folds', strips'⟩ := G
  have accepted : Brainfuck.compile .plain "[]." = .ok _ := rfl
  have same := safe "[]." _ accepted 1 .distance 1 ⟨[]⟩ (.scripted [] [])
  cases strips with
  | false =>
    obtain rfl : strips' = true := by simpa using differ.symm
    cases folds <;> cases folds' <;>
      exact not_runsSame 4 4 (.faulted, #[0], #[]) (.halted, #[0], #[0]) rfl rfl (by decide)
        (same rfl)
  | true =>
    obtain rfl : strips' = false := by simpa using differ.symm
    cases folds <;> cases folds' <;>
      exact not_runsSame 4 4 (.halted, #[0], #[0, 0]) (.halted, #[0], #[0]) rfl rfl (by decide)
        (same rfl)

/-- Only a change to the same optimizations is safe for every program. -/
theorem flagChangeSafe_iff_eq (F G : Flags) : FlagChangeSafe F G ↔ F = G := by
  constructor
  · intro safe
    by_cases folds : F.coalesceRuns = G.coalesceRuns
    · by_cases strips : F.stripCommentBlock = G.stripCommentBlock
      · obtain ⟨f, s⟩ := F
        obtain ⟨f', s'⟩ := G
        rw [Flags.mk.injEq]
        exact ⟨folds, strips⟩
      · exact absurd safe (not_flagChangeSafe_of_stripCommentBlock strips)
    · exact absurd safe (not_flagChangeSafe_of_coalesceRuns folds)
  · rintro rfl source plain accepted k strategy cells input output running
    obtain ⟨code, compiled⟩ := compile_of_within F.plain_within accepted
    have underway := underway_of_running compiled accepted running
    exact underway.runsSame_withFlags accepted compiled compiled underway.inside rfl

end Session

/-- What becomes of a running session when its optimizations are changed. It goes on as the plain
code does from the place that the instruction pointer has in the new code; without the change it
would have gone on from the place that the pointer has in the old code. So nothing is changed if the
same glyphs remain. Beyond the end of the new code it faults at once. A change is safe in all runs
of all programs only if it changes nothing. -/
theorem flag_change_while_running (F G : Flags) :
    (∀ (source : String) (plain codeF codeG : Code), compile .plain source = .ok plain →
      compile F source = .ok codeF → compile G source = .ok codeG →
      ∀ (k : Nat) (strategy : JumpStrategy) (cells : Nat) (input : Input) (output : Output),
        let s := (Session.fresh source F strategy cells input output).afterSteps k
        s.phase = .running →
          (∃ place ≤ plain.body.size, plain.textFrom place = codeF.textFrom s.machine.ip ∧
            s.RunsSame (s.resumed plain place)) ∧
          (s.machine.ip ≤ codeG.body.size →
            ∃ place ≤ plain.body.size, plain.textFrom place = codeG.textFrom s.machine.ip ∧
              (s.withFlags G).RunsSame (s.resumed plain place)) ∧
          (s.machine.ip ≤ codeG.body.size →
            codeG.textFrom s.machine.ip = codeF.textFrom s.machine.ip →
            (s.withFlags G).RunsSame s) ∧
          (codeG.body.size < s.machine.ip → ∀ bound,
            ((s.withFlags G).run (bound + 1)).map Prod.fst =
              some (.error (.crashed ⟨.noInstruction codeG.size, s.machine.ip⟩)))) ∧
    (Session.FlagChangeSafe F G ↔ F = G) := by
  refine ⟨?_, Session.flagChangeSafe_iff_eq F G⟩
  intro source plain codeF codeG accepted compiled compiled' k strategy cells input output s running
  have underway := Session.underway_of_running compiled accepted running
  have unchanged := renders_of_compile accepted
  refine ⟨?_, ?_, ?_, ?_⟩
  · exact underway.runsSame_resumed (renders_of_compile compiled) unchanged
  · intro inside
    have changed := underway.withFlags compiled' inside
    exact changed.runsSame_resumed (renders_of_compile compiled') unchanged
  · exact underway.runsSame_withFlags accepted compiled compiled'
  · exact (underway.active_withFlags compiled').run_beyond

theorem flag_change_while_running_past_dropped_loop :
    ((((Session.fresh "[]." .plain .distance 1 ⟨[]⟩ (.scripted [] [])).afterSteps 1).withFlags
      ⟨false, true⟩).run 1).map Prod.fst = some (.error (.crashed ⟨.noInstruction 2, 2⟩)) := by
  have accepted : compile .plain "[]." = .ok _ := rfl
  have changed : compile ⟨false, true⟩ "[]." = .ok _ := rfl
  have outcome := (flag_change_while_running .plain ⟨false, true⟩).1 "[]." _ _ _ accepted accepted
    changed 1 .distance 1 ⟨[]⟩ (.scripted [] []) rfl
  exact outcome.2.2.2 (by decide) 0

end Brainfuck
