import Brainfuck.Proofs.Consistency
import Brainfuck.Proofs.StoreMap
import Brainfuck.Proofs.TapeSize

/-!
# What a reset renews

A session that has been reset differs from one made anew from the same source in two things: what
its output took before, and the code that it may have already. Neither makes a difference to what it
does. What has been put out is only added to (`Session.plays_following`), and the code is the one
that the new session is going to compile (`Session.Untried.move_cases`). Main statement: whatever
was done before the reset, both answer alike from then on and go through the same states
(`reset_renews`).
-/
namespace Brainfuck

/-- An output that goes on where an earlier one has ended. -/
def Output.following : Output → Output → Output
  | ⟨taken, writes, flushes, flushCalls, flushed⟩, earlier =>
    ⟨earlier.taken ++ taken, writes, flushes, earlier.flushCalls + flushCalls,
      earlier.flushed + flushed⟩

def Store.following : Store → Output → Store
  | ⟨tape, input, output⟩, earlier => ⟨tape, input, output.following earlier⟩

def Machine.following : Machine → Output → Machine
  | ⟨ip, steps, strategy, limit, store⟩, earlier =>
    ⟨ip, steps, strategy, limit, store.following earlier⟩

def Session.following : Session → Output → Session
  | ⟨source, flags, code?, phase, machine⟩, earlier =>
    ⟨source, flags, code?, phase, machine.following earlier⟩

namespace Output

variable (earlier output : Output)

theorem following_scripted : (scripted output.writes output.flushes).following output = output := by
  simp only [scripted, following, Array.append_empty, Nat.add_zero]

theorem write_following (value : UInt8) : (output.following earlier).write value =
    ((output.write value).1, (output.write value).2.following earlier) := by
  obtain ⟨taken, writes, flushes, flushCalls, flushed⟩ := output
  simp only [following, write]
  split
  · simp only [Array.push_append]
  · rfl

theorem flush_following : (output.following earlier).flush =
    (output.flush.1, output.flush.2.following earlier) := by
  obtain ⟨taken, writes, flushes, flushCalls, flushed⟩ := output
  match flushes with
  | [] => rfl
  | .done :: rest => rfl
  | .failed e :: rest => rfl

end Output

/-- No operation looks at what has been put out before. -/
theorem Store.indifferent_following (earlier : Output) :
    Store.Indifferent fun store => store.following earlier :=
  Store.indifferent_mapStreams (g := id) (h := fun output => output.following earlier)
    (fun _ => rfl) (fun value output => Output.write_following earlier output value)
    (Output.flush_following earlier)

namespace Session

/-- No move depends on what has been put out before. -/
theorem plays_following (earlier : Output) (moves : List Move) (s : Session) :
    (s.following earlier).plays moves =
      (s.plays moves).map fun r => (r.1, r.2.following earlier) :=
  plays_of_indifferent (Store.indifferent_following earlier) moves s

def holding (code : Code) : Session → Session
  | ⟨source, flags, _, phase, machine⟩ => ⟨source, flags, some code, phase, machine⟩

/-- A session that has not run yet, nor compiled, and what it is going to compile. -/
structure Untried (code : Code) (s : Session) : Prop where
  ready : s.phase = .ready
  uncompiled : s.code? = none
  compiles : Brainfuck.compile s.flags s.source = .ok code

end Session

/-- Whether a session that has no code compiles for a move. -/
def Move.needsCode : Move → Bool
  | compile | run _ | step => true
  | reset | resize _ | withFlags _ | withStrategy _ | withLimit _ => false

namespace Session

variable {code : Code} {s : Session}

theorem Untried.compile_eq (untried : s.Untried code) : s.compile = (.ok code, s.holding code) := by
  rcases s.compile_cases with ⟨other, given | ⟨_, made⟩, compiled⟩ | ⟨_, _, failed, _⟩
  · cases untried.uncompiled.symm.trans given
  · cases untried.compiles.symm.trans made
    exact compiled
  · cases untried.compiles.symm.trans failed

theorem Untried.active (untried : s.Untried code) : s.Active code := by
  constructor
  · rw [untried.ready]
    rfl
  · rw [untried.compile_eq]

theorem Untried.active_holding (untried : s.Untried code) : (s.holding code).Active code := by
  constructor
  · exact untried.active.unfinished
  · rfl

/-- A run and a step do with a session only what they can do once it has begun. -/
theorem Untried.begin_holding (untried : s.Untried code) : (s.holding code).begin = s.begin := by
  rw [untried.active.begin_eq, untried.active_holding.begin_eq]
  rfl

/-- It makes no difference to a move whether the code is there that the session is going to compile.
After a move that needs the code or drops it, the sessions do not differ any more. -/
theorem Untried.move_cases (untried : s.Untried code) (move : Move) :
    move.perform (s.holding code) = move.perform s ∨
    move.needsCode = false ∧
      move.perform (s.holding code) = (move.perform s).map (fun r => (r.1, r.2.holding code)) ∧
      ∀ reply t, move.perform s = some (reply, t) → t.Untried code := by
  have kept : ∀ m : Machine, Untried code ⟨s.source, s.flags, s.code?, s.phase, m⟩ :=
    fun _ => ⟨untried.ready, untried.uncompiled, untried.compiles⟩
  cases move with
  | compile =>
    left
    simp only [Move.perform, untried.compile_eq]
    rfl
  | run bound =>
    left
    simp only [Move.perform, run, untried.begin_holding]
  | step =>
    left
    simp only [Move.perform, step, untried.begin_holding]
  | withFlags flags => exact .inl rfl
  | reset =>
    refine .inr ⟨rfl, rfl, ?_⟩
    rintro reply t ⟨⟩
    exact ⟨rfl, untried.uncompiled, untried.compiles⟩
  | resize cells =>
    right
    simp only [Move.perform, resize?]
    split
    · refine ⟨rfl, rfl, ?_⟩
      rintro reply t ⟨⟩
      exact kept _
    · refine ⟨rfl, rfl, ?_⟩
      intro reply t resized
      simp at resized
  | withStrategy strategy =>
    refine .inr ⟨rfl, rfl, ?_⟩
    rintro reply t ⟨⟩
    exact kept _
  | withLimit limit =>
    refine .inr ⟨rfl, rfl, ?_⟩
    rintro reply t ⟨⟩
    exact kept _

/-- Nor does it make a difference to many moves. -/
theorem Untried.plays_cases (untried : s.Untried code) (moves : List Move) :
    (s.holding code).plays moves = s.plays moves ∨
    (∀ move ∈ moves, move.needsCode = false) ∧
      (s.holding code).plays moves = (s.plays moves).map (fun r => (r.1, r.2.holding code)) ∧
      ∀ replies t, s.plays moves = some (replies, t) → t.Untried code := by
  induction moves generalizing s with
  | nil =>
    refine .inr ⟨nofun, rfl, ?_⟩
    rintro replies t ⟨⟩
    exact untried
  | cons move moves ih =>
    simp only [plays]
    rcases untried.move_cases move with same | ⟨needless, ahead, after⟩
    · left
      rw [same]
    · rw [ahead]
      cases performed : move.perform s with
      | none => exact .inl rfl
      | some answer =>
        obtain ⟨reply, t⟩ := answer
        simp only [Option.map_some]
        rcases ih (after reply t performed) with same | ⟨needless', ahead', after'⟩
        · left
          rw [same]
        · right
          refine ⟨List.forall_mem_cons.mpr ⟨needless, needless'⟩, ?_, ?_⟩
          · rw [ahead', Option.map_map, Option.map_map]
            rfl
          · intro replies u played
            obtain ⟨⟨later, u'⟩, played', answered⟩ := Option.map_eq_some_iff.mp played
            cases answered
            exact after' later u' played'

/-- The session made anew: of its source, over what is left of its streams, with the settings and
the number of cells it has. -/
def anew (s : Session) : Session :=
  ⟨s.source, s.flags, none, .ready, .start s.machine.strategy s.machine.limit
    ⟨.blank s.machine.store.tape.size, s.machine.store.input,
      .scripted s.machine.store.output.writes s.machine.store.output.flushes⟩⟩

def settings (s : Session) : List Move :=
  [.resize s.machine.store.tape.size, .withFlags s.flags, .withStrategy s.machine.strategy,
    .withLimit s.machine.limit]

theorem plays_settings (fits : s.machine.store.tape.size ≤ maxCells) :
    (ofSource s.source s.machine.store.input
      (.scripted s.machine.store.output.writes s.machine.store.output.flushes)).plays s.settings =
        some ([.done, .done, .done, .done], s.anew) := by
  simp only [settings, plays, Move.perform, resize?, fits, if_true]
  rfl

theorem reset_of_no_code (missing : s.code? = none) :
    s.reset = s.anew.following s.machine.store.output := by
  obtain ⟨source, flags, code?, phase, ip, steps, strategy, limit, tape, input, output⟩ := s
  cases missing
  simp only [anew, Machine.start, following, Machine.following, Store.following,
    Output.following_scripted]
  rfl

theorem reset_of_code (given : s.code? = some code) :
    s.reset = (s.anew.holding code).following s.machine.store.output := by
  obtain ⟨source, flags, code?, phase, ip, steps, strategy, limit, tape, input, output⟩ := s
  cases given
  simp only [anew, Machine.start, holding, following, Machine.following, Store.following,
    Output.following_scripted]
  rfl

/-- What a session answers after a reset and what it becomes, told by the one made anew. -/
theorem plays_reset (current : ∀ code, s.code? = some code →
    Brainfuck.compile s.flags s.source = .ok code) (moves : List Move) :
    s.reset.plays moves = (s.anew.plays moves).map
      (fun r => (r.1, r.2.following s.machine.store.output)) ∨
    (∀ move ∈ moves, move.needsCode = false) ∧ ∃ code,
      s.reset.plays moves = (s.anew.plays moves).map
        (fun r => (r.1, (r.2.holding code).following s.machine.store.output)) ∧
      ∀ replies u, s.anew.plays moves = some (replies, u) → u.Untried code := by
  cases given : s.code? with
  | none =>
    left
    rw [reset_of_no_code given, plays_following]
  | some code =>
    have untried : s.anew.Untried code := ⟨rfl, rfl, current code given⟩
    rw [reset_of_code given, plays_following]
    rcases untried.plays_cases moves with same | ⟨needless, ahead, after⟩
    · left
      rw [same]
    · right
      refine ⟨needless, code, ?_, after⟩
      rw [ahead, Option.map_map]
      rfl

end Session

/-- However a session has come about, it answers to moves after a reset as one made anew from the
same source, with the same settings and number of cells and over what is left of the streams. Then
the two sessions are the same, but for what the one had put out before and, until a move needs it,
for the code that the one may have and the other is going to compile. -/
theorem reset_renews {source : String} {input : Input} {output : Output} {past : List Event}
    {s : Session} (reached : (Session.ofSource source input output).Reaches past s) :
    let earlier := s.machine.store.output
    (Session.ofSource s.source s.machine.store.input
      (.scripted earlier.writes earlier.flushes)).plays s.settings =
        some ([.done, .done, .done, .done], s.anew) ∧
    ∀ moves, s.reset.plays moves = none ∧ s.anew.plays moves = none ∨
      ∃ replies t u, s.reset.plays moves = some (replies, t) ∧
        s.anew.plays moves = some (replies, u) ∧
        (t = u.following earlier ∨
          (∀ move ∈ moves, move.needsCode = false) ∧
            ∃ code, u.Untried code ∧ t = (u.holding code).following earlier) := by
  intro earlier
  constructor
  · exact Session.plays_settings (Session.size_le_of_reaches reached)
  · intro moves
    have coherent := Session.coherent_of_reaches reached
    rcases Session.plays_reset coherent.current moves with same | ⟨needless, code, ahead, after⟩
    · rw [same]
      cases s.anew.plays moves with
      | none => exact .inl ⟨rfl, rfl⟩
      | some r => exact .inr ⟨r.1, _, r.2, rfl, rfl, .inl rfl⟩
    · rw [ahead]
      cases played : s.anew.plays moves with
      | none => exact .inl ⟨rfl, rfl⟩
      | some r =>
        have untried := after r.1 r.2 played
        exact .inr ⟨r.1, _, r.2, rfl, rfl, .inr ⟨needless, code, untried, rfl⟩⟩

theorem reset_renews_after_fault :
    let first := Session.ofSource "+.>" ⟨[]⟩ (.scripted [] [.failed .brokenPipe])
    ∃ past s, first.Reaches past s ∧ s.phase = .faulted ∧
      s.machine.store.output.taken = #[1] ∧
      ∃ replies t u, s.reset.plays [.resize 2, .run 5] = some (replies, t) ∧
        s.anew.plays [.resize 2, .run 5] = some (replies, u) ∧ u.phase = .halted ∧
        t = u.following s.machine.store.output := by
  intro first
  have resized : (Move.resize 1).perform first = some (.done, first.resize 1) := rfl
  have ran : (Move.run 5).perform (first.resize 1) = some (_, _) := rfl
  have reached := (Session.Reaches.start.move resized).move ran
  refine ⟨_, _, reached, rfl, rfl, ?_⟩
  rcases (reset_renews reached).2 [.resize 2, .run 5] with
    ⟨missing, _⟩ | ⟨replies, t, u, played, played', renewed⟩
  · cases missing
  · refine ⟨replies, t, u, played, played', ?_, ?_⟩
    · cases played'
      rfl
    · rcases renewed with same | ⟨needless, _⟩
      · exact same
      · exact absurd (needless (.run 5) (by simp)) (by simp [Move.needsCode])

end Brainfuck
