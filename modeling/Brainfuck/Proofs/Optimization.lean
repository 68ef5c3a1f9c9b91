import Brainfuck.Proofs.Remaining

/-!
# Optimized code

Optimized code and plain code of one text are compared where the same glyphs remain
(`Machine.Abreast`). A step of the optimized code is matched by the plain steps of the glyphs its
instruction is written with, so both machines end alike or both run on (`Machine.start_outcome`).
Loops dropped from the start are passed over by the plain code, as the cell is zero there.
-/
namespace Brainfuck

open Instruction

namespace Machine

/-- How two runs end alike: both halt with one store, or both fault with one kind of fault and the
same contents. -/
inductive EndAlike : Except Fault Unit × Machine → Except Fault Unit × Machine → Prop
  | halted {m m' : Machine} : m.store = m'.store → EndAlike (.ok (), m) (.ok (), m')
  | faulted {f f' : Fault} {m m' : Machine} :
      f.kind.variant = f'.kind.variant → m.store.SameContents m'.store →
      EndAlike (.error f, m) (.error f', m')

structure EndSooner (r r' : Except Fault Unit × Machine) : Prop where
  alike : EndAlike r r'
  steps : r.2.steps ≤ r'.2.steps

section Repetition

variable {code : Code} {a : Act} {n k : Nat} {s s' : Store}

/-- Plain code does a run of equal glyphs step by step. -/
theorem goes_of_repeated (held : code.Holds k (List.replicate n (ofGlyph a.glyph)))
    (done : a.repeated n s = (.ok (), s')) (strategy : JumpStrategy) (steps : Nat) :
    Goes code n ⟨k, steps, strategy, none, s⟩ ⟨k + n, steps + n, strategy, none, s'⟩ := by
  induction n generalizing k s steps with
  | zero =>
    cases done
    exact .refl _
  | succ n ih =>
    rw [Act.repeated] at done
    split at done
    · next s₁ effect =>
      have rest := ih held.2 done (steps + 1)
      rw [Nat.add_right_comm k, Nat.add_right_comm steps] at rest
      exact .step (step_act held.1 effect) rest
    · cases done

/-- Where the repeated act fails, the plain code faults at one of the glyphs. -/
theorem ends_of_repeated (held : code.Holds k (List.replicate n (ofGlyph a.glyph)))
    {kind : FaultKind} (failed : a.repeated n s = (.error kind, s')) (strategy : JumpStrategy)
    (steps : Nat) :
    ∃ c, Ends code ⟨k, steps, strategy, none, s⟩ (.error ⟨kind, k + c⟩)
      ⟨k + c, steps + c + 1, strategy, none, s'⟩ := by
  induction n generalizing k s steps with
  | zero => cases failed
  | succ n ih =>
    rw [Act.repeated] at failed
    split at failed
    · next s₁ effect =>
      obtain ⟨c, ended⟩ := ih held.2 failed (steps + 1)
      refine ⟨c + 1, ?_⟩
      have index : k + 1 + c = k + (c + 1) := by omega
      have count : steps + 1 + c + 1 = steps + (c + 1) + 1 := by omega
      rw [index, count] at ended
      exact (Goes.single (step_act held.1 effect)).ends ended
    · next kind' s₁ effect =>
      cases failed
      exact ⟨0, .of_step (by rw [run_succ, step_failing_act held.1 effect]; rfl)⟩

end Repetition

/-- Machines of two codes at places where the same glyphs remain, with the same store and no step
limit. The first has not counted more steps. -/
structure Abreast (code plain : Code) (a b : Machine) : Prop where
  inside : a.ip ≤ code.body.size
  inside' : b.ip ≤ plain.body.size
  text : plain.textFrom b.ip = code.textFrom a.ip
  store : b.store = a.store
  unlimited : a.limit = none
  unlimited' : b.limit = none
  steps : a.steps ≤ b.steps

variable {code plain : Code}

/-- A loop of the code is a loop of the plain code, and the brackets correspond. -/
theorem exists_paired (single : plain.Single)
    (whole : ∃ before, plain.textFrom 0 = before ++ code.textFrom 0) {start distance : Nat}
    (pair : code.Paired start distance) :
    ∃ start' distance', plain.Paired start' distance' ∧
      plain.textFrom start' = code.textFrom start ∧
      plain.textFrom (start' + 1) = code.textFrom (start + 1) ∧
      plain.textFrom (start' + distance') = code.textFrom (start + distance) ∧
      plain.textFrom (start' + distance' + 1) = code.textFrom (start + distance + 1) := by
  -- The opening bracket comes first also for a jump backwards: its remainder has both brackets.
  obtain ⟨before, whole⟩ := whole
  obtain ⟨before', parted⟩ := code.textFrom_zero_split start
  rw [parted, ← List.append_assoc] at whole
  obtain ⟨start', _, text⟩ := single.exists_index whole
  obtain ⟨distance', pair'⟩ := single.paired_of_text (text.trans pair.text_start)
  have inner : plain.textFrom (start' + 1) = code.textFrom (start + 1) := by
    have texts := text
    rw [pair.text_start, pair'.text_start] at texts
    exact (List.cons.inj texts).2
  have ends := pair'.same_ends pair inner
  exact ⟨start', distance', pair', text, inner, ends.1, ends.2⟩

section Matching

variable {ip ip' n n' : Nat} {strategy strategy' : JumpStrategy} {s : Store}

theorem matched_jump {target target' : Nat}
    (jump : step code ⟨ip, n, strategy, none, s⟩ =
      (.ok .going, ⟨target, n + 1, strategy, none, s⟩))
    (jump' : step plain ⟨ip', n', strategy', none, s⟩ =
      (.ok .going, ⟨target', n' + 1, strategy', none, s⟩))
    (inside : target ≤ code.body.size) (inside' : target' ≤ plain.body.size)
    (text : plain.textFrom target' = code.textFrom target) (steps : n ≤ n') :
    Matched plain (Abreast code plain) EndSooner ⟨ip', n', strategy', none, s⟩
      (step code ⟨ip, n, strategy, none, s⟩) := by
  rw [jump]
  refine ⟨0, _, .single jump', ?_⟩
  exact ⟨inside, inside', text, rfl, rfl, rfl, Nat.succ_le_succ steps⟩

theorem matched_last (single : plain.Single) (inside' : ip' ≤ plain.body.size)
    (text : plain.textFrom ip' = code.textFrom code.body.size) (steps : n ≤ n') :
    Matched plain (Abreast code plain) EndSooner ⟨ip', n', strategy', none, s⟩
      (step code ⟨code.body.size, n, strategy, none, s⟩) := by
  have last' : ip' = plain.body.size := by
    apply single.index_unique inside' (Nat.le_refl _)
    rw [text, Code.textFrom_last, Code.textFrom_last]
  subst last'
  rw [step_last]
  refine ⟨(.ok (), _), .of_step (by rw [run_succ, step_last]), ?_⟩
  exact ⟨.halted rfl, steps⟩

/-- An operation is matched by the steps of its glyphs, or by those up to the glyph that fails. -/
theorem matched_act (single : plain.Single) (inside : ip < code.body.size)
    (inside' : ip' ≤ plain.body.size) (text : plain.textFrom ip' = code.textFrom ip)
    (steps : n ≤ n') {i : Instruction} (here : code.get? ip = some i) (isAct : i.IsAct) :
    Matched plain (Abreast code plain) EndSooner ⟨ip', n', strategy', none, s⟩
      (step code ⟨ip, n, strategy, none, s⟩) := by
  obtain ⟨a, k, op, pos, written, assigned, notEnd, performs⟩ := isAct.perform_alike
  have next := text.trans (Code.textFrom_of_get? here)
  rw [written] at next
  obtain ⟨held, after⟩ := single.acts_of_text next
  have fits : ip' + k ≤ plain.body.size := by
    have sized := single.length_textFrom ip'
    rw [next, List.length_append, List.length_replicate] at sized
    omega
  obtain ⟨outcome, does, alike⟩ := performs code strategy ip s
  generalize result : a.repeated k s = outcome' at alike
  cases alike with
  | ok s₁ =>
    rw [step_going here assigned notEnd does]
    obtain ⟨k, rfl⟩ := Nat.exists_eq_succ_of_ne_zero (Nat.ne_of_gt pos)
    refine ⟨k, _, goes_of_repeated held result strategy' n', ?_⟩
    exact ⟨inside, fits, after, rfl, rfl, rfl, by dsimp only; omega⟩
  | error variant contents =>
    rw [step_fault here assigned notEnd does]
    obtain ⟨c, ended⟩ := ends_of_repeated held result strategy' n'
    exact ⟨(.error _, _), ended, .faulted variant contents, by dsimp only; omega⟩

theorem matched_opening (single : plain.Single)
    (whole : ∃ before, plain.textFrom 0 = before ++ code.textFrom 0)
    (inside' : ip' ≤ plain.body.size) (text : plain.textFrom ip' = code.textFrom ip)
    (steps : n ≤ n') {distance : Nat} (pair : code.Paired ip distance) :
    Matched plain (Abreast code plain) EndSooner ⟨ip', n', strategy', none, s⟩
      (step code ⟨ip, n, strategy, none, s⟩) := by
  obtain ⟨start', distance', pair', atStart, atInner, _, atAfter⟩ := exists_paired single whole pair
  have room := pair.inside
  have room' := pair'.inside
  have located : ip' = start' := by
    apply single.index_unique inside' (by omega)
    rw [text, atStart]
  subst located
  cases zero : s.isZero with
  | true =>
    exact matched_jump (step_opening_zero pair zero) (step_opening_zero pair' zero) room room'
      atAfter steps
  | false =>
    exact matched_jump (step_opening_nonzero pair zero) (step_opening_nonzero pair' zero)
      (by omega) (by omega) atInner steps

theorem matched_closing (single : plain.Single)
    (whole : ∃ before, plain.textFrom 0 = before ++ code.textFrom 0)
    (inside' : ip' ≤ plain.body.size) {start distance : Nat}
    (text : plain.textFrom ip' = code.textFrom (start + distance)) (steps : n ≤ n')
    (pair : code.Paired start distance) :
    Matched plain (Abreast code plain) EndSooner ⟨ip', n', strategy', none, s⟩
      (step code ⟨start + distance, n, strategy, none, s⟩) := by
  obtain ⟨start', distance', pair', atStart, _, atEnd, atAfter⟩ := exists_paired single whole pair
  have room := pair.inside
  have room' := pair'.inside
  have located : ip' = start' + distance' := by
    apply single.index_unique inside' (Nat.le_of_lt room')
    rw [text, atEnd]
  subst located
  cases zero : s.isZero with
  | true =>
    exact matched_jump (step_closing_zero pair zero) (step_closing_zero pair' zero) room room'
      atAfter steps
  | false =>
    exact matched_jump (step_closing_nonzero pair zero) (step_closing_nonzero pair' zero)
      (by omega) (by omega) atStart steps

end Matching

/-- Every step of the code is matched by steps of the plain code of the same text. -/
theorem simulation_of_text (nested : Nested code.body.toList) (single : plain.Single)
    (whole : ∃ before, plain.textFrom 0 = before ++ code.textFrom 0) :
    Simulation code plain (Abreast code plain) EndSooner := by
  rintro ⟨ip, n, strategy, limit, s⟩ ⟨ip', n', strategy', limit', s'⟩
    ⟨inside, inside', text, store, unlimited, unlimited', steps⟩
  dsimp only at inside inside' text store unlimited unlimited' steps
  subst store unlimited unlimited'
  by_cases last : ip = code.body.size
  · subst last
    exact matched_last single inside' text steps
  have within : ip < 0 + code.body.toList.length := by
    rw [Array.length_toList]
    omega
  obtain ⟨i, here, role⟩ := nested.at_index code.holds_body (Nat.zero_le ip) within
  cases role with
  | act isAct => exact matched_act single (by omega) inside' text steps here isAct
  | opening fits pair => exact matched_opening single whole inside' text steps pair
  | closing fits position pair =>
    subst position
    exact matched_closing single whole inside' text steps pair

/-- The plain code passes over dropped loops while the cell is zero. -/
theorem goes_past_loops (single : plain.Single) (bodies : List Tree) {rest : List Glyph} {k : Nat}
    (inside : k ≤ plain.body.size) (text : plain.textFrom k = loopGlyphs bodies ++ rest) {s : Store}
    (zero : s.isZero = true) (strategy : JumpStrategy) (n : Nat) :
    ∃ c k', k' ≤ plain.body.size ∧ plain.textFrom k' = rest ∧
      Goes plain c ⟨k, n, strategy, none, s⟩ ⟨k', n + c, strategy, none, s⟩ := by
  induction bodies generalizing k n with
  | nil => exact ⟨0, k, inside, text, .refl _⟩
  | cons t bodies ih =>
    have first : plain.textFrom k =
        .opening :: (t.glyphs ++ .closing :: (loopGlyphs bodies ++ rest)) := by
      rw [text]
      simp [loopGlyphs, Tree.glyphs]
    obtain ⟨distance, pair⟩ := single.paired_of_text first
    obtain ⟨u, inner⟩ := pair.text_inner
    rw [pair.text_start, inner, pair.text_end] at first
    obtain ⟨_, after⟩ := Tree.glyphs_append_closing _ _ (List.cons.inj first).2
    obtain ⟨c, k', inside', text', goes⟩ := ih pair.inside after (n + 1)
    rw [Nat.add_right_comm] at goes
    exact ⟨c + 1, k', inside', text', .step (step_opening_zero pair zero) goes⟩

variable {flags : Flags} {gs : List Glyph} {s : Store}

theorem simulation_of_renders (optimized : code.Renders flags gs)
    (unchanged : plain.Renders .plain gs) :
    Simulation code plain (Abreast code plain) EndSooner := by
  obtain ⟨bodies, parted, _⟩ := optimized.dropped
  obtain ⟨single, text⟩ := unchanged.toSingle
  exact simulation_of_text optimized.nested single ⟨loopGlyphs bodies, text.trans parted⟩

/-- From the start, at a zero cell, the plain code gets abreast of the optimized code, which has not
moved yet. -/
theorem exists_abreast_start (optimized : code.Renders flags gs)
    (unchanged : plain.Renders .plain gs) (zero : s.isZero = true)
    (strategy strategy' : JumpStrategy) :
    ∃ c b, Goes plain c (.start strategy' none s) b ∧
      Abreast code plain (.start strategy none s) b := by
  obtain ⟨bodies, parted, _⟩ := optimized.dropped
  obtain ⟨single, text⟩ := unchanged.toSingle
  obtain ⟨c, k, inside, remaining, goes⟩ :=
    goes_past_loops single bodies (Nat.zero_le _) (text.trans parted) zero strategy' 0
  exact ⟨c, _, goes, Nat.zero_le _, inside, remaining, rfl, rfl, rfl, Nat.zero_le _⟩

/-- From the start, at a zero cell, code compiled under any flags and plain code end alike, or both
run on. -/
theorem start_outcome (optimized : code.Renders flags gs) (unchanged : plain.Renders .plain gs)
    (zero : s.isZero = true) (strategy strategy' : JumpStrategy) :
    (∃ r r', Ends code (.start strategy none s) r.1 r.2 ∧
      Ends plain (.start strategy' none s) r'.1 r'.2 ∧ EndSooner r r') ∨
    (RunsOn code (.start strategy none s) ∧ RunsOn plain (.start strategy' none s)) := by
  obtain ⟨c, b, goes, abreast⟩ :=
    exists_abreast_start optimized unchanged zero strategy strategy'
  rcases (simulation_of_renders optimized unchanged).outcome abreast with
    ⟨r, r', ended, ended', sooner⟩ | ⟨on, on'⟩
  · exact .inl ⟨r, r', ended, goes.ends ended', sooner⟩
  · exact .inr ⟨on, goes.runsOn on'⟩

end Machine
end Brainfuck
