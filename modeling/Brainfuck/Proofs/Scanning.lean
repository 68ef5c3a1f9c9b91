import Brainfuck.Proofs.Partners
import Mathlib.Order.Bounds.Basic

/-!
# Scans

The bracket that a scan looks for is described by how often two operations occur in a stretch of the
code (`Code.ClosesOver`, `Code.OpensOver`): as the level changes by one at most from index to index,
the nearest such index is the bracket that encloses what lies between. Main statement: in any code,
a scan ends, its count is never negative, and it finds this nearest bracket or faults at the one it
comes from (`scans_find_nearest`).
-/
namespace Brainfuck

open Instruction

/-! ### Counts of brackets -/

namespace Code

/-- How many of the instructions from one index on and before another are of an operation. -/
def count (code : Code) (op : Opcode) (start finish : Nat) : Nat :=
  ((code.toList.drop start).take (finish - start)).countP fun i => i.isA op

def ClosesOver (code : Code) (start finish : Nat) : Prop :=
  start < finish ∧ finish < code.size ∧
    code.count .jumpBackward (start + 1) (finish + 1) =
      code.count .jumpForward (start + 1) (finish + 1) + 1

/-- From an index on and before another, one more loop is opened than closed. -/
def OpensOver (code : Code) (finish start : Nat) : Prop :=
  start < finish ∧
    code.count .jumpForward start finish = code.count .jumpBackward start finish + 1

instance (code : Code) (start finish : Nat) : Decidable (code.ClosesOver start finish) :=
  inferInstanceAs (Decidable (_ ∧ _ ∧ _))

instance (code : Code) (finish start : Nat) : Decidable (code.OpensOver finish start) :=
  inferInstanceAs (Decidable (_ ∧ _))

variable {code : Code} {op : Opcode} {start finish : Nat}

theorem count_self (code : Code) (op : Opcode) (start : Nat) : code.count op start start = 0 := by
  rw [count, Nat.sub_self, List.take_zero, List.countP_nil]

theorem count_succ (le : start ≤ finish) : code.count op start (finish + 1) =
    code.count op start finish + (code.get? finish).elim 0 fun i => (i.isA op).toNat := by
  have further : finish + 1 - start = (finish - start) + 1 := by omega
  have last : start + (finish - start) = finish := by omega
  rw [count, count, further, List.take_add_one, List.countP_append, List.getElem?_drop, last,
    getElem?_toList]
  cases code.get? finish with
  | none => rfl
  | some i => cases does : i.isA op <;> simp [does]

/-- Between two indices, the level changes by the loops that are opened less those closed. -/
theorem level_eq_add_counts (code : Code) (le : start ≤ finish) :
    code.level finish = code.level start +
      code.count .jumpForward start finish - code.count .jumpBackward start finish := by
  induction finish, le using Nat.le_induction with
  | base => simp [count_self]
  | succ finish le ih =>
    rw [count_succ le, count_succ le]
    cases here : code.get? finish with
    | none => simpa [level, here] using ih
    | some i =>
      rw [level_succ here]
      rcases i.rise_cases with ⟨opens, closes, rises⟩ | ⟨opens, closes, rises⟩ |
        ⟨opens, closes, rises⟩
      · simp only [Option.elim_some, opens, closes, rises, Bool.toNat_true, Bool.toNat_false]
        omega
      · simp only [Option.elim_some, opens, closes, rises, Bool.toNat_true, Bool.toNat_false]
        omega
      · simp only [Option.elim_some, opens, closes, rises, Bool.toNat_false]
        omega

/-- From one index to the next, the level changes by one at most. -/
theorem level_succ_bounds (code : Code) (index : Nat) :
    code.level index - 1 ≤ code.level (index + 1) ∧
      code.level (index + 1) ≤ code.level index + 1 := by
  cases here : code.get? index with
  | none =>
    rw [level, here, Option.elim_none]
    omega
  | some i =>
    rw [level_succ here]
    rcases i.rise_cases with ⟨_, _, rises⟩ | ⟨_, _, rises⟩ | ⟨_, _, rises⟩ <;> omega

/-- Behind an opening bracket, one more loop is closed where the level is that of the bracket. -/
theorem closesOver_iff (opens : code.HasAt start .jumpForward) :
    code.ClosesOver start finish ↔
      start < finish ∧ finish < code.size ∧ code.level (finish + 1) = code.level start := by
  have next := level_succ_of_opening opens
  refine and_congr_right fun after => and_congr_right fun _ => ?_
  have behind : start + 1 ≤ finish + 1 := by omega
  have counts := code.level_eq_add_counts behind
  omega

/-- Before a closing bracket, one more loop is opened where the level is the one it goes back to. -/
theorem opensOver_iff (closes : code.HasAt finish .jumpBackward) :
    code.OpensOver finish start ↔ start < finish ∧ code.level (finish + 1) = code.level start := by
  have next := level_succ_of_closing closes
  refine and_congr_right fun before => ?_
  have counts := code.level_eq_add_counts (Nat.le_of_lt before)
  omega

/-- The nearest index over which one more loop is closed is that of the bracket that encloses what
lies between. -/
theorem isLeast_closesOver_iff (opens : code.HasAt start .jumpForward) :
    IsLeast {finish | code.ClosesOver start finish} finish ↔ code.Encloses start finish := by
  have next := level_succ_of_opening opens
  constructor
  · rintro ⟨member, least⟩
    obtain ⟨after, inside, level⟩ := (closesOver_iff opens).mp member
    refine ⟨after, level, ?_⟩
    intro k low high
    -- The level is above at first, and to fall below it would have to be passed.
    replace low : start + 1 ≤ k := low
    induction k, low using Nat.le_induction with
    | base => omega
    | succ k low ih =>
      have above := ih (by omega)
      have bounds := code.level_succ_bounds k
      have other : code.level (k + 1) ≠ code.level start := by
        intro same
        have nearer := least ((closesOver_iff opens).mpr ⟨low, by omega, same⟩)
        omega
      omega
  · intro encloses
    refine ⟨(closesOver_iff opens).mpr ⟨encloses.lt, encloses.closes.lt_size, encloses.level⟩, ?_⟩
    intro k member
    obtain ⟨after, _, level⟩ := (closesOver_iff opens).mp member
    by_contra nearer
    have above := encloses.inner (k + 1) (by omega) (by omega)
    omega

/-- The nearest index from which on one more loop is opened is that of the bracket that encloses
what lies between. -/
theorem isGreatest_opensOver_iff (closes : code.HasAt finish .jumpBackward) :
    IsGreatest {start | code.OpensOver finish start} start ↔ code.Encloses start finish := by
  have next := level_succ_of_closing closes
  constructor
  · rintro ⟨member, greatest⟩
    obtain ⟨before, level⟩ := (opensOver_iff closes).mp member
    refine ⟨before, level, ?_⟩
    intro k low high
    induction high using Nat.decreasingInduction with
    | self => omega
    | of_succ k high ih =>
      have above := ih (by omega)
      have bounds := code.level_succ_bounds k
      have other : code.level k ≠ code.level start := by
        intro same
        have nearer := greatest ((opensOver_iff closes).mpr ⟨high, by omega⟩)
        omega
      omega
  · intro encloses
    refine ⟨(opensOver_iff closes).mpr ⟨encloses.lt, encloses.level⟩, ?_⟩
    intro k member
    obtain ⟨before, level⟩ := (opensOver_iff closes).mp member
    by_contra nearer
    have above := encloses.inner k (by omega) (by omega)
    have same := encloses.level
    omega

end Code

/-! ### What scans find -/

/-- A scan from a place ends within a number of looks. At each of them, its count is not negative
and is the given one of the index. It finds an index that is sought, and none if there is none. -/
structure Settles (look : Cursor → Look) (c : Cursor) (most : Nat) (count : Nat → Int)
    (Sought : Nat → Prop) (found? : Option Nat) : Prop where
  ends : ∃ looked, Scans look c looked found?
  always : ∀ looked other?, Scans look c looked other? → other? = found? ∧ looked.length ≤ most ∧
    ∀ d ∈ looked, 0 ≤ d.depth ∧ d.depth = count d.index
  finds : ∀ index, found? = some index ↔ Sought index

theorem Settles.of_scans {look : Cursor → Look} {c : Cursor} {most : Nat} {count : Nat → Int}
    {Sought : Nat → Prop} {looked : List Cursor} {found? : Option Nat}
    (scan : Scans look c looked found?) (few : looked.length ≤ most)
    (counts : ∀ d ∈ looked, 0 ≤ d.depth ∧ d.depth = count d.index)
    (finds : ∀ index, found? = some index ↔ Sought index) :
    Settles look c most count Sought found? where
  ends := ⟨looked, scan⟩
  always := by
    intro others other? again
    obtain ⟨rfl, rfl⟩ := scan.unique again
    exact ⟨rfl, few, counts⟩
  finds := finds

namespace Code

variable {code : Code} {start finish : Nat}

/-- The scan of an opening bracket. -/
theorem settles_right (opens : code.HasAt start .jumpForward) :
    Settles code.lookRight ⟨start + 1, 0⟩ code.size
      (fun k => code.count .jumpForward (start + 1) k - code.count .jumpBackward (start + 1) k)
      (fun finish => IsLeast {p | code.ClosesOver start p} finish ∧
        ∀ k, start < k → k ≤ finish → ¬ code.HasAt k .eof)
      (code.closingFrom? 0 (start + 1)) := by
  obtain ⟨looked, scan, few, follow⟩ := code.scans_right 0 (start + 1)
  have inside := opens.lt_size
  refine .of_scans scan (by omega) ?_ ?_
  · intro d member
    obtain ⟨behind, _, level, nonneg⟩ := follow d member
    have counts := code.level_eq_add_counts behind
    refine ⟨nonneg, ?_⟩
    dsimp only at level ⊢
    omega
  · intro finish
    rw [closingFrom?_opening_iff opens, isLeast_closesOver_iff opens]
    refine and_congr_right fun encloses => ?_
    constructor
    · intro endless k low high ends
      rcases Nat.eq_or_lt_of_le high with rfl | before
      · exact Opcode.noConfusion (ends.unique encloses.closes)
      · exact endless ⟨k, low, before, ends⟩
    · rintro endless ⟨k, low, high, ends⟩
      exact endless k low (Nat.le_of_lt high) ends

/-- The scan of a closing bracket. -/
theorem settles_left (closes : code.HasAt finish .jumpBackward) :
    Settles code.lookLeft ⟨finish, 0⟩ code.size
      (fun k => code.count .jumpBackward k finish - code.count .jumpForward k finish)
      (fun start => IsGreatest {p | code.OpensOver finish p} start)
      (code.openingBefore? 0 finish) := by
  obtain ⟨looked, scan, few, follow⟩ := code.scans_left 0 finish
  have inside := closes.lt_size
  refine .of_scans scan (by omega) ?_ ?_
  · intro d member
    obtain ⟨ahead, level, nonneg⟩ := follow d member
    have counts := code.level_eq_add_counts ahead
    refine ⟨nonneg, ?_⟩
    dsimp only at level ⊢
    omega
  · intro start
    rw [openingBefore?_closing_iff closes, isGreatest_opensOver_iff closes]

end Code

/-- In any code, the scan of an opening bracket ends and leads just past the nearest index over
which one more loop is closed than opened, if the program does not end up to there, and faults at
the bracket otherwise. The scan of a closing bracket ends and leads to the nearest index from which
on one more loop is opened than closed, and faults at the bracket if there is none. Neither looks at
more places than the code has instructions, and the loops they count are never less than none. -/
theorem scans_find_nearest (code : Code) :
    (∀ start, code.HasAt start .jumpForward → ∃ found?,
      Settles code.lookRight ⟨start + 1, 0⟩ code.size
        (fun k => code.count .jumpForward (start + 1) k - code.count .jumpBackward (start + 1) k)
        (fun finish => IsLeast {p | code.ClosesOver start p} finish ∧
          ∀ k, start < k → k ≤ finish → ¬ code.HasAt k .eof) found? ∧
      (∀ distance, code.forwardTarget .scan start distance = scanned (found?.map (· + 1))) ∧
      ∀ m : Machine, m.Takes code .jumpForward → m.strategy = .scan → m.ip = start →
        m.step code = m.afterJump (scanned (found?.map (· + 1)))) ∧
    (∀ finish, code.HasAt finish .jumpBackward → ∃ found?,
      Settles code.lookLeft ⟨finish, 0⟩ code.size
        (fun k => code.count .jumpBackward k finish - code.count .jumpForward k finish)
        (fun start => IsGreatest {p | code.OpensOver finish p} start) found? ∧
      (∀ distance, code.backwardTarget .scan finish distance = scanned found?) ∧
      ∀ m : Machine, m.Takes code .jumpBackward → m.strategy = .scan → m.ip = finish →
        m.step code = m.afterJump (scanned found?)) := by
  constructor
  · intro start opens
    refine ⟨_, code.settles_right opens, code.forwardTarget_scan start, ?_⟩
    rintro m takes scans rfl
    obtain ⟨i, here, _⟩ := opens
    rw [takes.step_forward here, scans, code.forwardTarget_scan]
  · intro finish closes
    refine ⟨_, code.settles_left closes, code.backwardTarget_scan finish, ?_⟩
    rintro m takes scans rfl
    obtain ⟨i, here, _⟩ := closes
    rw [takes.step_backward here, scans, code.backwardTarget_scan]

/-- Two pairs of brackets, one in the other, with an end between them: the scan from the first
bracket misses the last one, and the scan from the last one finds the first. -/
theorem scans_find_nearest_around_end :
    let code := Code.ofWords [0x009, 0x009, 0x500, 0x00a, 0x00a]
    let forth : Machine := ⟨0, 0, .scan, none, ⟨.blank 1, ⟨[]⟩, .scripted [] []⟩⟩
    let back : Machine := ⟨4, 0, .scan, none, ⟨(Tape.blank 1).put 1, ⟨[]⟩, .scripted [] []⟩⟩
    forth.step code = forth.afterJump (.error .unbalancedJump) ∧
      back.step code = back.afterJump (.ok 0) := by
  intro code forth back
  have opens : code.HasAt 0 .jumpForward := ⟨_, rfl, rfl⟩
  have closes : code.HasAt 4 .jumpBackward := ⟨_, rfl, rfl⟩
  constructor
  · obtain ⟨found?, settles, _, steps⟩ := (scans_find_nearest code).1 0 opens
    rw [steps forth ⟨opens, rfl, rfl⟩ rfl rfl]
    cases found? with
    | none => rfl
    | some finish =>
      obtain ⟨⟨member, _⟩, endless⟩ := (settles.finds finish).mp rfl
      have before : finish < 2 := by
        by_contra behind
        exact endless 2 (by decide) (by omega) ⟨_, rfl, rfl⟩
      have unclosed : ∀ k < 2, ¬ code.ClosesOver 0 k := by decide
      exact absurd member (unclosed finish before)
  · obtain ⟨found?, settles, _, steps⟩ := (scans_find_nearest code).2 4 closes
    have nearest : IsGreatest {p | code.OpensOver 4 p} 0 := by
      have others : ∀ k < 4, code.OpensOver 4 k → k ≤ 0 := by decide
      exact ⟨by decide, fun k member => others k member.1 member⟩
    rw [steps back ⟨closes, rfl, rfl⟩ rfl rfl, (settles.finds 0).mpr nearest]
    rfl

end Brainfuck
