import Brainfuck.Proofs.Tiling
import Brainfuck.Proofs.WellFormed

/-!
# Compilation with checks

Compilation looks up instructions by index, subtracts indices and makes operands of numbers. Here it
is done once more with a check of each of these operations (`Assembly.feedChecked?`), which has no
result where a check fails: an index may be outside of the code, a difference negative, a count more
than a word holds, and a number more than an operand holds. Main statement: while the tokens of any
source are compiled, the open loops agree with the code so far and no check fails
(`open_loops_consistent`).
-/
namespace Brainfuck

/-!
### Open loops

While a text is compiled, the list of open loops holds the index of the jump that opens each. Partly
compiled code is nested between these jumps (`Framed`), so each of its indices holds what nested
code holds there or one of these jumps (`Framed.at_index`). Main statement: the indices are in order
and inside of the code, exactly the jumps without a partner stand at them, and only the outermost
loop can begin at the start (`Assembly.consistent_of_framed`).
-/

open Instruction

namespace Framed

variable {body : List Instruction} {pending : List (Nat × Place)}

/-- The jumps of open loops stand inside of the code. -/
theorem lt_length (framed : Framed body pending) : ∀ k ∈ pending.map Prod.fst, k < body.length := by
  induction framed with
  | base _ => exact nofun
  | @opened outer inner pending place _ _ ih =>
    intro k member
    rw [List.length_append, List.length_cons]
    rcases List.mem_cons.mp member with rfl | earlier
    · dsimp only
      omega
    · have before := ih k earlier
      omega

/-- Inner loops begin after outer ones. -/
theorem ordered (framed : Framed body pending) : (pending.map Prod.fst).Pairwise (· > ·) := by
  induction framed with
  | base _ => exact .nil
  | opened place below _ ih => exact .cons (below.lt_length) ih

/-- The jump of an open loop has no distance yet. -/
theorem awaiting (framed : Framed body pending) :
    ∀ k ∈ pending.map Prod.fst, body[k]? = some (ofGlyph .opening) := by
  induction framed with
  | base _ => exact nofun
  | opened place below _ ih =>
    intro k member
    rcases List.mem_cons.mp member with rfl | earlier
    · simp
    · rw [List.getElem?_append_left (below.lt_length k earlier)]
      exact ih k earlier

/-- Each index of partly compiled code holds an operation, one bracket of a pair, or the jump of an
open loop. -/
theorem at_index (framed : Framed body pending) {code : Code} (held : code.Holds 0 body)
    {index : Nat} (inside : index < body.length) :
    ∃ i, code.get? index = some i ∧
      (code.Role index i ∨ i = ofGlyph .opening ∧ index ∈ pending.map Prod.fst) := by
  induction framed with
  | base nested =>
    obtain ⟨i, here, role⟩ := nested.at_index held (Nat.zero_le index) (by omega)
    exact ⟨i, here, .inl role⟩
  | @opened outer inner pending place _ nested ih =>
    obtain ⟨heldOuter, opens, heldInner⟩ := Code.holds_append.mp held
    rw [List.length_append, List.length_cons] at inside
    rw [Nat.zero_add] at opens heldInner
    rcases Nat.lt_trichotomy index outer.length with before | rfl | after
    · obtain ⟨i, here, role | ⟨opening, earlier⟩⟩ := ih heldOuter before
      · exact ⟨i, here, .inl role⟩
      · exact ⟨i, here, .inr ⟨opening, List.mem_cons_of_mem _ earlier⟩⟩
    · exact ⟨_, opens, .inr ⟨rfl, List.mem_cons_self⟩⟩
    · obtain ⟨i, here, role⟩ := nested.at_index heldInner after (by omega)
      exact ⟨i, here, .inl role⟩

end Framed

namespace Code

/-- A bracket of a pair holds a distance, so a jump without one is none. -/
theorem not_paired_of_awaiting {code : Code} {k : Nat}
    (here : code.get? k = some (ofGlyph .opening)) (distance : Nat) :
    ¬ code.Paired k distance := by
  intro pair
  obtain ⟨fits, opens⟩ := pair.opens
  obtain ⟨body, _, sized, _⟩ := pair.inner
  have zeroDistance : (0 : Nat) = distance :=
    congrArg operand (Option.some.inj (here.symm.trans opens))
  omega

end Code

namespace Assembly

variable {flags : Flags} {a b : Assembly}

def code (a : Assembly) : Code :=
  ⟨a.body⟩

/-- The indices of the jumps that open the open loops, from the innermost outwards. -/
def openings (a : Assembly) : List Nat :=
  a.pending.map Prod.fst

/-- The open loops agree with the code so far. -/
structure Consistent (a : Assembly) : Prop where
  /-- From the outermost inwards, the indices increase. -/
  ordered : a.openings.reverse.Pairwise (· < ·)
  inside : ∀ k ∈ a.openings, k < a.body.size
  /-- At each of them stands a forward jump without a distance. -/
  awaiting : ∀ k ∈ a.openings, ∃ i, a.body[k]? = some i ∧ i.opcode? = some .jumpForward ∧
    i.operand = 0
  /-- No other forward jump is without a partner. -/
  partnerless : ∀ k i, a.body[k]? = some i → i.opcode? = some .jumpForward →
    (k ∈ a.openings ↔ ¬ ∃ distance, a.code.Paired k distance)
  /-- Only the outermost loop can begin at the start. -/
  outermost : ∀ inner place outer, a.pending = inner ++ (0, place) :: outer → outer = []

theorem get?_code {k : Nat} {i : Instruction} (here : a.body[k]? = some i) :
    a.code.get? k = some i := by
  obtain ⟨inside, _⟩ := Array.getElem?_eq_some_iff.mp here
  exact (Code.get?_of_lt inside).trans here

theorem consistent_of_framed (framed : Framed a.body.toList a.pending) : a.Consistent where
  ordered := List.pairwise_reverse.mpr framed.ordered
  inside := framed.lt_length
  awaiting := by
    intro k member
    have here := framed.awaiting k member
    rw [Array.getElem?_toList] at here
    exact ⟨_, here, opcode?_make .., rfl⟩
  partnerless := by
    intro k i here opens
    constructor
    · rintro member ⟨distance, pair⟩
      have stands := framed.awaiting k member
      rw [Array.getElem?_toList] at stands
      exact Code.not_paired_of_awaiting (get?_code stands) distance pair
    · intro alone
      obtain ⟨inside, _⟩ := Array.getElem?_eq_some_iff.mp here
      obtain ⟨j, there, role | ⟨_, member⟩⟩ := framed.at_index a.code.holds_body inside
      · obtain rfl := Option.some.inj ((get?_code here).symm.trans there)
        exact absurd (role.paired_of_isA_jumpForward (isA_iff.mpr opens)) alone
      · exact member
  outermost := by
    intro inner place outer whole
    have ordered := framed.ordered
    rw [whole, List.map_append, List.map_cons, List.pairwise_append, List.pairwise_cons] at ordered
    obtain ⟨_, ⟨below, _⟩, _⟩ := ordered
    cases outer with
    | nil => rfl
    | cons entry outer => exact absurd (below entry.1 List.mem_cons_self) (Nat.not_lt_zero _)

/-- When the code is cleared, no loop is left open. -/
theorem Consistent.pending_of_cleared (consistent : b.Consistent) (cleared : b.body = #[]) :
    b.pending = [] := by
  cases open' : b.pending with
  | nil => rfl
  | cons entry pending =>
    have inside := consistent.inside entry.1 (by simp [openings, open'])
    rw [cleared] at inside
    cases inside

end Assembly

/-! ### Compilation with checks -/

def difference? (m n : Nat) : Option Nat :=
  if n ≤ m then some (m - n) else none

def incremented? (n : Nat) : Option Nat :=
  if n + 1 < UInt32.size then some (n + 1) else none

def Instruction.withOperand? (i : Instruction) (n : Nat) : Option Instruction :=
  if fits : n ≤ maxOperand then some (i.withOperand n fits) else none

/-- The instructions with another one at an index, if there is one. -/
def replaced? (body : Array Instruction) (index : Nat) (i : Instruction) :
    Option (Array Instruction) :=
  if inside : index < body.size then some (body.set index i) else none

namespace Assembly

def emitChecked? (flags : Flags) (i : Instruction) : Assembly → Option Assembly
  | ⟨body, pending⟩ =>
    if flags.coalesceRuns && i.isRepeatable then
      match body.back? with
      | none => some ⟨body.push i, pending⟩
      | some last => do
        let count ← incremented? last.operand
        if last.code = i.code ∧ count ≤ maxOperand then
          let last ← last.withOperand? count
          let final ← difference? body.size 1
          let body ← replaced? body final last
          some ⟨body, pending⟩
        else some ⟨body.push i, pending⟩
    else some ⟨body.push i, pending⟩

/-- Closes the innermost loop at a place, with checks. The distance is cut to a word of 32 bits
before it becomes an operand. -/
def closeLoopChecked? (flags : Flags) (place : Place) :
    Assembly → Option (Except CompileError Assembly)
  | ⟨_, []⟩ => some (.error (.unmatchedClosing place))
  | ⟨body, (start, _) :: pending⟩ =>
    if flags.stripCommentBlock && start == 0 then some (.ok ⟨#[], pending⟩)
    else do
      let distance ← difference? body.size start
      if maxOperand < distance then some (.error (.loopTooLong place distance))
      else
        let word := distance % UInt32.size
        let opening ← body[start]?
        let opening ← opening.withOperand? word
        let closing ← (ofGlyph .closing).withOperand? word
        let body ← replaced? body start opening
        some (.ok ⟨body.push closing, pending⟩)

def feedChecked? (flags : Flags) (g : Glyph) (place : Place) (a : Assembly) :
    Option (Except CompileError Assembly) :=
  match g with
  | .opening => some (.ok (a.openLoop place))
  | .closing => a.closeLoopChecked? flags place
  | g => (a.emitChecked? flags (.ofGlyph g)).map .ok

def feedGlyphsChecked? (flags : Flags) :
    List (Glyph × Place) → Assembly → Option (Except CompileError Assembly)
  | [], a => some (.ok a)
  | (g, place) :: rest, a =>
    match a.feedChecked? flags g place with
    | none => none
    | some (.error e) => some (.error e)
    | some (.ok a) => feedGlyphsChecked? flags rest a

/-- What has been compiled when some tokens have been read. -/
def ofTokens (flags : Flags) (ts : List Token) : Except CompileError Assembly :=
  feedGlyphs flags (ts.filterMap Token.placedGlyph?) .empty

end Assembly

def compileChecked? (flags : Flags) (source : String) : Option (Except CompileError Code) :=
  (Assembly.feedGlyphsChecked? flags ((tokens source).filterMap Token.placedGlyph?) .empty).map
    fun fed => fed.bind Assembly.finish

/-! ### No check fails -/

section Checks

variable {m n index : Nat} {i : Instruction} {body : Array Instruction}

theorem difference?_of_le (le : n ≤ m) : difference? m n = some (m - n) := if_pos le

theorem Instruction.withOperand?_of_le (fits : n ≤ maxOperand) :
    i.withOperand? n = some (i.withOperand n fits) := dif_pos fits

theorem replaced?_of_lt (inside : index < body.size) :
    replaced? body index i = some (body.setIfInBounds index i) := by
  rw [replaced?, dif_pos inside, Array.setIfInBounds, dif_pos inside]

/-- Any operand can be counted up in 32 bits. -/
theorem incremented?_operand (i : Instruction) :
    incremented? i.operand = some (i.operand + 1) := by
  have fits : i.operand + 1 ≤ maxOperand + 1 := Nat.succ_le_succ i.operand_le
  exact if_pos (Nat.lt_of_le_of_lt fits (by decide))

end Checks

namespace Assembly

variable {flags : Flags} {place : Place} {gs : List Glyph} {a b : Assembly}

theorem emitChecked?_eq (flags : Flags) (i : Instruction) (a : Assembly) :
    a.emitChecked? flags i = some (a.emit flags i) := by
  obtain ⟨body, pending⟩ := a
  rw [emitChecked?, emit]
  by_cases counts : (flags.coalesceRuns && i.isRepeatable) = true
  · rw [if_pos counts, if_pos counts]
    cases final : body.back? with
    | none => rfl
    | some last =>
      obtain ⟨lastInside, _⟩ := Array.getElem?_eq_some_iff.mp (Array.back?_eq_getElem? ▸ final)
      have nonempty : 1 ≤ body.size := by omega
      simp only [incremented?_operand, Option.bind_eq_bind, Option.bind_some, bumped?]
      by_cases fits : last.operand + 1 ≤ maxOperand
      · by_cases same : last.code = i.code
        · simp [fits, same, withOperand?_of_le, difference?_of_le nonempty,
            replaced?_of_lt lastInside]
        · simp [same]
      · simp [fits]
  · rw [if_neg counts, if_neg counts]

/-- Where the open loops agree with the code, no check fails when one is closed. -/
theorem closeLoopChecked?_eq (consistent : a.Consistent) (flags : Flags) (place : Place) :
    a.closeLoopChecked? flags place = some (a.closeLoop flags place) := by
  obtain ⟨body, pending⟩ := a
  cases pending with
  | nil => rfl
  | cons entry pending =>
    obtain ⟨start, opener⟩ := entry
    have inside : start < body.size := consistent.inside start List.mem_cons_self
    obtain ⟨opening, here, opens, _⟩ := consistent.awaiting start List.mem_cons_self
    have code : opening.code = Opcode.jumpForward.code := Opcode.ofCode?_eq_some_iff.mp opens
    rw [closeLoopChecked?, closeLoop]
    by_cases drops : (flags.stripCommentBlock && start == 0) = true
    · rw [if_pos drops, if_pos drops]
    · rw [if_neg drops, if_neg drops, difference?_of_le (Nat.le_of_lt inside)]
      by_cases fits : body.size - start ≤ maxOperand
      · have whole : (body.size - start) % UInt32.size = body.size - start :=
          Nat.mod_eq_of_lt (Nat.lt_of_le_of_lt fits (by decide))
        have patched : opening.withOperand _ fits = make .jumpForward _ fits :=
          Instruction.ext code rfl
        have closing : (ofGlyph .closing).withOperand _ fits = make .jumpBackward _ fits := rfl
        have stands : body[start]? = some opening := here
        simp only [Option.bind_eq_bind, Option.bind_some, if_neg (Nat.not_lt.mpr fits), whole,
          stands, withOperand?_of_le fits, replaced?_of_lt inside, patched, closing, dif_pos fits]
      · simp [Nat.lt_of_not_le fits, fits]

theorem feedChecked?_eq (consistent : a.Consistent) (flags : Flags) (g : Glyph) (place : Place) :
    a.feedChecked? flags g place = some (a.feed flags g place) := by
  cases g with
  | opening => rfl
  | closing => exact closeLoopChecked?_eq consistent flags place
  | _ => exact congrArg (Option.map Except.ok) (emitChecked?_eq flags _ a)

theorem feedGlyphsChecked?_eq (written : Written flags gs a) (more : List (Glyph × Place)) :
    feedGlyphsChecked? flags more a = some (feedGlyphs flags more a) := by
  induction more generalizing gs a with
  | nil => rfl
  | cons entry more ih =>
    obtain ⟨g, place⟩ := entry
    rw [feedGlyphsChecked?, feedGlyphs, feedChecked?_eq (consistent_of_framed written.framed)]
    cases fed : a.feed flags g place with
    | error e => rfl
    | ok b => exact ih (written.feed fed)

theorem written_ofTokens {ts : List Token} (fed : ofTokens flags ts = .ok a) :
    Written flags ((ts.filterMap Token.placedGlyph?).map Prod.fst) a :=
  (written_empty flags).feedGlyphs fed

end Assembly

theorem placedGlyph?_tokens (source : String) :
    (tokens source).filterMap Token.placedGlyph? = placedGlyphs source.toList .start :=
  (Reader.ofSource source).filterMap_left

/-- Compilation reads the tokens of its source. -/
theorem compile_eq_ofTokens (flags : Flags) (source : String) :
    compile flags source = (Assembly.ofTokens flags (tokens source)).bind Assembly.finish := by
  rw [compile_eq_bind, Assembly.ofTokens, placedGlyph?_tokens, Assembly.feedText_eq_feedGlyphs]

theorem compileChecked?_eq (flags : Flags) (source : String) :
    compileChecked? flags source = some (compile flags source) := by
  rw [compileChecked?, Assembly.feedGlyphsChecked?_eq (Assembly.written_empty flags),
    compile_eq_ofTokens]
  rfl

/-- Compilation reads the tokens of its source one after the other, and with checks it comes to the
same, as no check ever fails. When some of the tokens have been read without an error, the indices
of the open loops increase inwards and are inside of the code; exactly the forward jumps without a
partner stand at them, and these have no distance yet; and only the outermost loop can begin at the
start, so a closing that clears the code leaves no loop open. Whatever glyph comes next, no check
fails there. -/
theorem open_loops_consistent (flags : Flags) (source : String) :
    compile flags source = (Assembly.ofTokens flags (tokens source)).bind Assembly.finish ∧
    compileChecked? flags source = some (compile flags source) ∧
    ∀ (ts : List Token) (a : Assembly), ts <+: tokens source → Assembly.ofTokens flags ts = .ok a →
      a.Consistent ∧
      (∀ place b, a.closeLoop flags place = .ok b → b.body = #[] → b.pending = []) ∧
      ∀ g place, a.feedChecked? flags g place = some (a.feed flags g place) := by
  refine ⟨compile_eq_ofTokens flags source, compileChecked?_eq flags source, ?_⟩
  intro ts a _ fed
  have written := Assembly.written_ofTokens fed
  have consistent := Assembly.consistent_of_framed written.framed
  refine ⟨consistent, ?_, Assembly.feedChecked?_eq consistent flags⟩
  intro place b closed cleared
  have after := Assembly.consistent_of_framed (written.closeLoop closed).framed
  exact after.pending_of_cleared cleared

/-- A loop that is stripped, and two that are open at the end. -/
theorem open_loops_consistent_inside :
    ∃ a, Assembly.ofTokens .all (tokens "[a][>>[") = .ok a ∧ a.openings = [2, 0] ∧
      a.Consistent ∧ ∀ g place, a.feedChecked? .all g place = some (a.feed .all g place) := by
  obtain ⟨_, _, during⟩ := open_loops_consistent .all "[a][>>["
  have fed : Assembly.ofTokens .all (tokens "[a][>>[") = .ok
      ⟨#[ofGlyph .opening, make .moveRight 2 (by decide), ofGlyph .opening],
        [(2, ⟨1, 7, 6⟩), (0, ⟨1, 4, 3⟩)]⟩ := by
    rw [Assembly.ofTokens, placedGlyph?_tokens]
    rfl
  obtain ⟨consistent, _, checked⟩ := during _ _ (List.prefix_refl _) fed
  exact ⟨_, fed, rfl, consistent, checked⟩

end Brainfuck
