import Brainfuck.Proofs.Assembling
import Brainfuck.Proofs.Matching

/-!
# Well-formed code

Nested code is described here index by index. One glyph for each instruction (`Code.heads`) makes a
text of its own, in which a repeated glyph counts once; brackets of the code belong together when
they do in that text. Main statement: code compiled under any optimizations ends in the only end
there is, holds the instruction of a glyph everywhere else, with an operand that suits it, and the
brackets of each pair hold the distance between them (`wellFormed_of_compile`).
-/
namespace Brainfuck

open Instruction

/-- The glyph that an instruction is written with, once or more often. -/
def Instruction.glyph? (i : Instruction) : Option Glyph :=
  i.opcode?.bind Opcode.glyph?

def Code.heads (code : Code) : List Glyph :=
  code.body.toList.filterMap Instruction.glyph?

/-- Code as compilation gives it. -/
structure Code.WellFormed (code : Code) : Prop where
  /-- The last instruction ends the program. -/
  last : code.get? (code.size - 1) = some .eof
  /-- No other instruction does. -/
  only : ∀ k i, code.get? k = some i → i.isA .eof = true → k + 1 = code.size
  /-- Every other one is that of a glyph, the one that the heads have at its index. -/
  glyph : ∀ k i, k + 1 < code.size → code.get? k = some i →
    ∃ g, i.glyph? = some g ∧ code.heads[k]? = some g
  /-- A transfer has no operand. -/
  transfer : ∀ k i op, code.get? k = some i → i.opcode? = some op → op.isTransfer = true →
    i.operand = 0
  /-- Anything repeated is done at least once, and as often as an operand can say at most. -/
  counted : ∀ k i op, code.get? k = some i → i.opcode? = some op → op.isRepeatable = true →
    1 ≤ i.operand ∧ i.operand ≤ maxOperand
  /-- The brackets are those of a tree. -/
  nested : ∃ t : Tree, t.glyphs = code.heads
  /-- Each has a partner. -/
  partnered : ∀ k i, code.get? k = some i →
    (i.isA .jumpForward = true → ∃ j, Mates code.heads k j) ∧
    (i.isA .jumpBackward = true → ∃ j, Mates code.heads j k)
  /-- Both of a pair hold the distance between them. -/
  distance : ∀ i j, Mates code.heads i j → 1 ≤ j - i ∧ ∃ fits : j - i ≤ maxOperand,
    code.get? i = some (make .jumpForward (j - i) fits) ∧
    code.get? j = some (make .jumpBackward (j - i) fits)

theorem getElem?_filterMap_of_isSome {α β : Type} {f : α → Option β} {l : List α}
    (all : ∀ x ∈ l, (f x).isSome) (k : Nat) : (l.filterMap f)[k]? = l[k]?.bind f := by
  induction l generalizing k with
  | nil => rfl
  | cons x l ih =>
    obtain ⟨y, image⟩ := Option.isSome_iff_exists.mp (all x List.mem_cons_self)
    rw [List.filterMap_cons_some image]
    cases k with
    | zero => exact image.symm
    | succ k => exact ih (fun z later => all z (List.mem_cons_of_mem x later)) k

theorem Instruction.glyph?_make (op : Opcode) (n : Nat) (fits : n ≤ maxOperand) :
    (make op n fits).glyph? = op.glyph? := by
  rw [glyph?, opcode?_make, Option.bind_some]

/-- An operation is written with the glyph of an act. -/
theorem Instruction.IsAct.glyph?_eq {i : Instruction} (here : i.IsAct) :
    ∃ a : Act, i.glyph? = some a.glyph := by
  cases here with
  | @counted op repeatable n pos fits =>
    rw [glyph?_make]
    cases op with
    | moveRight => exact ⟨.right, rfl⟩
    | moveLeft => exact ⟨.left, rfl⟩
    | add => exact ⟨.increment, rfl⟩
    | subtract => exact ⟨.decrement, rfl⟩
    | _ => cases repeatable
  | @transfer op transfers fits =>
    rw [glyph?_make]
    cases op with
    | read => exact ⟨.read, rfl⟩
    | write => exact ⟨.write, rfl⟩
    | _ => cases transfers

theorem filterMap_glyph?_loop (body rest : List Instruction) {n : Nat}
    (fits fits' : n ≤ maxOperand) :
    (make .jumpForward n fits :: (body ++ make .jumpBackward n fits' :: rest)).filterMap glyph? =
      .opening :: (body.filterMap glyph? ++ .closing :: rest.filterMap glyph?) := by
  have opens : (make .jumpForward n fits).glyph? = some .opening := glyph?_make ..
  have closes : (make .jumpBackward n fits').glyph? = some .closing := glyph?_make ..
  rw [List.filterMap_cons_some opens, List.filterMap_append, List.filterMap_cons_some closes]

namespace Nested

variable {is : List Instruction}

/-- The glyphs of nested code, each once, are those of a tree. -/
theorem exists_heads (nested : Nested is) : ∃ t : Tree, t.glyphs = is.filterMap glyph? := by
  induction nested with
  | nil => exact ⟨.done, rfl⟩
  | act here _ ih =>
    obtain ⟨t, heads⟩ := ih
    obtain ⟨a, written⟩ := here.glyph?_eq
    exact ⟨.act a t, by rw [Tree.glyphs, heads, List.filterMap_cons_some written]⟩
  | loop fits _ _ ihBody ihRest =>
    obtain ⟨t, headsBody⟩ := ihBody
    obtain ⟨u, headsRest⟩ := ihRest
    refine ⟨.loop t u, ?_⟩
    rw [Tree.glyphs, headsBody, headsRest, filterMap_glyph?_loop]

theorem glyph?_isSome (nested : Nested is) : ∀ i ∈ is, i.glyph?.isSome := by
  induction nested with
  | nil => simp
  | act here _ ih =>
    obtain ⟨a, written⟩ := here.glyph?_eq
    intro i member
    rcases List.mem_cons.mp member with rfl | later
    · rw [written]
      rfl
    · exact ih i later
  | loop fits _ _ ihBody ihRest =>
    intro i member
    simp only [List.mem_cons, List.mem_append] at member
    rcases member with rfl | inside | rfl | after
    · rw [glyph?_make]
      rfl
    · exact ihBody i inside
    · rw [glyph?_make]
      rfl
    · exact ihRest i after

end Nested

namespace Code

variable {code : Code}

/-- What code holds from an index on stands in its body. -/
theorem exists_split_of_holds {is : List Instruction} {k : Nat} (held : code.Holds k is)
    (inside : k + is.length ≤ code.body.size) :
    ∃ after, code.body.toList = code.body.toList.take k ++ (is ++ after) := by
  induction is generalizing k with
  | nil => exact ⟨code.body.toList.drop k, (List.take_append_drop ..).symm⟩
  | cons i is ih =>
    rw [List.length_cons] at inside
    obtain ⟨after, parted⟩ := ih held.2 (by omega)
    have here := held.1
    rw [get?_of_lt (by omega), ← Array.getElem?_toList] at here
    refine ⟨after, ?_⟩
    rw [List.take_add_one, here] at parted
    rw [List.cons_append]
    simpa using parted

theorem getElem?_heads (nested : Nested code.body.toList) {k : Nat} {i : Instruction}
    (inside : k < code.body.size) (here : code.get? k = some i) : code.heads[k]? = i.glyph? := by
  rw [get?_of_lt inside, ← Array.getElem?_toList] at here
  rw [heads, getElem?_filterMap_of_isSome nested.glyph?_isSome, here, Option.bind_some]

/-- The brackets of a pair belong together among the heads. -/
theorem Paired.mates {start distance : Nat} (pair : code.Paired start distance)
    (nested : Nested code.body.toList) : Mates code.heads start (start + distance) := by
  obtain ⟨fits, opens⟩ := pair.opens
  obtain ⟨fits', closes⟩ := pair.closes
  obtain ⟨body, inner, rfl, held⟩ := pair.inner
  have within := pair.inside
  have loop : code.Holds start
      (make .jumpForward _ fits :: (body ++ [make .jumpBackward _ fits'])) :=
    ⟨opens, holds_append.mpr ⟨held, by
      rw [Nat.add_assoc, Nat.add_comm 1]
      exact ⟨closes, trivial⟩⟩⟩
  obtain ⟨after, parted⟩ := exists_split_of_holds loop (by
    rw [List.length_cons, List.length_append, List.length_singleton]
    omega)
  obtain ⟨t, headsBody⟩ := inner.exists_heads
  have sized : body.length = t.size := by
    rw [← Tree.length_glyphs, headsBody, List.filterMap_length_eq_length.mpr inner.glyph?_isSome]
  refine ⟨(code.body.toList.take start).filterMap glyph?, t, after.filterMap glyph?, ?_, ?_, ?_⟩
  · rw [headsBody, heads]
    conv => lhs; rw [parted]
    rw [List.filterMap_append, List.cons_append, List.append_assoc, List.singleton_append,
      filterMap_glyph?_loop]
  · have earlier : ∀ i ∈ code.body.toList.take start, i.glyph?.isSome :=
      fun i member => nested.glyph?_isSome i (List.mem_of_mem_take member)
    rw [List.filterMap_length_eq_length.mpr earlier, List.length_take, Array.length_toList]
    omega
  · omega

/-- What stands at an index of nested code is told by the glyph there. -/
theorem Role.glyph?_eq {k : Nat} {i : Instruction} (role : code.Role k i) :
    ∃ g, i.glyph? = some g := by
  cases role with
  | act here =>
    obtain ⟨a, written⟩ := here.glyph?_eq
    exact ⟨a.glyph, written⟩
  | opening fits _ => exact ⟨.opening, glyph?_make ..⟩
  | closing fits _ _ => exact ⟨.closing, glyph?_make ..⟩

theorem Role.operand_of_isTransfer {k : Nat} {i : Instruction} (role : code.Role k i)
    {op : Opcode} (assigned : i.opcode? = some op) (transfers : op.isTransfer = true) :
    i.operand = 0 := by
  cases role with
  | act here =>
    cases here with
    | counted repeatable _ _ =>
      obtain rfl := Option.some.inj ((opcode?_make ..).symm.trans assigned)
      cases (Opcode.not_isRepeatable_of_isTransfer transfers).symm.trans repeatable
    | transfer _ _ => rfl
  | opening fits _ =>
    obtain rfl := Option.some.inj ((opcode?_make ..).symm.trans assigned)
    cases transfers
  | closing fits _ _ =>
    obtain rfl := Option.some.inj ((opcode?_make ..).symm.trans assigned)
    cases transfers

theorem Role.operand_of_isRepeatable {k : Nat} {i : Instruction} (role : code.Role k i)
    {op : Opcode} (assigned : i.opcode? = some op) (repeatable : op.isRepeatable = true) :
    1 ≤ i.operand ∧ i.operand ≤ maxOperand := by
  refine ⟨?_, i.operand_le⟩
  cases role with
  | act here =>
    cases here with
    | counted _ pos _ => exact pos
    | transfer transfers _ =>
      obtain rfl := Option.some.inj ((opcode?_make ..).symm.trans assigned)
      cases (Opcode.not_isRepeatable_of_isTransfer transfers).symm.trans repeatable
  | opening fits _ =>
    obtain rfl := Option.some.inj ((opcode?_make ..).symm.trans assigned)
    cases repeatable
  | closing fits _ _ =>
    obtain rfl := Option.some.inj ((opcode?_make ..).symm.trans assigned)
    cases repeatable

theorem Role.paired_of_isA_jumpForward {k : Nat} {i : Instruction} (role : code.Role k i)
    (opens : i.isA .jumpForward = true) : ∃ distance, code.Paired k distance := by
  cases role with
  | act here => cases opens.symm.trans (here.not_isA .jumpForward rfl rfl)
  | opening fits pair => exact ⟨_, pair⟩
  | closing fits _ _ =>
    rw [isA_make] at opens
    cases opens

theorem Role.paired_of_isA_jumpBackward {k : Nat} {i : Instruction} (role : code.Role k i)
    (closes : i.isA .jumpBackward = true) :
    ∃ start distance, k = start + distance ∧ code.Paired start distance := by
  cases role with
  | act here => cases closes.symm.trans (here.not_isA .jumpBackward rfl rfl)
  | opening fits _ =>
    rw [isA_make] at closes
    cases closes
  | closing fits position pair => exact ⟨_, _, position, pair⟩

/-- Brackets that belong together among the heads are those of a pair. -/
theorem paired_of_mates (nested : Nested code.body.toList) {i j : Nat}
    (mates : Mates code.heads i j) : code.Paired i (j - i) := by
  have inside : i < code.body.size := by
    have bound := Nat.lt_trans mates.lt mates.lt_length
    rwa [heads, List.filterMap_length_eq_length.mpr nested.glyph?_isSome, Array.length_toList]
      at bound
  obtain ⟨x, here⟩ := Option.isSome_iff_exists.mp
    (get?_isSome_iff.mpr (Nat.lt_succ_of_lt inside))
  have opens := (getElem?_heads nested inside here).symm.trans mates.opens
  rcases nested.role_of_get? here with ⟨last, _⟩ | ⟨_, role⟩
  · omega
  · cases role with
    | act act =>
      obtain ⟨a, written⟩ := act.glyph?_eq
      exact absurd (Option.some.inj (written.symm.trans opens)) a.glyph_ne_opening
    | opening fits pair =>
      have same := (pair.mates nested).closing_unique mates
      rwa [← same, Nat.add_sub_cancel_left]
    | closing fits _ _ => cases (glyph?_make ..).symm.trans opens

/-- Nested code is well-formed. -/
theorem wellFormed_of_nested (nested : Nested code.body.toList) : code.WellFormed where
  last := code.get?_last
  only := by
    intro k i here ends
    rcases nested.role_of_get? here with ⟨last, _⟩ | ⟨_, role⟩
    · rw [last, size]
    · obtain ⟨g, written⟩ := role.glyph?_eq
      rw [glyph?, isA_iff.mp ends] at written
      cases written
  glyph := by
    intro k i inside here
    have before : k < code.body.size := Nat.lt_of_succ_lt_succ inside
    rcases nested.role_of_get? here with ⟨last, _⟩ | ⟨_, role⟩
    · omega
    · obtain ⟨g, written⟩ := role.glyph?_eq
      exact ⟨g, written, (getElem?_heads nested before here).trans written⟩
  transfer := by
    intro k i op here assigned transfers
    rcases nested.role_of_get? here with ⟨_, rfl⟩ | ⟨_, role⟩
    · rfl
    · exact role.operand_of_isTransfer assigned transfers
  counted := by
    intro k i op here assigned repeatable
    rcases nested.role_of_get? here with ⟨_, rfl⟩ | ⟨_, role⟩
    · obtain rfl : Opcode.eof = op := Option.some.inj assigned
      cases repeatable
    · exact role.operand_of_isRepeatable assigned repeatable
  nested := nested.exists_heads
  partnered := by
    intro k i here
    rcases nested.role_of_get? here with ⟨_, rfl⟩ | ⟨_, role⟩
    · exact ⟨fun opens => Bool.noConfusion opens, fun closes => Bool.noConfusion closes⟩
    · constructor
      · intro opens
        obtain ⟨distance, pair⟩ := role.paired_of_isA_jumpForward opens
        exact ⟨_, pair.mates nested⟩
      · intro closes
        obtain ⟨start, distance, rfl, pair⟩ := role.paired_of_isA_jumpBackward closes
        exact ⟨start, pair.mates nested⟩
  distance := by
    intro i j mates
    have pair := paired_of_mates nested mates
    have apart := mates.lt
    obtain ⟨fits, opens⟩ := pair.opens
    obtain ⟨_, closes⟩ := pair.closes
    rw [Nat.add_sub_cancel' (Nat.le_of_lt apart)] at closes
    exact ⟨by omega, fits, opens, closes⟩

end Code

/-- Code compiled under any optimizations is well-formed. -/
theorem wellFormed_of_compile {flags : Flags} {source : String} {code : Code}
    (compiled : compile flags source = .ok code) : code.WellFormed :=
  Code.wellFormed_of_nested (renders_of_compile compiled).nested

theorem wellFormed_of_compile_folded_loops :
    ∃ code, compile .all "[a comment]+++[>++[-]<-]," = .ok code ∧ code.WellFormed := by
  have compiled : compile .all "[a comment]+++[>++[-]<-]," = .ok _ := rfl
  exact ⟨_, compiled, wellFormed_of_compile compiled⟩

end Brainfuck
