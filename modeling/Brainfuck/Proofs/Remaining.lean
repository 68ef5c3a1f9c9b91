import Brainfuck.Proofs.Execution

/-!
# What remains of a text

Codes of one text are compared by the glyphs that remain at an index (`Code.textFrom`): indices and
distances differ between them, the remaining glyphs do not. The brackets of a loop are told by them
(`Code.Paired.same_ends`). Code with one glyph an instruction has exactly one index for each
remainder (`Code.Single`), so in it every other code of the text can be located.
-/
namespace Brainfuck

open Instruction

namespace Code

/-- The glyphs that the instructions from an index on are written with. -/
def textFrom (code : Code) (index : Nat) : List Glyph :=
  spelled (code.body.toList.drop index)

variable {code : Code} {k : Nat}

@[simp] theorem textFrom_zero (code : Code) : code.textFrom 0 = spelled code.body.toList := rfl

@[simp] theorem textFrom_last (code : Code) : code.textFrom code.body.size = [] := by
  rw [textFrom, List.drop_eq_nil_of_le (by simp), spelled_nil]

theorem textFrom_of_get? {i : Instruction} (here : code.get? k = some i) :
    code.textFrom k = i.glyphs ++ code.textFrom (k + 1) := by
  have bound := lt_size_of_get? here
  rw [size] at bound
  by_cases last : k = code.body.size
  · subst last
    obtain rfl := Option.some.inj (code.get?_last.symm.trans here)
    rw [textFrom_last, textFrom, List.drop_eq_nil_of_le (by simp)]
    rfl
  · have inside : k < code.body.toList.length := by
      rw [Array.length_toList]
      omega
    have entry : code.body.toList[k] = i := by
      rw [get?_of_lt (by simpa using inside), ← Array.getElem?_toList,
        List.getElem?_eq_getElem inside] at here
      exact Option.some.inj here
    rw [textFrom, List.drop_eq_getElem_cons inside, spelled_cons, entry]
    rfl

theorem textFrom_of_holds {is : List Instruction} (held : code.Holds k is) :
    code.textFrom k = spelled is ++ code.textFrom (k + is.length) := by
  induction is generalizing k with
  | nil => rfl
  | cons i is ih =>
    rw [textFrom_of_get? held.1, ih held.2, spelled_cons, List.append_assoc, List.length_cons]
    congr 3
    omega

theorem textFrom_zero_split (code : Code) (index : Nat) :
    ∃ before, code.textFrom 0 = before ++ code.textFrom index := by
  refine ⟨spelled (code.body.toList.take index), ?_⟩
  rw [textFrom, textFrom, ← spelled_append, List.drop_zero, List.take_append_drop]

namespace Paired

variable {start distance : Nat}

theorem text_start (pair : code.Paired start distance) :
    code.textFrom start = .opening :: code.textFrom (start + 1) := by
  obtain ⟨fits, opens⟩ := pair.opens
  rw [textFrom_of_get? opens, glyphs_jumpForward]
  rfl

theorem text_end (pair : code.Paired start distance) :
    code.textFrom (start + distance) = .closing :: code.textFrom (start + distance + 1) := by
  obtain ⟨fits, closes⟩ := pair.closes
  rw [textFrom_of_get? closes, glyphs_jumpBackward]
  rfl

theorem text_inner (pair : code.Paired start distance) :
    ∃ t : Tree, code.textFrom (start + 1) = t.glyphs ++ code.textFrom (start + distance) := by
  obtain ⟨body, nested, span, held⟩ := pair.inner
  obtain ⟨t, spells⟩ := nested.exists_tree
  have last : start + 1 + body.length = start + distance := by omega
  exact ⟨t, by rw [textFrom_of_holds held, spells, last]⟩

/-- Loops that begin before the same glyphs end before the same glyphs, in whichever codes. -/
theorem same_ends {other : Code} {start' distance' : Nat} (pair : code.Paired start distance)
    (pair' : other.Paired start' distance')
    (same : code.textFrom (start + 1) = other.textFrom (start' + 1)) :
    code.textFrom (start + distance) = other.textFrom (start' + distance') ∧
      code.textFrom (start + distance + 1) = other.textFrom (start' + distance' + 1) := by
  obtain ⟨t, inner⟩ := pair.text_inner
  obtain ⟨t', inner'⟩ := pair'.text_inner
  rw [inner, inner', pair.text_end, pair'.text_end] at same
  obtain ⟨_, after⟩ := Tree.glyphs_append_closing _ _ same
  constructor
  · rw [pair.text_end, pair'.text_end, after]
  · exact after

end Paired

/-- Nested code in which every instruction is written with one glyph. -/
structure Single (code : Code) : Prop where
  nested : Nested code.body.toList
  single : ∀ i ∈ code.body.toList, i.glyphs.length = 1

namespace Single

theorem length_textFrom (plain : code.Single) (k : Nat) :
    (code.textFrom k).length = code.body.size - k := by
  have counted : ∀ is : List Instruction, (∀ i ∈ is, i.glyphs.length = 1) →
      (spelled is).length = is.length := by
    intro is each
    induction is with
    | nil => rfl
    | cons i is ih =>
      have rest := ih fun j later => each j (List.mem_cons_of_mem i later)
      rw [spelled_cons, List.length_append, each i List.mem_cons_self, rest, List.length_cons,
        Nat.add_comm]
  rw [textFrom, counted _ fun i here => plain.single i (List.mem_of_mem_drop here)]
  simp

/-- Each remainder of the text has one index. -/
theorem index_unique (plain : code.Single) {j : Nat} (hj : j ≤ code.body.size)
    (hk : k ≤ code.body.size) (same : code.textFrom j = code.textFrom k) : j = k := by
  have lengths := congrArg List.length same
  rw [plain.length_textFrom, plain.length_textFrom] at lengths
  omega

/-- Each ending of the text remains somewhere. -/
theorem exists_index (plain : code.Single) {before rest : List Glyph}
    (whole : code.textFrom 0 = before ++ rest) : ∃ k ≤ code.body.size, code.textFrom k = rest := by
  have sized := plain.length_textFrom 0
  rw [whole, List.length_append] at sized
  obtain ⟨before', parted⟩ := code.textFrom_zero_split before.length
  -- With one glyph an instruction, the glyphs before an index are as many as the index says.
  have sized' := plain.length_textFrom before.length
  have both := congrArg List.length (whole.symm.trans parted)
  rw [List.length_append, List.length_append] at both
  have same := List.append_inj (whole.symm.trans parted) (by omega)
  exact ⟨before.length, by omega, same.2.symm⟩

/-- What stands where a glyph is next is written with that glyph alone. -/
theorem at_glyph (plain : code.Single) {g : Glyph} {rest : List Glyph}
    (next : code.textFrom k = g :: rest) :
    ∃ i, code.get? k = some i ∧ code.Role k i ∧ i.glyphs = [g] ∧ code.textFrom (k + 1) = rest := by
  have sized := plain.length_textFrom k
  rw [next, List.length_cons] at sized
  have inside : k < 0 + code.body.toList.length := by
    rw [Array.length_toList]
    omega
  obtain ⟨i, here, role⟩ := plain.nested.at_index code.holds_body (Nat.zero_le k) inside
  have member : i ∈ code.body.toList := by
    rw [get?_of_lt (by omega), ← Array.getElem?_toList] at here
    exact List.mem_of_getElem? here
  have text := (textFrom_of_get? here).symm.trans next
  obtain ⟨g', alone⟩ := List.length_eq_one_iff.mp (plain.single i member)
  rw [alone] at text
  obtain ⟨rfl, after⟩ := List.cons.inj text
  exact ⟨i, here, role, alone, after⟩

theorem act_of_text (plain : code.Single) {a : Act} {rest : List Glyph}
    (next : code.textFrom k = a.glyph :: rest) :
    code.get? k = some (ofGlyph a.glyph) ∧ code.textFrom (k + 1) = rest := by
  obtain ⟨i, here, role, alone, after⟩ := plain.at_glyph next
  refine ⟨?_, after⟩
  cases role with
  | act isAct =>
    obtain ⟨b, rfl⟩ := isAct.eq_ofGlyph (by rw [alone]; rfl)
    rw [glyphs_ofGlyph] at alone
    rw [here, (List.cons.inj alone).1]
  | opening fits pair =>
    rw [glyphs_jumpForward] at alone
    exact absurd (List.cons.inj alone).1.symm a.glyph_ne_opening
  | closing fits position pair =>
    rw [glyphs_jumpBackward] at alone
    exact absurd (List.cons.inj alone).1.symm a.glyph_ne_closing

theorem acts_of_text (plain : code.Single) {a : Act} {n : Nat} {rest : List Glyph}
    (next : code.textFrom k = List.replicate n a.glyph ++ rest) :
    code.Holds k (List.replicate n (ofGlyph a.glyph)) ∧ code.textFrom (k + n) = rest := by
  induction n generalizing k with
  | zero => exact ⟨trivial, next⟩
  | succ n ih =>
    obtain ⟨here, tail⟩ := plain.act_of_text next
    obtain ⟨held, after⟩ := ih tail
    refine ⟨⟨here, held⟩, ?_⟩
    rw [← after, Nat.add_right_comm, Nat.add_assoc]

theorem paired_of_text (plain : code.Single) {rest : List Glyph}
    (next : code.textFrom k = .opening :: rest) : ∃ distance, code.Paired k distance := by
  obtain ⟨i, here, role, alone, after⟩ := plain.at_glyph next
  cases role with
  | act isAct =>
    obtain ⟨a, rfl⟩ := isAct.eq_ofGlyph (by rw [alone]; rfl)
    rw [glyphs_ofGlyph] at alone
    exact absurd (List.cons.inj alone).1 a.glyph_ne_opening
  | opening fits pair => exact ⟨_, pair⟩
  | closing fits position pair =>
    rw [glyphs_jumpBackward] at alone
    cases alone

end Single
end Code

/-- Code compiled without optimizations has one glyph an instruction. -/
theorem Code.Renders.toSingle {code : Code} {gs : List Glyph} (renders : code.Renders .plain gs) :
    code.Single ∧ code.textFrom 0 = gs := by
  obtain ⟨nested, ⟨bodies, whole, kept⟩, single⟩ := renders
  obtain rfl := kept rfl
  exact ⟨⟨nested, single rfl⟩, whole.symm⟩

end Brainfuck
