import Brainfuck.Proofs.BracketTree

/-!
# Matching brackets

Two brackets of a text belong together when a tree stands between them (`Mates`). This tells which
bracket is whose partner from the text alone, with no stack and no order of reading. A bracket has
at most one partner (`Mates.closing_unique`, `Mates.opening_unique`), pairs do not cross
(`Mates.exists_inner`), and in the glyphs of a tree every opening bracket has its partner
(`Tree.exists_closing`).
-/
namespace Brainfuck

namespace Tree

@[simp] theorem length_glyphs (t : Tree) : t.glyphs.length = t.size := rfl

def append : Tree → Tree → Tree
  | done, u => u
  | act a rest, u => act a (rest.append u)
  | loop body rest, u => loop body (rest.append u)

@[simp] theorem glyphs_append (t u : Tree) : (t.append u).glyphs = t.glyphs ++ u.glyphs := by
  induction t with
  | done => rfl
  | act a rest ih => rw [append, glyphs, glyphs, ih, List.cons_append]
  | loop body rest _ ih =>
    rw [append, glyphs, glyphs, ih, List.cons_append, List.append_assoc, List.cons_append]

/-- A tree does not close a bracket that it has not opened. -/
theorem glyphs_ne_append_closing (t u : Tree) (after : List Glyph) :
    t.glyphs ≠ u.glyphs ++ .closing :: after := by
  intro same
  have closed : t.glyphs ++ .closing :: [] = u.glyphs ++ .closing :: (after ++ [.closing]) := by
    rw [same, List.append_assoc, List.cons_append]
  have rest := (glyphs_append_closing _ _ closed).2
  simp at rest

end Tree

/-- The brackets at two ranks of a text belong together: what stands between them is a tree. -/
def Mates (gs : List Glyph) (i j : Nat) : Prop :=
  ∃ before t after, gs = before ++ .opening :: (Tree.glyphs t ++ .closing :: after) ∧
    before.length = i ∧ j = i + t.size + 1

namespace Mates

variable {gs : List Glyph} {i j : Nat}

theorem lt (mates : Mates gs i j) : i < j := by
  obtain ⟨before, t, after, whole, first, last⟩ := mates
  omega

theorem opens (mates : Mates gs i j) : gs[i]? = some .opening := by
  obtain ⟨before, t, after, rfl, rfl, last⟩ := mates
  simp

theorem closes (mates : Mates gs i j) : gs[j]? = some .closing := by
  obtain ⟨before, t, after, rfl, rfl, rfl⟩ := mates
  rw [List.getElem?_append_right (by omega)]
  have rank : before.length + t.size + 1 - before.length = t.glyphs.length + 1 := by
    rw [Tree.length_glyphs]
    omega
  rw [rank, List.getElem?_cons_succ, List.getElem?_append_right (Nat.le_refl _), Nat.sub_self]
  rfl

theorem lt_length (mates : Mates gs i j) : j < gs.length :=
  (List.getElem?_eq_some_iff.mp mates.closes).1

/-- More text does not part two brackets. -/
theorem append (mates : Mates gs i j) (more : List Glyph) : Mates (gs ++ more) i j := by
  obtain ⟨before, t, after, rfl, first, last⟩ := mates
  exact ⟨before, t, after ++ more, by simp, first, last⟩

theorem prepend (mates : Mates gs i j) (more : List Glyph) :
    Mates (more ++ gs) (more.length + i) (more.length + j) := by
  obtain ⟨before, t, after, rfl, rfl, rfl⟩ := mates
  exact ⟨more ++ before, t, after, by simp, by simp, by omega⟩

/-- Whether two brackets belong together is told by the text up to the second. -/
theorem of_append {more : List Glyph} (mates : Mates (gs ++ more) i j) (inside : j < gs.length) :
    Mates gs i j := by
  obtain ⟨before, t, after, whole, first, last⟩ := mates
  have pair : before ++ Glyph.opening :: (t.glyphs ++ [.closing]) <+: gs ++ more :=
    ⟨after, by rw [whole]; simp⟩
  have short : (before ++ Glyph.opening :: (t.glyphs ++ [.closing])).length ≤ gs.length := by
    simp only [List.length_append, List.length_cons, List.length_nil, Tree.length_glyphs]
    omega
  obtain ⟨rest, parted⟩ := List.prefix_of_prefix_length_le pair (List.prefix_append gs more) short
  exact ⟨before, t, rest, by rw [← parted]; simp, first, last⟩

/-- An opening bracket has one partner at most. -/
theorem closing_unique {j' : Nat} (one : Mates gs i j) (two : Mates gs i j') : j = j' := by
  obtain ⟨before, t, after, whole, first, last⟩ := one
  obtain ⟨before', t', after', whole', first', last'⟩ := two
  have same := (List.append_inj (whole.symm.trans whole') (first.trans first'.symm)).2
  obtain ⟨rfl, _⟩ := Tree.glyphs_append_closing _ _ (List.cons.inj same).2
  omega

end Mates

/-- In a tree every opening bracket has a partner. -/
theorem Tree.exists_closing (t : Tree) {i : Nat} (opens : t.glyphs[i]? = some .opening) :
    ∃ j, Mates t.glyphs i j := by
  induction t generalizing i with
  | done => simp [glyphs] at opens
  | act a rest ih =>
    cases i with
    | zero => exact absurd (Option.some.inj opens) a.glyph_ne_opening
    | succ i =>
      obtain ⟨j, mates⟩ := ih opens
      have later := mates.prepend [a.glyph]
      rw [List.length_singleton, Nat.add_comm 1 i] at later
      exact ⟨1 + j, later⟩
  | loop body rest ihBody ihRest =>
    cases i with
    | zero => exact ⟨_, [], body, rest.glyphs, rfl, rfl, rfl⟩
    | succ i =>
      rw [glyphs, List.getElem?_cons_succ] at opens
      by_cases inside : i < body.glyphs.length
      · rw [List.getElem?_append_left inside] at opens
        obtain ⟨j, mates⟩ := ihBody opens
        have later := (mates.append (.closing :: rest.glyphs)).prepend [.opening]
        rw [List.length_singleton, Nat.add_comm 1 i] at later
        exact ⟨1 + j, later⟩
      · rw [List.getElem?_append_right (by omega)] at opens
        obtain ⟨k, rank⟩ : ∃ k, i - body.glyphs.length = k := ⟨_, rfl⟩
        rw [rank] at opens
        cases k with
        | zero => cases opens
        | succ k =>
          obtain ⟨j, mates⟩ := ihRest opens
          have later := mates.prepend (.opening :: (body.glyphs ++ [.closing]))
          have shifted : (.opening :: (body.glyphs ++ [.closing])).length + k = i + 1 := by
            rw [List.length_cons, List.length_append, List.length_singleton]
            omega
          rw [shifted] at later
          exact ⟨_, by simpa [glyphs] using later⟩

namespace Mates

variable {gs : List Glyph} {i j : Nat}

/-- What is opened between two brackets that belong together is closed between them. -/
theorem exists_inner (outer : Mates gs i j) {i' : Nat} (opens : gs[i']? = some .opening)
    (after : i < i') (before : i' < j) : ∃ j' < j, Mates gs i' j' := by
  obtain ⟨start, t, rest, rfl, rfl, rfl⟩ := outer
  obtain ⟨k, rfl⟩ : ∃ k, i' = start.length + 1 + k := ⟨i' - start.length - 1, by omega⟩
  have inside : k < t.glyphs.length := by
    rw [Tree.length_glyphs]
    omega
  have within : t.glyphs[k]? = some .opening := by
    rw [List.getElem?_append_right (by omega)] at opens
    have rank : start.length + 1 + k - start.length = k + 1 := by omega
    rwa [rank, List.getElem?_cons_succ, List.getElem?_append_left inside] at opens
  obtain ⟨j', mates⟩ := t.exists_closing within
  have bound := mates.lt_length
  rw [Tree.length_glyphs] at bound
  refine ⟨start.length + 1 + j', by omega, ?_⟩
  have placed := (mates.append (.closing :: rest)).prepend (start ++ [.opening])
  simpa using placed

/-- A closing bracket has one partner at most. -/
theorem opening_unique {i' : Nat} (one : Mates gs i j) (two : Mates gs i' j) : i = i' := by
  rcases Nat.lt_trichotomy i i' with less | same | more
  · obtain ⟨j', inner, mates⟩ := one.exists_inner two.opens less two.lt
    have closed := two.closing_unique mates
    omega
  · exact same
  · obtain ⟨j', inner, mates⟩ := two.exists_inner one.opens more one.lt
    have closed := one.closing_unique mates
    omega

end Mates

def Unopened (gs : List Glyph) (j : Nat) : Prop :=
  gs[j]? = some .closing ∧ ∀ i, ¬ Mates gs i j

def Unclosed (gs : List Glyph) (i : Nat) : Prop :=
  gs[i]? = some .opening ∧ ∀ j, ¬ Mates gs i j

end Brainfuck
