import Brainfuck.Proofs.Nesting

/-!
# Bracket trees

A text in which every bracket has a partner is a tree: loops contain trees. A tree determines its
glyphs and its glyphs determine it, even when more text follows after a closing bracket
(`Tree.glyphs_append_closing`). So the partner of a bracket is a matter of the text alone, however
the text is compiled.
-/
namespace Brainfuck

inductive Act
  | right
  | left
  | increment
  | decrement
  | write
  | read
  deriving DecidableEq

def Act.glyph : Act → Glyph
  | right => .right
  | left => .left
  | increment => .increment
  | decrement => .decrement
  | write => .write
  | read => .read

theorem Act.glyph_injective {a b : Act} (same : a.glyph = b.glyph) : a = b := by
  cases a <;> cases b <;> first | rfl | cases same

theorem Act.glyph_ne_opening (a : Act) : a.glyph ≠ .opening := by
  cases a <;> exact Glyph.noConfusion

theorem Act.glyph_ne_closing (a : Act) : a.glyph ≠ .closing := by
  cases a <;> exact Glyph.noConfusion

/-- A text whose brackets match: an act or a loop, and then the rest. -/
inductive Tree
  | done
  | act (a : Act) (rest : Tree)
  | loop (body rest : Tree)
  deriving DecidableEq

namespace Tree

def glyphs : Tree → List Glyph
  | done => []
  | act a rest => a.glyph :: rest.glyphs
  | loop body rest => .opening :: (body.glyphs ++ .closing :: rest.glyphs)

def size (t : Tree) : Nat :=
  t.glyphs.length

@[simp] theorem size_act (a : Act) (rest : Tree) : (act a rest).size = rest.size + 1 := rfl

@[simp] theorem size_loop (body rest : Tree) :
    (loop body rest).size = body.size + rest.size + 2 := by
  simp [size, glyphs]
  omega

/-- The tree before a closing bracket ends where its glyphs say, whatever follows. -/
theorem glyphs_append_closing {t u : Tree} (xs ys : List Glyph)
    (same : t.glyphs ++ .closing :: xs = u.glyphs ++ .closing :: ys) : t = u ∧ xs = ys := by
  induction t generalizing u xs ys with
  | done =>
    cases u with
    | done => exact ⟨rfl, (List.cons.inj same).2⟩
    | act a rest => exact absurd (List.cons.inj same).1.symm a.glyph_ne_closing
    | loop body rest => cases (List.cons.inj same).1
  | act a rest ih =>
    cases u with
    | done => exact absurd (List.cons.inj same).1 a.glyph_ne_closing
    | act b other =>
      obtain ⟨first, tail⟩ := List.cons.inj same
      obtain ⟨rfl, after⟩ := ih xs ys tail
      exact ⟨by rw [Act.glyph_injective first], after⟩
    | loop body other => exact absurd (List.cons.inj same).1 a.glyph_ne_opening
  | loop body rest ihBody ihRest =>
    cases u with
    | done => cases (List.cons.inj same).1
    | act b other => exact absurd (List.cons.inj same).1.symm b.glyph_ne_opening
    | loop body' rest' =>
      simp only [glyphs, List.cons_append, List.append_assoc] at same
      have tail := (List.cons.inj same).2
      obtain ⟨rfl, remaining⟩ := ihBody _ _ tail
      obtain ⟨rfl, after⟩ := ihRest xs ys remaining
      exact ⟨rfl, after⟩

theorem glyphs_injective {t u : Tree} (same : t.glyphs = u.glyphs) : t = u :=
  (glyphs_append_closing [] [] (by rw [same])).1

/-- Whether code spells a tree glyph by glyph from an index on. -/
def LaidOut (code : Code) : Tree → Nat → Prop
  | done, _ => True
  | act a rest, k => code.get? k = some (.ofGlyph a.glyph) ∧ rest.LaidOut code (k + 1)
  | loop body rest, k =>
    code.Paired k (body.size + 1) ∧ body.LaidOut code (k + 1) ∧
      rest.LaidOut code (k + body.size + 2)

end Tree

open Instruction

/-- The act that a compiled operation repeats. -/
theorem Instruction.IsAct.exists_act {i : Instruction} (here : i.IsAct) :
    ∃ (a : Act) (n : Nat), 0 < n ∧ i.glyphs = List.replicate n a.glyph := by
  cases here with
  | @counted op repeatable n pos fits =>
    rw [glyphs_make, repeatable]
    cases op with
    | moveRight => exact ⟨.right, n, pos, rfl⟩
    | moveLeft => exact ⟨.left, n, pos, rfl⟩
    | add => exact ⟨.increment, n, pos, rfl⟩
    | subtract => exact ⟨.decrement, n, pos, rfl⟩
    | _ => cases repeatable
  | @transfer op transfers fits =>
    rw [glyphs_make]
    cases op with
    | read => exact ⟨.read, 1, Nat.one_pos, rfl⟩
    | write => exact ⟨.write, 1, Nat.one_pos, rfl⟩
    | _ => cases transfers

/-- An operation that is written with one glyph is that glyph's instruction. -/
theorem Instruction.IsAct.eq_ofGlyph {i : Instruction} (here : i.IsAct)
    (single : i.glyphs.length = 1) : ∃ a : Act, i = ofGlyph a.glyph := by
  cases here with
  | @counted op repeatable n pos fits =>
    rw [glyphs_make, repeatable] at single
    cases op with
    | moveRight => exact ⟨.right, by cases (List.length_replicate.symm.trans single); rfl⟩
    | moveLeft => exact ⟨.left, by cases (List.length_replicate.symm.trans single); rfl⟩
    | add => exact ⟨.increment, by cases (List.length_replicate.symm.trans single); rfl⟩
    | subtract => exact ⟨.decrement, by cases (List.length_replicate.symm.trans single); rfl⟩
    | _ => cases repeatable
  | @transfer op transfers fits =>
    cases op with
    | read => exact ⟨.read, rfl⟩
    | write => exact ⟨.write, rfl⟩
    | _ => cases transfers

theorem Tree.exists_prepend (a : Act) (n : Nat) (t : Tree) :
    ∃ u : Tree, u.glyphs = List.replicate n a.glyph ++ t.glyphs := by
  induction n with
  | zero => exact ⟨t, rfl⟩
  | succ n ih =>
    obtain ⟨u, spells⟩ := ih
    exact ⟨.act a u, by rw [Tree.glyphs, spells, List.replicate_succ, List.cons_append]⟩

/-- Nested code is written with the glyphs of a tree. -/
theorem Nested.exists_tree {is : List Instruction} (nested : Nested is) :
    ∃ t : Tree, t.glyphs = spelled is := by
  induction nested with
  | nil => exact ⟨.done, rfl⟩
  | act here _ ih =>
    obtain ⟨t, spells⟩ := ih
    obtain ⟨a, n, _, written⟩ := here.exists_act
    obtain ⟨u, whole⟩ := Tree.exists_prepend a n t
    exact ⟨u, by rw [whole, spells, spelled_cons, written]⟩
  | loop fits _ _ ihBody ihRest =>
    obtain ⟨t, spellsBody⟩ := ihBody
    obtain ⟨u, spellsRest⟩ := ihRest
    refine ⟨.loop t u, ?_⟩
    rw [Tree.glyphs, spellsBody, spellsRest]
    simp

/-- Nested code of one glyph an instruction lays out a tree. -/
theorem Nested.exists_layout {is : List Instruction} (nested : Nested is)
    (single : ∀ i ∈ is, i.glyphs.length = 1) :
    ∃ t : Tree, t.glyphs = spelled is ∧ t.size = is.length ∧
      ∀ (code : Code) (k : Nat), code.Holds k is → t.LaidOut code k := by
  induction nested with
  | nil => exact ⟨.done, rfl, rfl, fun _ _ _ => trivial⟩
  | @act i rest here _ ih =>
    obtain ⟨t, spells, sized, laid⟩ := ih fun j hj => single j (List.mem_cons_of_mem i hj)
    obtain ⟨a, rfl⟩ := here.eq_ofGlyph (single i List.mem_cons_self)
    refine ⟨.act a t, ?_, ?_, fun code k held => ⟨held.1, laid code (k + 1) held.2⟩⟩
    · rw [Tree.glyphs, spells, spelled_cons, glyphs_ofGlyph, List.singleton_append]
    · rw [Tree.size_act, sized, List.length_cons]
  | @loop body rest fits inner _ ihBody ihRest =>
    obtain ⟨t, spellsBody, sizedBody, laidBody⟩ := ihBody fun j hj => single j (by simp [hj])
    obtain ⟨u, spellsRest, sizedRest, laidRest⟩ := ihRest fun j hj => single j (by simp [hj])
    refine ⟨.loop t u, ?_, ?_, ?_⟩
    · rw [Tree.glyphs, spellsBody, spellsRest]
      simp
    · rw [Tree.size_loop, sizedBody, sizedRest]
      simp
      omega
    · intro code k held
      obtain ⟨opens, heldTail⟩ := held
      obtain ⟨heldBody, closes, heldRest⟩ := Code.holds_append.mp heldTail
      have last : k + 1 + body.length = k + (body.length + 1) := by omega
      rw [last] at closes heldRest
      rw [Tree.LaidOut, sizedBody]
      exact ⟨⟨⟨fits, opens⟩, ⟨fits, closes⟩, body, inner, rfl, heldBody⟩,
        laidBody code (k + 1) heldBody, laidRest code _ heldRest⟩

end Brainfuck
