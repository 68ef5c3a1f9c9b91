import Brainfuck.Proofs.FlagErrors
import Brainfuck.Proofs.Respelling
import Mathlib.Data.List.SplitBy

/-!
# Folded runs

Where runs are coalesced, a glyph is counted into the last instruction whenever this can be done, so
no instruction of the code could have been counted into the one before (`Assembly.Complete`). Code
of which this holds is determined by the glyphs it is written with (`shape_eq_foldedRuns`): each run
of equal glyphs is folded by itself, into as many full counts as there are in it and one count of
what is left over. Main statement: without loops being dropped, the code of a source is its glyphs
with their runs folded, up to the distances of jumps (`folded_of_compile`).
-/
namespace Brainfuck

open Instruction

/-- The instruction without the distance, if it is a jump. -/
def Instruction.undistanced (i : Instruction) : Instruction :=
  if i.opcode?.any Opcode.isJump then i.withOperand 0 (Nat.zero_le _) else i

def shape (is : List Instruction) : List Instruction :=
  is.map undistanced

/-- Glyphs that can be counted: moves and changes of a cell. -/
def Glyph.isCounted : Glyph → Bool
  | .right | .left | .increment | .decrement => true
  | _ => false

/-- A run of one glyph as instructions. If the glyph is counted they are as many full counts as
there are in the run and one count of what is left over, and else one instruction for each glyph. -/
def Glyph.folded (g : Glyph) (n : Nat) : List Instruction :=
  if g.isCounted then
    List.replicate (n / maxOperand) ((ofGlyph g).withOperand maxOperand (Nat.le_refl _)) ++
      if n % maxOperand = 0 then []
      else [(ofGlyph g).withOperand (n % maxOperand) (Nat.le_of_lt (Nat.mod_lt n (by decide)))]
  else List.replicate n (ofGlyph g)

def foldedRun : List Glyph → List Instruction
  | [] => []
  | g :: gs => g.folded (gs.length + 1)

/-- Glyphs as instructions: split wherever the glyph changes, with each run folded by itself. -/
def foldedRuns (gs : List Glyph) : List Instruction :=
  (gs.splitBy (· == ·)).flatMap foldedRun

/-! ### Folding glyphs -/

section Glyphs

variable {g : Glyph} {gs : List Glyph} {n : Nat}

theorem isRepeatable_ofGlyph (g : Glyph) : (ofGlyph g).isRepeatable = g.isCounted := by
  cases g <;> rfl

@[simp] theorem Glyph.folded_zero (g : Glyph) : g.folded 0 = [] := by
  simp [folded]

/-- A full count in front of a run is an instruction of its own. -/
theorem Glyph.folded_full_add (counted : g.isCounted = true) (n : Nat) :
    g.folded (maxOperand + n) =
      (ofGlyph g).withOperand maxOperand (Nat.le_refl _) :: g.folded n := by
  have fulls : (maxOperand + n) / maxOperand = n / maxOperand + 1 := Nat.add_div_left n (by decide)
  simp only [folded, counted, if_true, fulls, Nat.add_mod_left, List.replicate_succ,
    List.cons_append]

theorem Glyph.folded_of_lt (counted : g.isCounted = true) (pos : 0 < n)
    (few : n < maxOperand) : g.folded n = [(ofGlyph g).withOperand n (Nat.le_of_lt few)] := by
  have rest : n % maxOperand = n := Nat.mod_eq_of_lt few
  simp only [folded, counted, if_true, Nat.div_eq_of_lt few, rest, Nat.ne_of_gt pos, if_false,
    List.replicate_zero, List.nil_append]

theorem Glyph.folded_succ (alone : g.isCounted = false) (n : Nat) :
    g.folded (n + 1) = ofGlyph g :: g.folded n := by
  simp only [folded, alone, Bool.false_eq_true, if_false, List.replicate_succ]

theorem splitBy_replicate (pos : 0 < n) :
    (List.replicate n g).splitBy (· == ·) = [List.replicate n g] := by
  apply List.splitBy_of_isChain
  · simp [Nat.ne_of_gt pos]
  · exact List.isChain_replicate_of_rel n (beq_self_eq_true g)

/-- A run that ends where the glyph changes is folded by itself. -/
theorem foldedRuns_run (changes : ∀ h ∈ gs.head?, h ≠ g) (n : Nat) :
    foldedRuns (List.replicate n g ++ gs) = g.folded n ++ foldedRuns gs := by
  cases n with
  | zero => simp
  | succ n =>
    have apart : ∀ x ∈ (List.replicate (n + 1) g).getLast?, ∀ y ∈ gs.head?, (x == y) = false := by
      intro x last y first
      have same : x = g := List.eq_of_mem_replicate (List.mem_of_getLast? last)
      rw [beq_eq_false_iff_ne, same]
      exact (changes y first).symm
    rw [foldedRuns, List.splitBy_append apart, splitBy_replicate (Nat.succ_pos n),
      List.flatMap_append, List.flatMap_singleton, List.replicate_succ, foldedRun,
      List.length_replicate, foldedRuns]

/-- Glyphs begin with a run of any glyph, which may be empty. -/
theorem exists_replicate_append (g : Glyph) (gs : List Glyph) : ∃ n rest,
    gs = List.replicate n g ++ rest ∧ ∀ h ∈ rest.head?, h ≠ g := by
  induction gs with
  | nil => exact ⟨0, [], rfl, nofun⟩
  | cons h gs ih =>
    by_cases same : h = g
    · obtain ⟨n, rest, parted, changes⟩ := ih
      refine ⟨n + 1, rest, ?_, changes⟩
      rw [same, parted, List.replicate_succ, List.cons_append]
    · refine ⟨0, h :: gs, rfl, ?_⟩
      rintro _ ⟨⟩
      exact same

/-- A full count is an instruction of its own, whatever comes after it. -/
theorem foldedRuns_full (counted : g.isCounted = true) (gs : List Glyph) :
    foldedRuns (List.replicate maxOperand g ++ gs) =
      (ofGlyph g).withOperand maxOperand (Nat.le_refl _) :: foldedRuns gs := by
  obtain ⟨n, rest, rfl, changes⟩ := exists_replicate_append g gs
  rw [← List.append_assoc, List.replicate_append_replicate, foldedRuns_run changes,
    Glyph.folded_full_add counted, foldedRuns_run changes, List.cons_append]

/-- So is a glyph that is not counted. -/
theorem foldedRuns_cons (alone : g.isCounted = false) (gs : List Glyph) :
    foldedRuns (g :: gs) = ofGlyph g :: foldedRuns gs := by
  obtain ⟨n, rest, rfl, changes⟩ := exists_replicate_append g gs
  rw [← List.cons_append, ← List.replicate_succ, foldedRuns_run changes, Glyph.folded_succ alone,
    foldedRuns_run changes, List.cons_append]

end Glyphs

/-! ### Code in which nothing is left to be counted -/

/-- An instruction could not be counted into the one before it. -/
def Separate (i j : Instruction) : Prop :=
  i.isRepeatable = true → i.code = j.code → i.operand = maxOperand

/-- An instruction as it is made of a glyph: a count if the glyph is repeatable, and otherwise the
glyph by itself, up to the distance of a jump. -/
inductive Instruction.MadeOf (g : Glyph) : Instruction → Prop
  | counted {n : Nat} (pos : 0 < n) (fits : n ≤ maxOperand) :
      g.isCounted = true → MadeOf g ((ofGlyph g).withOperand n fits)
  | alone {i : Instruction} : g.isCounted = false → i.undistanced = ofGlyph g →
      i.glyphs = [g] → MadeOf g i

namespace Instruction

variable {i : Instruction} {g : Glyph}

@[simp] theorem code_undistanced (i : Instruction) : i.undistanced.code = i.code := by
  unfold undistanced
  split <;> rfl

theorem undistanced_of_isRepeatable (repeatable : i.isRepeatable = true) : i.undistanced = i := by
  have still : i.opcode?.any Opcode.isJump = false := by
    rw [isRepeatable] at repeatable
    cases op? : i.opcode? with
    | none => rfl
    | some op =>
      rw [op?] at repeatable
      cases op <;> first | rfl | cases repeatable
  rw [undistanced, still, if_neg Bool.false_ne_true]

theorem glyphs_counted (counted : g.isCounted = true) {n : Nat} (fits : n ≤ maxOperand) :
    ((ofGlyph g).withOperand n fits).glyphs = List.replicate n g := by
  cases g with
  | right => exact glyphs_make .moveRight n fits
  | left => exact glyphs_make .moveLeft n fits
  | increment => exact glyphs_make .add n fits
  | decrement => exact glyphs_make .subtract n fits
  | _ => cases counted

theorem MadeOf.code_eq (made : i.MadeOf g) : i.code = (ofGlyph g).code := by
  cases made with
  | counted => rfl
  | alone _ same _ => rw [← same, code_undistanced]

theorem MadeOf.head?_glyphs (made : i.MadeOf g) : i.glyphs.head? = some g := by
  cases made with
  | counted pos fits counted =>
    obtain ⟨n, rfl⟩ := Nat.exists_eq_succ_of_ne_zero (Nat.ne_of_gt pos)
    rw [glyphs_counted counted, List.replicate_succ, List.head?_cons]
  | alone _ _ written => rw [written, List.head?_cons]

theorem IsAct.exists_madeOf (here : i.IsAct) : ∃ g, i.MadeOf g := by
  cases here with
  | @counted op repeatable n pos fits =>
    cases op with
    | moveRight => exact ⟨.right, .counted pos fits rfl⟩
    | moveLeft => exact ⟨.left, .counted pos fits rfl⟩
    | add => exact ⟨.increment, .counted pos fits rfl⟩
    | subtract => exact ⟨.decrement, .counted pos fits rfl⟩
    | _ => cases repeatable
  | @transfer op transfers fits =>
    cases op with
    | read => exact ⟨.read, .alone rfl rfl rfl⟩
    | write => exact ⟨.write, .alone rfl rfl rfl⟩
    | _ => cases transfers

end Instruction

/-- Every instruction of nested code is made of a glyph. -/
theorem Nested.exists_madeOf {is : List Instruction} (nested : Nested is) :
    ∀ i ∈ is, ∃ g, i.MadeOf g := by
  induction nested with
  | nil => nofun
  | act here _ ih => exact List.forall_mem_cons.mpr ⟨here.exists_madeOf, ih⟩
  | @loop body rest fits _ _ ihBody ihRest =>
    have opens : (make .jumpForward (body.length + 1) fits).MadeOf .opening :=
      .alone rfl rfl (glyphs_jumpForward _ _)
    have closes : (make .jumpBackward (body.length + 1) fits).MadeOf .closing :=
      .alone rfl rfl (glyphs_jumpBackward _ _)
    refine List.forall_mem_cons.mpr ⟨⟨_, opens⟩, List.forall_mem_append.mpr ⟨ihBody, ?_⟩⟩
    exact List.forall_mem_cons.mpr ⟨⟨_, closes⟩, ihRest⟩

/-- Instructions none of which could be counted into the one before are the glyphs they are written
with, folded. -/
theorem shape_eq_foldedRuns {is : List Instruction} (made : ∀ i ∈ is, ∃ g, i.MadeOf g)
    (complete : is.IsChain Separate) : shape is = foldedRuns (spelled is) := by
  induction is with
  | nil => rfl
  | cons i is ih =>
    obtain ⟨⟨g, here⟩, later⟩ := List.forall_mem_cons.mp made
    obtain ⟨separate, complete⟩ := List.isChain_cons.mp complete
    have rest : shape is = foldedRuns (spelled is) := ih later complete
    rw [shape, List.map_cons, ← shape, rest, spelled_cons]
    cases here with
    | alone alone same written =>
      rw [same, written, List.singleton_append, foldedRuns_cons alone]
    | @counted n pos fits counted =>
      have repeatable : ((ofGlyph g).withOperand n fits).isRepeatable = true :=
        (isRepeatable_ofGlyph g).trans counted
      rw [undistanced_of_isRepeatable repeatable, glyphs_counted counted]
      by_cases full : n = maxOperand
      · subst full
        rw [foldedRuns_full counted]
      · have changes : ∀ h ∈ (spelled is).head?, h ≠ g := by
          cases is with
          | nil => nofun
          | cons j is =>
            obtain ⟨⟨h, there⟩, _⟩ := List.forall_mem_cons.mp later
            rw [spelled_cons, List.head?_append, there.head?_glyphs]
            rintro _ ⟨⟩ rfl
            exact full (separate j rfl repeatable there.code_eq.symm)
        rw [foldedRuns_run changes, Glyph.folded_of_lt counted pos (by omega),
          List.singleton_append]

/-! ### Nothing is left to be counted -/

section Separate

variable {i j : Instruction}

theorem isRepeatable_congr (same : i.code = j.code) : i.isRepeatable = j.isRepeatable := by
  rw [isRepeatable, isRepeatable, opcode?, opcode?, same]

theorem separate_of_left (alone : i.isRepeatable = false) (j : Instruction) : Separate i j := by
  intro repeatable
  rw [alone] at repeatable
  cases repeatable

theorem separate_of_right (i : Instruction) (alone : j.isRepeatable = false) : Separate i j := by
  intro repeatable same
  rw [isRepeatable_congr same, alone] at repeatable
  cases repeatable

/-- Counting fails on a full count or on another operation only. -/
theorem separate_of_bumped? {last? : Option Instruction}
    (uncounted : Assembly.bumped? last? j = none) : ∀ i ∈ last?, Separate i j := by
  rintro last ⟨⟩ _ same
  by_contra few
  have fits : last.operand + 1 ≤ maxOperand := Nat.lt_of_le_of_ne last.operand_le few
  simp [Assembly.bumped?, fits, same] at uncounted

end Separate

namespace Assembly

variable {flags : Flags} {gs : List Glyph} {a b : Assembly}

/-- No instruction so far could have been counted into the one before it. -/
def Complete (a : Assembly) : Prop :=
  a.body.toList.IsChain Separate

theorem Complete.push (complete : a.Complete) {i : Instruction}
    (separate : ∀ last ∈ a.body.back?, Separate last i) (pending : List (Nat × Place)) :
    Complete ⟨a.body.push i, pending⟩ := by
  rw [Complete, Array.toList_push]
  refine List.isChain_append.mpr ⟨complete, .singleton i, ?_⟩
  rintro last final _ ⟨⟩
  exact separate last (by rwa [← Array.getLast?_toList])

/-- Where runs are coalesced, an operation that was added could not have been counted. -/
theorem Complete.emit (complete : a.Complete) (coalesce : flags.coalesceRuns = true)
    (i : Instruction) : (a.emit flags i).Complete := by
  rcases emit_cases flags i a with ⟨uncounted, pushed⟩ | ⟨_, _, before, last, fits, parted, _,
    bumped, _⟩
  · rw [pushed]
    refine complete.push (fun last final => ?_) a.pending
    by_cases repeatable : i.isRepeatable = true
    · exact separate_of_bumped? (uncounted coalesce repeatable) last final
    · exact separate_of_right last (Bool.eq_false_iff.mpr repeatable)
  · rw [Complete, parted] at complete
    obtain ⟨chain, _, separate⟩ := List.isChain_append.mp complete
    rw [Complete, bumped]
    refine List.isChain_append.mpr ⟨chain, .singleton _, ?_⟩
    rintro k final _ ⟨⟩
    exact separate k final last rfl

theorem Complete.openLoop (complete : a.Complete) (place : Place) :
    (a.openLoop place).Complete :=
  complete.push (fun last _ => separate_of_right last rfl) _

/-- Brackets are not counted, so their distances leave separate what was so. -/
theorem Complete.closeLoop (complete : a.Complete) (framed : Framed a.body.toList a.pending)
    {place : Place} (closed : a.closeLoop flags place = .ok b) : b.Complete := by
  obtain ⟨start, opener, top, ⟨_, _, emptied⟩ | ⟨fits, patched⟩⟩ := closeLoop_cases closed
  · rw [Complete, emptied]
    exact .nil
  · rw [top] at framed
    obtain ⟨outer, inner, fits, _, _, held, result⟩ := exists_patched framed fits patched
    rw [Complete, held] at complete
    obtain ⟨before, within, _⟩ := List.isChain_append.mp complete
    have inside : inner.IsChain Separate := (List.isChain_cons.mp within).2
    rw [Complete, result]
    refine List.isChain_append.mpr ⟨before, List.isChain_cons.mpr ⟨?_, ?_⟩, ?_⟩
    · exact fun j _ => separate_of_left (isRepeatable_make ..) j
    · refine List.isChain_append.mpr ⟨inside, .singleton _, ?_⟩
      rintro last _ _ ⟨⟩
      exact separate_of_right last (isRepeatable_make ..)
    · rintro last _ _ ⟨⟩
      exact separate_of_right last (isRepeatable_make ..)

theorem Complete.feed (complete : a.Complete) (coalesce : flags.coalesceRuns = true)
    (framed : Framed a.body.toList a.pending) {g : Glyph} {place : Place}
    (fed : a.feed flags g place = .ok b) : b.Complete := by
  cases g with
  | opening =>
    cases fed
    exact complete.openLoop place
  | closing => exact complete.closeLoop framed fed
  | _ =>
    cases fed
    exact complete.emit coalesce _

theorem Complete.feedGlyphs (complete : a.Complete) (coalesce : flags.coalesceRuns = true)
    (written : Written flags gs a) {more : List (Glyph × Place)}
    (fed : feedGlyphs flags more a = .ok b) : b.Complete :=
  (feedGlyphs_keeps (P := fun gs a => Written flags gs a ∧ a.Complete)
    (fun both step => ⟨both.1.feed step, both.2.feed coalesce both.1.framed step⟩)
    ⟨written, complete⟩ fed).2

end Assembly

variable {flags : Flags} {source : String} {code : Code}

theorem isChain_separate_of_compile (coalesce : flags.coalesceRuns = true)
    (compiled : compile flags source = .ok code) : code.body.toList.IsChain Separate :=
  Assembly.Complete.feedGlyphs (a := .empty) .nil coalesce (Assembly.written_empty flags)
    (compile_eq_ok_iff.mp compiled)

/-- The final instruction is not counted either. -/
theorem separate_of_get? (chain : code.body.toList.IsChain Separate) {k : Nat} {i j : Instruction}
    (here : code.get? k = some i) (next : code.get? (k + 1) = some j) : Separate i j := by
  have chain : code.toArray.toList.IsChain Separate :=
    Assembly.Complete.push (a := ⟨code.body, []⟩) chain
      (fun last _ => separate_of_right last rfl) []
  rw [Code.get?_eq_getElem?, ← Array.getElem?_toList] at here next
  obtain ⟨_, rfl⟩ := List.getElem?_eq_some_iff.mp here
  obtain ⟨inside, rfl⟩ := List.getElem?_eq_some_iff.mp next
  exact chain.getElem k inside

/-- Code whose runs are coalesced is the glyphs it is written with, folded. -/
theorem shape_of_compile (coalesce : flags.coalesceRuns = true)
    (compiled : compile flags source = .ok code) :
    shape code.body.toList = foldedRuns (spelled code.body.toList) :=
  shape_eq_foldedRuns (renders_of_compile compiled).nested.exists_madeOf
    (isChain_separate_of_compile coalesce compiled)

/-- If runs are coalesced and no loop is dropped, the code is the glyphs of the source with their
runs folded, up to the distances of jumps. So neighbours do the same repeatable operation only if
the first of them is a full count. -/
theorem folded_of_compile (compiled : compile ⟨true, false⟩ source = .ok code) :
    shape code.body.toList = foldedRuns (glyphsOf source) ∧
    ∀ (k : Nat) (i j : Instruction) (op : Opcode), code.get? k = some i →
      code.get? (k + 1) = some j → op.isRepeatable = true → i.opcode? = some op →
      j.opcode? = some op → i.operand = maxOperand := by
  constructor
  · rw [glyphsOf_eq_spelled rfl compiled]
    exact shape_of_compile rfl compiled
  · intro k i j op here next repeatable does does'
    have separate : Separate i j :=
      separate_of_get? (isChain_separate_of_compile rfl compiled) here next
    have counts : i.isRepeatable = true := by
      rw [isRepeatable, does]
      exact repeatable
    exact separate counts
      ((Opcode.ofCode?_eq_some_iff.mp does).trans (Opcode.ofCode?_eq_some_iff.mp does').symm)

/-- A run that is one longer than a count can say, with comments in it and two writes behind it. -/
theorem folded_of_compile_past_full_count : ∃ (source : String) (code : Code) (i j : Instruction),
    source = String.ofList (List.replicate maxOperand '+' ++ [' ', '+', '\n', '.', '.']) ∧
    compile ⟨true, false⟩ source = .ok code ∧
    shape code.body.toList = foldedRuns (glyphsOf source) ∧
    code.get? 0 = some i ∧ code.get? 1 = some j ∧ i.opcode? = some .add ∧ j.opcode? = some .add ∧
    i.operand = maxOperand ∧ j.operand = 1 := by
  have compiled : compile ⟨true, false⟩ (String.ofList (List.replicate maxOperand '+' ++
      [' ', '+', '\n', '.', '.'])) =
      .ok ⟨#[(ofGlyph .increment).withOperand maxOperand (Nat.le_refl _), ofGlyph .increment,
        ofGlyph .write, ofGlyph .write]⟩ := by
    obtain ⟨n, full⟩ : ∃ n, n + 1 = maxOperand := ⟨0xfffffe, rfl⟩
    have run : List.replicate maxOperand '+' =
        Glyph.increment.char :: List.replicate n Glyph.increment.char := by
      rw [← full]
      exact List.replicate_succ
    have counts : (ofGlyph .increment).operand + n = maxOperand := (Nat.add_comm 1 n).trans full
    have counted : (ofGlyph .increment).withOperand _ (Nat.le_of_eq counts) =
        (ofGlyph .increment).withOperand maxOperand (Nat.le_refl _) :=
      Instruction.ext rfl counts
    have first : Assembly.emit ⟨true, false⟩ (ofGlyph .increment) .empty =
        ⟨Array.push #[] (ofGlyph .increment), []⟩ := rfl
    rw [compile_eq_bind, String.toList_ofList, run, List.cons_append,
      Assembly.feedText_emit (g := .increment) _ nofun nofun, first,
      Assembly.feedText_folded (g := .increment) rfl nofun nofun rfl (Nat.le_of_eq counts),
      counted]
    rfl
  obtain ⟨folds, full⟩ := folded_of_compile compiled
  exact ⟨_, _, _, _, rfl, compiled, folds, rfl, rfl, rfl, rfl, full 0 _ _ .add rfl rfl rfl rfl rfl,
    rfl⟩

end Brainfuck
