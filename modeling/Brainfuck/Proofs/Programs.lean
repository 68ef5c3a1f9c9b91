import Brainfuck.Proofs.Flushing
import Brainfuck.Proofs.Respelling
import Brainfuck.Proofs.Stepping
import Brainfuck.Proofs.StoreMap
import Brainfuck.Proofs.StructuredRun

/-!
# Programs by their trees

What a program does is shown on its tree: acts in a row are done in order (`Act.sequence`), a loop
that counts down does its body once for each count (`Tree.Runs.countdown`), and a map of the store
that no operation notices changes nothing of this (`Tree.Runs.mapped`). The text of a tree compiles
under any flags if its loops are short enough (`Tree.Short.exists_compile`). Main statement: where
the tree comes to its end from a blank tape, a session over its text does so under any flags and
with either strategy, and with the same store (`Session.runsTo_of_tree`).
-/
namespace Brainfuck

namespace Act

def sequence : List Act → Store → Except FaultKind Unit × Store
  | [], s => (.ok (), s)
  | a :: as, s =>
    match a.effect s with
    | (.ok (), s) => sequence as s
    | (.error kind, s) => (.error kind, s)

variable {a : Act} {as : List Act} {s s₁ : Store}

theorem sequence_cons (effect : a.effect s = (.ok (), s₁)) :
    sequence (a :: as) s = sequence as s₁ := by
  rw [sequence, effect]

theorem sequence_append (done : sequence as s = (.ok (), s₁)) (more : List Act) :
    sequence (as ++ more) s = sequence more s₁ := by
  induction as generalizing s with
  | nil =>
    cases done
    rfl
  | cons a as ih =>
    rw [sequence] at done
    split at done
    · next effect =>
      rw [List.cons_append, sequence_cons effect]
      exact ih done
    · cases done

theorem sequence_replicate (a : Act) (n : Nat) (s : Store) :
    sequence (List.replicate n a) s = a.repeated n s := by
  induction n generalizing s with
  | zero => rfl
  | succ n ih =>
    rw [List.replicate_succ, sequence, repeated]
    rcases a.effect s with ⟨_ | _, after⟩
    · rfl
    · exact ih after

end Act

namespace Tree

def acts : List Act → Tree → Tree
  | [], t => t
  | a :: as, t => act a (acts as t)

/-- Whether the distance between the brackets of each loop is small enough for an operand. -/
def Short : Tree → Prop
  | done => True
  | act _ rest => rest.Short
  | loop body rest => body.size + 1 ≤ maxOperand ∧ body.Short ∧ rest.Short

variable {t body rest : Tree} {as : List Act} {k : Nat} {s s₁ s₂ : Store} {e : Ending}

theorem glyphs_acts (as : List Act) (t : Tree) :
    (acts as t).glyphs = as.map Act.glyph ++ t.glyphs := by
  induction as with
  | nil => rfl
  | cons a as ih => rw [acts, glyphs, ih, List.map_cons, List.cons_append]

theorem short_acts (as : List Act) (t : Tree) : (acts as t).Short ↔ t.Short := by
  induction as with
  | nil => exact Iff.rfl
  | cons a as ih => exact ih

/-- Acts in a row that are all done lead on to what comes after them. -/
theorem Runs.acts (sequence : Act.sequence as s = (.ok (), s₁))
    (run : t.Runs (k + as.length) s₁ e s₂) : (acts as t).Runs k s e s₂ := by
  induction as generalizing k s with
  | nil =>
    cases sequence
    exact run
  | cons a as ih =>
    rw [Act.sequence] at sequence
    split at sequence
    · next after effect =>
      have later : k + 1 + as.length = k + (a :: as).length := by
        rw [List.length_cons]
        omega
      exact .act effect (ih sequence (later ▸ run))
    · cases sequence

/-- A loop that counts a cell down, where the store is told by this cell. From any count, which the
cell may have wrapped, it comes to the store of zero. -/
theorem Runs.countdown (store : Int8 → Store)
    (zero : ∀ count, (store count).isZero = true ↔ count = 0)
    (round : ∀ count, count ≠ 0 →
      body.Runs (k + 1) (store count) .normal (store (count - 1)))
    (after : rest.Runs (k + body.size + 2) (store 0) e s₁) (n : Nat) :
    (loop body rest).Runs k (store (Int8.ofNat n)) e s₁ := by
  induction n with
  | zero => exact .skip ((zero 0).mpr rfl) after
  | succ n ih =>
    -- A count that is not zero may be zero in the cell. Then there is no round to be done.
    by_cases wrapped : Int8.ofNat (n + 1) = 0
    · rw [wrapped]
      exact .skip ((zero 0).mpr rfl) after
    · have nonzero : (store (Int8.ofNat (n + 1))).isZero = false :=
        Bool.eq_false_iff.mpr (mt (zero _).mp wrapped)
      have next : Int8.ofNat (n + 1) - 1 = Int8.ofNat n := by
        rw [Int8.ofNat_add]
        exact Int8.add_sub_cancel _ _
      exact .again nonzero (round _ wrapped) (next ▸ ih)

end Tree

open Assembly Instruction

section Mapped

variable {f : Store → Store} {excepted : FaultKind → Prop}

/-- An act that is done does the same after a map that no operation notices. -/
theorem Act.effect_mapped (carries : Store.Carries f excepted) {a : Act} {s s₁ : Store}
    (done : a.effect s = (.ok (), s₁)) : a.effect (f s) = (.ok (), f s₁) := by
  obtain ⟨op, _, _, performs⟩ := a.perform_eq
  have same := carries.perform ⟨#[]⟩ .scan 0 op (ofGlyph a.glyph).operand s
  rw [performs, performs, done] at same
  rcases same with ⟨kind, failed, _⟩ | same
  · cases failed
  · generalize a.effect (f s) = outcome at same ⊢
    obtain ⟨kind | _, after⟩ := outcome
    · cases same
    · cases same
      rfl

/-- So does a tree that comes to its end. -/
theorem Tree.Runs.mapped (carries : Store.Carries f excepted) {t : Tree} {k : Nat} {e : Ending}
    {s s₁ : Store} (run : t.Runs k s e s₁) (ended : e = .normal) : t.Runs k (f s) e (f s₁) := by
  induction run with
  | done => exact .done
  | act effect _ ih => exact .act (Act.effect_mapped carries effect) (ih ended)
  | fault => cases ended
  | skip zero _ ih => exact .skip ((carries.isZero _).trans zero) (ih ended)
  | again nonzero _ _ ihBody ihLoop =>
    exact .again ((carries.isZero _).trans nonzero) (ihBody rfl) (ihLoop ended)
  | stop => cases ended

end Mapped

/-- The glyphs of a tree with short loops are compiled. What was open before stays open, and no more
than one instruction is added for each glyph. -/
theorem Tree.Short.feedGlyphs {t : Tree} (short : t.Short) (flags : Flags) (a : Assembly) :
    ∃ b, Assembly.feedGlyphs flags (unplaced t.glyphs) a = .ok b ∧ b.pending = a.pending ∧
      b.body.size ≤ a.body.size + t.size := by
  induction t generalizing a with
  | done => exact ⟨a, rfl, rfl, Nat.le_refl _⟩
  | act act rest ih =>
    obtain ⟨opened, grown⟩ := size_emit flags (ofGlyph act.glyph) a
    obtain ⟨b, fed, kept, bound⟩ := ih short (a.emit flags (ofGlyph act.glyph))
    have first : a.feed flags act.glyph .start = .ok (a.emit flags (ofGlyph act.glyph)) := by
      cases act <;> rfl
    refine ⟨b, ?_, kept.trans opened, ?_⟩
    · rw [Tree.glyphs, unplaced, List.map_cons, Assembly.feedGlyphs, first]
      exact fed
    · rw [Tree.size_act]
      omega
  | loop body rest ihBody ihRest =>
    obtain ⟨fits, shortBody, shortRest⟩ := short
    obtain ⟨inner, fedBody, opened, boundBody⟩ := ihBody shortBody (a.openLoop .start)
    have start : (a.openLoop .start).body.size = a.body.size + 1 := Array.size_push _
    obtain ⟨closed, closes, kept, grown, _⟩ :=
      exists_closeLoop flags .start opened (by omega)
    obtain ⟨b, fedRest, keptRest, boundRest⟩ := ihRest shortRest closed
    refine ⟨b, ?_, keptRest.trans kept, ?_⟩
    · have whole : unplaced (loop body rest).glyphs =
          (.opening, .start) :: (unplaced body.glyphs ++
            (.closing, .start) :: unplaced rest.glyphs) := by
        simp [unplaced, Tree.glyphs]
      rw [whole, Assembly.feedGlyphs]
      simp only [feed]
      rw [feedGlyphs_append, fedBody]
      simp only [Assembly.feedGlyphs, feed, closes]
      exact fedRest
    · rw [Tree.size_loop]
      omega

/-- A text whose loops are all short compiles under any flags. -/
theorem Tree.Short.exists_compile {t : Tree} (short : t.Short) {source : String}
    (spells : t.glyphs = glyphsOf source) (flags : Flags) :
    ∃ code, compile flags source = .ok code := by
  obtain ⟨⟨body, pending⟩, fed, kept, _⟩ := short.feedGlyphs flags .empty
  refine ⟨⟨body⟩, compile_eq_ok_iff.mpr ?_⟩
  rw [← spells, fed]
  obtain rfl : pending = [] := kept
  rfl

open Machine

/-- Where a tree comes to its end from a zero cell, the machine halts with the same store, whatever
the flags that its text is compiled under. -/
theorem Tree.Short.ends {t : Tree} (short : t.Short) {source : String}
    (spells : t.glyphs = glyphsOf source) {flags : Flags} {code : Code}
    (compiled : compile flags source = .ok code) {s s' : Store} (zero : s.isZero = true)
    (run : t.Runs 0 s .normal s') (strategy : JumpStrategy) :
    ∃ last, Ends code (.start strategy none s) (.ok ()) last ∧ last.store = s' := by
  obtain ⟨plain, accepted⟩ := short.exists_compile spells .plain
  obtain ⟨u, same, sized, laid⟩ := exists_layout_of_compile accepted
  obtain rfl := Tree.glyphs_injective (same.trans spells.symm)
  obtain ⟨final, ended, rfl⟩ := laid.ends_of_runs strategy s sized run
  rcases start_outcome (renders_of_compile compiled) (renders_of_compile accepted) zero strategy
    strategy with ⟨⟨result, last⟩, r', ended', ended'', sooner⟩ | ⟨_, on⟩
  · obtain ⟨halted, located⟩ := ended''.unique ended
    have alike := sooner.alike
    generalize r' = outcome at alike halted located
    cases alike with
    | halted store =>
      dsimp only at located
      subst located
      exact ⟨last, ended', store⟩
    | faulted => cases halted
  · exact absurd ended on.not_ends

/-- How a session is left when its program has come to its end with a store: it has halted if the
output could be flushed then, and faulted if not. -/
inductive Session.Finishes (s : Store) : Except SessionError Unit × Session → Prop
  | halted {t : Session} : s.flush.1 = .ok () → t.phase = .halted →
      t.machine.store = s.flush.2 → Finishes s (.ok (), t)
  | faulted {t : Session} {fault : Fault} : s.flush.1 = .error fault.kind → t.phase = .faulted →
      t.machine.store = s.flush.2 → Finishes s (.error (.crashed fault), t)

namespace Session.Finishes

variable {s : Store} {r : Except SessionError Unit × Session}

theorem store_eq (finishes : Finishes s r) :
    r.2.machine.store = ⟨s.tape, s.input, s.output.flush.2⟩ := by
  have flushed : s.flush.2 = ⟨s.tape, s.input, s.output.flush.2⟩ := by rw [s.flush_eq]
  cases finishes with
  | halted _ _ store => exact store.trans flushed
  | faulted _ _ store => exact store.trans flushed

theorem halts (finishes : Finishes s r) (flushes : s.output.flush.1 = .ok ()) :
    r.1 = .ok () ∧ r.2.phase = .halted := by
  cases finishes with
  | halted _ phase _ => exact ⟨rfl, phase⟩
  | faulted failed _ _ =>
    rw [s.flush_eq, flushes] at failed
    cases failed

end Session.Finishes

/-- A session over the text of a tree runs to where the tree comes to its end from a blank tape,
under any flags and with either strategy. -/
theorem Session.runsTo_of_tree {t : Tree} (short : t.Short) {source : String}
    (spells : t.glyphs = glyphsOf source) {cells : Nat} {input : Input} {output : Output}
    {s : Store} (run : t.Runs 0 ⟨.blank cells, input, output⟩ .normal s) (flags : Flags)
    (strategy : JumpStrategy) :
    ∃ r, (fresh source flags strategy cells input output).RunsTo r ∧ Finishes s r := by
  obtain ⟨code, compiled⟩ := short.exists_compile spells flags
  obtain ⟨final, ended, rfl⟩ :=
    short.ends spells compiled (isZero_blank cells input output) run strategy
  have ran := (active_fresh compiled strategy cells input output).run_of_ends
    (r := (.ok (), final)) ended
  refine ⟨_, ran, ?_⟩
  rcases conclude_cases (.ok ()) ((fresh source flags strategy cells input output).stopped code
    final) with ⟨_, flushed, concluded⟩ | ⟨fault, concluded, own | ⟨_, kind, failed, rfl⟩⟩
  · rw [concluded]
    exact .halted flushed rfl rfl
  · cases own
  · rw [concluded]
    exact .faulted failed rfl rfl

end Brainfuck
