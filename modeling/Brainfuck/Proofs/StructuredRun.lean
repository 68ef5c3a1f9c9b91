import Brainfuck.Proofs.Execution

/-!
# Structured runs

What a bracket tree does is said without any instruction pointer: acts are done in order, and a loop
does its body while the current cell is not zero. A run ends at the end of the tree or in a fault at
a glyph, told by its rank among all glyphs (`Tree.Runs`), or it never ends (`Tree.RunsForever`).
Main statement: compiled without optimizations, a text runs on the machine as its tree runs
(`machine_agrees_with_tree`).
-/
namespace Brainfuck

/-- How a structured run ends: at the end of the tree, or in a fault at the glyph of a rank. -/
inductive Ending
  | normal
  | fault (kind : FaultKind) (rank : Nat)

/-- The result of a machine's run that ends the same way: a fault's instruction is the rank of its
glyph. -/
def Ending.result : Ending → Except Fault Unit
  | normal => .ok ()
  | fault kind rank => .error ⟨kind, rank⟩

theorem Ending.result_injective {e e' : Ending} (same : e.result = e'.result) : e = e' := by
  cases e with
  | normal =>
    cases e' with
    | normal => rfl
    | fault kind rank => cases same
  | fault kind rank =>
    cases e' with
    | normal => cases same
    | fault kind' rank' =>
      cases same
      rfl

namespace Tree

/-- The runs of a tree that end. The number is the rank of the tree's first glyph. -/
inductive Runs : Tree → Nat → Store → Ending → Store → Prop
  | done {k : Nat} {s : Store} : Runs done k s .normal s
  | act {a : Act} {rest : Tree} {k : Nat} {s s₁ s₂ : Store} {e : Ending} :
      a.effect s = (.ok (), s₁) → Runs rest (k + 1) s₁ e s₂ → Runs (act a rest) k s e s₂
  | fault {a : Act} {rest : Tree} {k : Nat} {s s₁ : Store} {kind : FaultKind} :
      a.effect s = (.error kind, s₁) → Runs (act a rest) k s (.fault kind k) s₁
  | skip {body rest : Tree} {k : Nat} {s s₁ : Store} {e : Ending} :
      s.isZero = true → Runs rest (k + body.size + 2) s e s₁ → Runs (loop body rest) k s e s₁
  | again {body rest : Tree} {k : Nat} {s s₁ s₂ : Store} {e : Ending} :
      s.isZero = false → Runs body (k + 1) s .normal s₁ → Runs (loop body rest) k s₁ e s₂ →
      Runs (loop body rest) k s e s₂
  | stop {body rest : Tree} {k rank : Nat} {s s₁ : Store} {kind : FaultKind} :
      s.isZero = false → Runs body (k + 1) s (.fault kind rank) s₁ →
      Runs (loop body rest) k s (.fault kind rank) s₁

/-- From each tree and store of a set, the run leads on to another one of the set. -/
def LeadsOn (P : Tree → Nat → Store → Prop) : Prop :=
  ∀ t k s, P t k s →
    match t with
    | done => False
    | act a rest => ∃ s₁, a.effect s = (.ok (), s₁) ∧ P rest (k + 1) s₁
    | loop body rest =>
      (s.isZero = true ∧ P rest (k + body.size + 2) s) ∨
      (s.isZero = false ∧
        (P body (k + 1) s ∨ ∃ s₁, body.Runs (k + 1) s .normal s₁ ∧ P (loop body rest) k s₁))

/-- The run of a tree that never ends: it belongs to a set whose runs all lead on in the set. -/
def RunsForever (t : Tree) (k : Nat) (s : Store) : Prop :=
  ∃ P, LeadsOn P ∧ P t k s

/-- Where there is no end, the run goes on forever. -/
theorem runs_or_runsForever (t : Tree) (k : Nat) (s : Store) :
    (∃ e s', t.Runs k s e s') ∨ t.RunsForever k s := by
  by_cases ends : ∃ e s', t.Runs k s e s'
  · exact .inl ends
  · refine .inr ⟨fun t k s => ¬ ∃ e s', t.Runs k s e s', ?_, ends⟩
    intro t k s endless
    cases t with
    | done => exact endless ⟨.normal, s, .done⟩
    | act a rest =>
      rcases effect : a.effect s with ⟨kind | _, s₁⟩
      · exact absurd ⟨_, s₁, .fault effect⟩ endless
      · exact ⟨s₁, effect, fun ⟨e, s₂, run⟩ => endless ⟨e, s₂, .act effect run⟩⟩
    | loop body rest =>
      cases zero : s.isZero with
      | true => exact .inl ⟨rfl, fun ⟨e, s₁, run⟩ => endless ⟨e, s₁, .skip zero run⟩⟩
      | false =>
        refine .inr ⟨rfl, ?_⟩
        by_cases inner : ∃ e s₁, body.Runs (k + 1) s e s₁
        · obtain ⟨e, s₁, run⟩ := inner
          cases e with
          | normal =>
            exact .inr ⟨s₁, run, fun ⟨e, s₂, more⟩ => endless ⟨e, s₂, .again zero run more⟩⟩
          | fault kind rank => exact absurd ⟨_, s₁, .stop zero run⟩ endless
        · exact .inl inner

end Tree

open Instruction Machine

/-- Where the machine may stand when the run of a tree begins anew. A loop is looked at from both of
its brackets. -/
def Tree.Entry : Tree → Nat → Nat → Prop
  | .loop body _, k, ip => ip = k ∨ ip = k + (body.size + 1)
  | _, k, ip => ip = k

/-- What the machine does when a structured run ends: it gets to the end of the tree, or it faults
at the instruction whose index is the rank. -/
def Ending.ReachedBy (code : Code) (strategy : JumpStrategy) (finish : Nat) (m : Machine) :
    Ending → Store → Prop
  | normal, s => ∃ c n, Goes code c m ⟨finish, n, strategy, none, s⟩
  | fault kind rank, s => ∃ n, Ends code m (.error ⟨kind, rank⟩) ⟨rank, n, strategy, none, s⟩

theorem Ending.ReachedBy.of_goes {code : Code} {strategy : JumpStrategy} {finish c : Nat}
    {m next : Machine} {e : Ending} {s : Store} (goes : Goes code c m next)
    (reached : e.ReachedBy code strategy finish next s) :
    e.ReachedBy code strategy finish m s := by
  cases e with
  | normal =>
    obtain ⟨c', n, rest⟩ := reached
    exact ⟨c + c', n, goes.trans rest⟩
  | fault kind rank =>
    obtain ⟨n, ended⟩ := reached
    exact ⟨n, goes.ends ended⟩

variable {code : Code}

/-- From either bracket of a loop, a zero cell leads past it. -/
theorem Tree.LaidOut.leave_loop {body rest : Tree} {k ip : Nat}
    (laid : (Tree.loop body rest).LaidOut code k) (entry : (Tree.loop body rest).Entry k ip)
    {s : Store} (zero : s.isZero = true) (strategy : JumpStrategy) (n : Nat) :
    Goes code 1 ⟨ip, n, strategy, none, s⟩ ⟨k + body.size + 2, n + 1, strategy, none, s⟩ := by
  rcases entry with rfl | rfl
  · exact .single (step_opening_zero laid.1 zero)
  · exact .single (step_closing_zero laid.1 zero)

/-- From either bracket of a loop, another cell leads into it. -/
theorem Tree.LaidOut.enter_loop {body rest : Tree} {k ip : Nat}
    (laid : (Tree.loop body rest).LaidOut code k) (entry : (Tree.loop body rest).Entry k ip)
    {s : Store} (nonzero : s.isZero = false) (strategy : JumpStrategy) (n : Nat) :
    ∃ c n', Goes code (c + 1) ⟨ip, n, strategy, none, s⟩ ⟨k + 1, n', strategy, none, s⟩ := by
  rcases entry with rfl | rfl
  · exact ⟨0, n + 1, .single (step_opening_nonzero laid.1 nonzero)⟩
  · exact ⟨1, n + 2, .step (step_closing_nonzero laid.1 nonzero)
      (.single (step_opening_nonzero laid.1 nonzero))⟩

theorem Tree.entry_start (t : Tree) (k : Nat) : t.Entry k k := by
  cases t with
  | done => rfl
  | act a rest => rfl
  | loop body rest => exact .inl rfl

/-- A structured run that ends is followed by the machine. -/
theorem Tree.Runs.machine {t : Tree} {k : Nat} {s s' : Store} {e : Ending} (run : t.Runs k s e s')
    (laid : t.LaidOut code k) (strategy : JumpStrategy) {ip : Nat} (entry : t.Entry k ip)
    (n : Nat) : e.ReachedBy code strategy (k + t.size) ⟨ip, n, strategy, none, s⟩ s' := by
  induction run generalizing ip n with
  | done =>
    subst entry
    exact ⟨0, n, .refl _⟩
  | @act a rest k s s₁ s₂ e effect _ ih =>
    subst entry
    have later := ih laid.2 (Tree.entry_start rest _) (n + 1)
    rw [Nat.add_right_comm] at later
    exact .of_goes (.single (step_act laid.1 effect)) later
  | @fault a rest k s s₁ kind effect =>
    subst entry
    exact ⟨n + 1, .of_step (by rw [run_succ, step_failing_act laid.1 effect])⟩
  | @skip body rest k s s₁ e zero _ ih =>
    have later := ih laid.2.2 (Tree.entry_start rest _) (n + 1)
    rw [show k + body.size + 2 + rest.size = k + (Tree.loop body rest).size by simp; omega] at later
    exact .of_goes (laid.leave_loop entry zero strategy n) later
  | @again body rest k s s₁ s₂ e nonzero _ _ ihBody ihLoop =>
    obtain ⟨c, n', goes⟩ := laid.enter_loop entry nonzero strategy n
    obtain ⟨c', n'', round⟩ := ihBody laid.2.1 (Tree.entry_start body _) n'
    have back : (Tree.loop body rest).Entry k (k + 1 + body.size) := .inr (by omega)
    exact .of_goes (goes.trans round) (ihLoop laid back n'')
  | @stop body rest k rank s s₁ kind nonzero _ ih =>
    obtain ⟨c, n', goes⟩ := laid.enter_loop entry nonzero strategy n
    exact .of_goes goes (ih laid.2.1 (Tree.entry_start body _) n')

/-- A structured run that never ends keeps the machine going. -/
theorem Tree.LeadsOn.machine {P : Tree → Nat → Store → Prop} (leads : LeadsOn P)
    (strategy : JumpStrategy) (bound : Nat) {t : Tree} {k : Nat} {s : Store} (here : P t k s)
    (laid : t.LaidOut code k) {ip : Nat} (entry : t.Entry k ip) (n : Nat) :
    ∃ c last, bound ≤ c ∧ Goes code c ⟨ip, n, strategy, none, s⟩ last := by
  -- Each lead takes a step or more, whether it goes on after an act, past a loop or into it.
  induction bound generalizing t k s ip n with
  | zero => exact ⟨0, _, Nat.le_refl 0, .refl _⟩
  | succ bound ih =>
    have onward := leads t k s here
    cases t with
    | done => exact onward.elim
    | act a rest =>
      obtain ⟨s₁, effect, next⟩ := onward
      subst entry
      obtain ⟨c, last, enough, goes⟩ := ih next laid.2 (Tree.entry_start rest _) (n + 1)
      exact ⟨c + 1, last, by omega, .step (step_act laid.1 effect) goes⟩
    | loop body rest =>
      rcases onward with ⟨zero, next⟩ | ⟨nonzero, inside⟩
      · obtain ⟨c, last, enough, goes⟩ := ih next laid.2.2 (Tree.entry_start rest _) (n + 1)
        exact ⟨1 + c, last, by omega, (laid.leave_loop entry zero strategy n).trans goes⟩
      · obtain ⟨c, n', enter⟩ := laid.enter_loop entry nonzero strategy n
        rcases inside with next | ⟨s₁, run, next⟩
        · obtain ⟨c', last, enough, goes⟩ := ih next laid.2.1 (Tree.entry_start body _) n'
          exact ⟨c + 1 + c', last, by omega, enter.trans goes⟩
        · obtain ⟨c', n'', round⟩ := run.machine laid.2.1 strategy (Tree.entry_start body _) n'
          have back : (Tree.loop body rest).Entry k (k + 1 + body.size) := .inr (by omega)
          obtain ⟨c'', last, enough, goes⟩ := ih next laid back n''
          exact ⟨c + 1 + c' + c'', last, by omega, (enter.trans round).trans goes⟩

/-- Reaching the end of the code is ending normally. -/
theorem Ending.ReachedBy.ends {strategy : JumpStrategy} {m : Machine} {e : Ending} {s : Store}
    (reached : e.ReachedBy code strategy code.body.size m s) :
    ∃ last, Ends code m e.result last ∧ last.store = s := by
  cases e with
  | normal =>
    obtain ⟨c, n, goes⟩ := reached
    have halts : Ends code ⟨code.body.size, n, strategy, none, s⟩ (.ok ())
        ⟨code.body.size, n, strategy, none, s⟩ := .of_step (by rw [run_succ, step_last])
    exact ⟨_, goes.ends halts, rfl⟩
  | fault kind rank =>
    obtain ⟨n, ended⟩ := reached
    exact ⟨_, ended, rfl⟩

section Whole

variable {t : Tree} (laid : t.LaidOut code 0) (strategy : JumpStrategy) (s : Store)

include laid

/-- From the first instruction on, code that lays out a tree follows the runs of the tree. -/
theorem Tree.LaidOut.ends_of_runs (sized : t.size = code.body.size) {e : Ending} {s' : Store}
    (run : t.Runs 0 s e s') :
    ∃ last, Ends code (.start strategy none s) e.result last ∧ last.store = s' := by
  have reached := run.machine laid strategy (t.entry_start 0) 0
  rw [Nat.zero_add, sized] at reached
  exact reached.ends

theorem Tree.LaidOut.runsOn_of_runsForever (forever : t.RunsForever 0 s) :
    RunsOn code (.start strategy none s) := by
  obtain ⟨P, leads, here⟩ := forever
  exact runsOn_of_goes fun bound => leads.machine strategy bound here laid (t.entry_start 0) 0

/-- The machine ends just as the tree does, since one or the other must happen to the tree. -/
theorem Tree.LaidOut.ends_iff_runs (sized : t.size = code.body.size) (e : Ending) (s' : Store) :
    (∃ last, Ends code (.start strategy none s) e.result last ∧ last.store = s') ↔
      t.Runs 0 s e s' := by
  constructor
  · rintro ⟨last, ended, rfl⟩
    rcases t.runs_or_runsForever 0 s with ⟨e', s', run⟩ | forever
    · obtain ⟨last', ended', rfl⟩ := laid.ends_of_runs strategy s sized run
      obtain ⟨same, rfl⟩ := ended.unique ended'
      obtain rfl := Ending.result_injective same
      exact run
    · exact absurd ended (laid.runsOn_of_runsForever strategy s forever).not_ends
  · exact laid.ends_of_runs strategy s sized

theorem Tree.LaidOut.runsOn_iff_runsForever (sized : t.size = code.body.size) :
    RunsOn code (.start strategy none s) ↔ t.RunsForever 0 s := by
  constructor
  · intro on
    rcases t.runs_or_runsForever 0 s with ⟨e, s', run⟩ | forever
    · obtain ⟨last, ended, _⟩ := laid.ends_of_runs strategy s sized run
      exact absurd ended on.not_ends
    · exact forever
  · exact laid.runsOn_of_runsForever strategy s

end Whole

/-- Code compiled without optimizations lays out the tree of its source. -/
theorem exists_layout_of_compile {source : String} (compiled : compile .plain source = .ok code) :
    ∃ t : Tree, t.glyphs = glyphsOf source ∧ t.size = code.body.size ∧ t.LaidOut code 0 := by
  obtain ⟨nested, ⟨bodies, whole, kept⟩, single⟩ := renders_of_compile compiled
  obtain ⟨t, spells, sized, laid⟩ := nested.exists_layout (single rfl)
  refine ⟨t, ?_, ?_, laid code 0 code.holds_body⟩
  · rw [spells, whole, kept rfl]
    rfl
  · rw [sized, Array.length_toList]

/-- A source that compiles without optimizations is the text of one tree, and on a fresh tape its
code does what the tree does, with either strategy and over any streams: it ends normally or in a
fault just when the tree does, with the same store, the fault being at the index that is the rank of
the tree's glyph, and it never ends just when the tree's run goes on forever. -/
theorem machine_agrees_with_tree {source : String}
    (compiled : compile .plain source = .ok code) :
    ∃ t : Tree, t.glyphs = glyphsOf source ∧ (∀ u : Tree, u.glyphs = glyphsOf source → u = t) ∧
      ∀ (strategy : JumpStrategy) (cells : Nat) (input : Input) (output : Output),
        let s : Store := ⟨.blank cells, input, output⟩
        (∀ (e : Ending) (s' : Store),
          (∃ last, Ends code (.start strategy none s) e.result last ∧ last.store = s') ↔
            t.Runs 0 s e s') ∧
        (RunsOn code (.start strategy none s) ↔ t.RunsForever 0 s) := by
  obtain ⟨t, spells, sized, laid⟩ := exists_layout_of_compile compiled
  refine ⟨t, spells, fun u same => Tree.glyphs_injective (same.trans spells.symm), ?_⟩
  intro strategy cells input output s
  exact ⟨laid.ends_iff_runs strategy s sized, laid.runsOn_iff_runsForever strategy s sized⟩

theorem machine_agrees_with_tree_of_clearing_loop :
    ∃ t : Tree, t.glyphs = glyphsOf "+[-]" ∧
      ∃ s, t.Runs 0 ⟨.blank 1, ⟨[]⟩, .scripted [] []⟩ .normal s := by
  have compiled : compile .plain "+[-]" = .ok ⟨#[ofGlyph .increment,
    make .jumpForward 2 (by decide), ofGlyph .decrement, make .jumpBackward 2 (by decide)]⟩ := rfl
  obtain ⟨t, spells, _, agrees⟩ := machine_agrees_with_tree compiled
  have ends := (agrees .distance 1 ⟨[]⟩ (.scripted [] [])).1 .normal
  exact ⟨t, spells, _, (ends _).mp ⟨_, ⟨9, rfl⟩, rfl⟩⟩

end Brainfuck
