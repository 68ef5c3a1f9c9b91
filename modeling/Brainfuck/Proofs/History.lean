import Brainfuck.Session.Basic

/-!
# Histories of sessions

What can be asked of a session from outside is a move, and what has been asked so far, with the
answers, is its past. `Session.Reaches` says that a session becomes another by the moves of a past,
which may come in any order and in any phase; `Session.plays` gives the answers to moves to come.
-/
namespace Brainfuck

/-- What can be asked of a session. A run is given a bound on its instructions; one that does not
end within it is not a move. -/
inductive Move
  | compile
  | run (bound : Nat)
  | step
  | reset
  | resize (cells : Nat)
  | withFlags (flags : Flags)
  | withStrategy (strategy : JumpStrategy)
  | withLimit (limit : Option Nat)
  deriving DecidableEq

inductive Reply
  | compiled (result : Except CompileError Code)
  | ran (result : Except SessionError Unit)
  | stepped (result : Except SessionError Phase)
  | done

def Reply.fault? : Reply → Option Fault
  | ran (.error (.crashed fault)) | stepped (.error (.crashed fault)) => some fault
  | _ => none

theorem Reply.fault?_eq_some_iff {reply : Reply} {fault : Fault} : reply.fault? = some fault ↔
    reply = .ran (.error (.crashed fault)) ∨ reply = .stepped (.error (.crashed fault)) := by
  constructor
  · intro faulted
    unfold fault? at faulted
    split at faulted
    · cases faulted
      exact .inl rfl
    · cases faulted
      exact .inr rfl
    · cases faulted
  · rintro (rfl | rfl)
    · rfl
    · rfl

/-- What an execution is answered with, if the reply is to one. A run that has ended well has
halted. -/
def Reply.outcome? : Reply → Option (Except SessionError Phase)
  | ran result => some (result.map fun _ => .halted)
  | stepped result => some result
  | compiled _ | done => none

theorem Reply.outcome?_of_fault? {reply : Reply} {fault : Fault}
    (faulted : reply.fault? = some fault) : reply.outcome? = some (.error (.crashed fault)) := by
  rcases fault?_eq_some_iff.mp faulted with rfl | rfl
  · rfl
  · rfl

/-- The answer to a move and the session after it. There is none to a run that has not ended and to
a tape that is too large. -/
def Move.perform (s : Session) : Move → Option (Reply × Session)
  | compile => some (.compiled s.compile.1, s.compile.2)
  | run bound => (s.run bound).map fun r => (.ran r.1, r.2)
  | step => some (.stepped s.step.1, s.step.2)
  | reset => some (.done, s.reset)
  | resize cells => (s.resize? cells).map fun t => (.done, t)
  | withFlags flags => some (.done, s.withFlags flags)
  | withStrategy strategy => some (.done, s.withStrategy strategy)
  | withLimit limit => some (.done, s.withLimit limit)

/-- A move, its answer and the sessions before and after it. -/
structure Event where
  before : Session
  move : Move
  reply : Reply
  after : Session

/-- How a session becomes another. The last event stands first. -/
inductive Session.Reaches (first : Session) : List Event → Session → Prop
  | start : Reaches first [] first
  | move {past : List Event} {s t : Session} {move : Move} {reply : Reply} :
      Reaches first past s → move.perform s = some (reply, t) →
      Reaches first (⟨s, move, reply, t⟩ :: past) t

/-- What becomes of a session later becomes of those that it has come from. -/
theorem Session.Reaches.append {first s t : Session} {past later : List Event}
    (earlier : first.Reaches past s) (onward : s.Reaches later t) :
    first.Reaches (later ++ past) t := by
  induction onward with
  | start => exact earlier
  | move _ performed ih => exact ih.move performed

/-- What a session answers to moves, and the session after them. There is nothing if a run among
them does not end within its bound or a tape is too large. -/
def Session.plays : List Move → Session → Option (List Reply × Session)
  | [], s => some ([], s)
  | move :: moves, s =>
    match move.perform s with
    | none => none
    | some (reply, t) => (plays moves t).map fun r => (reply :: r.1, r.2)

def sinceReset (past : List Event) : List Event :=
  past.takeWhile fun e => e.move != .reset

/-- Whether the optimizations have been changed in a phase since the last reset. -/
def ChangedIn (phase : Phase) (past : List Event) : Prop :=
  ∃ e ∈ sinceReset past, e.before.phase = phase ∧ ∃ flags, e.move = .withFlags flags

/-- Whether the optimizations have been changed since the last reset only before anything ran. -/
def Undisturbed (past : List Event) : Prop :=
  ∀ phase, ChangedIn phase past → phase = .ready

section

variable {e : Event} {past : List Event} {phase : Phase}

theorem sinceReset_reset (resets : e.move = .reset) : sinceReset (e :: past) = [] := by
  simp [sinceReset, resets]

theorem sinceReset_cons (keeps : e.move ≠ .reset) :
    sinceReset (e :: past) = e :: sinceReset past := by
  simp [sinceReset, keeps]

theorem mem_sinceReset_cons {P : Event → Prop} (here : P e)
    (before : ∀ e ∈ sinceReset past, P e) : ∀ event ∈ sinceReset (e :: past), P event := by
  intro event member
  by_cases keeps : e.move = .reset
  · rw [sinceReset_reset keeps] at member
    cases member
  · rw [sinceReset_cons keeps] at member
    rcases List.mem_cons.mp member with rfl | earlier
    · exact here
    · exact before event earlier

/-- What holds of an event since the last reset holds of it still after another move. -/
theorem exists_sinceReset_cons {P : Event → Prop} (keeps : e.move ≠ .reset)
    (before : ∃ event ∈ sinceReset past, P event) : ∃ event ∈ sinceReset (e :: past), P event := by
  obtain ⟨event, earlier, here⟩ := before
  refine ⟨event, ?_, here⟩
  rw [sinceReset_cons keeps]
  exact List.mem_cons_of_mem e earlier

theorem mem_sinceReset_self (keeps : e.move ≠ .reset) : e ∈ sinceReset (e :: past) := by
  rw [sinceReset_cons keeps]
  exact List.mem_cons_self

theorem ChangedIn.cons (changed : ChangedIn phase past) (keeps : e.move ≠ .reset) :
    ChangedIn phase (e :: past) := by
  exact exists_sinceReset_cons keeps changed

theorem changedIn_withFlags {flags : Flags} (changes : e.move = .withFlags flags) :
    ChangedIn e.before.phase (e :: past) := by
  have keeps : e.move ≠ .reset := by
    rw [changes]
    exact Move.noConfusion
  exact ⟨e, mem_sinceReset_self keeps, rfl, flags, changes⟩

theorem Undisturbed.of_cons (undisturbed : Undisturbed (e :: past)) (keeps : e.move ≠ .reset) :
    Undisturbed past := by
  intro phase changed
  exact undisturbed phase (changed.cons keeps)

end

/-!
### Requests to a machine

A machine can be used without a session: operations of its store are asked for one by one, between
steps and runs of any codes. What is asked for is a request, and `Machine.handles` gives the answers
to a list of them.
-/

/-- What can be asked of a machine. A run is given a bound on its instructions; one that does not
end within it is not answered. -/
inductive Request
  | read
  | write
  | flush
  | right (distance : Nat)
  | left (distance : Nat)
  | add (amount : Nat)
  | subtract (amount : Nat)
  /-- Sets the tape back to zeros and the pointer to the first cell. -/
  | clear
  | resize (cells : Nat)
  | step (code : Code)
  | run (code : Code) (bound : Nat)
  | rewind
  | withStrategy (strategy : JumpStrategy)
  | withLimit (limit : Option Nat)

inductive Answer
  | operated (result : Except FaultKind Unit)
  | stepped (result : Except Fault Step)
  | ran (result : Except Fault Unit)
  | done

namespace Machine

def operated (m : Machine) (r : Except FaultKind Unit × Store) : Answer × Machine :=
  (.operated r.1, { m with store := r.2 })

def altered (m : Machine) (store : Store) : Answer × Machine :=
  (.done, { m with store := store })

/-- The answer to a request and the machine after it. There is none to a run that has not ended and
to a tape that is too large. -/
def handle (m : Machine) : Request → Option (Answer × Machine)
  | .read => some (m.operated m.store.read)
  | .write => some (m.operated m.store.write)
  | .flush => some (m.operated m.store.flush)
  | .right distance => some (m.operated (m.store.right distance))
  | .left distance => some (m.operated (m.store.left distance))
  | .add amount => some (m.altered (m.store.add amount))
  | .subtract amount => some (m.altered (m.store.subtract amount))
  | .clear => some (m.altered m.store.reset)
  | .resize cells =>
    if cells ≤ Session.maxCells then some (m.altered (m.store.resize cells)) else none
  | .step code => some (.stepped (m.step code).1, (m.step code).2)
  | .run code bound => (m.run code bound).map fun r => (.ran r.1, r.2)
  | .rewind => some (.done, m.rewind)
  | .withStrategy strategy => some (.done, { m with strategy := strategy })
  | .withLimit limit => some (.done, { m with limit := limit })

/-- What a machine answers to requests, and the machine after them. There is nothing if one of them
has no answer. -/
def handles : List Request → Machine → Option (List Answer × Machine)
  | [], m => some ([], m)
  | request :: requests, m =>
    match m.handle request with
    | none => none
    | some (answer, next) => (handles requests next).map fun r => (answer :: r.1, r.2)

end Machine

end Brainfuck
