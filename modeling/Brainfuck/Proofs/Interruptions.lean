import Brainfuck.Proofs.StoreMap

/-!
# Interruptions make no difference

A read or a write that is interrupted is tried again, in a run and in a single operation, until one
is not. So a stream comes to the same in every call without its interruptions
(`Arrival.next_uninterrupted`, `Delivery.next_uninterrupted`), and leaving them out of both scripts
is a map of the store that no operation notices. An interrupted flush is not tried again, and the
script of flushes stays as it is. Main statement: neither sessions nor machines answer anything
otherwise, nor do they look otherwise after it (`interruptions_make_no_difference`).
-/
namespace Brainfuck

/-- A script of reads without its interruptions. -/
def Arrival.uninterrupted (script : List Arrival) : List Arrival :=
  script.filter (· != .failed .interrupted)

/-- A script of writes without its interruptions. -/
def Delivery.uninterrupted (script : List Delivery) : List Delivery :=
  script.filter (· != .failed .interrupted)

def Input.uninterrupted : Input → Input
  | ⟨script⟩ => ⟨Arrival.uninterrupted script⟩

def Output.uninterrupted : Output → Output
  | ⟨taken, writes, flushes, flushCalls, flushed⟩ =>
    ⟨taken, Delivery.uninterrupted writes, flushes, flushCalls, flushed⟩

/-- A read comes to what it would have come to without the interruptions before it. -/
theorem Arrival.next_uninterrupted (script : List Arrival) : next (uninterrupted script) =
    ((next script).1, uninterrupted (next script).2) := by
  induction script with
  | nil => rfl
  | cons arrival rest ih =>
    cases arrival with
    | byte value => rfl
    | finished => rfl
    | failed error =>
      cases error with
      | interrupted => exact ih
      | _ => rfl

theorem Delivery.next_uninterrupted (script : List Delivery) : next (uninterrupted script) =
    ((next script).1, uninterrupted (next script).2) := by
  induction script with
  | nil => rfl
  | cons delivery rest ih =>
    cases delivery with
    | taken => rfl
    | ignored => rfl
    | failed error =>
      cases error with
      | interrupted => exact ih
      | _ => rfl

theorem Input.read_uninterrupted (input : Input) :
    input.uninterrupted.read = (input.read.1, input.read.2.uninterrupted) := by
  simp only [uninterrupted, read, Arrival.next_uninterrupted]

theorem Output.write_uninterrupted (value : UInt8) (output : Output) :
    output.uninterrupted.write value =
      ((output.write value).1, (output.write value).2.uninterrupted) := by
  obtain ⟨taken, writes, flushes, flushCalls, flushed⟩ := output
  simp only [uninterrupted, write, Delivery.next_uninterrupted]
  rcases Delivery.next writes with ⟨e | _, rest⟩
  · rfl
  · rfl

theorem Output.flush_uninterrupted (output : Output) :
    output.uninterrupted.flush = (output.flush.1, output.flush.2.uninterrupted) := by
  obtain ⟨taken, writes, flushes, flushCalls, flushed⟩ := output
  match flushes with
  | [] => rfl
  | .done :: rest => rfl
  | .failed e :: rest => rfl

def Store.uninterrupted : Store → Store :=
  mapStreams Input.uninterrupted Output.uninterrupted

theorem Store.indifferent_uninterrupted : Indifferent uninterrupted :=
  indifferent_mapStreams Input.read_uninterrupted Output.write_uninterrupted
    Output.flush_uninterrupted

/-- Machines that cannot be told apart but by what is left of their scripts of reads and writes. -/
structure Machine.LooksLike (m n : Machine) : Prop where
  ip : m.ip = n.ip
  steps : m.steps = n.steps
  strategy : m.strategy = n.strategy
  limit : m.limit = n.limit
  tape : m.store.tape = n.store.tape
  taken : m.store.output.taken = n.store.output.taken
  flushes : m.store.output.flushes = n.store.output.flushes
  flushCalls : m.store.output.flushCalls = n.store.output.flushCalls
  flushed : m.store.output.flushed = n.store.output.flushed

structure Session.LooksLike (s t : Session) : Prop where
  source : s.source = t.source
  flags : s.flags = t.flags
  code? : s.code? = t.code?
  phase : s.phase = t.phase
  machine : s.machine.LooksLike t.machine

theorem Machine.looksLike_uninterrupted (m : Machine) :
    (m.mapStore Store.uninterrupted).LooksLike m :=
  ⟨rfl, rfl, rfl, rfl, rfl, rfl, rfl, rfl, rfl⟩

theorem Session.looksLike_uninterrupted (s : Session) :
    (s.mapStore Store.uninterrupted).LooksLike s :=
  ⟨rfl, rfl, rfl, rfl, s.machine.looksLike_uninterrupted⟩

/-- A session whose reads and writes are interrupted answers every move as it would without the
interruptions, and it looks the same after it; so does a machine with every request. -/
theorem interruptions_make_no_difference :
    (∀ (source : String) (input : Input) (output : Output) (moves : List Move),
      let rough := Session.ofSource source input output
      let smooth := Session.ofSource source input.uninterrupted output.uninterrupted
      rough.plays moves = none ∧ smooth.plays moves = none ∨
        ∃ replies s t, rough.plays moves = some (replies, s) ∧
          smooth.plays moves = some (replies, t) ∧ t.LooksLike s) ∧
    ∀ (m : Machine) (requests : List Request),
      let smooth := m.mapStore Store.uninterrupted
      m.handles requests = none ∧ smooth.handles requests = none ∨
        ∃ answers next last, m.handles requests = some (answers, next) ∧
          smooth.handles requests = some (answers, last) ∧ last.LooksLike next := by
  constructor
  · intro source input output moves rough smooth
    have same : smooth.plays moves = _ :=
      Session.plays_of_indifferent Store.indifferent_uninterrupted moves rough
    rw [same]
    cases rough.plays moves with
    | none => exact .inl ⟨rfl, rfl⟩
    | some r => exact .inr ⟨r.1, r.2, _, rfl, rfl, r.2.looksLike_uninterrupted⟩
  · intro m requests smooth
    have same : smooth.handles requests = _ :=
      Machine.handles_of_indifferent Store.indifferent_uninterrupted requests m
    rw [same]
    cases m.handles requests with
    | none => exact .inl ⟨rfl, rfl⟩
    | some r => exact .inr ⟨r.1, r.2, _, rfl, rfl, r.2.looksLike_uninterrupted⟩

end Brainfuck
