import Brainfuck.Proofs.Programs

/-!
# Echo

The program `,[.,]` writes what it reads. A script of reads brings some bytes if it gives these and
then the end of input, with any interruptions before each of them (`Arrival.Brings`). Before each
round of the loop the first byte that has not been written is in the first cell, and the input
brings those after it (`Echoing`). Main statement: what is written is what the input brings before
its first zero, and the tape is as it was at first (`echo_copies_up_to_zero`).
-/
namespace Brainfuck

/-- A script of reads gives these bytes and then the end of input. Any read may be interrupted. -/
inductive Arrival.Brings : List Arrival → List UInt8 → Prop
  | ended : Brings [] []
  | finished {later : List Arrival} : Brings (.finished :: later) []
  | interrupted {script : List Arrival} {bytes : List UInt8} :
      Brings script bytes → Brings (.failed .interrupted :: script) bytes
  | byte {value : UInt8} {script : List Arrival} {bytes : List UInt8} :
      Brings script bytes → Brings (.byte value :: script) (value :: bytes)

namespace Arrival.Brings

variable {script : List Arrival} {value : UInt8} {bytes : List UInt8}

theorem next_nil (brings : Brings script []) : ∃ rest, next script = (.ok none, rest) := by
  induction script with
  | nil => exact ⟨[], rfl⟩
  | cons arrival rest ih =>
    cases brings with
    | finished => exact ⟨rest, rfl⟩
    | interrupted more => exact ih more

theorem next_cons (brings : Brings script (value :: bytes)) :
    ∃ rest, next script = (.ok (some value), rest) ∧ Brings rest bytes := by
  induction script with
  | nil => cases brings
  | cons arrival rest ih =>
    cases brings with
    | interrupted more => exact ih more
    | byte more => exact ⟨rest, rfl, more⟩

end Arrival.Brings

/-- An output that can be written and flushed: no write fails but by an interruption, and no flush
fails at all. -/
structure Output.Writable (output : Output) : Prop where
  writes : ∀ delivery ∈ output.writes, delivery = .taken ∨ delivery = .failed .interrupted
  flushes : ∀ flush ∈ output.flushes, flush = .done

theorem Delivery.next_of_takes {script : List Delivery}
    (takes : ∀ delivery ∈ script, delivery = .taken ∨ delivery = .failed .interrupted) :
    ∃ rest, next script = (.ok (), rest) ∧
      ∀ delivery ∈ rest, delivery = .taken ∨ delivery = .failed .interrupted := by
  induction script with
  | nil => exact ⟨[], rfl, takes⟩
  | cons delivery rest ih =>
    obtain ⟨here, later⟩ := List.forall_mem_cons.mp takes
    rcases here with rfl | rfl
    · exact ⟨rest, rfl, later⟩
    · exact ih later

namespace Output.Writable

variable {output : Output}

theorem write (writable : output.Writable) (value : UInt8) :
    ∃ after, output.write value = (.ok (), after) ∧ after.taken = output.taken.push value ∧
      after.Writable := by
  obtain ⟨taken, writes, flushes, flushCalls, flushed⟩ := output
  obtain ⟨rest, next, later⟩ := Delivery.next_of_takes writable.writes
  refine ⟨⟨taken.push value, rest, flushes, flushCalls, flushed⟩, ?_, rfl, later,
    writable.flushes⟩
  simp only [Output.write, next]

theorem flush (writable : output.Writable) :
    output.flush.1 = .ok () ∧ output.flush.2.taken = output.taken := by
  obtain ⟨taken, writes, flushes, flushCalls, flushed⟩ := output
  match flushes with
  | [] => exact ⟨rfl, rfl⟩
  | .done :: rest => exact ⟨rfl, rfl⟩
  | .failed error :: rest => cases writable.flushes _ List.mem_cons_self

end Output.Writable

def echoLoop : Tree :=
  .loop (.act .write (.act .read .done)) .done

/-- The bytes still to be written are these: the first is in the first cell, the others come from
the input. Where there are none the tape is blank. -/
inductive Echoing (cells : Nat) (output : Output) : List UInt8 → Store → Prop
  | last {input : Input} : Echoing cells output [] ⟨.blank cells, input, output⟩
  | byte {value : UInt8} {bytes : List UInt8} {input : Input} :
      Arrival.Brings input.script bytes →
      Echoing cells output (value :: bytes) ⟨(Tape.blank cells).put value.toInt8, input, output⟩

theorem Tape.put_zero_blank (cells : Nat) : (blank cells).put 0 = blank cells := by
  have zero : (blank cells).current = 0 := by simp [current, blank]
  rw [← zero, put_current]

theorem isZero_put_of_ne {value : UInt8} (nonzero : value ≠ 0) (tape : Tape) (input : Input)
    (output : Output) : Store.isZero ⟨tape.put value.toInt8, input, output⟩ = false := by
  rw [Store.isZero, Tape.current_put, beq_eq_false_iff_ne]
  intro zero
  apply nonzero
  rw [← value.toUInt8_toInt8, zero]
  rfl

namespace Echoing

variable {cells k : Nat} {output : Output} {bytes : List UInt8} {s : Store}

/-- A read replaces what is in the first cell by the next byte. -/
theorem of_read {input : Input} (brings : Arrival.Brings input.script bytes) (cells : Nat)
    (output : Output) (earlier : Int8) :
    ∃ s, Act.read.effect ⟨(Tape.blank cells).put earlier, input, output⟩ = (.ok (), s) ∧
      Echoing cells output bytes s := by
  cases bytes with
  | nil =>
    obtain ⟨rest, next⟩ := brings.next_nil
    refine ⟨⟨.blank cells, ⟨rest⟩, output⟩, ?_, .last⟩
    simp only [Act.effect, Store.read, Input.read, next, Tape.put_put, Option.elim_none,
      Tape.put_zero_blank]
  | cons value bytes =>
    obtain ⟨rest, next, more⟩ := brings.next_cons
    refine ⟨⟨(Tape.blank cells).put value.toInt8, ⟨rest⟩, output⟩, ?_, .byte more⟩
    simp only [Act.effect, Store.read, Input.read, next, Tape.put_put, Option.elim_some]

/-- The loop writes the bytes up to the first zero. -/
theorem runs (echoing : Echoing cells output bytes s) (writable : output.Writable) :
    ∃ input' output', echoLoop.Runs k s .normal ⟨.blank cells, input', output'⟩ ∧
      output'.Writable ∧
      output'.taken = output.taken ++ (bytes.takeWhile (· != 0)).toArray := by
  -- On the bytes still to be written. Each round writes one, so the output changes with them.
  induction bytes generalizing output s with
  | nil =>
    cases echoing with
    | @last input =>
      have zero : Store.isZero ⟨.blank cells, input, output⟩ = true := isZero_blank ..
      exact ⟨input, output, .skip zero .done, writable, by simp⟩
  | cons value bytes ih =>
    cases echoing with
    | @byte _ _ input brings =>
      by_cases zero : value = 0
      · subst zero
        have blank : (Tape.blank cells).put (UInt8.toInt8 0) = .blank cells :=
          Tape.put_zero_blank cells
        rw [blank]
        exact ⟨input, output, .skip (isZero_blank ..) .done, writable, by simp⟩
      · have nonzero := isZero_put_of_ne zero (.blank cells) input output
        obtain ⟨written, wrote, grown, writable'⟩ := writable.write value
        have first : Act.write.effect ⟨(Tape.blank cells).put value.toInt8, input, output⟩ =
            (.ok (), ⟨(Tape.blank cells).put value.toInt8, input, written⟩) := by
          simp only [Act.effect, Store.write, Tape.current_put, UInt8.toUInt8_toInt8, wrote]
        obtain ⟨s, second, echoing'⟩ := of_read brings cells written value.toInt8
        obtain ⟨input', output', rounds, writable'', taken⟩ := ih echoing' writable'
        refine ⟨input', output', .again nonzero (.act first (.act second .done)) rounds,
          writable'', ?_⟩
        rw [taken, grown]
        simp [zero]

end Echoing

/-- Over an input that brings some bytes, with any interruptions, and an output that can be written,
the program `,[.,]` halts. It has written the bytes before the first zero, or all if there is none,
and the tape is blank with the pointer at its first cell. -/
theorem echo_copies_up_to_zero {input : Input} {bytes : List UInt8}
    (brings : Arrival.Brings input.script bytes) {output : Output} (writable : output.Writable)
    (cells : Nat) (flags : Flags) (strategy : JumpStrategy) :
    ∃ s, (Session.fresh ",[.,]" flags strategy cells input output).RunsTo (.ok (), s) ∧
      s.phase = .halted ∧ s.machine.store.tape = .blank cells ∧
      s.machine.store.output.taken =
        output.taken ++ (bytes.takeWhile (· != 0)).toArray := by
  obtain ⟨s, read, echoing⟩ := Echoing.of_read brings cells output 0
  rw [Tape.put_zero_blank] at read
  obtain ⟨input', output', run, writable', taken⟩ := echoing.runs (k := 1) writable
  obtain ⟨flushes, kept⟩ := writable'.flush
  have short : (Tree.act .read echoLoop).Short := ⟨by decide, trivial, trivial⟩
  have spells : (Tree.act .read echoLoop).glyphs = glyphsOf ",[.,]" := by decide
  obtain ⟨⟨result, s⟩, runs, finishes⟩ :=
    Session.runsTo_of_tree short spells (.act read run) flags strategy
  obtain ⟨rfl, halted⟩ := finishes.halts flushes
  refine ⟨s, runs, halted, ?_, ?_⟩
  · rw [finishes.store_eq]
  · rw [finishes.store_eq, kept, taken]

/-- Reads and writes are interrupted, two bytes are negative in a cell, and more follows after the
zero. -/
theorem echo_copies_up_to_zero_despite_interruptions :
    let input : Input := ⟨[.failed .interrupted, .byte 0x80, .failed .interrupted,
      .failed .interrupted, .byte 0xff, .byte 0, .byte 7, .failed .interrupted, .finished,
      .byte 3]⟩
    let output : Output := .scripted [.taken, .failed .interrupted] [.done]
    Arrival.Brings input.script [0x80, 0xff, 0, 7] ∧ output.Writable ∧
      ∃ s, (Session.fresh ",[.,]" .all .scan 0 input output).RunsTo (.ok (), s) ∧
        s.machine.store.tape = .blank 0 ∧ s.machine.store.output.taken = #[0x80, 0xff] := by
  intro input output
  have brings : Arrival.Brings input.script [0x80, 0xff, 0, 7] :=
    .interrupted (.byte (.interrupted (.interrupted (.byte (.byte (.byte (.interrupted
      .finished)))))))
  have writable : output.Writable := ⟨by decide, by decide⟩
  obtain ⟨s, runs, _, tape, taken⟩ := echo_copies_up_to_zero brings writable 0 .all .scan
  exact ⟨brings, writable, s, runs, tape, taken⟩

end Brainfuck
