import Brainfuck.CommandLine.Run

/-!
# Records

A host without a system: files are those of a directory, and what is printed and noted is kept. An
execution may do no more instructions than a bound; there is no record of work that needs more.
-/
namespace Brainfuck
namespace CommandLine

/-- What has been done: the files after it, the bytes printed, and the notes taken. -/
structure Record where
  directory : Directory
  printed : Array UInt8
  notes : Array Note

namespace Record

abbrev Recorder := StateT Record Option

/-- Keeps what an execution has written beyond what was there before it, and its notes. -/
def keep (before : Nat) (s : Session) (notes : Array Note) (r : Record) : Record :=
  ⟨r.directory, r.printed ++ s.machine.store.output.taken.extract before, r.notes ++ notes⟩

/-- The host that records, with a bound on the instructions of an execution. -/
def host (bound : Nat) : Host Recorder where
  readFile path := fun r => some (r.directory.read path, r)
  writeFile path contents := fun r =>
    match r.directory.write path contents with
    | .ok d => some (.ok (), { r with directory := d })
    | .error e => some (.error e, r)
  print text := fun r => some ((), { r with printed := r.printed ++ text.toUTF8.data })
  note n := fun r => some ((), { r with notes := r.notes.push n })
  trace s := fun r =>
    let before := s.machine.store.output.taken.size
    match Session.trace bound #[] s with
    | none => none
    | some (lines, result, s) => some ((result, s), r.keep before s (lines.map .step))
  run s := fun r =>
    let before := s.machine.store.output.taken.size
    match s.run bound with
    | none => none
    | some (result, s) => some ((result, s), r.keep before s #[])

/-- The outcome and the record of carrying out options in a directory, over the bytes of an
input. -/
def ofOptions (bound : Nat) (directory : Directory) (input : List UInt8) (o : Options) :
    Option (Outcome × Record) :=
  (host bound).work o ⟨input.map .byte⟩ (.scripted [] []) ⟨directory, #[], #[]⟩

end Record
end CommandLine
end Brainfuck
