import Brainfuck.CommandLine.Arguments
import Brainfuck.CommandLine.Note
import Brainfuck.CommandLine.Run
import Brainfuck.Session.Basic

/-!
# The program

Carries out the options of a command line on the system: a host whose files are those of the
system, and whose executions read from standard input and write to standard output as they go.
-/
namespace Brainfuck
namespace CommandLine
namespace Terminal

def fileError : IO.Error → FileError
  | .noFileOrDirectory _ _ _ => .notFound
  | .inappropriateType _ code details =>
    if code = 20 || details = "not a directory" then .notDirectory else .isDirectory
  | e => .other (toString e)

/-- Does something with a file, and tells why it failed. -/
def onFile {α : Type} (act : IO α) : IO (Except FileError α) := do
  match ← act.toBaseIO with
  | .ok value => return .ok value
  | .error e => return .error (fileError e)

/-- Fetches a byte for a session that wants one. Nothing is fed at the end of input. -/
def fetch (s : Session) : IO Session := do
  if s.wantsInput then
    (← IO.getStdout).flush
    let bytes ← (← IO.getStdin).read 1
    return bytes.data.foldl (fun s value => s.feed value) s
  else return s

def deliver (s : Session) : IO Session := do
  if s.written.isEmpty then return s
  else
    (← IO.getStdout).write ⟨s.written⟩
    return s.drained

def step (s : Session) : IO (Except SessionError Phase × Session) := do
  let (result, s) := (← fetch s).step
  let s ← deliver s
  if s.phase.isFinal then (← IO.getStdout).flush
  return (result, s)

/-- Runs a session in single steps, noting each of them if asked to. -/
partial def execute (note : Option (Note → IO Unit)) (s : Session) :
    IO (Except SessionError Unit × Session) := do
  let before := s.moment
  match ← step s with
  | (.error e, s) => return (.error e, s)
  | (.ok phase, s) =>
    if let some note := note then note (.step (Session.lineFor before s))
    if phase = .running then execute note s else return (.ok (), s)

def host (colored : Bool) (began : IO.Ref Nat) : Host IO where
  readFile path := onFile (IO.FS.readBinFile path)
  writeFile path contents := onFile (IO.FS.writeBinFile path contents)
  print text := do
    (← IO.getStdout).putStr text
    (← IO.getStdout).flush
  note n := noteLine n
  trace s := execute (some noteLine) s
  run s := execute none s
where
  /-- Writes a note to standard error, and remembers when work began. -/
  noteLine (n : Note) : IO Unit := do
    let now ← IO.monoNanosNow
    let elapsed := elapsedText (now - (← began.get))
    IO.eprintln (n.text colored elapsed)
    if let .starting _ := n then began.set now

def usage : String :=
  "Usage: brainfreeze [OPTIONS] [FILE]\n\n" ++
    "  -c, --command <tokens|bytecode|trace|run>\n" ++
    "  -o, --optimizations <coalesce-runs|comment-block>\n" ++
    "  -a, --all-optimizations\n" ++
    "  -t, --tape-size <CELLS>\n" ++
    "  -j, --jump-strategy <distance|scan>\n" ++
    "  -s, --step-limit <STEPS>\n" ++
    "  -e, --emit <FILE>\n" ++
    "  -q, --quiet\n" ++
    "  -h, --help\n" ++
    "  -V, --version\n"

/-- Carries out options, and tells the exit status. -/
def carryOut (o : Options) : IO Nat := do
  let colored ← (← IO.getStdout).isTty
  let began ← IO.mkRef (← IO.monoNanosNow)
  let outcome ← (host colored began).work o ⟨[]⟩ (.scripted [] [])
  match outcome with
  | .done => pure ()
  | .failed failure => IO.eprintln ("Error: " ++ failure.message)
  | .tapeTooLarge => IO.eprintln "Error: the tape is too large"
  return outcome.exitStatus

end Terminal
end CommandLine
end Brainfuck

open Brainfuck.CommandLine in
def main (args : List String) : IO UInt32 := do
  match Options.ofArguments args with
  | .ok options => return UInt32.ofNat (← Terminal.carryOut options)
  | .error .displayVersion =>
    IO.print versionText
    return 0
  | .error .displayHelp =>
    IO.print Terminal.usage
    return 0
  | .error e =>
    IO.eprint Terminal.usage
    return UInt32.ofNat e.exitStatus
