import Brainfuck.Code.Basic
import Brainfuck.CommandLine.File
import Brainfuck.CommandLine.Note
import Brainfuck.CommandLine.Arguments
import Brainfuck.Source.Token
import Brainfuck.Text

/-!
# Carrying out options

The order of work: read the source, print its tokens, compile, list the code, write its bytes to a
file, trace, run. The first failure ends it. The work is said once, for any host that reads and
writes files, prints, takes notes and executes sessions.
-/
namespace Brainfuck
namespace CommandLine

inductive Failure
  | unreadable (path : String) (error : FileError)
  | unwritable (path : String) (error : FileError)
  | program (error : SessionError)
  deriving DecidableEq

namespace Failure

def message : Failure → String
  | unreadable path error => "Can't read " ++ quoted path ++ ": " ++ error.message
  | unwritable path error => "Can't write bytecode to " ++ quoted path ++ ": " ++ error.message
  | program error => error.message

/-- The exit status of a failure: malformed and crashed programs are told apart. -/
def exitStatus : Failure → Nat
  | program (.malformed _) => 2
  | program (.crashed _) => 3
  | _ => 1

end Failure

inductive Outcome
  | done
  | failed (failure : Failure)
  /-- The tape asked for is larger than any can be. -/
  | tapeTooLarge
  deriving DecidableEq

/-- The exit status that tells an outcome: zero for success, and one of its own for a tape that is
too large. -/
def Outcome.exitStatus : Outcome → Nat
  | done => 0
  | failed failure => failure.exitStatus
  | tapeTooLarge => 101

def demoSource : String :=
  "++++++++[>++++[>++>+++>+++>+<<<<-]>+>+>->>+[<]<-]" ++
    ">>.>---.+++++++..+++.>>.<-.<.+++.------.--------.>>+.>++."

/-- What the work needs: files, a place to print, a place for notes, and ways to execute a session
to its end. -/
structure Host (m : Type → Type) where
  readFile : String → m (Except FileError ByteArray)
  writeFile : String → ByteArray → m (Except FileError Unit)
  print : String → m Unit
  note : Note → m Unit
  trace : Session → m (Except SessionError Unit × Session)
  run : Session → m (Except SessionError Unit × Session)

namespace Host

variable {m : Type → Type} [Monad m]

def say (host : Host m) (o : Options) (note : Note) : m Unit :=
  if o.quiet then pure () else host.note note

def printIf (host : Host m) (o : Options) (command : Command) (text : Unit → String) : m Unit :=
  if o.asks command then host.print (text ()) else pure ()

def source (host : Host m) (o : Options) : m (Except Failure String) :=
  match o.file with
  | none => do
    host.say o .demo
    return .ok demoSource
  | some path => do
    host.say o (.reading path)
    match ← host.readFile path with
    | .error e => return .error (.unreadable path e)
    | .ok bytes =>
      match String.fromUTF8? bytes with
      | some text => return .ok text
      | none => return .error (.unreadable path .notText)

def emit (host : Host m) (o : Options) (code : Code) : m (Except Failure Unit) :=
  match o.emit with
  | none => return .ok ()
  | some path => do
    match ← host.writeFile path ⟨code.bytes.toArray⟩ with
    | .error e => return .error (.unwritable path e)
    | .ok () =>
      host.say o (.wrote path)
      return .ok ()

/-- Traces the session, if asked for: the session to go on with, which is set back. -/
def tracePart (host : Host m) (o : Options) (s : Session) : m (Except Failure Session) :=
  if o.asks .trace then do
    host.say o (.starting "trace")
    let (result, s) ← host.trace s
    host.say o .blank
    match result with
    | .error e => return .error (.program e)
    | .ok () =>
      host.say o (.finished "trace")
      host.say o (.plain s.summary)
      return .ok s.reset
  else return .ok s

def runPart (host : Host m) (o : Options) (s : Session) : m (Except Failure Unit) :=
  if o.asks .run then do
    host.say o (.starting "bytecode-interpreter")
    let (result, s) ← host.run s
    host.say o .blank
    match result with
    | .error e => return .error (.program e)
    | .ok () =>
      host.say o (.finished "bytecode-interpreter")
      host.say o (.plain (s.summary ++ s!" after {s.machine.steps} steps"))
      return .ok ()
  else return .ok ()

def ended : Except Failure Unit → Outcome
  | .ok () => .done
  | .error failure => .failed failure

def execute (host : Host m) (o : Options) (s : Session) : m Outcome := do
  match ← host.tracePart o s with
  | .error failure => return .failed failure
  | .ok s => return ended (← host.runPart o s)

def compileAndGo (host : Host m) (o : Options) (s : Session) : m Outcome := do
  host.say o (.starting ("compiling with " ++ o.flags.text))
  match s.compile with
  | (.error e, _) => return .failed (.program (.malformed e))
  | (.ok code, s) =>
    host.say o (.finished s!"compiling {code.size} instructions")
    host.printIf o .bytecode fun _ => code.listing
    match ← host.emit o code with
    | .error failure => return .failed failure
    | .ok () => host.execute o s

/-- Carries out options over an input and an output. -/
def work (host : Host m) (o : Options) (input : Input) (output : Output) : m Outcome := do
  match ← host.source o with
  | .error failure => return .failed failure
  | .ok source =>
    host.printIf o .tokens fun _ => tokenDump source
    match o.session? source input output with
    | none => return .tapeTooLarge
    | some s => host.compileAndGo o s

end Host
end CommandLine
end Brainfuck
