import Brainfuck.Session.Basic

/-!
# Reading arguments

Arguments are read from left to right, and the first error counts. A setting whose value is an
argument of its own waits for it: the value is looked at only when the next option or file comes,
or at the end. So an unknown option is reported before a bad value that stands before it, while a
value written in one argument with its option is looked at on the spot.
-/
namespace Brainfuck

/-!
### Options

What the command line asks for. Commands and optimizations are sets: their order does not matter,
nor how often one is named.
-/

namespace CommandLine

inductive Command
  | tokens
  | bytecode
  | trace
  | run
  deriving DecidableEq

inductive Optimization
  | coalesceRuns
  | commentBlock
  deriving DecidableEq

structure Options where
  file : Option String := none
  commands : List Command := []
  optimizations : List Optimization := []
  allOptimizations : Bool := false
  cells : Nat := Session.usualCells
  strategy : JumpStrategy := .distance
  limit : Option Nat := none
  emit : Option String := none
  quiet : Bool := false
  deriving DecidableEq

namespace Options

/-- Whether a command is asked for. With none named, the program is run. -/
def asks (o : Options) (command : Command) : Bool :=
  o.commands.contains command || (o.commands.isEmpty && command = .run)

def flags (o : Options) : Flags :=
  if o.allOptimizations then .all
  else ⟨o.optimizations.contains .coalesceRuns, o.optimizations.contains .commentBlock⟩

/-- The session asked for, unless its tape would be too large. -/
def session? (o : Options) (source : String) (input : Input) (output : Output) :
    Option Session :=
  ((Session.ofSource source input output).resize? o.cells).map fun s =>
    ((s.withFlags o.flags).withStrategy o.strategy).withLimit o.limit

end Options
end CommandLine

/-! ### Reading arguments -/

namespace CommandLine

/-- Why arguments give no options. The first two are asked for. -/
inductive UsageError
  | displayHelp
  | displayVersion
  | unknownArgument
  /-- A value is missing, or is not one of those that are allowed. -/
  | invalidValue
  /-- A value is not a number that fits. -/
  | invalidNumber
  /-- An option that may be given once is given again. -/
  | repeated
  /-- An option that takes no value is given one. -/
  | unwantedValue
  deriving DecidableEq

def UsageError.exitStatus : UsageError → Nat
  | displayHelp | displayVersion => 0
  | _ => 2

def versionText : String := "brainfreeze 0.1.0\n"

/-- What takes a value: the file, which is named without an option, and six options. -/
inductive Setting
  | file
  | command
  | optimization
  | cells
  | strategy
  | limit
  | emit
  deriving DecidableEq

/-- Whether a setting may be given any number of times. -/
def Setting.isList : Setting → Bool
  | command | optimization => true
  | _ => false

inductive Switch
  | allOptimizations
  | quiet
  | help
  | version
  deriving DecidableEq

inductive Key
  | setting (s : Setting)
  | switch (s : Switch)
  deriving DecidableEq

def Key.ofLong? : String → Option Key
  | "command" => some (.setting .command)
  | "optimizations" => some (.setting .optimization)
  | "all-optimizations" => some (.switch .allOptimizations)
  | "tape-size" => some (.setting .cells)
  | "jump-strategy" => some (.setting .strategy)
  | "step-limit" => some (.setting .limit)
  | "emit" => some (.setting .emit)
  | "quiet" => some (.switch .quiet)
  | "help" => some (.switch .help)
  | "version" => some (.switch .version)
  | _ => none

def Key.ofShort? : Char → Option Key
  | 'c' => some (.setting .command)
  | 'o' => some (.setting .optimization)
  | 'a' => some (.switch .allOptimizations)
  | 't' => some (.setting .cells)
  | 'j' => some (.setting .strategy)
  | 's' => some (.setting .limit)
  | 'e' => some (.setting .emit)
  | 'q' => some (.switch .quiet)
  | 'h' => some (.switch .help)
  | 'V' => some (.switch .version)
  | _ => none

def Command.ofName? : String → Option Command
  | "tokens" => some .tokens
  | "bytecode" => some .bytecode
  | "trace" => some .trace
  | "run" => some .run
  | _ => none

def Optimization.ofName? : String → Option Optimization
  | "coalesce-runs" => some .coalesceRuns
  | "comment-block" => some .commentBlock
  | _ => none

def strategyOfName? : String → Option JumpStrategy
  | "distance" => some .distance
  | "scan" => some .scan
  | _ => none

/-- Reads a number that fits in 64 bits: decimal digits, after a plus sign at most. -/
def number? (text : String) : Option Nat :=
  let digits :=
    match text.toList with
    | '+' :: digits => digits
    | digits => digits
  if digits.isEmpty || !digits.all Char.isDigit then none
  else
    let n := digits.foldl (fun n c => n * 10 + (c.toNat - '0'.toNat)) 0
    if n < UInt64.size then some n else none

/-- What has been read: the options, what has been given, and a setting that waits, with its value
once that has come. -/
structure Reading where
  options : Options := {}
  given : List Key := []
  waiting : Option (Setting × Option String) := none
  deriving DecidableEq

namespace Reading

def assign (o : Options) (value : String) : Setting → Except UsageError Options
  | .file => if value.isEmpty then .error .invalidValue else .ok { o with file := some value }
  | .emit => if value.isEmpty then .error .invalidValue else .ok { o with emit := some value }
  | .command =>
    match Command.ofName? value with
    | some c => .ok { o with commands := o.commands.insert c }
    | none => .error .invalidValue
  | .optimization =>
    match Optimization.ofName? value with
    | some x => .ok { o with optimizations := o.optimizations.insert x }
    | none => .error .invalidValue
  | .strategy =>
    match strategyOfName? value with
    | some s => .ok { o with strategy := s }
    | none => .error .invalidValue
  | .cells =>
    match number? value with
    | some n => .ok { o with cells := n }
    | none => .error .invalidNumber
  | .limit =>
    match number? value with
    | some n => .ok { o with limit := some n }
    | none => .error .invalidNumber

/-- Gives a setting its value, unless it has one and may have only one. -/
def give (r : Reading) (s : Setting) (value : String) : Except UsageError Reading :=
  if !s.isList && r.given.contains (.setting s) then .error .repeated
  else
    match assign r.options value s with
    | .ok o => .ok { r with options := o, given := .setting s :: r.given }
    | .error e => .error e

/-- Looks at the setting that waits. -/
def settle (r : Reading) : Except UsageError Reading :=
  match r.waiting with
  | none => .ok r
  | some (_, none) => .error .invalidValue
  | some (s, some value) => { r with waiting := none }.give s value

def turnOn (r : Reading) (s : Switch) : Except UsageError Reading := do
  let r ← r.settle
  match s with
  | .help => .error .displayHelp
  | .version => .error .displayVersion
  | s =>
    if r.given.contains (.switch s) then .error .repeated
    else
      let o := r.options
      let o := if s = .quiet then { o with quiet := true } else { o with allOptimizations := true }
      .ok { r with options := o, given := .switch s :: r.given }

def await (r : Reading) (s : Setting) : Except UsageError Reading := do
  let r ← r.settle
  .ok { r with waiting := some (s, none) }

/-- Gives a setting the value that is written in one argument with it. -/
def attach (r : Reading) (s : Setting) (value : String) : Except UsageError Reading := do
  let r ← r.settle
  r.give s value

/-- Reads a word that is no option: the value that a setting waits for, or else the file. There is
only one file. -/
def word (r : Reading) (value : String) (positional : Bool) : Except UsageError Reading :=
  match r.waiting, positional with
  | some (s, none), false => .ok { r with waiting := some (s, some value) }
  | waiting, _ =>
    if waiting.any (·.1 = .file) || r.given.contains (.setting .file) then .error .unknownArgument
    else do
      let r ← r.settle
      .ok { r with waiting := some (.file, some value) }

/-- Reads what follows two dashes: a name, and perhaps a value after an equals sign. -/
def long (r : Reading) (text : List Char) : Except UsageError Reading :=
  let name := String.ofList (text.takeWhile (· ≠ '='))
  match Key.ofLong? name, text.dropWhile (· ≠ '=') with
  | none, _ => .error .unknownArgument
  | some (.switch s), [] => r.turnOn s
  | some (.switch _), _ :: _ => .error .unwantedValue
  | some (.setting s), [] => r.await s
  | some (.setting s), _ :: value => r.attach s (String.ofList value)

/-- Reads what follows one dash: switches, and then perhaps a setting, which takes what is left as
its value, without an equals sign before it. -/
def short : List Char → Reading → Except UsageError Reading
  | [], r => .ok r
  | c :: cs, r =>
    match Key.ofShort? c with
    | none => .error .unknownArgument
    | some (.switch s) => do short cs (← r.turnOn s)
    | some (.setting s) =>
      match cs with
      | [] => r.await s
      | '=' :: value => r.attach s (String.ofList value)
      | value => r.attach s (String.ofList value)

/-- Reads arguments to the end. After two dashes alone, none is an option. -/
def arguments : List String → (positional : Bool) → Reading → Except UsageError Reading
  | [], _, r => r.settle
  | arg :: rest, true, r => do arguments rest true (← r.word arg true)
  | arg :: rest, false, r =>
    match arg.toList with
    | ['-', '-'] => arguments rest true r
    | '-' :: '-' :: name => do arguments rest false (← r.long name)
    | '-' :: c :: cs => do arguments rest false (← short (c :: cs) r)
    | _ => do arguments rest false (← r.word arg false)

end Reading

def Options.ofArguments (args : List String) : Except UsageError Options :=
  match Reading.arguments args false {} with
  | .ok r => .ok r.options
  | .error e => .error e

end CommandLine

end Brainfuck
