import Brainfuck.CommandLine.Record
import Brainfuck.Literal.Basic
import Brainfuck.Main
import Brainfuck.Proofs.Addition
import Brainfuck.Proofs.Addressing
import Brainfuck.Proofs.AnyCode
import Brainfuck.Proofs.Blame
import Brainfuck.Proofs.CheckedCompilation
import Brainfuck.Proofs.CompileErrors
import Brainfuck.Proofs.CurrentCode
import Brainfuck.Proofs.Echo
import Brainfuck.Proofs.ExitStatus
import Brainfuck.Proofs.Faulting
import Brainfuck.Proofs.FlagChange
import Brainfuck.Proofs.FlagErrors
import Brainfuck.Proofs.Flushing
import Brainfuck.Proofs.Folding
import Brainfuck.Proofs.Interruptions
import Brainfuck.Proofs.LeadingLoops
import Brainfuck.Proofs.Lifecycle
import Brainfuck.Proofs.ListedCode
import Brainfuck.Proofs.Malformed
import Brainfuck.Proofs.PieceBalance
import Brainfuck.Proofs.Printout
import Brainfuck.Proofs.Renewal
import Brainfuck.Proofs.Repetition
import Brainfuck.Proofs.Respelling
import Brainfuck.Proofs.Scanning
import Brainfuck.Proofs.Seeking
import Brainfuck.Proofs.StepLimit
import Brainfuck.Proofs.Stepping
import Brainfuck.Proofs.StructuredRun
import Brainfuck.Proofs.TokenDump
import Brainfuck.Proofs.TraceLines
import Brainfuck.Proofs.WellFormed
