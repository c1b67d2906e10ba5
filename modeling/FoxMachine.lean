import FoxMachine.Main
import FoxMachine.Proofs.Assembly.Acceptance
import FoxMachine.Proofs.Assembly.Execution
import FoxMachine.Proofs.Assembly.Formatting
import FoxMachine.Proofs.Assembly.Lenient
import FoxMachine.Proofs.Assembly.Regeneration
import FoxMachine.Proofs.Assembly.Relocation
import FoxMachine.Proofs.CommandLine.Dumping
import FoxMachine.Proofs.CommandLine.Shorthand
import FoxMachine.Proofs.Console.LineStart
import FoxMachine.Proofs.Listing.Programs
import FoxMachine.Proofs.Machine.Dialogue
import FoxMachine.Proofs.Machine.Flags
import FoxMachine.Proofs.Machine.Jumps
import FoxMachine.Proofs.Machine.Registers
import FoxMachine.Proofs.Session.Observers
import FoxMachine.Proofs.Session.Progress
import FoxMachine.Proofs.Session.Tracing
import FoxMachine.Proofs.Token.Literals
import FoxMachine.Proofs.Token.Spans
