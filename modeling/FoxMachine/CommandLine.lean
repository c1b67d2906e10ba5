import FoxMachine.Assembly
import FoxMachine.CommandLine.Arguments
import FoxMachine.CommandLine.Messages
import FoxMachine.Listing
import FoxMachine.Session
import FoxMachine.Settings

namespace FoxMachine

/-!
Commands. A command reads and writes files, reports its progress on the console, and fails or ends.
One that runs a program first prepares a session; what follows when the machine has halted is a
function of the session alone, so the machine may be driven by anything that steps it.
-/

namespace CommandLine

/-- Work that may fail. What was printed before a failure stays printed. -/
abbrev Work (m : Type → Type) := ExceptT Failure (StateT Console m)

/-- A line of progress: a word in a column of twelve, and what it is about. -/
def progressLine (color : Bool) (style : Text.Style) (word rest : String) : String :=
  let column := Text.padStart 12 word
  (if color then String.ofList (Text.styled style column.toList) else column) ++ " " ++ rest

def target (path : String) : String :=
  "target " ++ path

def progress (console : Console) (style : Text.Style) (word rest : String) : Console :=
  console.announce (progressLine console.color style word rest)

structure Outcome where
  console : Console
  failure? : Option Failure

def Outcome.exitCode (outcome : Outcome) : UInt32 :=
  match outcome.failure? with
  | none => 0
  | some _ => 1

structure Launch where
  session : Session
  path : String

def Launch.finish (launch : Launch) : Outcome :=
  let processor := launch.session.machine.processor
  let console := launch.session.console.startLine .normal
  let console :=
    progress console .cyan "Halted" ("after " ++ toString processor.cycles ++ " cycles")
  let console :=
    if console.trace then console.printRegisters (.diagnostic .trace) processor else console
  ⟨progress console .green "Completed" (target launch.path), none⟩

/-- Where a command stands when all but running has been done. -/
inductive Stage where
  | ended (outcome : Outcome)
  | ready (launch : Launch)

section Files

variable {m : Type → Type} [Monad m] [FileStore m]

def fail {α : Type} (failure : Failure) : Work m α :=
  throw failure

def change (f : Console → Console) : Work m Unit :=
  modify f

def report (style : Text.Style) (word rest : String) : Work m Unit :=
  change fun console => progress console style word rest

def readFound (path : String) : Work m (List UInt8) := do
  match ← (FileStore.read path : m _) with
  | .error fault => fail (.file fault)
  | .ok bytes => return bytes

def requirePresent (path : String) : Work m Unit := do
  if ← (FileStore.holds path : m Bool) then return ()
  else fail (.missing path)

def readSource (path : String) : Work m String := do
  requirePresent path
  if Path.extension? path != some "fox16" then fail (.notSource path)
  let bytes ← readFound path
  match Text.decode? bytes with
  | none => fail .notText
  | some source => return source

def assembleFile (mode : Mode) (path : String) : Work m Assembly := do
  let source ← readSource path
  let attempt := Assembly.assemble mode source
  change (·.notifyAll attempt.notices)
  match attempt.result with
  | .error fault => fail (.source fault)
  | .ok assembly => return assembly

def loadImage (path : String) : Work m Image := do
  requirePresent path
  match Image.decode (← readFound path) with
  | .error fault => fail (.image fault)
  | .ok image => return image

def save (path : String) (bytes : List UInt8) : Work m Unit := do
  match ← (FileStore.write path bytes : m _) with
  | .error fault => fail (.file fault)
  | .ok () => return ()

def launch (settings : Settings) (keys : List Char) (path : String) (rate? : Option Nat)
    (image : Image) : Work m Stage := do
  let rate := (rate? <|> settings.rate?).getD Clock.nominalRate
  let session :=
    Session.boot (← get) image.words (Clock.ofRate rate) (Terminal.console keys)
  let console := progress session.console .green "Running" "emitted binary"
  return .ready ⟨{ session with console }, path⟩

def ended : Work m Stage := do
  return .ended ⟨← get, none⟩

/-- Does all of a command but running a machine. -/
def perform (settings : Settings) (keys : List Char) : Command → Work m Stage
  | .greet => do
      let color := (← get).color
      change fun console => (greeting color settings.fullColor).foldl Console.announce console
      ended
  | .help topic? => do
      change fun console => (helpLines topic?).foldl Console.announce console
      ended
  | .version => do
      change (·.announce ("fox16 " ++ versionText))
      ended
  | .assemble source destination? lenient => do
      report .green "Assembling" (target source)
      let assembly ← assembleFile (if lenient then .lenient else .strict) source
      let destination := destination?.getD defaultImage
      save destination assembly.image.encode
      report .green "Finished" ("emit binary (" ++ toString assembly.image.size ++ " words)")
      report .green "Saved" (target destination)
      ended
  | .check source => do
      report .green "Checking" (target source)
      let _ ← assembleFile .strict source
      report .green "Success" "no errors found!"
      ended
  | .run path trace minimal rate? => do
      change fun console => { console with trace := console.trace || trace, minimal }
      let image ← loadImage path
      launch settings keys path rate? image
  | .dump path => do
      let image ← loadImage path
      change fun console =>
        (Listing.ofWords image.words).foldl (fun console entry => console.announce entry.text)
          console
      ended
  | .quick path =>
      match Path.extension? path with
      | some "fox16" => do
          report .green "Assembling" (target path)
          let assembly ← assembleFile .strict path
          launch settings keys path none assembly.image
      | some "bin" => do
          let image ← loadImage path
          launch settings keys path none image
      | some _ => fail .unknownExtension
      | none => fail .noExtension

def startConsole (settings : Settings) (color : Bool) : Console :=
  { Console.fresh with trace := settings.trace, color }

def prepare (settings : Settings) (color : Bool) (keys : List Char) (command : Command) :
    m Stage := do
  let (result, console) ← (perform settings keys command).run.run (startConsole settings color)
  match result with
  | .ok stage => return stage
  | .error failure => return .ended ⟨console, some failure⟩

/-- Executes a command, running its machine for at most `limit` steps. There is no outcome if the
machine has not halted by then. -/
def execute (limit : Nat) (settings : Settings) (color : Bool) (keys : List Char)
    (command : Command) : m (Option Outcome) := do
  match ← prepare settings color keys command with
  | .ended outcome => return some outcome
  | .ready launch =>
      return (launch.session.run? limit).map fun session =>
        { launch with session }.finish

end Files

end CommandLine

end FoxMachine
