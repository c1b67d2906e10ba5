import FoxMachine.Machine
import FoxMachine.Text.Styled

namespace FoxMachine

/-!
The console: standard output for the running program and standard error for the toolchain. It knows
whether the two together stand at the start of a line, and how diagnostics are to look. Diagnostics
are blue where colours are on, and bare in minimal mode.
-/

structure Console where
  lineStart : Bool
  minimal : Bool
  trace : Bool
  color : Bool
  output : String
  errors : String
deriving DecidableEq, Repr

inductive Channel where
  | normal
  | diagnostic (condition : Condition)
deriving DecidableEq, Repr

namespace Console

def fresh : Console :=
  ⟨true, false, false, false, "", ""⟩

def shows (console : Console) : Channel → Bool
  | .normal | .diagnostic .always => true
  | .diagnostic .trace => console.trace

def diagnosticForm (console : Console) (text : String) : String :=
  if console.minimal then String.ofList (Text.visible text.toList)
  else if console.color then String.ofList (Text.styled .blue text.toList)
  else text

/-- Whether a line starts behind a text, given whether one starts before it. -/
def lineStartAfter (lineStart : Bool) (text : List Char) : Bool :=
  match text.getLast? with
  | some c => c == '\n'
  | none => lineStart

def print (console : Console) (channel : Channel) (text : String) : Console :=
  if console.shows channel then
    let lineStart := lineStartAfter console.lineStart (Text.visible text.toList)
    match channel with
    | .normal => { console with output := console.output ++ text, lineStart }
    | .diagnostic _ =>
        { console with errors := console.errors ++ console.diagnosticForm text, lineStart }
  else console

def startLine (console : Console) (channel : Channel) : Console :=
  if console.lineStart then console else console.print channel "\n"

def notify (console : Console) (notice : Notice) : Console :=
  console.print (.diagnostic notice.condition) notice.line

def notifyAll (console : Console) (notices : List Notice) : Console :=
  notices.foldl notify console

/-- Shows text of a terminal as it is. The terminal's characters are not read for styles. -/
def display (console : Console) (text : String) : Console :=
  { console with
    output := console.output ++ text
    lineStart := lineStartAfter console.lineStart text.toList }

def observe (console : Console) : Effect → Console
  | .notice notice => console.notify notice
  | .text text => console.display text

def observeAll (console : Console) (effects : List Effect) : Console :=
  effects.foldl observe console

/-- Writes a line of progress to standard output. It stands between the lines of the program and so
leaves the line start as it is. -/
def announce (console : Console) (line : String) : Console :=
  { console with output := console.output ++ line ++ "\n" }

def signedText (word : UInt16) : String :=
  toString word.toInt16.toInt

def integerParts (word : UInt16) : List String := [
  "0x" ++ Text.hexLower word ++ "  ",
  Text.padStart 6 (signedText word) ++ "  ",
  Text.padStart 6 (Text.decimal word)]

def flagText (flags : Flags) : String :=
  String.ofList ((Nat.toDigits 2 flags.bits).leftpad 4 '0')

def minimalRegisters (processor : Processor) : List String := [
  "X " ++ Text.decimal processor.x ++ "\n",
  "Y " ++ Text.decimal processor.y ++ "\n",
  "PC " ++ Text.decimal processor.pc ++ "\n",
  "FLAGS " ++ flagText processor.flags ++ "\n"]

def dim (text : String) : String :=
  "\x1b[2m" ++ text ++ "\x1b[0m"

def bold (text : String) : String :=
  "\x1b[1m" ++ text ++ "\x1b[0m"

def registerRow (name : String) (word : UInt16) : List String :=
  [dim "│", " " ++ bold name ++ "  "] ++ integerParts word ++ [" " ++ dim "│" ++ "\n"]

def boxedRegisters (processor : Processor) : List String :=
  [dim "┌─────────────────────────────┐" ++ "\n",
    "\x1b[2m│        \x1b[3mhex     int    uint\x1b[0m\x1b[2m │\x1b[0m\n"] ++
  registerRow "X " processor.x ++
  registerRow "Y " processor.y ++
  [dim "│",
    " " ++ bold "PC" ++ "  0x" ++ Text.hexLower processor.pc,
    "  " ++ bold "EADH" ++ " " ++ flagText processor.flags,
    "    " ++ dim "│" ++ "\n",
    dim "└─────────────────────────────┘" ++ "\n"]

def printAll (console : Console) (channel : Channel) (parts : List String) : Console :=
  parts.foldl (fun console part => console.print channel part) console

def printInteger (console : Console) (channel : Channel) (word : UInt16) : Console :=
  console.printAll channel (integerParts word)

def printRegisters (console : Console) (channel : Channel) (processor : Processor) : Console :=
  console.printAll channel
    (if console.minimal then minimalRegisters processor else boxedRegisters processor)

end Console

structure Session where
  machine : Machine
  console : Console

namespace Session

def boot (console : Console) (words : List UInt16) (clock : Clock) (terminal : Terminal) :
    Session where
  machine := Machine.boot words clock terminal
  console := console.notify (.imageLoaded (Machine.loadedSize words))

def act (session : Session) (action : Machine → Machine × List Effect) : Session :=
  let (machine, effects) := action session.machine
  ⟨machine, session.console.observeAll effects⟩

def cycle (session : Session) : Session :=
  session.act Machine.cycle

def step (session : Session) : Session :=
  session.act Machine.step

def isHalted (session : Session) : Bool :=
  session.machine.isHalted

/-- Repeats an action until the machine has halted behind it, at most `limit` times. -/
def repeatUntilHalted (action : Session → Session) : (limit : Nat) → Session → Session
  | 0, session => session
  | limit + 1, session =>
      let session := action session
      if session.isHalted then session else repeatUntilHalted action limit session

def conclude (session : Session) : Session :=
  { session with console := session.console.notify .halted }

/-- Runs until the machine has halted. There is no result if that takes more than `limit` steps. -/
def run? (limit : Nat) (session : Session) : Option Session :=
  let session := repeatUntilHalted step limit session
  if session.isHalted then some session.conclude else none

end Session

end FoxMachine
