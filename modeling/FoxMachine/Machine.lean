import FoxMachine.Charset
import FoxMachine.Clock
import FoxMachine.Instruction
import FoxMachine.Memory
import FoxMachine.Notice
import FoxMachine.Processor
import FoxMachine.Terminal

namespace FoxMachine

inductive Effect where
  | notice (notice : Notice)
  | text (text : String)
deriving DecidableEq, Repr

structure Machine where
  processor : Processor
  memory : Memory
  terminal : Terminal
  clock : Clock

namespace Machine

def fresh (memory : Memory) (clock : Clock) (terminal : Terminal) : Machine :=
  ⟨.reset, memory, terminal, clock⟩

def loadLimit : Nat :=
  4096

/-- Boots an image: its words go to the start of memory, the rest of which is zero. -/
def boot (words : List UInt16) (clock : Clock) (terminal : Terminal) : Machine :=
  fresh (Memory.zero.load 0 (words.take loadLimit)) clock terminal

def loadedSize (words : List UInt16) : Nat :=
  min words.length loadLimit

def isHalted (machine : Machine) : Bool :=
  machine.processor.isHalted

def code (machine : Machine) : UInt16 :=
  machine.memory.read machine.processor.pc

/-- The word behind the program counter; behind the last word of memory a zero is read. -/
def operand (machine : Machine) : UInt16 :=
  if machine.processor.pc = 0xFFFF then 0 else machine.memory.read (machine.processor.pc + 1)

def mapProcessor (machine : Machine) (f : Processor → Processor) : Machine :=
  { machine with processor := f machine.processor }

def setActive (machine : Machine) (value : UInt16) : Machine :=
  machine.mapProcessor (·.setActive value)

/-- Writes to the terminal. `lost` is what is said when that fails. -/
def put (machine : Machine) (text : String) (lost : String → Notice) : Machine × List Effect :=
  let (terminal, written) := machine.terminal.write text
  let effects := match written with
    | .kept => []
    | .toConsole => [.text text]
    | .lost cause => [.notice (lost cause)]
  ({ machine with terminal }, effects)

/-- Memory is addressed from one by the instructions that access it. -/
def cell (operand : UInt16) : UInt16 :=
  operand - 1

/-- Executes an instruction, without moving on behind it. -/
def execute (machine : Machine) (instruction : Instruction) (operand : UInt16) :
    Machine × List Effect :=
  let processor := machine.processor
  match instruction with
  | .nothing => (machine, [])
  | .load => (machine.setActive (machine.memory.read (cell operand)), [])
  | .store =>
      ({ machine with memory := machine.memory.write (cell operand) processor.active }, [])
  | .select =>
      (machine.mapProcessor fun p => { p with flags := { p.flags with selector := operand } }, [])
  | .add => (machine.setActive (processor.x + processor.y), [])
  | .subtract => (machine.setActive (processor.x - processor.y), [])
  | .multiply => (machine.setActive (processor.x * processor.y), [])
  | .divide => (machine.mapProcessor Processor.divide, [])
  | .compareEqual => (machine.mapProcessor (·.setEqual (processor.x == processor.y)), [])
  | .compareLess => (machine.mapProcessor (·.setEqual (processor.x < processor.y)), [])
  | .jumpUnlessEqual =>
      (machine.mapProcessor (·.jumpIf (processor.flags.equal == 0) operand), [])
  | .jumpIfEqual => (machine.mapProcessor (·.jumpIf (processor.flags.equal != 0) operand), [])
  | .jump => (machine.mapProcessor (·.jumpIf true operand), [])
  | .clearFlags => (machine.mapProcessor fun p => { p with flags := .clear }, [])
  | .halt => (machine.mapProcessor fun p => { p with flags := { p.flags with halt := 1 } }, [])
  | .shiftLeft => (machine.setActive (processor.active <<< 1), [])
  | .shiftRight => (machine.setActive (processor.active >>> 1), [])
  | .bitAnd => (machine.setActive (processor.active &&& processor.inactive), [])
  | .bitOr => (machine.setActive (processor.active ||| processor.inactive), [])
  | .bitXor => (machine.setActive (processor.active ^^^ processor.inactive), [])
  | .set => (machine.setActive operand, [])
  | .putCharacter => machine.put (Charset.charFor operand).toString .characterLost
  | .dumpMemory => machine.put machine.memory.dump .dumpLost
  | .readKey =>
      let (terminal, key?) := machine.terminal.readKey
      ({ machine with terminal }.setActive (Charset.keyCode key?), [])

/-- What is said of an instruction before it is executed. A word that is no code is warned of, and
traced as the instruction that stands in for it. -/
def announce (machine : Machine) : List Effect :=
  let pc := machine.processor.pc
  match Instruction.ofCode? machine.code with
  | some instruction => [.notice (.executed instruction.name pc machine.operand)]
  | none =>
      [.notice (.unhandled machine.code machine.operand pc),
        .notice (.executed Instruction.nothing.name pc machine.operand)]

/-- The instruction at the program counter. A word that is no code does nothing. -/
def instruction (machine : Machine) : Instruction :=
  (Instruction.ofCode? machine.code).getD .nothing

def finish (machine : Machine) (start length : UInt16) : Machine :=
  { machine with
    processor :=
      { machine.processor.advance start length with cycles := machine.processor.cycles + 1 }
    clock := machine.clock.tick }

/-- Executes one instruction, also when the machine has halted. -/
def cycle (machine : Machine) : Machine × List Effect :=
  let start := machine.processor.pc
  let instruction := machine.instruction
  let operand := machine.operand
  let announced := machine.announce
  let (machine, effects) := machine.execute instruction operand
  (machine.finish start instruction.length, announced ++ effects)

def step (machine : Machine) : Machine × List Effect :=
  if machine.isHalted then (machine, []) else machine.cycle

/-! The screen: the words at the end of memory hold four pixels each. -/

def screenWidth : Nat :=
  100

def screenHeight : Nat :=
  100

def bitsPerPixel : Nat :=
  4

def framebufferSize : Nat :=
  screenWidth * screenHeight * bitsPerPixel / 16

def framebufferBase : Nat :=
  UInt16.size - framebufferSize

def framebuffer (machine : Machine) : List UInt16 :=
  machine.memory.slice framebufferBase framebufferSize

end Machine

end FoxMachine
