namespace FoxMachine

structure Flags where
  equal : UInt16
  /-- Selects the active register: zero selects X, any other value Y. -/
  selector : UInt16
  divideByZero : UInt16
  halt : UInt16
deriving DecidableEq, Repr

namespace Flags

def clear : Flags :=
  ⟨0, 0, 0, 0⟩

def ofBool (condition : Bool) : UInt16 :=
  if condition then 1 else 0

/-- One bit for each flag that is not zero, in the order of the fields, the first the highest. -/
def bits (flags : Flags) : Nat :=
  [flags.equal, flags.selector, flags.divideByZero, flags.halt].foldl
    (fun bits flag => bits * 2 + (if flag = 0 then 0 else 1)) 0

end Flags

structure Processor where
  x : UInt16
  y : UInt16
  pc : UInt16
  flags : Flags
  cycles : Nat
deriving DecidableEq, Repr

namespace Processor

def reset : Processor :=
  ⟨0, 0, 0, .clear, 0⟩

def isHalted (processor : Processor) : Bool :=
  processor.flags.halt != 0

def active (processor : Processor) : UInt16 :=
  if processor.flags.selector = 0 then processor.x else processor.y

def inactive (processor : Processor) : UInt16 :=
  if processor.flags.selector = 0 then processor.y else processor.x

def setActive (processor : Processor) (value : UInt16) : Processor :=
  if processor.flags.selector = 0 then { processor with x := value }
  else { processor with y := value }

@[simp] theorem active_setActive (processor : Processor) (value : UInt16) :
    (processor.setActive value).active = value := by
  unfold setActive active
  split <;> simp_all

@[simp] theorem inactive_setActive (processor : Processor) (value : UInt16) :
    (processor.setActive value).inactive = processor.inactive := by
  unfold setActive inactive
  split <;> simp_all

@[simp] theorem pc_setActive (processor : Processor) (value : UInt16) :
    (processor.setActive value).pc = processor.pc := by
  unfold setActive
  split <;> rfl

@[simp] theorem flags_setActive (processor : Processor) (value : UInt16) :
    (processor.setActive value).flags = processor.flags := by
  unfold setActive
  split <;> rfl

@[simp] theorem cycles_setActive (processor : Processor) (value : UInt16) :
    (processor.setActive value).cycles = processor.cycles := by
  unfold setActive
  split <;> rfl

/-- Divides X by Y into the active register. A division by zero gives zero and sets its flag. -/
def divide (processor : Processor) : Processor :=
  if processor.y = 0 then
    let processor := processor.setActive 0
    { processor with flags := { processor.flags with divideByZero := 1 } }
  else processor.setActive (processor.x / processor.y)

def setEqual (processor : Processor) (condition : Bool) : Processor :=
  { processor with flags := { processor.flags with equal := Flags.ofBool condition } }

def jumpIf (condition : Bool) (processor : Processor) (target : UInt16) : Processor :=
  if condition then { processor with pc := target } else processor

/-- Moves on behind an instruction, unless the program counter has moved from `start` already. -/
def advance (processor : Processor) (start length : UInt16) : Processor :=
  if processor.pc = start then { processor with pc := processor.pc + length } else processor

end Processor

end FoxMachine
