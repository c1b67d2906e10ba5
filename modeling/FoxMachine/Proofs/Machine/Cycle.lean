import FoxMachine.Machine
import FoxMachine.Opcode

namespace FoxMachine

namespace Instruction

theorem length_eq_one_or_two (instruction : Instruction) :
    instruction.length = 1 ∨ instruction.length = 2 := by
  cases instruction <;> simp [length]

/-- The processor moves on by as many words as the instruction table counts. A word that is no code
counts as one. -/
theorem length_ofCode? (code : UInt16) :
    (((ofCode? code).getD nothing).length).toNat = 1 + Opcode.operandCount code := by
  unfold ofCode?
  split
  case h_25 => simp_all [length, Opcode.operandCount, Opcode.operandTakers]
  all_goals rfl

def code : Instruction → UInt16
  | nothing => 0x00
  | load => 0x01
  | store => 0x02
  | select => 0x03
  | add => 0x04
  | subtract => 0x05
  | multiply => 0x06
  | divide => 0x07
  | compareEqual => 0x08
  | compareLess => 0x09
  | jumpUnlessEqual => 0x0A
  | jumpIfEqual => 0x0B
  | jump => 0x0C
  | clearFlags => 0x0D
  | halt => 0x0E
  | shiftLeft => 0x0F
  | shiftRight => 0x10
  | bitAnd => 0x11
  | bitOr => 0x12
  | bitXor => 0x13
  | set => 0x14
  | putCharacter => 0xC000
  | dumpMemory => 0xC001
  | readKey => 0xC002

theorem ofCode?_eq_some_iff {word : UInt16} {instruction : Instruction} :
    ofCode? word = some instruction ↔ word = instruction.code := by
  constructor
  · intro h
    unfold ofCode? at h
    split at h
    case h_25 => contradiction
    all_goals
      obtain rfl := Option.some.inj h
      rfl
  · rintro rfl
    cases instruction <;> rfl

theorem ofCode?_getD_eq_iff {word : UInt16} {instruction : Instruction}
    (h : instruction ≠ nothing) :
    (ofCode? word).getD nothing = instruction ↔ word = instruction.code := by
  rw [← ofCode?_eq_some_iff]
  cases ofCode? word <;> simp [h.symm]

/-- Whether a word is the code of an instruction: `NOP` to `DWR`, or `DBG_LGC` to `DGB_INP`. -/
def IsHandled (code : UInt16) : Prop :=
  code ≤ 0x14 ∨ 0xC000 ≤ code ∧ code ≤ 0xC002

instance (code : UInt16) : Decidable (IsHandled code) :=
  inferInstanceAs (Decidable (code ≤ 0x14 ∨ 0xC000 ≤ code ∧ code ≤ 0xC002))

theorem isHandled_code (instruction : Instruction) : IsHandled instruction.code := by
  cases instruction <;> decide

theorem ofCode?_eq_none_iff {code : UInt16} : ofCode? code = none ↔ ¬ IsHandled code := by
  constructor
  · intro hnone
    unfold ofCode? at hnone
    split at hnone
    case h_25 =>
      rw [IsHandled]
      grind
    all_goals contradiction
  · intro hunhandled
    rw [Option.eq_none_iff_forall_ne_some]
    intro instruction hsome
    rw [ofCode?_eq_some_iff.mp hsome] at hunhandled
    exact hunhandled (isHandled_code instruction)

def isJump : Instruction → Bool
  | jump | jumpUnlessEqual | jumpIfEqual => true
  | _ => false

theorem isJump_ofCode? (code : UInt16) :
    ((ofCode? code).getD nothing).isJump = [0x0A, 0x0B, 0x0C].contains code := by
  unfold ofCode?
  split
  case h_25 => simp_all [isJump]
  all_goals rfl

end Instruction

namespace Machine

def storeCell? (machine : Machine) : Option UInt16 :=
  match machine.instruction with
  | .store => some (cell machine.operand)
  | _ => none

def takesJump (machine : Machine) : Bool :=
  match machine.instruction with
  | .jump => true
  | .jumpUnlessEqual => machine.processor.flags.equal == 0
  | .jumpIfEqual => machine.processor.flags.equal != 0
  | _ => false

theorem instruction_eq_of_code {machine : Machine} {code : UInt16} (h : machine.code = code) :
    machine.instruction = (Instruction.ofCode? code).getD .nothing := by
  rw [instruction, h]

theorem instruction_eq_iff (machine : Machine) (instruction : Instruction)
    (h : instruction ≠ .nothing) :
    machine.instruction = instruction ↔ machine.code = instruction.code :=
  Instruction.ofCode?_getD_eq_iff h

@[simp] theorem processor_put (machine : Machine) (text : String) (lost : String → Notice) :
    (machine.put text lost).1.processor = machine.processor := rfl

@[simp] theorem memory_put (machine : Machine) (text : String) (lost : String → Notice) :
    (machine.put text lost).1.memory = machine.memory := rfl

@[simp] theorem memory_setActive (machine : Machine) (value : UInt16) :
    (machine.setActive value).memory = machine.memory := rfl

@[simp] theorem pc_setActive (machine : Machine) (value : UInt16) :
    (machine.setActive value).processor.pc = machine.processor.pc :=
  Processor.pc_setActive _ _

@[simp] theorem flags_setActive (machine : Machine) (value : UInt16) :
    (machine.setActive value).processor.flags = machine.processor.flags :=
  Processor.flags_setActive _ _

end Machine

namespace Processor

@[simp] theorem pc_divide (processor : Processor) : processor.divide.pc = processor.pc := by
  unfold divide
  split <;> simp

@[simp] theorem halt_divide (processor : Processor) :
    processor.divide.flags.halt = processor.flags.halt := by
  unfold divide
  split <;> simp

@[simp] theorem pc_setEqual (processor : Processor) (condition : Bool) :
    (processor.setEqual condition).pc = processor.pc := rfl

@[simp] theorem halt_setEqual (processor : Processor) (condition : Bool) :
    (processor.setEqual condition).flags.halt = processor.flags.halt := rfl

@[simp] theorem pc_jumpIf (condition : Bool) (processor : Processor) (target : UInt16) :
    (jumpIf condition processor target).pc = if condition then target else processor.pc := by
  unfold jumpIf
  split <;> rfl

@[simp] theorem flags_jumpIf (condition : Bool) (processor : Processor) (target : UInt16) :
    (jumpIf condition processor target).flags = processor.flags := by
  unfold jumpIf
  split <;> rfl

theorem pc_advance (processor : Processor) (start length : UInt16) :
    (processor.advance start length).pc =
      if processor.pc = start then processor.pc + length else processor.pc := by
  unfold advance
  split <;> rfl

@[simp] theorem flags_advance (processor : Processor) (start length : UInt16) :
    (processor.advance start length).flags = processor.flags := by
  unfold advance
  split <;> rfl

end Processor

namespace Machine

theorem pc_execute (machine : Machine) :
    (machine.execute machine.instruction machine.operand).1.processor.pc =
      if machine.takesJump then machine.operand else machine.processor.pc := by
  unfold takesJump
  cases machine.instruction <;> simp [execute, mapProcessor]

theorem memory_execute (machine : Machine) :
    (machine.execute machine.instruction machine.operand).1.memory =
      match machine.storeCell? with
      | some place => machine.memory.write place machine.processor.active
      | none => machine.memory := by
  unfold storeCell?
  cases machine.instruction <;> simp [execute, mapProcessor]

theorem halt_execute_of_ne {machine : Machine} {instruction : Instruction} (operand : UInt16)
    (hhalt : instruction ≠ .halt) (hclear : instruction ≠ .clearFlags) :
    (machine.execute instruction operand).1.processor.flags.halt =
      machine.processor.flags.halt := by
  cases instruction <;> simp_all [execute, mapProcessor]

theorem cycle_fst (machine : Machine) :
    machine.cycle.1 =
      (machine.execute machine.instruction machine.operand).1.finish machine.processor.pc
        machine.instruction.length := rfl

theorem pc_finish (machine : Machine) (start length : UInt16) :
    (machine.finish start length).processor.pc =
      if machine.processor.pc = start then machine.processor.pc + length
      else machine.processor.pc :=
  Processor.pc_advance _ _ _

@[simp] theorem memory_finish (machine : Machine) (start length : UInt16) :
    (machine.finish start length).memory = machine.memory := rfl

@[simp] theorem isHalted_finish (machine : Machine) (start length : UInt16) :
    (machine.finish start length).isHalted = machine.isHalted :=
  congrArg (fun flags : Flags => flags.halt != 0) (Processor.flags_advance _ _ _)

/-- A jump is not moved on behind, unless it leads to itself: then the program counter has not moved
and the jump is passed. -/
theorem pc_cycle (machine : Machine) :
    machine.cycle.1.processor.pc =
      if machine.takesJump ∧ machine.operand ≠ machine.processor.pc then machine.operand
      else machine.processor.pc + machine.instruction.length := by
  rw [cycle_fst, pc_finish, pc_execute]
  by_cases hjump : machine.takesJump = true
  · by_cases hself : machine.operand = machine.processor.pc <;> simp [hjump, hself]
  · simp [hjump]

theorem memory_cycle (machine : Machine) :
    machine.cycle.1.memory =
      match machine.storeCell? with
      | some place => machine.memory.write place machine.processor.active
      | none => machine.memory := by
  rw [cycle_fst, memory_finish, memory_execute]

theorem isHalted_cycle (machine : Machine) :
    machine.cycle.1.isHalted =
      match machine.instruction with
      | .halt => true
      | .clearFlags => false
      | _ => machine.isHalted := by
  rw [cycle_fst, isHalted_finish]
  cases machine.instruction
  case halt => rfl
  case clearFlags => rfl
  all_goals
    exact congrArg (· != 0) (halt_execute_of_ne _ (by simp) (by simp))

theorem instruction_eq_halt_of_isHalted_cycle {machine : Machine}
    (hrunning : machine.isHalted = false) (hhalted : machine.cycle.1.isHalted = true) :
    machine.instruction = .halt := by
  rw [isHalted_cycle] at hhalted
  split at hhalted <;> simp_all

theorem isHalted_cycle_of_halt {machine : Machine} (h : machine.instruction = .halt) :
    machine.cycle.1.isHalted = true := by
  rw [isHalted_cycle, h]

theorem toNat_length_instruction (machine : Machine) :
    machine.instruction.length.toNat = 1 + Opcode.operandCount machine.code :=
  Instruction.length_ofCode? machine.code

theorem code_of_takesJump {machine : Machine} (h : machine.takesJump = true) :
    machine.code = 0x0A ∨ machine.code = 0x0B ∨ machine.code = 0x0C := by
  have hjump : machine.instruction.isJump = true := by
    unfold takesJump at h
    split at h <;> simp_all [Instruction.isJump]
  rw [instruction, Instruction.isJump_ofCode?] at hjump
  simpa using hjump

end Machine

end FoxMachine
