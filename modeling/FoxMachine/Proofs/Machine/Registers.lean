import FoxMachine.Proofs.Console.Observation
import FoxMachine.Proofs.Machine.Halting

namespace FoxMachine

namespace Instruction

/-- The codes of the instructions that compute a value for the selected register: `LFM`, `AXY`,
`SXY`, `MXY`, `DXY`, `BSL`, `BSR`, `AND`, `ORA`, `XOR`, `DWR` and `DGB_INP`. -/
def registerWriters : List UInt16 :=
  [0x01, 0x04, 0x05, 0x06, 0x07, 0x0F, 0x10, 0x11, 0x12, 0x13, 0x14, 0xC002]

end Instruction

namespace Processor

def registers (processor : Processor) : UInt16 × UInt16 :=
  (processor.x, processor.y)

@[simp] theorem fst_registers (processor : Processor) : processor.registers.1 = processor.x := rfl

@[simp] theorem snd_registers (processor : Processor) : processor.registers.2 = processor.y := rfl

theorem registers_setActive (processor : Processor) (value : UInt16) :
    (processor.setActive value).registers =
      if processor.flags.selector = 0 then (value, processor.y) else (processor.x, value) := by
  unfold setActive
  split <;> rfl

theorem registers_divide (processor : Processor) :
    processor.divide.registers =
      (processor.setActive (processor.x / processor.y)).registers := by
  unfold divide
  split
  case isTrue hzero =>
    rw [hzero, UInt16.div_zero]
    rfl
  case isFalse => rfl

@[simp] theorem registers_setEqual (processor : Processor) (condition : Bool) :
    (processor.setEqual condition).registers = processor.registers := rfl

@[simp] theorem registers_jumpIf (condition : Bool) (processor : Processor) (target : UInt16) :
    (jumpIf condition processor target).registers = processor.registers := by
  unfold jumpIf
  split <;> rfl

@[simp] theorem registers_advance (processor : Processor) (start length : UInt16) :
    (processor.advance start length).registers = processor.registers := by
  unfold advance
  split <;> rfl

end Processor

namespace Machine

def computed? (machine : Machine) : Option UInt16 :=
  let processor := machine.processor
  match machine.instruction with
  | .load => some (machine.memory.read (cell machine.operand))
  | .add => some (processor.x + processor.y)
  | .subtract => some (processor.x - processor.y)
  | .multiply => some (processor.x * processor.y)
  | .divide => some (processor.x / processor.y)
  | .shiftLeft => some (processor.active <<< 1)
  | .shiftRight => some (processor.active >>> 1)
  | .bitAnd => some (processor.active &&& processor.inactive)
  | .bitOr => some (processor.active ||| processor.inactive)
  | .bitXor => some (processor.active ^^^ processor.inactive)
  | .set => some machine.operand
  | .readKey => some (Charset.keyCode machine.terminal.readKey.2)
  | _ => none

@[simp] theorem registers_finish (machine : Machine) (start length : UInt16) :
    (machine.finish start length).processor.registers = machine.processor.registers :=
  Processor.registers_advance _ _ _

variable {machine : Machine}

theorem code_mem_registerWriters (h : machine.computed?.isSome = true) :
    machine.code ∈ Instruction.registerWriters := by
  unfold computed? at h
  split at h
  case h_13 => contradiction
  all_goals
    rename_i hinstruction
    rw [(instruction_eq_iff _ _ (by decide)).mp hinstruction]
    decide

theorem registers_cycle (machine : Machine) :
    machine.cycle.1.processor.registers =
      match machine.computed? with
      | some value => (machine.processor.setActive value).registers
      | none => machine.processor.registers := by
  rw [cycle_fst, registers_finish]
  unfold computed?
  cases machine.instruction <;>
    simp [execute, setActive, mapProcessor, Processor.registers_divide]
  all_goals rfl

theorem x_cycle (machine : Machine) :
    machine.cycle.1.processor.x =
      if machine.processor.flags.selector = 0 then machine.computed?.getD machine.processor.x
      else machine.processor.x := by
  rw [← Processor.fst_registers, registers_cycle]
  cases machine.computed? with
  | some value => simp [Processor.registers_setActive, apply_ite Prod.fst]
  | none => simp

theorem y_cycle (machine : Machine) :
    machine.cycle.1.processor.y =
      if machine.processor.flags.selector = 0 then machine.processor.y
      else machine.computed?.getD machine.processor.y := by
  rw [← Processor.snd_registers, registers_cycle]
  cases machine.computed? with
  | some value => simp [Processor.registers_setActive, apply_ite Prod.snd]
  | none => simp

theorem cycle_of_unhandled (h : ¬ Instruction.IsHandled machine.code) :
    machine.cycle =
      ({ machine with
          processor :=
            { machine.processor with
              pc := machine.processor.pc + 1
              cycles := machine.processor.cycles + 1 }
          clock := machine.clock.tick },
        [.notice (.unhandled machine.code machine.operand machine.processor.pc),
          .notice (.executed "NOP" machine.processor.pc machine.operand)]) := by
  have hcode := Instruction.ofCode?_eq_none_iff.mpr h
  have hinstruction : machine.instruction = .nothing := by rw [instruction, hcode]; rfl
  simp [cycle, announce, hcode, hinstruction, execute, finish, Processor.advance,
    Instruction.length, Instruction.name]

/-- A console shows the warning always, and the instruction that stands in only when it traces. -/
theorem observeAll_cycle_of_unhandled (h : ¬ Instruction.IsHandled machine.code)
    (console : Console) :
    (console.observeAll machine.cycle.2).output = console.output ∧
      (console.observeAll machine.cycle.2).errors =
        console.errors ++
          console.diagnosticForm
            (Notice.unhandled machine.code machine.operand machine.processor.pc).line ++
          if console.trace then
            console.diagnosticForm
              (Notice.executed "NOP" machine.processor.pc machine.operand).line
          else "" := by
  rw [cycle_of_unhandled h]
  constructor
  · rw [Console.output_observeAll]
    simp
  · rw [Console.errors_observeAll]
    cases htrace : console.trace <;>
      simp [Console.diagnosed, Console.shows, Notice.condition, htrace, String.append_assoc]

/-- The frame of a cycle. The register that is not selected keeps its value, and the selected one
changes only under an instruction that computes a value for it. Under a word that is no code nothing
changes but the program counter and the count of cycles, and on any console one warning is shown,
before the line of a trace. -/
theorem frame_of_cycle (machine : Machine) (console : Console) :
    let processor := machine.processor
    let later := machine.cycle.1
    let shown := console.observeAll machine.cycle.2
    (processor.flags.selector = 0 → later.processor.y = processor.y) ∧
      (processor.flags.selector ≠ 0 → later.processor.x = processor.x) ∧
      (later.processor.x ≠ processor.x ∨ later.processor.y ≠ processor.y →
        machine.code ∈ Instruction.registerWriters) ∧
      (¬ Instruction.IsHandled machine.code →
        later.processor.x = processor.x ∧ later.processor.y = processor.y ∧
          later.processor.flags = processor.flags ∧
          later.memory = machine.memory ∧
          later.terminal = machine.terminal ∧
          later.processor.pc = processor.pc + 1 ∧
          later.processor.cycles = processor.cycles + 1 ∧
          shown.output = console.output ∧
          shown.errors =
            console.errors ++
              console.diagnosticForm
                (Notice.unhandled machine.code machine.operand processor.pc).line ++
              if console.trace then
                console.diagnosticForm (Notice.executed "NOP" processor.pc machine.operand).line
              else "") := by
  refine ⟨?_, ?_, ?_, ?_⟩
  · intro hselector
    rw [y_cycle, if_pos hselector]
  · intro hselector
    rw [x_cycle, if_neg hselector]
  · intro hchanged
    apply code_mem_registerWriters
    by_contra hnone
    rw [Bool.not_eq_true, Option.isSome_eq_false_iff, Option.isNone_iff_eq_none] at hnone
    rw [x_cycle, y_cycle, hnone] at hchanged
    simp at hchanged
  · intro hunhandled
    have hcycle := congrArg Prod.fst (cycle_of_unhandled hunhandled)
    rw [hcycle]
    exact ⟨rfl, rfl, rfl, rfl, rfl, rfl, rfl, observeAll_cycle_of_unhandled hunhandled console⟩

/-- A graphics code at the last word of memory, while Y is selected. -/
theorem frame_of_cycle_graphics :
    let machine : Machine :=
      ⟨⟨1, 2, 0xFFFF, ⟨1, 7, 0, 0⟩, 3⟩, Memory.zero.write 0xFFFF 0xF002, .buffer "k", .unthrottled⟩
    ¬ Instruction.IsHandled machine.code ∧ machine.processor.flags.selector ≠ 0 ∧
      machine.cycle.1.processor.x = machine.processor.x ∧
      machine.cycle.1.processor.y = machine.processor.y ∧
      machine.cycle.1.processor.flags = machine.processor.flags ∧
      machine.cycle.1.terminal = machine.terminal ∧
      machine.cycle.1.processor.pc = machine.processor.pc + 1 ∧ machine.processor.pc + 1 = 0 := by
  intro machine
  have hcode : machine.code = 0xF002 := Memory.read_write_self _ _ _
  have hunhandled : ¬ Instruction.IsHandled machine.code := by rw [hcode]; decide
  have hselector : machine.processor.flags.selector ≠ 0 := show (7 : UInt16) ≠ 0 by decide
  obtain ⟨-, hunselected, -, hframe⟩ := frame_of_cycle machine .fresh
  obtain ⟨-, hy, hflags, -, hterminal, hpc, -⟩ := hframe hunhandled
  exact ⟨hunhandled, hselector, hunselected hselector, hy, hflags, hterminal, hpc, by decide⟩

end Machine

end FoxMachine
