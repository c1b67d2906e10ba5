import FoxMachine.Proofs.Machine.Cycle

namespace FoxMachine

namespace Machine

/-- Whether the next cycle fetches a jump and takes it: `JMP`, `JPZ` while the flag for comparisons
is zero, or `JNZ` while it is not. -/
def FetchesTakenJump (machine : Machine) : Prop :=
  machine.code = 0x0C ∨
    machine.code = 0x0A ∧ machine.processor.flags.equal = 0 ∨
    machine.code = 0x0B ∧ machine.processor.flags.equal ≠ 0

instance (machine : Machine) : Decidable machine.FetchesTakenJump :=
  inferInstanceAs (Decidable (machine.code = 0x0C ∨
    machine.code = 0x0A ∧ machine.processor.flags.equal = 0 ∨
    machine.code = 0x0B ∧ machine.processor.flags.equal ≠ 0))

variable {machine : Machine}

theorem fetchesTakenJump_iff : machine.FetchesTakenJump ↔ machine.takesJump = true := by
  have hjump : machine.code = 0x0C ↔ machine.instruction = .jump :=
    (instruction_eq_iff machine .jump (by decide)).symm
  have hunless : machine.code = 0x0A ↔ machine.instruction = .jumpUnlessEqual :=
    (instruction_eq_iff machine .jumpUnlessEqual (by decide)).symm
  have hif : machine.code = 0x0B ↔ machine.instruction = .jumpIfEqual :=
    (instruction_eq_iff machine .jumpIfEqual (by decide)).symm
  simp only [FetchesTakenJump, hjump, hunless, hif, takesJump]
  cases machine.instruction <;> simp

theorem length_of_takesJump (h : machine.takesJump = true) : machine.instruction.length = 2 := by
  unfold takesJump at h
  split at h <;> simp_all [Instruction.length]

theorem length_instruction (machine : Machine) :
    machine.instruction.length = 1 + (Opcode.operandCount machine.code).toUInt16 := by
  rw [← UInt16.toNat_inj, toNat_length_instruction]
  rcases Nat.le_one_iff_eq_zero_or_eq_one.mp (Opcode.operandCount_le_one machine.code)
    with hcount | hcount
  · rw [hcount]
    rfl
  · rw [hcount]
    rfl

/-- A taken jump leads to its operand if and only if it does not lead to itself. -/
theorem pc_of_takenJump (h : machine.FetchesTakenJump) :
    (machine.cycle.1.processor.pc =
      if machine.operand = machine.processor.pc then machine.processor.pc + 2
      else machine.operand) ∧
    (machine.cycle.1.processor.pc = machine.operand ↔ machine.operand ≠ machine.processor.pc) := by
  have hjump := fetchesTakenJump_iff.mp h
  have hpc : machine.cycle.1.processor.pc =
      if machine.operand = machine.processor.pc then machine.processor.pc + 2
      else machine.operand := by
    rw [pc_cycle, length_of_takesJump hjump]
    simp only [hjump, true_and, ne_eq, ite_not]
  refine ⟨hpc, ?_⟩
  rw [hpc]
  by_cases hself : machine.operand = machine.processor.pc
  · have hmoved : machine.processor.pc + 2 ≠ machine.processor.pc := by simp
    simp [hself, hmoved]
  · simp [hself]

/-- A jump to itself at the start of memory, and one that leads on. -/
theorem pc_of_takenJump_both :
    let self := boot [0x0C, 0] .unthrottled (.buffer "")
    let onward := boot [0x0A, 5] .unthrottled (.buffer "")
    self.FetchesTakenJump ∧ self.cycle.1.processor.pc = 2 ∧
      onward.FetchesTakenJump ∧ onward.cycle.1.processor.pc = 5 := by
  intro self onward
  have hself : self.FetchesTakenJump := by decide +kernel
  have honward : onward.FetchesTakenJump := by decide +kernel
  have hoperand : self.operand = self.processor.pc := by decide +kernel
  have hfive : onward.operand = 5 := by decide +kernel
  refine ⟨hself, ?_, honward, ?_⟩
  · rw [(pc_of_takenJump hself).1, if_pos hoperand]
    rfl
  · rw [(pc_of_takenJump honward).1, hfive]
    rfl

/-- The jump leads to address zero, where it stands, and yet the cycle does not end there. -/
theorem pc_ne_operand_of_selfJump :
    let machine := boot [0x0C, 0] .unthrottled (.buffer "")
    machine.FetchesTakenJump ∧ machine.operand = 0 ∧ machine.cycle.1.processor.pc = 2 ∧
      machine.cycle.1.processor.pc ≠ machine.operand := by
  decide +kernel

/-- The processor and the instruction table agree on how long instructions are, also for words that
are no codes, at the end of memory, and where a store replaces the instruction that executes it. -/
theorem pc_of_not_takenJump (h : ¬ machine.FetchesTakenJump) :
    machine.cycle.1.processor.pc =
      machine.processor.pc + 1 + (Opcode.operandCount machine.code).toUInt16 := by
  have hjump : ¬ machine.takesJump = true := fun htakes => h (fetchesTakenJump_iff.mpr htakes)
  rw [pc_cycle, if_neg fun hjumps => hjump hjumps.1, length_instruction, UInt16.add_assoc]

/-- At the last word of memory a `WTM` without an operand puts X in its own place. -/
theorem pc_of_not_takenJump_overwritten :
    let machine : Machine :=
      ⟨⟨0x0E, 0, 0xFFFF, .clear, 0⟩, Memory.zero.write 0xFFFF 0x02, .buffer "", .unthrottled⟩
    ¬ machine.FetchesTakenJump ∧ machine.cycle.1.memory.read 0xFFFF = 0x0E ∧
      machine.cycle.1.processor.pc = 1 := by
  intro machine
  have hcode : machine.code = 0x02 := Memory.read_write_self _ _ _
  have hstore : machine.instruction = .store := instruction_eq_of_code hcode
  have hjump : ¬ machine.FetchesTakenJump := by simp [FetchesTakenJump, hcode]
  refine ⟨hjump, ?_, ?_⟩
  · rw [memory_cycle, storeCell?, hstore]
    exact Memory.read_write_self _ _ _
  · rw [pc_of_not_takenJump hjump, hcode]
    decide

end Machine

end FoxMachine
