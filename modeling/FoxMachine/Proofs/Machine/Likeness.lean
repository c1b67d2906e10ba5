import FoxMachine.Proofs.Machine.Effects

namespace FoxMachine

namespace Machine

/-- All that a program can tell of two machines is the same. -/
structure Alike (left right : Machine) : Prop where
  processor : left.processor = right.processor
  memory : left.memory = right.memory
  keys : left.terminal.keys = right.terminal.keys

variable {left right : Machine}

theorem alike_boot (words : List UInt16) (leftClock rightClock : Clock)
    {leftTerminal rightTerminal : Terminal} (hkeys : leftTerminal.keys = rightTerminal.keys) :
    (boot words leftClock leftTerminal).Alike (boot words rightClock rightTerminal) :=
  ⟨rfl, rfl, hkeys⟩

namespace Alike

theorem isHalted (h : left.Alike right) : left.isHalted = right.isHalted :=
  congrArg Processor.isHalted h.processor

theorem code (h : left.Alike right) : left.code = right.code := by
  rw [Machine.code, Machine.code, h.memory, h.processor]

theorem operand (h : left.Alike right) : left.operand = right.operand := by
  rw [Machine.operand, Machine.operand, h.memory, h.processor]

theorem instruction (h : left.Alike right) : left.instruction = right.instruction := by
  rw [Machine.instruction, Machine.instruction, h.code]

theorem written? (h : left.Alike right) : left.written? = right.written? := by
  rw [Machine.written?, Machine.written?, h.instruction, h.operand, h.memory]

/-- Of the instructions, two touch the terminal beside its keys, and what the terminal makes of them
comes back to neither the processor nor memory. -/
theorem execute (h : left.Alike right) (instruction : Instruction) (operand : UInt16) :
    (left.execute instruction operand).1.Alike (right.execute instruction operand).1 := by
  obtain ⟨processor, memory, leftTerminal, leftClock⟩ := left
  obtain ⟨_, _, rightTerminal, rightClock⟩ := right
  obtain ⟨hprocessor, hmemory, hkeys⟩ := h
  dsimp only at hprocessor hmemory hkeys
  subst hprocessor hmemory
  cases instruction
  case putCharacter =>
    exact ⟨rfl, rfl, by simp [Machine.execute, put, hkeys]⟩
  case dumpMemory =>
    exact ⟨rfl, rfl, by simp [Machine.execute, put, hkeys]⟩
  case readKey =>
    have hkey : leftTerminal.readKey.2 = rightTerminal.readKey.2 := by
      rw [Terminal.readKey, Terminal.readKey, hkeys]
      cases rightTerminal.keys <;> rfl
    refine ⟨?_, rfl, ?_⟩
    · simp [Machine.execute, setActive, mapProcessor, hkey]
    · simp [Machine.execute, setActive, mapProcessor, Terminal.readKey_fst, hkeys]
  all_goals exact ⟨rfl, rfl, hkeys⟩

theorem cycle (h : left.Alike right) : left.cycle.1.Alike right.cycle.1 := by
  rw [cycle_fst, cycle_fst, h.instruction, h.operand, h.processor]
  obtain ⟨hprocessor, hmemory, hkeys⟩ := h.execute right.instruction right.operand
  refine ⟨?_, hmemory, hkeys⟩
  simp only [finish, hprocessor]

theorem step (h : left.Alike right) : left.step.1.Alike right.step.1 := by
  cases hhalted : right.isHalted with
  | true =>
      rw [step_of_isHalted hhalted, step_of_isHalted (h.isHalted.trans hhalted)]
      exact h
  | false =>
      rw [step_of_running hhalted, step_of_running (h.isHalted.trans hhalted)]
      exact h.cycle

theorem after (h : left.Alike right) (steps : Nat) :
    (left.after steps).Alike (right.after steps) := by
  induction steps with
  | zero => exact h
  | succ steps ih =>
      rw [after_succ, after_succ]
      exact ih.step

theorem spoken (h : left.Alike right) (steps : Nat) : left.spoken steps = right.spoken steps := by
  induction steps with
  | zero => rfl
  | succ steps ih =>
      rw [Machine.spoken, Machine.spoken, ih, (h.after steps).isHalted, (h.after steps).written?]

end Alike

theorem keys_cycle_suffix (machine : Machine) :
    machine.cycle.1.terminal.keys <:+ machine.terminal.keys := by
  rw [terminal_cycle]
  split
  · simp
  · split
    · rw [Terminal.readKey_fst]
      exact List.tail_suffix _
    · exact List.suffix_refl _

theorem keys_after_suffix (machine : Machine) (steps : Nat) :
    (machine.after steps).terminal.keys <:+ machine.terminal.keys :=
  after_induction (motive := fun later => later.terminal.keys <:+ machine.terminal.keys)
    machine steps (List.suffix_refl _) fun earlier _ _ h =>
      (keys_cycle_suffix (machine.after earlier)).trans h

theorem exists_keys_after (machine : Machine) (steps : Nat) :
    ∃ count ≤ machine.terminal.keys.length,
      (machine.after steps).terminal.keys = machine.terminal.keys.drop count :=
  ⟨_, Nat.sub_le _ _, List.suffix_iff_eq_drop.mp (keys_after_suffix machine steps)⟩

end Machine

end FoxMachine
