import FoxMachine.Proofs.Machine.Cycle
import FoxMachine.Session

namespace FoxMachine

namespace Memory

def StartsWith (memory : Memory) (words : List UInt16) : Prop :=
  ∀ address : UInt16, address.toNat < words.length →
    words[address.toNat]? = some (memory.read address)

theorem startsWith_load (memory : Memory) (words : List UInt16) :
    (memory.load 0 words).StartsWith words := by
  intro address haddress
  have hread : (memory.load 0 words).read address =
      words[address.toNat]?.getD (memory.read address) := by
    simpa [load] using read_loadFrom memory 0 words address
  rw [hread, List.getElem?_eq_getElem haddress]
  rfl

theorem StartsWith.write {memory : Memory} {words : List UInt16}
    (hwords : memory.StartsWith words) {place : UInt16} (hplace : words.length ≤ place.toNat)
    (value : UInt16) : (memory.write place value).StartsWith words := by
  intro address haddress
  have hne : place ≠ address := by
    rintro rfl
    omega
  rw [read_write_of_ne hne]
  exact hwords address haddress

end Memory

namespace Machine

def after (machine : Machine) : (steps : Nat) → Machine
  | 0 => machine
  | steps + 1 => (machine.after steps).step.1

@[simp] theorem after_zero (machine : Machine) : machine.after 0 = machine := rfl

theorem after_succ (machine : Machine) (steps : Nat) :
    machine.after (steps + 1) = (machine.after steps).step.1 := rfl

theorem after_succ' (machine : Machine) (steps : Nat) :
    machine.after (steps + 1) = machine.step.1.after steps := by
  induction steps with
  | zero => rfl
  | succ steps ih => rw [after_succ, ih, after_succ]

theorem after_add (machine : Machine) (first second : Nat) :
    machine.after (first + second) = (machine.after first).after second := by
  induction second with
  | zero => rfl
  | succ second ih => rw [← Nat.add_assoc, after_succ, ih, after_succ]

theorem step_of_isHalted {machine : Machine} (h : machine.isHalted = true) :
    machine.step = (machine, []) := by
  simp [step, h]

theorem step_of_running {machine : Machine} (h : machine.isHalted = false) :
    machine.step = machine.cycle := by
  simp [step, h]

theorem after_of_isHalted {machine : Machine} (h : machine.isHalted = true) (steps : Nat) :
    machine.after steps = machine := by
  induction steps with
  | zero => rfl
  | succ steps ih => rw [after_succ, ih, step_of_isHalted h]

/-- What holds at the start of a run, and is kept by the cycles that are executed, holds at its
end. -/
theorem after_induction {motive : Machine → Prop} (machine : Machine) (steps : Nat)
    (start : motive machine)
    (cycle : ∀ earlier < steps, (machine.after earlier).isHalted = false →
      motive (machine.after earlier) → motive (machine.after earlier).cycle.1) :
    motive (machine.after steps) := by
  induction steps with
  | zero => exact start
  | succ steps ih =>
      have hmotive := ih fun earlier hearlier => cycle earlier (Nat.lt_succ_of_lt hearlier)
      rw [after_succ]
      cases hhalted : (machine.after steps).isHalted with
      | true => rwa [step_of_isHalted hhalted]
      | false =>
          rw [step_of_running hhalted]
          exact cycle steps (Nat.lt_succ_self steps) hhalted hmotive

theorem machine_step (session : Session) : session.step.machine = session.machine.step.1 := rfl

theorem machine_repeatUntilHalted (limit : Nat) (session : Session) :
    (session.repeatUntilHalted Session.step limit).machine = session.machine.after limit := by
  induction limit generalizing session with
  | zero => rfl
  | succ limit ih =>
      rw [after_succ', ← machine_step, Session.repeatUntilHalted]
      split
      · rename_i hhalted
        exact (after_of_isHalted hhalted limit).symm
      · exact ih session.step

theorem toNat_pc_add {machine : Machine} (hpc : machine.processor.pc.toNat < 4096)
    (instruction : Instruction) :
    (machine.processor.pc + instruction.length).toNat =
      machine.processor.pc.toNat + instruction.length.toNat := by
  rw [UInt16.toNat_add]
  rcases instruction.length_eq_one_or_two with hlength | hlength
  all_goals
    rw [hlength]
    exact Nat.mod_eq_of_lt (by simp; omega)

theorem startsWith_boot {words : List UInt16} (hsize : words.length ≤ 4096) (clock : Clock)
    (terminal : Terminal) : (boot words clock terminal).memory.StartsWith words := by
  have hload := Memory.startsWith_load .zero (words.take 4096)
  simpa [boot, fresh, loadLimit, List.take_of_length_le hsize] using hload

theorem startsWith_cycle {machine : Machine} {words : List UInt16}
    (hwords : machine.memory.StartsWith words)
    (hstore : ∀ place, machine.storeCell? = some place → words.length ≤ place.toNat) :
    machine.cycle.1.memory.StartsWith words := by
  rw [memory_cycle]
  cases hcell : machine.storeCell? with
  | none => exact hwords
  | some place => exact hwords.write (hstore place hcell) _

theorem code_eq_of_startsWith {machine : Machine} {words : List UInt16}
    (hwords : machine.memory.StartsWith words) (hpc : machine.processor.pc.toNat < words.length) :
    words[machine.processor.pc.toNat]? = some machine.code :=
  hwords _ hpc

theorem operand_eq_of_startsWith {machine : Machine} {words : List UInt16}
    (hwords : machine.memory.StartsWith words)
    (hpc : machine.processor.pc.toNat + 1 < words.length)
    (hsize : words.length ≤ 4096) :
    words[machine.processor.pc.toNat + 1]? = some machine.operand := by
  have hnext : (machine.processor.pc + 1).toNat = machine.processor.pc.toNat + 1 := by
    rw [UInt16.toNat_add]
    exact Nat.mod_eq_of_lt (by simp; omega)
  have hne : machine.processor.pc ≠ 0xFFFF := by
    intro heq
    rw [heq] at hpc
    simp at hpc
    omega
  rw [operand, if_neg hne, ← hnext]
  exact hwords _ (by omega)

end Machine

end FoxMachine
