import FoxMachine.Proofs.Machine.Run
import Mathlib.Data.ENat.Lattice

namespace FoxMachine

namespace Processor

@[simp] theorem cycles_divide (processor : Processor) :
    processor.divide.cycles = processor.cycles := by
  unfold divide
  split <;> simp

@[simp] theorem cycles_setEqual (processor : Processor) (condition : Bool) :
    (processor.setEqual condition).cycles = processor.cycles := rfl

@[simp] theorem cycles_jumpIf (condition : Bool) (processor : Processor) (target : UInt16) :
    (jumpIf condition processor target).cycles = processor.cycles := by
  unfold jumpIf
  split <;> rfl

end Processor

namespace Clock

theorem iterate_tick_periodic (period past count : Nat) :
    tick^[count] (periodic period past) = periodic period (past + count) := by
  induction count with
  | zero => rfl
  | succ count ih => rw [Function.iterate_succ_apply', ih, tick_periodic, Nat.add_assoc]

end Clock

namespace Machine

@[simp] theorem cycles_setActive (machine : Machine) (value : UInt16) :
    (machine.setActive value).processor.cycles = machine.processor.cycles :=
  Processor.cycles_setActive _ _

theorem cycles_execute (machine : Machine) (instruction : Instruction) (operand : UInt16) :
    (machine.execute instruction operand).1.processor.cycles = machine.processor.cycles := by
  cases instruction <;> simp [execute, mapProcessor]

theorem clock_execute (machine : Machine) (instruction : Instruction) (operand : UInt16) :
    (machine.execute instruction operand).1.clock = machine.clock := by
  cases instruction <;> rfl

theorem cycles_cycle (machine : Machine) :
    machine.cycle.1.processor.cycles = machine.processor.cycles + 1 := by
  rw [cycle_fst, ← cycles_execute machine machine.instruction machine.operand]
  rfl

theorem clock_cycle (machine : Machine) : machine.cycle.1.clock = machine.clock.tick := by
  rw [cycle_fst, ← clock_execute machine machine.instruction machine.operand]
  rfl

def FetchesHalt (machine : Machine) : Prop :=
  machine.code = 0x0E

instance (machine : Machine) : Decidable machine.FetchesHalt :=
  inferInstanceAs (Decidable (machine.code = 0x0E))

theorem isHalted_cycle_of_fetchesHalt {machine : Machine} (h : machine.FetchesHalt) :
    machine.cycle.1.isHalted = true :=
  isHalted_cycle_of_halt ((instruction_eq_iff _ .halt (by decide)).mpr h)

theorem fetchesHalt_of_isHalted_cycle {machine : Machine} (hrunning : machine.isHalted = false)
    (hhalted : machine.cycle.1.isHalted = true) : machine.FetchesHalt :=
  (instruction_eq_iff _ .halt (by decide)).mp
    (instruction_eq_halt_of_isHalted_cycle hrunning hhalted)

/-- The machine after a number of cycles, whether it has halted meanwhile or not. -/
def cycled (machine : Machine) : (cycles : Nat) → Machine
  | 0 => machine
  | cycles + 1 => (machine.cycled cycles).cycle.1

@[simp] theorem cycled_zero (machine : Machine) : machine.cycled 0 = machine := rfl

theorem cycled_succ (machine : Machine) (cycles : Nat) :
    machine.cycled (cycles + 1) = (machine.cycled cycles).cycle.1 := rfl

theorem cycles_cycled (machine : Machine) (cycles : Nat) :
    (machine.cycled cycles).processor.cycles = machine.processor.cycles + cycles := by
  induction cycles with
  | zero => rfl
  | succ cycles ih => rw [cycled_succ, cycles_cycle, ih, Nat.add_assoc]

theorem clock_cycled (machine : Machine) (cycles : Nat) :
    (machine.cycled cycles).clock = Clock.tick^[cycles] machine.clock := by
  induction cycles with
  | zero => rfl
  | succ cycles ih => rw [cycled_succ, clock_cycle, ih, Function.iterate_succ_apply']

/-- The number of the first cycle that fetches `HLT`, counted from one; infinite if none does. -/
noncomputable def haltingCycle (machine : Machine) : ℕ∞ :=
  sInf {number | ∃ earlier : ℕ, (machine.cycled earlier).FetchesHalt ∧ number = earlier + 1}

variable {machine : Machine} {steps : Nat}

theorem haltingCycle_le (hfetches : (machine.cycled steps).FetchesHalt) :
    machine.haltingCycle ≤ (steps + 1 : ℕ) :=
  sInf_le ⟨steps, hfetches, by push_cast; rfl⟩

theorem exists_of_haltingCycle_eq {number : Nat} (h : machine.haltingCycle = number) :
    ∃ earlier, number = earlier + 1 ∧ (machine.cycled earlier).FetchesHalt := by
  have hsome : Set.Nonempty {number : ℕ∞ |
      ∃ earlier : ℕ, (machine.cycled earlier).FetchesHalt ∧ number = earlier + 1} := by
    by_contra hnone
    rw [haltingCycle, Set.not_nonempty_iff_eq_empty.mp hnone, sInf_empty] at h
    exact ENat.top_ne_natCast number h
  obtain ⟨earlier, hfetches, hnumber⟩ := csInf_mem hsome
  refine ⟨earlier, ?_, hfetches⟩
  rw [← haltingCycle, h] at hnumber
  exact_mod_cast hnumber

theorem isHalted_cycled_of_lt (hrunning : machine.isHalted = false)
    (hlt : (steps : ℕ∞) < machine.haltingCycle) : (machine.cycled steps).isHalted = false := by
  induction steps with
  | zero => exact hrunning
  | succ steps ih =>
      have hbefore := ih (lt_of_le_of_lt (Nat.cast_le.mpr (Nat.le_succ steps)) hlt)
      cases hhalted : (machine.cycled (steps + 1)).isHalted with
      | false => rfl
      | true =>
          have hfetches := fetchesHalt_of_isHalted_cycle hbefore hhalted
          exact absurd (haltingCycle_le hfetches) (not_le_of_gt hlt)

theorem isHalted_cycled_haltingCycle (h : machine.haltingCycle = steps) :
    (machine.cycled steps).isHalted = true := by
  obtain ⟨earlier, rfl, hfetches⟩ := exists_of_haltingCycle_eq h
  exact isHalted_cycle_of_fetchesHalt hfetches

theorem after_eq_cycled (hrunning : machine.isHalted = false)
    (hle : (steps : ℕ∞) ≤ machine.haltingCycle) : machine.after steps = machine.cycled steps := by
  induction steps with
  | zero => rfl
  | succ steps ih =>
      have hlt : (steps : ℕ∞) < machine.haltingCycle :=
        lt_of_lt_of_le (Nat.cast_lt.mpr (Nat.lt_succ_self steps)) hle
      rw [after_succ, ih hlt.le, step_of_running (isHalted_cycled_of_lt hrunning hlt), cycled_succ]

theorem after_of_haltingCycle_le {number : Nat} (hrunning : machine.isHalted = false)
    (h : machine.haltingCycle = number) (hle : number ≤ steps) :
    machine.after steps = machine.cycled number := by
  obtain ⟨rest, rfl⟩ := Nat.exists_eq_add_of_le hle
  have hhalted := isHalted_cycled_haltingCycle h
  rw [← after_eq_cycled hrunning h.ge] at hhalted ⊢
  rw [after_add, after_of_isHalted hhalted]

theorem exists_after_eq_cycled (hrunning : machine.isHalted = false) (steps : Nat) :
    ∃ count : ℕ, (count : ℕ∞) = min (steps : ℕ∞) machine.haltingCycle ∧
      machine.after steps = machine.cycled count := by
  rcases le_total (steps : ℕ∞) machine.haltingCycle with hle | hge
  · exact ⟨steps, (min_eq_left hle).symm, after_eq_cycled hrunning hle⟩
  · obtain ⟨number, hnumber⟩ := ENat.ne_top_iff_exists.mp (ne_top_of_le_ne_top (by simp) hge)
    refine ⟨number, by rw [min_eq_right hge, hnumber], ?_⟩
    rw [← hnumber, Nat.cast_le] at hge
    exact after_of_haltingCycle_le hrunning hnumber.symm hge

theorem isHalted_after_iff (hrunning : machine.isHalted = false) :
    (machine.after steps).isHalted = true ↔ machine.haltingCycle ≤ steps := by
  rcases lt_or_ge (steps : ℕ∞) machine.haltingCycle with hlt | hge
  · rw [after_eq_cycled hrunning hlt.le, isHalted_cycled_of_lt hrunning hlt]
    simpa using hlt
  · obtain ⟨number, hnumber⟩ := ENat.ne_top_iff_exists.mp (ne_top_of_le_ne_top (by simp) hge)
    have hle : number ≤ steps := by
      rwa [← hnumber, Nat.cast_le] at hge
    rw [after_of_haltingCycle_le hrunning hnumber.symm hle,
      isHalted_cycled_haltingCycle hnumber.symm]
    simpa using hge

/-- The machine that so many cycles of another lead to. Its processor and its clock have counted
them. -/
structure HasExecuted (start : Machine) (count : Nat) (machine : Machine) : Prop where
  machine_eq : machine = start.cycled count
  cycles_eq : machine.processor.cycles = count
  clock_eq : machine.clock = Clock.tick^[count] start.clock
  ticks_eq : ∀ period, start.clock = .periodic period 0 → machine.clock.ticks = count

theorem hasExecuted_boot (words : List UInt16) (clock : Clock) (terminal : Terminal) (count : Nat) :
    (boot words clock terminal).HasExecuted count ((boot words clock terminal).cycled count) where
  machine_eq := rfl
  cycles_eq := (cycles_cycled _ count).trans (Nat.zero_add count)
  clock_eq := clock_cycled _ count
  ticks_eq := by
    intro period hclock
    rw [clock_cycled, hclock, Clock.iterate_tick_periodic]
    exact Nat.zero_add count

/-!
The past of a run: the machines that its cycles started with, the latest first. What some cycles
set, and all others keep, is found by looking back for the latest cycle that set it.
-/

/-- The machines that the cycles of a run start with, the latest first. -/
def past (machine : Machine) : (cycles : Nat) → List Machine
  | 0 => []
  | cycles + 1 => machine.cycled cycles :: machine.past cycles

/-- The machines that the cycles executed by a number of steps start with, the latest first. -/
def executed (machine : Machine) : (steps : Nat) → List Machine
  | 0 => []
  | steps + 1 =>
      if (machine.after steps).isHalted then machine.executed steps
      else machine.after steps :: machine.executed steps

theorem exists_executed_eq_past (machine : Machine) (steps : Nat) :
    ∃ cycles, machine.after steps = machine.cycled cycles ∧
      machine.executed steps = machine.past cycles := by
  induction steps with
  | zero => exact ⟨0, rfl, rfl⟩
  | succ steps ih =>
      obtain ⟨cycles, hafter, hexecuted⟩ := ih
      rw [after_succ, executed]
      cases hhalted : (machine.after steps).isHalted with
      | true => exact ⟨cycles, by rw [step_of_isHalted hhalted, hafter], hexecuted⟩
      | false =>
          refine ⟨cycles + 1, ?_, ?_⟩
          · rw [step_of_running hhalted, hafter, cycled_succ]
          · rw [hexecuted, hafter]
            rfl

theorem value_cycled {α : Type} (value : Machine → α) {set? : Machine → Option α}
    (hcycle : ∀ machine, value machine.cycle.1 = (set? machine).getD (value machine))
    (machine : Machine) (cycles : Nat) :
    value (machine.cycled cycles) =
      ((machine.past cycles).findSome? set?).getD (value machine) := by
  induction cycles with
  | zero => rfl
  | succ cycles ih =>
      rw [cycled_succ, hcycle, ih, past, List.findSome?_cons]
      cases set? (machine.cycled cycles) <;> rfl

theorem value_after {α : Type} (value : Machine → α) {set? : Machine → Option α}
    (hcycle : ∀ machine, value machine.cycle.1 = (set? machine).getD (value machine))
    (machine : Machine) (steps : Nat) :
    value (machine.after steps) =
      ((machine.executed steps).findSome? set?).getD (value machine) := by
  obtain ⟨cycles, hafter, hexecuted⟩ := machine.exists_executed_eq_past steps
  rw [hafter, hexecuted]
  exact value_cycled value hcycle machine cycles

end Machine

end FoxMachine
