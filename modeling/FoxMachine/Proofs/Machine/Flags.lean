import FoxMachine.Proofs.Machine.Halting

namespace FoxMachine

namespace Machine

def sinceClear (past : List Machine) : List Machine :=
  past.takeWhile fun machine => machine.code != 0x0D

/-- What the next cycle finds, if it executes a comparison, `EQU` or `LEQ`. -/
def comparison? (machine : Machine) : Option Bool :=
  if machine.code = 0x08 then some (machine.processor.x == machine.processor.y)
  else if machine.code = 0x09 then some (machine.processor.x < machine.processor.y)
  else none

def selection? (machine : Machine) : Option UInt16 :=
  if machine.code = 0x03 then some machine.operand else none

def DividesByZero (machine : Machine) : Prop :=
  machine.code = 0x07 ∧ machine.processor.y = 0

instance (machine : Machine) : Decidable machine.DividesByZero :=
  inferInstanceAs (Decidable (machine.code = 0x07 ∧ machine.processor.y = 0))

theorem flags_divide (processor : Processor) :
    processor.divide.flags =
      if processor.y = 0 then { processor.flags with divideByZero := 1 } else processor.flags := by
  unfold Processor.divide
  split <;> simp

theorem flags_cycle (machine : Machine) :
    machine.cycle.1.processor.flags =
      match machine.instruction with
      | .select => { machine.processor.flags with selector := machine.operand }
      | .divide =>
          if machine.processor.y = 0 then { machine.processor.flags with divideByZero := 1 }
          else machine.processor.flags
      | .compareEqual =>
          { machine.processor.flags with
            equal := Flags.ofBool (machine.processor.x == machine.processor.y) }
      | .compareLess =>
          { machine.processor.flags with
            equal := Flags.ofBool (machine.processor.x < machine.processor.y) }
      | .clearFlags => .clear
      | .halt => { machine.processor.flags with halt := 1 }
      | _ => machine.processor.flags := by
  rw [cycle_fst]
  unfold finish
  rw [Processor.flags_advance]
  cases machine.instruction <;> simp [execute, mapProcessor, flags_divide, Processor.setEqual]

section Flag

variable {flag : Flags → UInt16} {written? : Machine → Option UInt16}

/-- Looking back for the latest cycle that wrote a flag, one looks no further than the last `CLR`.
-/
theorem findSome?_sinceClear (past : List Machine) :
    (past.findSome? fun machine =>
      if machine.code = 0x0D then some 0 else written? machine).getD 0 =
      ((sinceClear past).findSome? written?).getD 0 := by
  induction past with
  | nil => rfl
  | cons machine past ih =>
      rw [sinceClear, List.findSome?_cons, List.takeWhile_cons]
      by_cases hclear : machine.code = 0x0D
      · simp [hclear]
      · simp only [hclear, if_false, bne_iff_ne, ne_eq, not_false_eq_true, if_true,
          List.findSome?_cons]
        cases written? machine with
        | none => exact ih
        | some value => rfl

theorem flag_cycled (hclear : flag .clear = 0)
    (hcycle : ∀ machine, flag machine.cycle.1.processor.flags =
      if machine.code = 0x0D then 0 else (written? machine).getD (flag machine.processor.flags))
    (memory : Memory) (clock : Clock) (terminal : Terminal) (cycles : Nat) :
    flag ((fresh memory clock terminal).cycled cycles).processor.flags =
      ((sinceClear ((fresh memory clock terminal).past cycles)).findSome? written?).getD 0 := by
  have hset : ∀ machine : Machine, flag machine.cycle.1.processor.flags =
      (if machine.code = 0x0D then some 0 else written? machine).getD
        (flag machine.processor.flags) := by
    intro machine
    rw [hcycle]
    split <;> rfl
  have hstart : flag (fresh memory clock terminal).processor.flags = 0 := hclear
  rw [value_cycled (fun machine => flag machine.processor.flags) hset, hstart,
    findSome?_sinceClear]

theorem findSome?_ite {sets : Machine → Prop} [DecidablePred sets] (past : List Machine) :
    (past.findSome? fun machine => if sets machine then some (1 : UInt16) else none).getD 0 =
      if ∃ machine ∈ past, sets machine then 1 else 0 := by
  induction past with
  | nil => simp
  | cons machine past ih =>
      rw [List.findSome?_cons]
      by_cases hsets : sets machine
      · simp [hsets]
      · simpa [hsets] using ih

end Flag

theorem code_eq_clearFlags_iff (machine : Machine) :
    machine.code = 0x0D ↔ machine.instruction = .clearFlags :=
  (instruction_eq_iff machine .clearFlags (by decide)).symm

theorem equal_cycle (machine : Machine) :
    machine.cycle.1.processor.flags.equal =
      if machine.code = 0x0D then 0
      else ((comparison? machine).map Flags.ofBool).getD machine.processor.flags.equal := by
  have hequal : machine.code = 0x08 ↔ machine.instruction = .compareEqual :=
    (instruction_eq_iff machine .compareEqual (by decide)).symm
  have hless : machine.code = 0x09 ↔ machine.instruction = .compareLess :=
    (instruction_eq_iff machine .compareLess (by decide)).symm
  simp only [flags_cycle, comparison?, code_eq_clearFlags_iff, hequal, hless]
  cases machine.instruction <;> simp [Flags.clear]
  case divide => split <;> rfl

theorem selector_cycle (machine : Machine) :
    machine.cycle.1.processor.flags.selector =
      if machine.code = 0x0D then 0
      else (selection? machine).getD machine.processor.flags.selector := by
  have hselect : machine.code = 0x03 ↔ machine.instruction = .select :=
    (instruction_eq_iff machine .select (by decide)).symm
  simp only [flags_cycle, selection?, code_eq_clearFlags_iff, hselect]
  cases machine.instruction <;> simp [Flags.clear]
  case divide => split <;> rfl

theorem divideByZero_cycle (machine : Machine) :
    machine.cycle.1.processor.flags.divideByZero =
      if machine.code = 0x0D then 0
      else (if machine.DividesByZero then some 1 else none).getD
        machine.processor.flags.divideByZero := by
  have hdivide : machine.code = 0x07 ↔ machine.instruction = .divide :=
    (instruction_eq_iff machine .divide (by decide)).symm
  simp only [flags_cycle, DividesByZero, code_eq_clearFlags_iff, hdivide]
  cases machine.instruction <;> simp [Flags.clear]
  case divide => split <;> rfl

theorem halt_cycle (machine : Machine) :
    machine.cycle.1.processor.flags.halt =
      if machine.code = 0x0D then 0
      else (if machine.FetchesHalt then some 1 else none).getD
        machine.processor.flags.halt := by
  have hhalt : machine.code = 0x0E ↔ machine.instruction = .halt :=
    (instruction_eq_iff machine .halt (by decide)).symm
  simp only [flags_cycle, FetchesHalt, code_eq_clearFlags_iff, hhalt]
  cases machine.instruction <;> simp [Flags.clear]
  case divide => split <;> rfl

/-- The flags of a processor that has executed any number of cycles, with or without a halt among
them, from its reset on. -/
theorem flags_of_sinceClear (memory : Memory) (clock : Clock) (terminal : Terminal) (cycles : Nat) :
    let start := fresh memory clock terminal
    let flags := (start.cycled cycles).processor.flags
    let recent := sinceClear (start.past cycles)
    (flags.equal = if (recent.findSome? comparison?).getD false then 1 else 0) ∧
      flags.selector = (recent.findSome? selection?).getD 0 ∧
      (flags.divideByZero = if ∃ machine ∈ recent, machine.DividesByZero then 1 else 0) ∧
      flags.halt = if ∃ machine ∈ recent, machine.FetchesHalt then 1 else 0 := by
  intro start flags recent
  refine ⟨?_, ?_, ?_, ?_⟩
  · have hequal : flags.equal = ((recent.findSome? comparison?).map Flags.ofBool).getD 0 := by
      rw [List.map_findSome?]
      exact flag_cycled rfl equal_cycle memory clock terminal cycles
    rw [hequal]
    cases recent.findSome? comparison? <;> rfl
  · exact flag_cycled rfl selector_cycle memory clock terminal cycles
  · rw [← findSome?_ite]
    exact flag_cycled rfl divideByZero_cycle memory clock terminal cycles
  · rw [← findSome?_ite]
    exact flag_cycled rfl halt_cycle memory clock terminal cycles

end Machine

end FoxMachine
