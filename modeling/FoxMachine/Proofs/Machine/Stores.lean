import FoxMachine.Proofs.Machine.Halting

namespace FoxMachine

namespace Memory

theorem getElem?_toList (memory : Memory) (address : UInt16) :
    memory.toList[address.toNat]? = some (memory.read address) := by
  have haddress : address.toNat < UInt16.size := address.toNat_lt
  rw [toList, Vector.getElem?_toList, Vector.getElem?_eq_getElem haddress]
  rfl

theorem slice_eq (memory : Memory) {start count : Nat} (h : start + count ≤ UInt16.size) :
    memory.slice start count =
      (List.range count).map fun place => memory.read (start + place).toUInt16 := by
  apply List.ext_getElem?
  intro place
  rw [slice, List.getElem?_take, List.getElem?_drop, List.getElem?_map]
  by_cases hplace : place < count
  · have htoNat : (start + place).toUInt16.toNat = start + place := by
      have hsize : UInt16.size = 65536 := rfl
      exact Nat.mod_eq_of_lt (by omega)
    rw [if_pos hplace, List.getElem?_range hplace, ← htoNat, getElem?_toList]
    rfl
  · rw [if_neg hplace, List.getElem?_eq_none (by simpa using hplace)]
    rfl

end Memory

namespace Machine

/-- What the next cycle puts at a place, if it executes a `WTM` whose operand is the place counted
from one. -/
def storedAt? (machine : Machine) (place : UInt16) : Option UInt16 :=
  if machine.code = 0x02 ∧ machine.operand = place + 1 then some machine.processor.active else none

def loadedAt (words : List UInt16) (place : UInt16) : UInt16 :=
  if place.toNat < min words.length 4096 then words[place.toNat]?.getD 0 else 0

/-- The word at a place behind a run: what was stored there last, or else what was loaded. -/
def wordAt (words : List UInt16) (past : List Machine) (place : UInt16) : UInt16 :=
  (past.findSome? (·.storedAt? place)).getD (loadedAt words place)

theorem read_cycle (place : UInt16) (machine : Machine) :
    machine.cycle.1.memory.read place =
      (machine.storedAt? place).getD (machine.memory.read place) := by
  have hstore : machine.code = 0x02 ↔ machine.instruction = .store :=
    (instruction_eq_iff machine .store (by decide)).symm
  have hcell : machine.operand = place + 1 ↔ cell machine.operand = place :=
    UInt16.sub_eq_iff_eq_add.symm
  rw [memory_cycle]
  simp only [storedAt?, storeCell?, hstore, hcell]
  cases machine.instruction
  case store =>
    by_cases hplace : cell machine.operand = place
    · simp [hplace]
    · simp [hplace, Memory.read_write_of_ne hplace]
  all_goals rfl

theorem read_boot (words : List UInt16) (clock : Clock) (terminal : Terminal) (place : UInt16) :
    (boot words clock terminal).memory.read place = loadedAt words place := by
  have hread := Memory.read_loadFrom .zero 0 (words.take 4096) place
  simp only [Nat.zero_le, if_true, Nat.sub_zero, Memory.read_zero] at hread
  change (Memory.loadFrom .zero 0 (words.take 4096)).read place = _
  rw [hread, loadedAt, List.getElem?_take]
  split <;> grind

theorem read_after_boot (words : List UInt16) (clock : Clock) (terminal : Terminal) (steps : Nat)
    (place : UInt16) :
    ((boot words clock terminal).after steps).memory.read place =
      wordAt words ((boot words clock terminal).executed steps) place := by
  rw [value_after (·.memory.read place) (read_cycle place), read_boot]
  rfl

theorem active_advance (processor : Processor) (start length : UInt16) :
    (processor.advance start length).active = processor.active := by
  unfold Processor.advance
  split <;> rfl

theorem load_cycle {machine : Machine} (hload : machine.code = 0x01) :
    machine.cycle.1.processor.active = machine.memory.read (machine.operand - 1) ∧
      machine.cycle.1.processor.flags = machine.processor.flags := by
  have hinstruction : machine.instruction = .load :=
    (instruction_eq_iff machine .load (by decide)).mpr hload
  rw [cycle_fst, hinstruction]
  constructor
  · exact (active_advance _ _ _).trans (Processor.active_setActive _ _)
  · exact (Processor.flags_advance _ _ _).trans (Processor.flags_setActive _ _)

theorem framebuffer_eq (machine : Machine) :
    machine.framebuffer =
      (List.range 2500).map fun place => machine.memory.read (0xF63C + place.toUInt16) := by
  rw [framebuffer, Memory.slice_eq _ (by decide)]
  apply List.map_congr_left
  intro place _
  rw [Nat.toUInt16, UInt16.ofNat_add]
  rfl

/-- Memory behind any number of steps of a booted machine: each word is the one that was stored
last, or else the one that was loaded. An executed `LFM` takes it from there, into the register that
was active, and so does the screen. -/
theorem memory_of_executed (words : List UInt16) (clock : Clock) (terminal : Terminal)
    (steps : Nat) :
    let start := boot words clock terminal
    let machine := start.after steps
    let word := wordAt words (start.executed steps)
    (∀ place, machine.memory.read place = word place) ∧
      (machine.isHalted = false → machine.code = 0x01 →
        (start.after (steps + 1)).processor.active = word (machine.operand - 1) ∧
          (start.after (steps + 1)).processor.flags = machine.processor.flags) ∧
      machine.framebuffer =
        (List.range 2500).map fun place => word (0xF63C + place.toUInt16) := by
  intro start machine word
  have hread : ∀ place, machine.memory.read place = word place :=
    read_after_boot words clock terminal steps
  refine ⟨hread, ?_, ?_⟩
  · intro hrunning hload
    have hcycle := load_cycle hload
    rwa [hread, ← step_of_running hrunning] at hcycle
  · rw [framebuffer_eq]
    exact List.map_congr_left fun place _ => hread _

end Machine

end FoxMachine
