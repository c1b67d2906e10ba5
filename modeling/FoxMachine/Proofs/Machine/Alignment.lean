import FoxMachine.Image
import FoxMachine.Proofs.Machine.Run
import Mathlib.Data.List.Basic

namespace FoxMachine

/-!
Runs that keep to the units of an image. A unit is a code with as many operands as it takes. If the
image is a row of units, every jump leads to the start of one, and the last one halts, then every
cycle starts where a unit starts, for as long as nothing is stored into the image.
-/

namespace Machine

/-- The place in an image at which a unit starts, or at which the image ends. -/
def unitStart (units : List (List UInt16)) (index : Nat) : Nat :=
  (units.take index).flatten.length

section Units

variable {units : List (List UInt16)} {unit : List UInt16} {index : Nat}

theorem unitStart_succ (hunit : units[index]? = some unit) :
    unitStart units (index + 1) = unitStart units index + unit.length := by
  simp [unitStart, List.take_add_one, hunit]

theorem unitStart_le_length (units : List (List UInt16)) (index : Nat) :
    unitStart units index ≤ units.flatten.length := by
  have hsplit : units.flatten = (units.take index).flatten ++ (units.drop index).flatten := by
    rw [← List.flatten_append, List.take_append_drop]
  rw [hsplit, List.length_append]
  exact Nat.le_add_right _ _

theorem getElem?_flatten_unitStart (hunit : units[index]? = some unit) {word : Nat}
    (hword : word < unit.length) : units.flatten[unitStart units index + word]? = unit[word]? := by
  have hdrop : units.drop index = unit :: units.drop (index + 1) := by
    obtain ⟨hindex, hunit'⟩ := List.getElem?_eq_some_iff.mp hunit
    rw [← hunit']
    exact List.drop_eq_getElem_cons hindex
  have hsplit : units.flatten =
      (units.take index).flatten ++ (unit ++ (units.drop (index + 1)).flatten) := by
    rw [← List.flatten_cons, ← hdrop, ← List.flatten_append, List.take_append_drop]
  rw [hsplit, unitStart, List.getElem?_append_right (Nat.le_add_right _ _),
    Nat.add_sub_cancel_left, List.getElem?_append_left hword]

end Units

structure IsProgram (units : List (List UInt16)) : Prop where
  unit : ∀ unit ∈ units, ∃ code operands, unit = code :: operands ∧
    operands.length = Opcode.operandCount code
  target : ∀ code target, [code, target] ∈ units → code = 0x0A ∨ code = 0x0B ∨ code = 0x0C →
    ∃ index < units.length, target.toNat = unitStart units index
  last : units.getLast? = some [0x0E]

variable {units : List (List UInt16)} {machine : Machine} {index : Nat}

theorem IsProgram.length_unit (hprogram : IsProgram units) {unit : List UInt16}
    (hunit : unit ∈ units) : ∃ code, unit.head? = some code ∧
      unit.length = 1 + Opcode.operandCount code := by
  obtain ⟨code, operands, rfl, hoperands⟩ := hprogram.unit unit hunit
  refine ⟨code, rfl, ?_⟩
  rw [List.length_cons, hoperands, Nat.add_comm]

theorem unit_of_pc (hprogram : IsProgram units) (hwords : machine.memory.StartsWith units.flatten)
    (hindex : index < units.length) (hpc : machine.processor.pc.toNat = unitStart units index) :
    ∃ unit, units[index]? = some unit ∧ unit.head? = some machine.code ∧
      unit.length = 1 + Opcode.operandCount machine.code := by
  have hunit : units[index]? = some units[index] := List.getElem?_eq_getElem hindex
  obtain ⟨code, hhead, hlength⟩ := hprogram.length_unit (List.getElem_mem hindex)
  have hplace : units.flatten[machine.processor.pc.toNat]? = some code := by
    rw [hpc, ← Nat.add_zero (unitStart units index), getElem?_flatten_unitStart hunit (by omega),
      ← List.head?_eq_getElem?, hhead]
  have hinside : machine.processor.pc.toNat < units.flatten.length :=
    (List.getElem?_eq_some_iff.mp hplace).1
  rw [code_eq_of_startsWith hwords hinside] at hplace
  obtain rfl := Option.some.inj hplace
  exact ⟨units[index], hunit, hhead, hlength⟩

theorem operand_of_takesJump (hprogram : IsProgram units)
    (hsize : units.flatten.length ≤ 4096) (hwords : machine.memory.StartsWith units.flatten)
    (hindex : index < units.length) (hpc : machine.processor.pc.toNat = unitStart units index)
    (hjump : machine.takesJump = true) :
    ∃ next < units.length, machine.operand.toNat = unitStart units next := by
  obtain ⟨unit, hunit, hhead, hlength⟩ := unit_of_pc hprogram hwords hindex hpc
  have hcode := code_of_takesJump hjump
  have hcount : Opcode.operandCount machine.code = 1 := by
    rcases hcode with hcode | hcode | hcode <;> rw [hcode] <;> rfl
  rw [hcount] at hlength
  obtain ⟨first, target, rfl⟩ := List.length_eq_two.mp hlength
  obtain rfl : first = machine.code := Option.some.inj hhead
  have htarget : units.flatten[machine.processor.pc.toNat + 1]? = some target := by
    rw [hpc]
    exact getElem?_flatten_unitStart hunit (by simp)
  have hinside := (List.getElem?_eq_some_iff.mp htarget).1
  rw [operand_eq_of_startsWith hwords hinside hsize] at htarget
  obtain rfl := Option.some.inj htarget
  exact hprogram.target _ _ (List.mem_of_getElem? hunit) hcode

/-- The step behind alignment: a cycle that starts with a unit, and does not halt the machine, leads
to the start of a unit. -/
theorem pc_cycle_of_unit (hprogram : IsProgram units) (hsize : units.flatten.length ≤ 4096)
    (hwords : machine.memory.StartsWith units.flatten) (hindex : index < units.length)
    (hpc : machine.processor.pc.toNat = unitStart units index)
    (hrunning : machine.cycle.1.isHalted = false) :
    ∃ next < units.length, machine.cycle.1.processor.pc.toNat = unitStart units next := by
  rw [pc_cycle]
  split
  case isTrue hjumps =>
    exact operand_of_takesJump hprogram hsize hwords hindex hpc hjumps.1
  case isFalse =>
    obtain ⟨unit, hunit, hhead, hlength⟩ := unit_of_pc hprogram hwords hindex hpc
    have hnotLast : index + 1 ≠ units.length := by
      intro hlast
      have hunit' := hprogram.last
      rw [List.getLast?_eq_getElem?, ← hlast, Nat.add_sub_cancel, hunit] at hunit'
      obtain rfl := Option.some.inj hunit'
      have hhalt : machine.instruction = .halt :=
        instruction_eq_of_code (Option.some.inj hhead).symm
      rw [isHalted_cycle_of_halt hhalt] at hrunning
      contradiction
    refine ⟨index + 1, by omega, ?_⟩
    have hinside := unitStart_le_length units (index + 1)
    rw [unitStart_succ hunit] at hinside ⊢
    have hbelow : machine.processor.pc.toNat < 4096 := by omega
    rw [toNat_pc_add hbelow, toNat_length_instruction, hpc, hlength]

theorem exists_unitStart_of_running {steps : Nat} {clock : Clock} {terminal : Terminal}
    (hprogram : IsProgram units) (hsize : units.flatten.length ≤ 4096)
    (hstores : ∀ earlier < steps,
      ∀ place ∈ ((boot units.flatten clock terminal).after earlier).storeCell?,
        units.flatten.length ≤ place.toNat)
    (hrunning : ((boot units.flatten clock terminal).after steps).isHalted = false) :
    ((boot units.flatten clock terminal).after steps).memory.StartsWith units.flatten ∧
      ∃ index < units.length,
        ((boot units.flatten clock terminal).after steps).processor.pc.toNat =
          unitStart units index := by
  have hfirst : 0 < units.length := by
    have hne : units ≠ [] := by
      intro hempty
      have hlast := hprogram.last
      rw [hempty] at hlast
      contradiction
    exact List.length_pos_iff.mpr hne
  have hinvariant := after_induction
    (motive := fun machine => machine.memory.StartsWith units.flatten ∧
      (machine.isHalted = false → ∃ index < units.length,
        machine.processor.pc.toNat = unitStart units index))
    (boot units.flatten clock terminal) steps
    ⟨startsWith_boot hsize clock terminal, fun _ => ⟨0, hfirst, rfl⟩⟩ <| by
      intro earlier hearlier hexecuted hunit
      obtain ⟨hwords, hpc⟩ := hunit
      refine ⟨startsWith_cycle hwords (hstores earlier hearlier), ?_⟩
      intro hnext
      obtain ⟨index, hindex, hstart⟩ := hpc hexecuted
      exact pc_cycle_of_unit hprogram hsize hwords hindex hstart hnext
  exact ⟨hinvariant.1, hinvariant.2 hrunning⟩

end Machine

end FoxMachine
