import FoxMachine.Image
import FoxMachine.Proofs.Machine.Run

namespace FoxMachine

/-!
Containment of runs by the footer. The words of an image may be read as instructions at any
alignment. No instruction is longer than two words, the last two words of an image are `NOP` and
`HLT`, and so a run that neither overwrites the image nor jumps out of it cannot leave it.
-/

namespace Machine

variable {machine : Machine} {code image : List UInt16}

theorem code_eq_of_footer (himage : image = code ++ [0x00, 0x0E])
    (hwords : machine.memory.StartsWith image) {place : Nat} (hplace : place < 2)
    (hpc : machine.processor.pc.toNat = code.length + place) :
    ([0x00, 0x0E] : List UInt16)[place]? = some machine.code := by
  have hcode := code_eq_of_startsWith hwords (by simp [himage, hpc, hplace])
  rw [himage, hpc, List.getElem?_append_right (Nat.le_add_right _ _)] at hcode
  simpa using hcode

theorem pc_cycle_lt_length (himage : image = code ++ [0x00, 0x0E])
    (hsize : image.length ≤ 4096) (hwords : machine.memory.StartsWith image)
    (hpc : machine.processor.pc.toNat < image.length)
    (hjump : machine.takesJump = true → machine.operand.toNat < image.length)
    (hrunning : machine.cycle.1.isHalted = false) :
    machine.cycle.1.processor.pc.toNat < image.length := by
  have hlength : image.length = code.length + 2 := by simp [himage]
  rw [pc_cycle]
  split
  case isTrue hjumps => exact hjump hjumps.1
  case isFalse =>
    rw [toNat_pc_add (Nat.lt_of_lt_of_le hpc hsize)]
    -- From the last word a cycle halts, from the last but one it moves on by one word, and from
    -- anywhere else two words do not lead beyond the last.
    have hnotLast : machine.processor.pc.toNat ≠ code.length + 1 := by
      intro hlast
      have hcode := code_eq_of_footer himage hwords (by decide : 1 < 2) hlast
      have hhalt : machine.instruction = .halt :=
        instruction_eq_of_code (Option.some.inj hcode).symm
      rw [isHalted_cycle_of_halt hhalt] at hrunning
      contradiction
    by_cases hfooter : machine.processor.pc.toNat = code.length
    · have hcode : ([0x00, 0x0E] : List UInt16)[0]? = some machine.code :=
        code_eq_of_footer himage hwords (by decide) hfooter
      have hnothing : machine.instruction = .nothing :=
        instruction_eq_of_code (Option.some.inj hcode).symm
      have hone : machine.instruction.length.toNat = 1 := by rw [hnothing]; rfl
      omega
    · have htwo : machine.instruction.length.toNat ≤ 2 := by
        rcases machine.instruction.length_eq_one_or_two with h | h <;> simp [h]
      omega

/-- In a run that neither stores into the image nor jumps out of it, every executed cycle starts
inside the image. -/
theorem pc_lt_length_of_footer {steps : Nat} (clock : Clock) (terminal : Terminal)
    (himage : image = code ++ [0x00, 0x0E]) (hsize : image.length ≤ 4096)
    (hstores : ∀ earlier < steps, ∀ place ∈ ((boot image clock terminal).after earlier).storeCell?,
      image.length ≤ place.toNat)
    (hjumps : ∀ earlier < steps, ((boot image clock terminal).after earlier).takesJump = true →
      ((boot image clock terminal).after earlier).operand.toNat < image.length)
    (hrunning : ((boot image clock terminal).after steps).isHalted = false) :
    ((boot image clock terminal).after steps).processor.pc.toNat < image.length := by
  have hstart : (boot image clock terminal).processor.pc.toNat < image.length := by
    rw [himage, List.length_append]
    exact Nat.lt_of_lt_of_le Nat.two_pos (Nat.le_add_left _ _)
  have hinvariant := after_induction
    (motive := fun machine => machine.memory.StartsWith image ∧
      (machine.isHalted = false → machine.processor.pc.toNat < image.length))
    (boot image clock terminal) steps ⟨startsWith_boot hsize clock terminal, fun _ => hstart⟩ <| by
      intro earlier hearlier hexecuted hinside
      obtain ⟨hwords, hpc⟩ := hinside
      refine ⟨startsWith_cycle hwords (hstores earlier hearlier), ?_⟩
      intro hnext
      exact pc_cycle_lt_length himage hsize hwords (hpc hexecuted) (hjumps earlier hearlier) hnext
  exact hinvariant.2 hrunning

/-- The last word of this program, `DWR`, takes the `NOP` of the footer for its operand. -/
theorem pc_lt_length_of_footer_swallowed :
    ((boot [0x0C, 2, 0x14, 0, 0x0E] .unthrottled (.buffer "")).after 2).isHalted = false ∧
      ((boot [0x0C, 2, 0x14, 0, 0x0E] .unthrottled (.buffer "")).after 2).processor.pc.toNat < 5 :=
  have hrunning : ((boot [0x0C, 2, 0x14, 0, 0x0E] .unthrottled (.buffer "")).after 2).isHalted =
      false := by decide +kernel
  have hstores : ∀ earlier < 2,
      ((boot [0x0C, 2, 0x14, 0, 0x0E] .unthrottled (.buffer "")).after earlier).storeCell? =
        none := by decide +kernel
  ⟨hrunning, pc_lt_length_of_footer .unthrottled (.buffer "")
    (show [0x0C, 2, 0x14, 0, 0x0E] = [0x0C, 2, 0x14] ++ [0x00, 0x0E] from rfl) (by decide)
    (by
      intro earlier hearlier place hplace
      rw [hstores earlier hearlier] at hplace
      contradiction)
    (by decide +kernel) hrunning⟩

end Machine

end FoxMachine
