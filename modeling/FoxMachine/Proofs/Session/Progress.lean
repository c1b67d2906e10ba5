import FoxMachine.Proofs.Machine.Containment
import FoxMachine.Proofs.Session.Halting

namespace FoxMachine

/-!
Programs without loops. Where every jump that is taken leads forwards, each cycle moves the program
counter on by a word at least. The footer keeps the program counter inside the image, so a run
executes no more cycles than the image has words, and the last of them halts it.
-/

namespace Machine

/-- A run that neither stores into an image of some size nor jumps backwards or out of it. The
cycles that count are those that are executed. -/
structure RunsForward (start : Machine) (size : Nat) : Prop where
  store : ∀ steps, (start.after steps).isHalted = false →
    ∀ place ∈ (start.after steps).storeCell?, size ≤ place.toNat
  jump : ∀ steps, (start.after steps).isHalted = false → (start.after steps).takesJump = true →
    (start.after steps).processor.pc < (start.after steps).operand ∧
      (start.after steps).operand.toNat < size

variable {machine start : Machine} {code image : List UInt16}

theorem pc_lt_pc_cycle (hpc : machine.processor.pc.toNat < 4096)
    (hjump : machine.takesJump = true → machine.processor.pc < machine.operand) :
    machine.processor.pc.toNat < machine.cycle.1.processor.pc.toNat := by
  rw [pc_cycle]
  split
  case isTrue hjumps =>
    exact hjump hjumps.1
  case isFalse =>
    rw [toNat_pc_add hpc]
    apply Nat.lt_add_of_pos_right
    rcases machine.instruction.length_eq_one_or_two with hlength | hlength
    all_goals
      rw [hlength]
      decide

structure IsAhead (image : List UInt16) (machine : Machine) : Prop where
  words : machine.memory.StartsWith image
  cycles_le_length : machine.processor.cycles ≤ image.length
  cycles_le_pc : machine.isHalted = false →
    machine.processor.cycles ≤ machine.processor.pc.toNat
  pc_lt_length : machine.isHalted = false → machine.processor.pc.toNat < image.length

theorem isAhead_boot (himage : image = code ++ [0x00, 0x0E]) (hsize : image.length ≤ 4096)
    (clock : Clock) (terminal : Terminal) : (boot image clock terminal).IsAhead image where
  words := startsWith_boot hsize clock terminal
  cycles_le_length := Nat.zero_le _
  cycles_le_pc := fun _ => Nat.zero_le _
  pc_lt_length := by
    intro _
    rw [himage, List.length_append]
    exact Nat.lt_of_lt_of_le Nat.two_pos (Nat.le_add_left _ _)

theorem IsAhead.cycle (hahead : machine.IsAhead image) (hrunning : machine.isHalted = false)
    (himage : image = code ++ [0x00, 0x0E]) (hsize : image.length ≤ 4096)
    (hstore : ∀ place ∈ machine.storeCell?, image.length ≤ place.toNat)
    (hjump : machine.takesJump = true →
      machine.processor.pc < machine.operand ∧ machine.operand.toNat < image.length) :
    machine.cycle.1.IsAhead image := by
  have hpc := hahead.pc_lt_length hrunning
  have hcycles := hahead.cycles_le_pc hrunning
  constructor
  · exact startsWith_cycle hahead.words hstore
  · rw [cycles_cycle]
    omega
  · intro _
    have hon := pc_lt_pc_cycle (Nat.lt_of_lt_of_le hpc hsize) fun htaken => (hjump htaken).1
    rw [cycles_cycle]
    omega
  · intro hnext
    exact pc_cycle_lt_length himage hsize hahead.words hpc (fun htaken => (hjump htaken).2) hnext

theorem isAhead_after {clock : Clock} {terminal : Terminal}
    (himage : image = code ++ [0x00, 0x0E]) (hsize : image.length ≤ 4096)
    (hforward : (boot image clock terminal).RunsForward image.length) (steps : Nat) :
    ((boot image clock terminal).after steps).IsAhead image := by
  apply after_induction
  case start => exact isAhead_boot himage hsize clock terminal
  case cycle =>
    intro earlier _ hrunning hahead
    apply hahead.cycle hrunning himage hsize
    · exact hforward.store earlier hrunning
    · exact hforward.jump earlier hrunning

theorem RunsForward.of_isHalted {size limit : Nat}
    (hhalted : (start.after limit).isHalted = true)
    (hstore : ∀ steps < limit,
      (start.after steps).storeCell?.all (fun place => size ≤ place.toNat) = true)
    (hjump : ∀ steps < limit, (start.after steps).takesJump = true →
      (start.after steps).processor.pc < (start.after steps).operand ∧
        (start.after steps).operand.toNat < size) : start.RunsForward size := by
  have hlt : ∀ steps, (start.after steps).isHalted = false → steps < limit := by
    intro steps hrunning
    by_contra hge
    obtain ⟨rest, rfl⟩ := Nat.exists_eq_add_of_le (Nat.le_of_not_lt hge)
    rw [after_add, after_of_isHalted hhalted, hhalted] at hrunning
    contradiction
  constructor
  · intro steps hrunning place hplace
    have hall := hstore steps (hlt steps hrunning)
    rw [Option.mem_def.mp hplace] at hall
    simpa using hall
  · intro steps hrunning
    exact hjump steps (hlt steps hrunning)

theorem isHalted_after_of_isHalted_after_succ {steps : Nat}
    (hrunning : (start.after (steps + 1)).isHalted = false) :
    (start.after steps).isHalted = false := by
  rw [after_succ] at hrunning
  cases hhalted : (start.after steps).isHalted with
  | false => rfl
  | true => rwa [step_of_isHalted hhalted, hhalted] at hrunning

theorem cycles_after_of_running {steps : Nat} (hrunning : (start.after steps).isHalted = false) :
    (start.after steps).processor.cycles = start.processor.cycles + steps := by
  induction steps with
  | zero => rfl
  | succ steps ih =>
      have hbefore := isHalted_after_of_isHalted_after_succ hrunning
      rw [after_succ, step_of_running hbefore, cycles_cycle, ih hbefore, Nat.add_assoc]

theorem isHalted_after_length {clock : Clock} {terminal : Terminal}
    (himage : image = code ++ [0x00, 0x0E]) (hsize : image.length ≤ 4096)
    (hforward : (boot image clock terminal).RunsForward image.length) :
    ((boot image clock terminal).after image.length).isHalted = true := by
  have hahead := isAhead_after himage hsize hforward image.length
  cases hhalted : ((boot image clock terminal).after image.length).isHalted with
  | true => rfl
  | false =>
      have hcycles := cycles_after_of_running hhalted
      have hpc := hahead.pc_lt_length hhalted
      have hle := hahead.cycles_le_pc hhalted
      have hstart : (boot image clock terminal).processor.cycles = 0 := rfl
      omega

end Machine

namespace Session

variable {code image : List UInt16}

/-- A program that runs forwards halts, whatever is typed, and has executed at most one cycle for
each word of its image when it does. -/
theorem returns_run_of_runsForward (console : Console) (clock : Clock) (terminal : Terminal)
    (himage : image = code ++ [0x00, 0x0E]) (hsize : image.length ≤ 4096)
    (hforward : (Machine.boot image clock terminal).RunsForward image.length) :
    (∃ last, (boot console image clock terminal).Returns .run last) ∧
      ∀ last, (boot console image clock terminal).Returns .run last →
        last.isHalted = true ∧ last.machine.processor.cycles ≤ image.length := by
  constructor
  · apply exists_returns_run_iff.mpr
    exact ⟨image.length, Machine.isHalted_after_length himage hsize hforward⟩
  · intro last hreturns
    refine ⟨hreturns.isHalted_of_run, ?_⟩
    obtain ⟨steps, hsteps⟩ := hreturns.exists_after
    rw [hsteps]
    exact (Machine.isAhead_after himage hsize hforward steps).cycles_le_length

/-- The program stores behind its image and jumps over a word to its last one, `DWR`, which takes
the `NOP` of the footer for its operand. -/
theorem returns_run_of_runsForward_jumping :
    let image := [0x14, 9, 0x02, 0x0100, 0x0A, 7, 0x0C, 0x14] ++ [0x00, 0x0E]
    ∃ last, (boot .fresh image .unthrottled (.buffer "")).Returns .run last ∧
      last.machine.processor.cycles ≤ 10 := by
  intro image
  have hhalted : ((Machine.boot image .unthrottled (.buffer "")).after 5).isHalted = true := by
    decide +kernel
  have hforward : (Machine.boot image .unthrottled (.buffer "")).RunsForward image.length := by
    apply Machine.RunsForward.of_isHalted hhalted
    all_goals decide +kernel
  obtain ⟨⟨last, hreturns⟩, hbound⟩ :=
    returns_run_of_runsForward .fresh .unthrottled (.buffer "") rfl (by decide) hforward
  exact ⟨last, hreturns, (hbound last hreturns).2⟩

end Session

end FoxMachine
