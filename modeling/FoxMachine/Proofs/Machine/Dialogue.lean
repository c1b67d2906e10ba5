import FoxMachine.Proofs.Machine.Effects
import FoxMachine.Proofs.Machine.Halting
import FoxMachine.Proofs.Machine.Stores

namespace FoxMachine

namespace Memory

theorem dump_eq (memory : Memory) :
    memory.dump = String.join ((List.range 65536).map fun place =>
      "$" ++ Text.hex place.toUInt16 ++ " " ++ Text.hex (memory.read place.toUInt16) ++ "\n") := by
  have hsize : UInt16.size = 65536 := rfl
  apply congrArg String.join
  apply List.ext_getElem?
  intro place
  rw [List.getElem?_map, List.getElem?_map, List.getElem?_zipIdx, Nat.zero_add]
  by_cases hplace : place < 65536
  · have htoNat : place.toUInt16.toNat = place := Nat.mod_eq_of_lt hplace
    have hword := memory.getElem?_toList place.toUInt16
    rw [htoNat] at hword
    rw [hword, List.getElem?_range hplace]
    rfl
  · have hlength : memory.toList.length ≤ place := by
      rw [length_toList]
      exact Nat.le_of_not_lt hplace
    rw [List.getElem?_eq_none hlength, List.getElem?_eq_none (by simpa using hplace)]
    rfl

end Memory

namespace Machine

/-- What the next cycle writes: a character for `DBG_LGC`, a line for each word of memory for
`DGB_MEM`, and nothing for any other word. -/
def utterance (machine : Machine) : String :=
  if machine.code = 0xC000 then (Charset.charFor machine.operand).toString
  else if machine.code = 0xC001 then
    String.join ((List.range 65536).map fun place =>
      "$" ++ Text.hex place.toUInt16 ++ " " ++ Text.hex (machine.memory.read place.toUInt16) ++
        "\n")
  else ""

/-- Whether the next cycle executes `DGB_INP`. -/
def ReadsKey (machine : Machine) : Prop :=
  machine.code = 0xC002

instance (machine : Machine) : Decidable machine.ReadsKey :=
  inferInstanceAs (Decidable (machine.code = 0xC002))

def reads (past : List Machine) : Nat :=
  past.countP fun machine => machine.ReadsKey

theorem reads_cons (machine : Machine) (past : List Machine) :
    reads (machine :: past) = reads past + if machine.ReadsKey then 1 else 0 := by
  simp [reads, List.countP_cons]

/-- A program and its terminal behind a past, where the keys are those the terminal started with. -/
structure Converses (keys : List Char) (past : List Machine) (machine : Machine) : Prop where
  output : machine.terminal.transcript = String.join (past.reverse.map utterance)
  pending : machine.terminal.keys = keys.drop (min (reads past) keys.length)
  input : ∀ later reader earlier, past = later ++ reader :: earlier → reader.ReadsKey →
    Charset.Receives keys[reads earlier]? reader.cycle.1.processor.active ∧
      reader.cycle.1.processor.inactive = reader.processor.inactive ∧
      reader.cycle.1.processor.flags = reader.processor.flags

variable {machine : Machine}

theorem getD_written? (machine : Machine) : machine.written?.getD "" = machine.utterance := by
  have hput : machine.code = 0xC000 ↔ machine.instruction = .putCharacter :=
    (instruction_eq_iff machine .putCharacter (by decide)).symm
  have hdump : machine.code = 0xC001 ↔ machine.instruction = .dumpMemory :=
    (instruction_eq_iff machine .dumpMemory (by decide)).symm
  simp only [utterance, hput, hdump, ← Memory.dump_eq, written?]
  cases machine.instruction <;> rfl

theorem keys_cycle (machine : Machine) :
    machine.cycle.1.terminal.keys =
      if machine.ReadsKey then machine.terminal.keys.tail else machine.terminal.keys := by
  have hread : machine.ReadsKey ↔ machine.instruction = .readKey :=
    (instruction_eq_iff machine .readKey (by decide)).symm
  simp only [terminal_cycle, hread, written?]
  cases machine.instruction <;> simp [Terminal.readKey_fst]

theorem inactive_advance (processor : Processor) (start length : UInt16) :
    (processor.advance start length).inactive = processor.inactive := by
  unfold Processor.advance
  split <;> rfl

theorem snd_readKey (terminal : Terminal) : terminal.readKey.2 = terminal.keys.head? := by
  unfold Terminal.readKey
  cases terminal.keys <;> rfl

theorem readKey_cycle (hread : machine.ReadsKey) :
    machine.cycle.1.processor.active = Charset.keyCode machine.terminal.keys.head? ∧
      machine.cycle.1.processor.inactive = machine.processor.inactive ∧
      machine.cycle.1.processor.flags = machine.processor.flags := by
  have hinstruction : machine.instruction = .readKey :=
    (instruction_eq_iff machine .readKey (by decide)).mpr hread
  rw [cycle_fst, hinstruction, ← snd_readKey]
  refine ⟨?_, ?_, ?_⟩
  · exact (active_advance _ _ _).trans (Processor.active_setActive _ _)
  · exact (inactive_advance _ _ _).trans (Processor.inactive_setActive _ _)
  · exact (Processor.flags_advance _ _ _).trans (Processor.flags_setActive _ _)

structure IsKept (machine : Machine) : Prop where
  onConsole : machine.terminal.onConsole = false
  fault? : ∀ number, machine.terminal.fault? number = none

theorem IsKept.cycle (hkept : machine.IsKept) : machine.cycle.1.IsKept where
  onConsole := (onConsole_cycle machine).trans hkept.onConsole
  fault? := fun number => (congrFun (fault?_cycle machine) number).trans (hkept.fault? number)

theorem transcript_cycle (hkept : machine.IsKept) :
    machine.cycle.1.terminal.transcript = machine.terminal.transcript ++ machine.utterance := by
  have htext := (text_cycle fun _ => hkept.fault? machine.terminal.writes).1
  rw [htext, hkept.onConsole, ← getD_written?]
  rfl

theorem isKept_cycled (hkept : machine.IsKept) (cycles : Nat) : (machine.cycled cycles).IsKept := by
  induction cycles with
  | zero => exact hkept
  | succ cycles ih => exact ih.cycle

theorem transcript_cycled (hkept : machine.IsKept) (cycles : Nat) :
    (machine.cycled cycles).terminal.transcript =
      machine.terminal.transcript ++ String.join ((machine.past cycles).reverse.map utterance) := by
  induction cycles with
  | zero => simp [past]
  | succ cycles ih =>
      rw [cycled_succ, transcript_cycle (isKept_cycled hkept cycles), ih, past, List.reverse_cons,
        List.map_append, String.join_append, String.append_assoc]
      simp

theorem keys_cycled (machine : Machine) (cycles : Nat) :
    (machine.cycled cycles).terminal.keys =
      machine.terminal.keys.drop (reads (machine.past cycles)) := by
  induction cycles with
  | zero => rfl
  | succ cycles ih =>
      rw [cycled_succ, keys_cycle, ih, past, reads_cons]
      split
      · exact List.tail_drop
      · rfl

theorem readKey_cycled (machine : Machine) (cycles : Nat) :
    ∀ later reader earlier, machine.past cycles = later ++ reader :: earlier → reader.ReadsKey →
      Charset.Receives machine.terminal.keys[reads earlier]? reader.cycle.1.processor.active ∧
        reader.cycle.1.processor.inactive = reader.processor.inactive ∧
        reader.cycle.1.processor.flags = reader.processor.flags := by
  induction cycles with
  | zero =>
      intro later reader earlier hpast
      simp [past] at hpast
  | succ cycles ih =>
      intro later reader earlier hpast hread
      rw [past] at hpast
      cases later with
      | nil =>
          -- The latest cycle reads, behind all the others.
          obtain ⟨rfl, rfl⟩ := List.cons.inj hpast
          obtain ⟨hactive, hrest⟩ := readKey_cycle hread
          refine ⟨?_, hrest⟩
          rw [hactive, keys_cycled, List.head?_drop]
          exact Charset.receives_keyCode _
      | cons latest later =>
          exact ih later reader earlier (List.cons.inj hpast).2 hread

/-- The dialogue of a program with a terminal of given keys, behind any number of cycles, with or
without a halt among them, and behind any number of steps. -/
theorem converses_of_buffer (memory : Memory) (clock : Clock) (keys : String) :
    let start := fresh memory clock (.buffer keys)
    (∀ cycles, Converses keys.toList (start.past cycles) (start.cycled cycles)) ∧
      ∀ steps, Converses keys.toList (start.executed steps) (start.after steps) := by
  intro start
  have hkept : start.IsKept := ⟨rfl, fun _ => rfl⟩
  have hcycled : ∀ cycles, Converses keys.toList (start.past cycles) (start.cycled cycles) := by
    intro cycles
    constructor
    · rw [transcript_cycled hkept]
      exact String.empty_append
    · rw [keys_cycled]
      rcases Nat.le_total (reads (start.past cycles)) keys.toList.length with hle | hge
      · rw [Nat.min_eq_left hle]
        rfl
      · rw [Nat.min_eq_right hge, List.drop_length]
        exact List.drop_eq_nil_of_le hge
    · exact readKey_cycled start cycles
  refine ⟨hcycled, ?_⟩
  intro steps
  obtain ⟨cycles, hafter, hexecuted⟩ := start.exists_executed_eq_past steps
  rw [hafter, hexecuted]
  exact hcycled cycles

end Machine

end FoxMachine
