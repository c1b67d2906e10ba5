import FoxMachine.Proofs.Machine.Halting
import FoxMachine.Proofs.Machine.Likeness

namespace FoxMachine

/-- What surrounds a machine. Before each step anything may be done to the console; its settings for
tracing, for minimal output and for colours may be changed, and texts may be printed. -/
structure Surroundings where
  console : Console
  clock : Clock
  terminal : Terminal
  change : Nat → Console → Console

namespace Surroundings

def machine (surroundings : Surroundings) (words : List UInt16) : Machine :=
  Machine.boot words surroundings.clock surroundings.terminal

def session (surroundings : Surroundings) (words : List UInt16) : (steps : Nat) → Session
  | 0 => Session.boot surroundings.console words surroundings.clock surroundings.terminal
  | steps + 1 =>
      let session := surroundings.session words steps
      { session with console := surroundings.change steps session.console }.step

theorem machine_session (surroundings : Surroundings) (words : List UInt16) (steps : Nat) :
    (surroundings.session words steps).machine = (surroundings.machine words).after steps := by
  induction steps with
  | zero => rfl
  | succ steps ih =>
      rw [session, Machine.machine_step, Machine.after_succ, ih]

theorem isHalted_session_succ_iff {surroundings : Surroundings} {words : List UInt16} {steps : Nat}
    (hrunning : (surroundings.session words steps).isHalted = false) :
    (surroundings.session words (steps + 1)).isHalted = true ↔
      (surroundings.session words steps).machine.FetchesHalt := by
  unfold Session.isHalted at hrunning ⊢
  rw [machine_session] at hrunning ⊢
  rw [machine_session, Machine.after_succ, Machine.step_of_running hrunning]
  exact ⟨Machine.fetchesHalt_of_isHalted_cycle hrunning, Machine.isHalted_cycle_of_fetchesHalt⟩

/-- Two sessions of one program whose terminals deliver the same keys. After equally many steps
their machines agree, and the keys that were taken are as many; neither stops but at `HLT`. If no
write has failed in either, the terminals have taken the same text. -/
theorem agree_of_keys_eq (words : List UInt16) {left right : Surroundings}
    (hkeys : left.terminal.keys = right.terminal.keys) (steps : Nat) :
    (left.session words steps).machine.processor = (right.session words steps).machine.processor ∧
      (left.session words steps).machine.memory = (right.session words steps).machine.memory ∧
      (∃ count ≤ left.terminal.keys.length, ∀ surroundings ∈ [left, right],
        (surroundings.session words steps).machine.terminal.keys =
          surroundings.terminal.keys.drop count) ∧
      (∀ surroundings ∈ [left, right], (surroundings.session words steps).isHalted = false →
        ((surroundings.session words (steps + 1)).isHalted = true ↔
          (surroundings.session words steps).machine.FetchesHalt)) ∧
      ((∀ surroundings ∈ [left, right], (surroundings.machine words).LosesNothing steps) →
        ∃ text, ∀ surroundings ∈ [left, right],
          (surroundings.machine words).received steps =
            surroundings.terminal.transcript ++ text) := by
  have hboot : (left.machine words).Alike (right.machine words) :=
    Machine.alike_boot words left.clock right.clock hkeys
  have halike := hboot.after steps
  simp only [machine_session]
  refine ⟨halike.processor, halike.memory, ?_, ?_, ?_⟩
  · obtain ⟨count, hcount, hdrop⟩ := (left.machine words).exists_keys_after steps
    refine ⟨count, hcount, ?_⟩
    simp only [List.forall_mem_cons, List.not_mem_nil, false_imp_iff, implies_true, and_true]
    exact ⟨hdrop, by rw [← halike.keys, hdrop, ← hkeys]; rfl⟩
  · intro surroundings _ hrunning
    rw [← machine_session]
    exact isHalted_session_succ_iff hrunning
  · intro hlosesNothing
    refine ⟨(left.machine words).spoken steps, ?_⟩
    intro surroundings hmem
    rw [Machine.received_eq (hlosesNothing surroundings hmem)]
    have hspoken :
        (surroundings.machine words).spoken steps = (left.machine words).spoken steps := by
      simp only [List.mem_cons, List.not_mem_nil, or_false] at hmem
      rcases hmem with rfl | rfl
      · rfl
      · exact (hboot.spoken steps).symm
    rw [hspoken]
    rfl

/-- A program that reads a key and writes a character: once into a buffer, once onto the console and
once onto a terminal that fails, where the run is traced and its clock ticks once a second. -/
theorem agree_of_keys_eq_failing :
    let words := [0xC002, 0xC000, 0x08, 0x0E]
    let kept : Surroundings := ⟨.fresh, .unthrottled, .buffer "b", fun _ console => console⟩
    let passed : Surroundings := { kept with terminal := .console ['b'] }
    let failing : Surroundings :=
      { console := { Console.fresh with trace := true }
        clock := .ofRate 1
        terminal := { Terminal.buffer "b" with fault? := fun _ => some "gone" }
        change := fun steps console => { console with minimal := steps % 2 == 0 } }
    kept.terminal.keys = failing.terminal.keys ∧
      (kept.session words 3).machine.processor = (failing.session words 3).machine.processor ∧
      ∃ text, (kept.machine words).received 3 = text ∧
        (passed.machine words).received 3 = text := by
  intro words kept passed failing
  have hkeys : kept.terminal.keys = failing.terminal.keys := rfl
  refine ⟨hkeys, (agree_of_keys_eq words hkeys 3).1, ?_⟩
  obtain ⟨_, _, _, _, htext⟩ :=
    agree_of_keys_eq words (show kept.terminal.keys = passed.terminal.keys from rfl) 3
  obtain ⟨text, htext⟩ := htext <| by
    intro surroundings hmem number _ _
    simp only [List.mem_cons, List.not_mem_nil, or_false] at hmem
    rcases hmem with rfl | rfl <;> rfl
  have hkept := htext kept (by simp)
  have hpassed := htext passed (by simp)
  exact ⟨_, rfl, hpassed.trans hkept.symm⟩

end Surroundings

end FoxMachine
