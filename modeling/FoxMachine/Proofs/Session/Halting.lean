import FoxMachine.Proofs.Machine.Halting
import FoxMachine.Session

namespace FoxMachine

namespace Session

inductive Call where
  | step
  | run
deriving DecidableEq, Repr

/-- What a call makes of a session. A run makes nothing of it if the machine never halts. -/
def Returns (session : Session) : Call → Session → Prop
  | .step, session' => session' = session.step
  | .run, session' => ∃ limit, session.run? limit = some session'

/-- What calls that all return make of a session, one after the other. -/
inductive Serves : Session → List Call → Session → Prop
  | nil (session : Session) : Serves session [] session
  | cons {session next last : Session} {call : Call} {calls : List Call}
      (hreturns : session.Returns call next) (hrest : Serves next calls last) :
      Serves session (call :: calls) last

variable {session session' : Session}

theorem machine_iterate_step (session : Session) (steps : Nat) :
    (Session.step^[steps] session).machine = session.machine.after steps := by
  induction steps generalizing session with
  | zero => rfl
  | succ steps ih =>
      rw [Function.iterate_succ_apply, ih, Machine.machine_step, Machine.after_succ']

theorem run?_eq_some_iff {limit : Nat} :
    session.run? limit = some session' ↔
      (session.machine.after limit).isHalted = true ∧
        session' = (session.repeatUntilHalted Session.step limit).conclude := by
  rw [← Machine.machine_repeatUntilHalted, run?, Option.ite_none_right_eq_some, Option.some_inj,
    eq_comm (a := session')]
  rfl

theorem machine_of_run? {limit : Nat} (h : session.run? limit = some session') :
    session'.machine = session.machine.after limit := by
  obtain ⟨_, rfl⟩ := run?_eq_some_iff.mp h
  exact Machine.machine_repeatUntilHalted limit session

theorem exists_returns_run_iff :
    (∃ session', session.Returns .run session') ↔
      ∃ steps, (session.machine.after steps).isHalted = true := by
  constructor
  · intro h
    obtain ⟨session', limit, hrun⟩ := h
    exact ⟨limit, (run?_eq_some_iff.mp hrun).1⟩
  · intro h
    obtain ⟨limit, hhalted⟩ := h
    exact ⟨_, limit, run?_eq_some_iff.mpr ⟨hhalted, rfl⟩⟩

theorem Returns.exists_after {call : Call} (h : session.Returns call session') :
    ∃ steps, session'.machine = session.machine.after steps := by
  cases call with
  | step =>
      subst h
      exact ⟨1, rfl⟩
  | run =>
      obtain ⟨limit, hrun⟩ := h
      exact ⟨limit, machine_of_run? hrun⟩

theorem Returns.isHalted_of_run (h : session.Returns .run session') :
    session'.machine.isHalted = true := by
  obtain ⟨limit, hrun⟩ := h
  rw [machine_of_run? hrun]
  exact (run?_eq_some_iff.mp hrun).1

theorem Serves.exists_after {calls : List Call} (h : Serves session calls session') :
    ∃ steps, session'.machine = session.machine.after steps := by
  induction h with
  | nil session => exact ⟨0, rfl⟩
  | cons hreturns _ ih =>
      obtain ⟨first, hfirst⟩ := hreturns.exists_after
      obtain ⟨rest, hrest⟩ := ih
      exact ⟨first + rest, by rw [hrest, hfirst, Machine.after_add]⟩

theorem Serves.machine_eq_of_isHalted {calls : List Call} (h : Serves session calls session')
    (hhalted : session.machine.isHalted = true) : session'.machine = session.machine := by
  obtain ⟨steps, hsteps⟩ := h.exists_after
  rw [hsteps, Machine.after_of_isHalted hhalted]

theorem exists_serves_of_isHalted (hhalted : session.machine.isHalted = true)
    (calls : List Call) : ∃ session', Serves session calls session' := by
  induction calls generalizing session with
  | nil => exact ⟨session, .nil session⟩
  | cons call calls ih =>
      have hreturns : ∃ next, session.Returns call next := by
        cases call with
        | step => exact ⟨session.step, rfl⟩
        | run => exact exists_returns_run_iff.mpr ⟨0, hhalted⟩
      obtain ⟨next, hnext⟩ := hreturns
      have hmachine := (Serves.cons hnext (.nil next)).machine_eq_of_isHalted hhalted
      have hnextHalted : next.machine.isHalted = true := by rwa [hmachine]
      obtain ⟨last, hlast⟩ := ih hnextHalted
      exact ⟨last, .cons hnext hlast⟩

section Boot

variable {calls : List Call}

theorem machine_of_serves_run (hrunning : session.machine.isHalted = false)
    (hserves : Serves session calls session') {last : Session} (hrun : session'.Returns .run last) :
    ∃ count : ℕ, (count : ℕ∞) = session.machine.haltingCycle ∧
      last.machine = session.machine.cycled count := by
  obtain ⟨first, hfirst⟩ := hserves.exists_after
  obtain ⟨rest, hrest⟩ := hrun.exists_after
  have hafter : last.machine = session.machine.after (first + rest) := by
    rw [hrest, hfirst, Machine.after_add]
  have hhalted := hrun.isHalted_of_run
  -- However many steps the calls came to, the run went on to the halting cycle.
  obtain ⟨count, hcount, hcycled⟩ := Machine.exists_after_eq_cycled hrunning (first + rest)
  rw [hafter, Machine.isHalted_after_iff hrunning] at hhalted
  exact ⟨count, by rw [hcount, min_eq_right hhalted], by rw [hafter, hcycled]⟩

theorem exists_returns_run_iff_haltingCycle (hrunning : session.machine.isHalted = false)
    (hserves : Serves session calls session') :
    (∃ last, session'.Returns .run last) ↔ session.machine.haltingCycle ≠ ⊤ := by
  obtain ⟨first, hfirst⟩ := hserves.exists_after
  rw [exists_returns_run_iff]
  constructor
  · intro h
    obtain ⟨steps, hhalted⟩ := h
    rw [hfirst, ← Machine.after_add, Machine.isHalted_after_iff hrunning] at hhalted
    exact ne_top_of_le_ne_top (ENat.natCast_ne_top _) hhalted
  · intro h
    obtain ⟨number, hnumber⟩ := ENat.ne_top_iff_exists.mp h
    refine ⟨number, ?_⟩
    rw [hfirst, ← Machine.after_add, Machine.isHalted_after_iff hrunning, ← hnumber, Nat.cast_le]
    exact Nat.le_add_left _ _

/-- Stepping and running of a booted machine. Steps execute cycles up to the halting cycle and no
more; a run, whatever was called before it, returns if and only if there is such a cycle, and ends
there for good. -/
theorem halting_of_boot (console : Console) (words : List UInt16) (clock : Clock)
    (terminal : Terminal) :
    (∀ steps : ℕ, ∃ count : ℕ,
      (count : ℕ∞) = min (steps : ℕ∞) (Machine.boot words clock terminal).haltingCycle ∧
      (Machine.boot words clock terminal).HasExecuted count
        (Session.step^[steps] (boot console words clock terminal)).machine) ∧
    (∀ steps : ℕ, (Session.step^[steps] (boot console words clock terminal)).isHalted = true ↔
      (Machine.boot words clock terminal).haltingCycle ≤ steps) ∧
    ∀ calls session, Serves (boot console words clock terminal) calls session →
      ((∃ last, session.Returns .run last) ↔
        (Machine.boot words clock terminal).haltingCycle ≠ ⊤) ∧
      ∀ last, session.Returns .run last →
        (∃ count : ℕ, (count : ℕ∞) = (Machine.boot words clock terminal).haltingCycle ∧
          (Machine.boot words clock terminal).HasExecuted count last.machine) ∧
        ∀ later, (∃ final, Serves last later final) ∧
          ∀ final, Serves last later final → final.machine = last.machine := by
  have hmachine : (boot console words clock terminal).machine =
      Machine.boot words clock terminal := rfl
  have hrunning : (Machine.boot words clock terminal).isHalted = false := rfl
  have hexecuted := Machine.hasExecuted_boot words clock terminal
  rw [← hmachine] at hrunning hexecuted ⊢
  refine ⟨?_, ?_, ?_⟩
  · intro steps
    obtain ⟨count, hcount, hcycled⟩ := Machine.exists_after_eq_cycled hrunning steps
    refine ⟨count, hcount, ?_⟩
    rw [machine_iterate_step, hcycled]
    exact hexecuted count
  · intro steps
    rw [isHalted, machine_iterate_step]
    exact Machine.isHalted_after_iff hrunning
  · intro calls session hserves
    refine ⟨exists_returns_run_iff_haltingCycle hrunning hserves, ?_⟩
    intro last hrun
    have hhalted := hrun.isHalted_of_run
    obtain ⟨count, hcount, hcycled⟩ := machine_of_serves_run hrunning hserves hrun
    refine ⟨⟨count, hcount, ?_⟩, ?_⟩
    · rw [hcycled]
      exact hexecuted count
    · intro later
      refine ⟨exists_serves_of_isHalted hhalted later, ?_⟩
      intro final hfinal
      exact hfinal.machine_eq_of_isHalted hhalted

/-- A word is set, and the second cycle halts. -/
theorem halting_of_boot_twoCycles :
    ∃ last,
      (boot .fresh [0x14, 7, 0x0E] .unthrottled (.buffer "")).Returns .run last ∧
        last.machine.processor.cycles = 2 ∧
        ∀ final, Serves last [.step, .run] final → final.machine = last.machine := by
  obtain ⟨_, hhalted, hcalls⟩ :=
    halting_of_boot .fresh [0x14, 7, 0x0E] .unthrottled (.buffer "")
  have hsecond := (hhalted 2).mp (by decide +kernel)
  have hfirst : ¬ (Machine.boot [0x14, 7, 0x0E] .unthrottled (.buffer "")).haltingCycle ≤ (1 : ℕ) :=
    mt (hhalted 1).mpr (by decide +kernel)
  obtain ⟨hreturns, hlast⟩ := hcalls [] _ (.nil _)
  obtain ⟨last, hrun⟩ := hreturns.mpr (ne_top_of_le_ne_top (ENat.natCast_ne_top 2) hsecond)
  obtain ⟨⟨count, hcount, hexecuted⟩, hlater⟩ := hlast last hrun
  rw [← hcount, Nat.cast_le] at hfirst hsecond
  have htwo : count = 2 := by omega
  exact ⟨last, hrun, hexecuted.cycles_eq.trans htwo, (hlater [.step, .run]).2⟩

end Boot

end Session

end FoxMachine
