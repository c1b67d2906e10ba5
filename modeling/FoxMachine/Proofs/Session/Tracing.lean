import FoxMachine.Proofs.Console.Observation
import FoxMachine.Proofs.Machine.Halting
import FoxMachine.Proofs.Notice.Lines

namespace FoxMachine

/-!
The trace of a session. As long as the terminal takes what the program writes, a cycle has nothing
to say but what it executes, and a warning before it if its word is no code. So a trace goes along
with the executed cycles, one after the other, and without tracing the warnings alone are left of
it.
-/

theorem Instruction.mnemonic?_code (instruction : Instruction) :
    Opcode.mnemonic? instruction.code = some instruction.name := by
  cases instruction <;> rfl

theorem Opcode.isGraphic_of_mem_table : ∀ entry ∈ table, Text.IsGraphic entry.1.toList := by
  decide +kernel

namespace Effect

def notice? : Effect → Option Notice
  | .notice said => some said
  | .text _ => none

def notices (effects : List Effect) : List Notice :=
  effects.filterMap notice?

@[simp] theorem notices_cons_notice (said : Notice) (effects : List Effect) :
    notices (.notice said :: effects) = said :: notices effects := rfl

@[simp] theorem notices_append (first second : List Effect) :
    notices (first ++ second) = notices first ++ notices second :=
  List.filterMap_append

theorem notices_flatMap {α : Type} (f : α → List Effect) (items : List α) :
    notices (items.flatMap f) = items.flatMap fun item => notices (f item) :=
  List.filterMap_flatMap

end Effect

namespace Console

def shown (console : Console) (notices : List Notice) : List Notice :=
  notices.filter fun said => console.shows (.diagnostic said.condition)

theorem shown_of_trace {console : Console} (htrace : console.trace = true) (notices : List Notice) :
    console.shown notices = notices :=
  List.filter_eq_self.mpr fun said _ => (console.shows_diagnostic said.condition).mpr (.inl htrace)

theorem shown_cons (console : Console) (said : Notice) (notices : List Notice) :
    console.shown (said :: notices) =
      if console.shows (.diagnostic said.condition) then said :: console.shown notices
      else console.shown notices :=
  List.filter_cons

theorem errors_observeAll_eq_shown (console : Console) (effects : List Effect) :
    (console.observeAll effects).errors =
      console.errors ++ String.join
        ((console.shown (Effect.notices effects)).map fun said =>
          console.diagnosticForm said.line) := by
  rw [errors_observeAll]
  congr 1
  induction effects with
  | nil => rfl
  | cons effect effects ih =>
      rw [List.map_cons, String.join_cons, ih]
      cases effect with
      | text text => exact String.empty_append
      | notice said =>
          rw [Effect.notices_cons_notice, shown_cons, diagnosed]
          split
          · rw [List.map_cons, String.join_cons]
          · exact String.empty_append

end Console

namespace Machine

def warning? (machine : Machine) : Option Notice :=
  if Instruction.IsHandled machine.code then none
  else some (.unhandled machine.code machine.operand machine.processor.pc)

/-- The name that the instruction table has for the code of the next cycle, where that is the code
of an instruction; every other word goes by the name of the instruction that stands in for it. -/
def tracedName? (machine : Machine) : Option String :=
  if Instruction.IsHandled machine.code then Opcode.mnemonic? machine.code else some "NOP"

/-- What a trace is to say of the next cycle: what is executed, right behind the warning if there is
one. -/
def trace? (machine : Machine) : Option (List Notice) := do
  let name ← machine.tracedName?
  return machine.warning?.toList ++ [.executed name machine.processor.pc machine.operand]

variable {machine : Machine} {notices : List Notice}

theorem trace?_eq_some_iff :
    machine.trace? = some notices ↔ ∃ name, machine.tracedName? = some name ∧
      notices =
        machine.warning?.toList ++ [.executed name machine.processor.pc machine.operand] := by
  simp [trace?, Option.bind_eq_some_iff, eq_comm (a := notices)]

theorem isGraphic_of_tracedName? {name : String} (h : machine.tracedName? = some name) :
    Text.IsGraphic name.toList := by
  unfold tracedName? at h
  split at h
  case isTrue => exact Opcode.isGraphic_of_mem_table _ (Opcode.mnemonic?_eq_some_iff.mp h)
  case isFalse =>
    obtain rfl := Option.some.inj h
    decide

theorem tellsOfCycle_of_trace? (h : machine.trace? = some notices) :
    ∀ said ∈ notices, said.TellsOfCycle := by
  obtain ⟨name, hname, rfl⟩ := trace?_eq_some_iff.mp h
  rw [List.forall_mem_append, List.forall_mem_singleton]
  refine ⟨?_, _, .executed (isGraphic_of_tracedName? hname) _ _⟩
  intro said hsaid
  unfold warning? at hsaid
  split at hsaid
  case isTrue => contradiction
  case isFalse =>
    obtain rfl := List.mem_singleton.mp hsaid
    exact ⟨_, .unhandled _ _ _⟩

theorem shown_of_trace? {console : Console} (htrace : console.trace = false)
    (h : machine.trace? = some notices) : console.shown notices = machine.warning?.toList := by
  obtain ⟨name, -, rfl⟩ := trace?_eq_some_iff.mp h
  unfold warning?
  split <;> simp [Console.shown, Console.shows, Notice.condition, htrace]

theorem trace?_eq_announce (machine : Machine) :
    machine.trace? = some (Effect.notices machine.announce) := by
  rw [trace?_eq_some_iff]
  unfold announce tracedName? warning?
  cases hcode : Instruction.ofCode? machine.code with
  | none =>
      have hunhandled := Instruction.ofCode?_eq_none_iff.mp hcode
      exact ⟨"NOP", if_neg hunhandled, by rw [if_neg hunhandled]; rfl⟩
  | some instruction =>
      have hword := Instruction.ofCode?_eq_some_iff.mp hcode
      have hhandled : Instruction.IsHandled machine.code := by
        rw [hword]
        exact Instruction.isHandled_code instruction
      refine ⟨instruction.name, ?_, by rw [if_pos hhandled]; rfl⟩
      rw [if_pos hhandled, hword, Instruction.mnemonic?_code]

theorem notices_put (hworks : machine.terminal.fault? machine.terminal.writes = none)
    (text : String) (lost : String → Notice) : Effect.notices (machine.put text lost).2 = [] := by
  rw [put, Terminal.write_of_fault?_eq_none hworks]
  cases machine.terminal.onConsole <;> rfl

theorem notices_execute (hworks : machine.terminal.fault? machine.terminal.writes = none)
    (instruction : Instruction) (operand : UInt16) :
    Effect.notices (machine.execute instruction operand).2 = [] := by
  cases instruction
  case putCharacter => exact notices_put hworks _ _
  case dumpMemory => exact notices_put hworks _ _
  all_goals rfl

theorem trace?_eq_cycle (hworks : machine.terminal.fault? machine.terminal.writes = none) :
    machine.trace? = some (Effect.notices machine.cycle.2) := by
  rw [cycle_snd, Effect.notices_append, notices_execute hworks, List.append_nil]
  exact machine.trace?_eq_announce

theorem sent_eq_flatMap_executed (machine : Machine) (steps : Nat) :
    machine.sent steps =
      (machine.executed steps).reverse.flatMap fun earlier => earlier.cycle.2 := by
  induction steps with
  | zero => rfl
  | succ steps ih =>
      rw [sent_succ, executed, ih]
      cases hhalted : (machine.after steps).isHalted with
      | true => simp [step_of_isHalted hhalted]
      | false => simp [step_of_running hhalted]

theorem fault?_cycled (machine : Machine) (cycles : Nat) :
    (machine.cycled cycles).terminal.fault? = machine.terminal.fault? := by
  induction cycles with
  | zero => rfl
  | succ cycles ih => rw [cycled_succ, fault?_cycle, ih]

theorem fault?_of_mem_past {cycles : Nat} {earlier : Machine} (h : earlier ∈ machine.past cycles) :
    earlier.terminal.fault? = machine.terminal.fault? := by
  induction cycles with
  | zero => contradiction
  | succ cycles ih =>
      rcases List.mem_cons.mp h with rfl | hpast
      · exact machine.fault?_cycled cycles
      · exact ih hpast

theorem fault?_of_mem_executed {steps : Nat} {earlier : Machine}
    (h : earlier ∈ machine.executed steps) :
    earlier.terminal.fault? = machine.terminal.fault? := by
  obtain ⟨cycles, -, hexecuted⟩ := machine.exists_executed_eq_past steps
  rw [hexecuted] at h
  exact fault?_of_mem_past h

end Machine

namespace Session

/-- That a way of running a machine, which executes the cycles that some machines start with, is
traced faithfully on a console. With tracing, all that goes to standard error is what a trace is to
say of these cycles, one after the other; without it, their warnings. -/
structure IsTraced (machine : Machine) (console : Console) (run : Session → Session)
    (executed : List Machine) : Prop where
  traced : ∃ notices,
    List.Forall₂ (fun earlier said => earlier.trace? = some said) executed notices ∧
    Console.HasPrinted { console with trace := true } notices.flatten
      (run ⟨machine, { console with trace := true }⟩).console
  quiet : Console.HasPrinted { console with trace := false } (executed.filterMap Machine.warning?)
    (run ⟨machine, { console with trace := false }⟩).console

theorem isTraced_of_observes {machine : Machine} {run : Session → Session} {executed : List Machine}
    (console : Console)
    (hobserves : ∀ console, (run ⟨machine, console⟩).console =
      console.observeAll (executed.flatMap fun earlier => earlier.cycle.2))
    (hfault : ∀ earlier ∈ executed, earlier.terminal.fault? = machine.terminal.fault?)
    (hworks : ∀ number, machine.terminal.fault? number = none) :
    IsTraced machine console run executed := by
  have htrace : ∀ earlier ∈ executed,
      earlier.trace? = some (Effect.notices earlier.cycle.2) := by
    intro earlier hearlier
    apply Machine.trace?_eq_cycle
    rw [hfault earlier hearlier]
    exact hworks _
  have htells : ∀ said ∈ executed.flatMap (fun earlier => Effect.notices earlier.cycle.2),
      said.TellsOfCycle := by
    intro said hsaid
    obtain ⟨earlier, hearlier, hmem⟩ := List.mem_flatMap.mp hsaid
    exact Machine.tellsOfCycle_of_trace? (htrace earlier hearlier) said hmem
  have herrors : ∀ console : Console, (run ⟨machine, console⟩).console.errors =
      console.errors ++ String.join ((console.shown
        (executed.flatMap fun earlier => Effect.notices earlier.cycle.2)).map
          fun said => console.diagnosticForm said.line) := by
    intro console
    rw [hobserves, Console.errors_observeAll_eq_shown, Effect.notices_flatMap]
  constructor
  · refine ⟨executed.map fun earlier => Effect.notices earlier.cycle.2, ?_, ?_⟩
    · rw [List.forall₂_map_right_iff, List.forall₂_same]
      exact htrace
    · rw [← List.flatMap_def]
      apply Console.hasPrinted_of_errors htells
      rw [herrors, Console.shown_of_trace rfl]
  · have hshown : Console.shown { console with trace := false }
        (executed.flatMap fun earlier => Effect.notices earlier.cycle.2) =
          executed.filterMap Machine.warning? := by
      rw [Console.shown, List.filter_flatMap, List.filterMap_eq_flatMap_toList]
      exact List.flatMap_congr fun earlier hearlier =>
        Machine.shown_of_trace? rfl (htrace earlier hearlier)
    apply Console.hasPrinted_of_errors
    · rw [← hshown]
      exact fun said hsaid => htells said (List.mem_of_mem_filter hsaid)
    · rw [herrors, hshown]

theorem iterate_cycle (machine : Machine) (console : Console) (cycles : Nat) :
    Session.cycle^[cycles] ⟨machine, console⟩ =
      ⟨machine.cycled cycles, console.observeAll
        ((machine.past cycles).reverse.flatMap fun earlier => earlier.cycle.2)⟩ := by
  induction cycles with
  | zero => rfl
  | succ cycles ih =>
      rw [Function.iterate_succ_apply', ih, Machine.past, List.reverse_cons, List.flatMap_append,
        List.flatMap_singleton, Console.observeAll_append]
      rfl

theorem iterate_step (machine : Machine) (console : Console) (steps : Nat) :
    Session.step^[steps] ⟨machine, console⟩ =
      ⟨machine.after steps, console.observeAll (machine.sent steps)⟩ := by
  induction steps with
  | zero => rfl
  | succ steps ih =>
      rw [Function.iterate_succ_apply', ih, Machine.sent_succ, Console.observeAll_append]
      rfl

theorem step_of_isHalted {session : Session} (h : session.isHalted = true) :
    session.step = session := by
  rw [step, act, Machine.step_of_isHalted h]
  rfl

theorem repeatUntilHalted_step (session : Session) (limit : Nat) :
    session.repeatUntilHalted Session.step limit = Session.step^[limit] session := by
  induction limit generalizing session with
  | zero => rfl
  | succ limit ih =>
      rw [Function.iterate_succ_apply, repeatUntilHalted]
      split
      case isTrue hhalted => exact (Function.iterate_fixed (step_of_isHalted hhalted) limit).symm
      case isFalse => exact ih session.step

/-- Traces are faithful, from whatever a machine and a console start with, as long as no write to
the terminal fails. This holds of cycles, with or without a halt among them, of steps, and of the
loop of a run. -/
theorem isTraced_of_works (machine : Machine) (console : Console)
    (hworks : ∀ number, machine.terminal.fault? number = none) :
    (∀ cycles, IsTraced machine console Session.cycle^[cycles] (machine.past cycles).reverse) ∧
    (∀ steps, IsTraced machine console Session.step^[steps] (machine.executed steps).reverse) ∧
    ∀ limit, IsTraced machine console (repeatUntilHalted Session.step limit)
      (machine.executed limit).reverse := by
  have hsteps : ∀ steps,
      IsTraced machine console Session.step^[steps] (machine.executed steps).reverse := by
    intro steps
    apply isTraced_of_observes console ?_ ?_ hworks
    · intro console
      rw [iterate_step, Machine.sent_eq_flatMap_executed]
    · intro earlier hearlier
      exact Machine.fault?_of_mem_executed (List.mem_reverse.mp hearlier)
  refine ⟨?_, hsteps, ?_⟩
  · intro cycles
    apply isTraced_of_observes console ?_ ?_ hworks
    · intro console
      rw [iterate_cycle]
    · intro earlier hearlier
      exact Machine.fault?_of_mem_past (List.mem_reverse.mp hearlier)
  · intro limit
    have hloop : repeatUntilHalted Session.step limit = Session.step^[limit] := by
      funext session
      exact repeatUntilHalted_step session limit
    rw [hloop]
    exact hsteps limit

/-- The program stores a graphics code in its own way, passes it, writes a character and halts, well
before the steps are over. -/
theorem isTraced_of_works_storing :
    let words := [0x14, 0xF002, 0x02, 5, 0x0E, 0xC000, 8, 0x0E]
    let machine := Machine.boot words .unthrottled (.console [])
    let traced := repeatUntilHalted Session.step 9 ⟨machine, { Console.fresh with trace := true }⟩
    let quiet := repeatUntilHalted Session.step 9 ⟨machine, { Console.fresh with trace := false }⟩
    (∀ number, machine.terminal.fault? number = none) ∧
      Console.HasPrinted { Console.fresh with trace := true }
        [.executed "DWR" 0 0xF002, .executed "WTM" 2 5, .unhandled 0xF002 0xC000 4,
          .executed "NOP" 4 0xC000, .executed "DBG_LGC" 5 8, .executed "HLT" 7 0] traced.console ∧
      quiet.console.errors =
        "Unhandled graphics instruction F002 with data C000 (49152) at $0004, executing NOP\n" := by
  intro words machine traced quiet
  have hworks : ∀ number, machine.terminal.fault? number = none := fun _ => rfl
  obtain ⟨⟨notices, hnotices, htraced⟩, hquiet⟩ :=
    (isTraced_of_works machine Console.fresh hworks).2.2 9
  have hsaid : (machine.executed 9).reverse.mapM Machine.trace? =
      some [[.executed "DWR" 0 0xF002], [.executed "WTM" 2 5],
        [.unhandled 0xF002 0xC000 4, .executed "NOP" 4 0xC000], [.executed "DBG_LGC" 5 8],
        [.executed "HLT" 7 0]] := by
    decide +kernel
  have hwarned : (machine.executed 9).reverse.filterMap Machine.warning? =
      [.unhandled 0xF002 0xC000 4] := by
    decide +kernel
  rw [Rows.mapM_eq_some hnotices] at hsaid
  rw [Option.some.inj hsaid] at htraced
  refine ⟨hworks, htraced, ?_⟩
  rw [hquiet.errors, hwarned]
  decide +kernel

end Session

end FoxMachine
