import FoxMachine.Proofs.Machine.Run

namespace FoxMachine

namespace Effect

def text? : Effect → Option String
  | .text shown => some shown
  | .notice _ => none

def texts (effects : List Effect) : String :=
  String.join (effects.filterMap text?)

@[simp] theorem texts_nil : texts [] = "" := rfl

@[simp] theorem texts_cons_text (shown : String) (effects : List Effect) :
    texts (.text shown :: effects) = shown ++ texts effects := by
  simp [texts, text?]

@[simp] theorem texts_cons_notice (notice : Notice) (effects : List Effect) :
    texts (.notice notice :: effects) = texts effects := rfl

@[simp] theorem texts_append (first second : List Effect) :
    texts (first ++ second) = texts first ++ texts second := by
  simp [texts, String.join_append]

end Effect

namespace Terminal

theorem exists_transcript_write (terminal : Terminal) (text : String) :
    ∃ transcript, (terminal.write text).1 =
      { terminal with writes := terminal.writes + 1, transcript } := by
  unfold write
  split
  · exact ⟨_, rfl⟩
  · split <;> exact ⟨_, rfl⟩

@[simp] theorem keys_write (terminal : Terminal) (text : String) :
    (terminal.write text).1.keys = terminal.keys := by
  obtain ⟨transcript, hwrite⟩ := terminal.exists_transcript_write text
  rw [hwrite]

theorem write_of_fault?_eq_none {terminal : Terminal}
    (h : terminal.fault? terminal.writes = none) (text : String) :
    terminal.write text =
      if terminal.onConsole then ({ terminal with writes := terminal.writes + 1 }, .toConsole)
      else
        ({ terminal with
            writes := terminal.writes + 1
            transcript := terminal.transcript ++ text }, .kept) := by
  simp [write, h]

theorem readKey_fst (terminal : Terminal) :
    terminal.readKey.1 = { terminal with keys := terminal.keys.tail } := by
  obtain ⟨keys, onConsole, transcript, writes, fault?⟩ := terminal
  cases keys <;> rfl

end Terminal

namespace Machine

def sent (machine : Machine) : (steps : Nat) → List Effect
  | 0 => []
  | steps + 1 => machine.sent steps ++ (machine.after steps).step.2

@[simp] theorem sent_zero (machine : Machine) : machine.sent 0 = [] := rfl

theorem sent_succ (machine : Machine) (steps : Nat) :
    machine.sent (steps + 1) = machine.sent steps ++ (machine.after steps).step.2 := rfl

theorem sent_succ' (machine : Machine) (steps : Nat) :
    machine.sent (steps + 1) = machine.step.2 ++ machine.step.1.sent steps := by
  induction steps with
  | zero => simp [sent]
  | succ steps ih =>
      rw [sent_succ, ih, after_succ', sent_succ, List.append_assoc]

theorem sent_of_isHalted {machine : Machine} (h : machine.isHalted = true) (steps : Nat) :
    machine.sent steps = [] := by
  induction steps with
  | zero => rfl
  | succ steps ih =>
      rw [sent_succ, ih, after_of_isHalted h, step_of_isHalted h, List.append_nil]

def written? (machine : Machine) : Option String :=
  match machine.instruction with
  | .putCharacter => some (Charset.charFor machine.operand).toString
  | .dumpMemory => some machine.memory.dump
  | _ => none

/-- All that the program writes in a number of steps, whatever becomes of it. -/
def spoken (machine : Machine) : (steps : Nat) → String
  | 0 => ""
  | steps + 1 =>
      machine.spoken steps ++
        if (machine.after steps).isHalted then "" else ((machine.after steps).written?).getD ""

/-- The text that the terminal of a machine has taken: what it keeps, and what it has passed on to
the console in a number of steps. -/
def received (machine : Machine) (steps : Nat) : String :=
  (machine.after steps).terminal.transcript ++ Effect.texts (machine.sent steps)

/-- That no write fails which the terminal is given in a number of steps. -/
def LosesNothing (machine : Machine) (steps : Nat) : Prop :=
  ∀ number, machine.terminal.writes ≤ number → number < (machine.after steps).terminal.writes →
    machine.terminal.fault? number = none

theorem texts_announce (machine : Machine) : Effect.texts machine.announce = "" := by
  unfold announce
  split <;> simp

theorem cycle_snd (machine : Machine) :
    machine.cycle.2 =
      machine.announce ++ (machine.execute machine.instruction machine.operand).2 := rfl

theorem terminal_cycle (machine : Machine) :
    machine.cycle.1.terminal =
      match machine.written? with
      | some text => (machine.terminal.write text).1
      | none =>
          if machine.instruction = .readKey then machine.terminal.readKey.1
          else machine.terminal := by
  rw [cycle_fst]
  unfold written?
  cases machine.instruction <;> rfl

theorem texts_put (machine : Machine) (text : String) (lost : String → Notice) :
    Effect.texts (machine.put text lost).2 =
      match (machine.terminal.write text).2 with
      | .toConsole => text
      | _ => "" := by
  simp only [put]
  cases (machine.terminal.write text).2 <;> simp

theorem texts_cycle (machine : Machine) :
    Effect.texts machine.cycle.2 =
      match machine.written? with
      | some text =>
          match (machine.terminal.write text).2 with
          | .toConsole => text
          | _ => ""
      | none => "" := by
  rw [cycle_snd, Effect.texts_append, texts_announce, String.empty_append]
  unfold written?
  cases machine.instruction
  case putCharacter => exact texts_put _ _ _
  case dumpMemory => exact texts_put _ _ _
  all_goals rfl

section Terminal

variable {machine : Machine}

theorem exists_terminal_cycle (machine : Machine) :
    ∃ keys transcript, machine.cycle.1.terminal =
      { machine.terminal with
          keys
          transcript
          writes := machine.terminal.writes + if machine.written?.isSome then 1 else 0 } := by
  rw [terminal_cycle]
  cases machine.written? with
  | some text =>
      obtain ⟨transcript, hwrite⟩ := machine.terminal.exists_transcript_write text
      exact ⟨_, transcript, hwrite⟩
  | none =>
      dsimp only
      split
      · exact ⟨_, _, Terminal.readKey_fst _⟩
      · exact ⟨_, _, rfl⟩

theorem onConsole_cycle (machine : Machine) :
    machine.cycle.1.terminal.onConsole = machine.terminal.onConsole := by
  obtain ⟨keys, transcript, hterminal⟩ := machine.exists_terminal_cycle
  rw [hterminal]

theorem fault?_cycle (machine : Machine) :
    machine.cycle.1.terminal.fault? = machine.terminal.fault? := by
  obtain ⟨keys, transcript, hterminal⟩ := machine.exists_terminal_cycle
  rw [hterminal]

theorem writes_cycle (machine : Machine) :
    machine.cycle.1.terminal.writes =
      machine.terminal.writes + if machine.written?.isSome then 1 else 0 := by
  obtain ⟨keys, transcript, hterminal⟩ := machine.exists_terminal_cycle
  rw [hterminal]

theorem onConsole_after (machine : Machine) (steps : Nat) :
    (machine.after steps).terminal.onConsole = machine.terminal.onConsole :=
  after_induction (motive := fun later => later.terminal.onConsole = machine.terminal.onConsole)
    machine steps rfl fun _ _ _ h => (onConsole_cycle _).trans h

theorem fault?_after (machine : Machine) (steps : Nat) :
    (machine.after steps).terminal.fault? = machine.terminal.fault? :=
  after_induction (motive := fun later => later.terminal.fault? = machine.terminal.fault?)
    machine steps rfl fun _ _ _ h => (fault?_cycle _).trans h

theorem writes_le_after (machine : Machine) (steps : Nat) :
    machine.terminal.writes ≤ (machine.after steps).terminal.writes := by
  refine after_induction (motive := fun later => machine.terminal.writes ≤ later.terminal.writes)
    machine steps (Nat.le_refl _) fun earlier _ _ h => ?_
  rw [writes_cycle]
  exact Nat.le_trans h (Nat.le_add_right _ _)

theorem LosesNothing.of_succ {steps : Nat} (h : machine.LosesNothing (steps + 1)) :
    machine.LosesNothing steps := by
  intro number hfirst hlast
  refine h number hfirst (Nat.lt_of_lt_of_le hlast ?_)
  rw [after_add]
  exact writes_le_after _ 1

theorem LosesNothing.fault?_eq_none {steps : Nat} (h : machine.LosesNothing (steps + 1))
    (hrunning : (machine.after steps).isHalted = false)
    (hwrites : (machine.after steps).written?.isSome = true) :
    (machine.after steps).terminal.fault? (machine.after steps).terminal.writes = none := by
  rw [fault?_after]
  apply h _ (writes_le_after machine steps)
  rw [after_succ, step_of_running hrunning, writes_cycle, if_pos hwrites]
  exact Nat.lt_succ_self _

theorem text_cycle
    (h : machine.written?.isSome = true → machine.terminal.fault? machine.terminal.writes = none) :
    machine.cycle.1.terminal.transcript =
        machine.terminal.transcript ++
          (if machine.terminal.onConsole then "" else machine.written?.getD "") ∧
      Effect.texts machine.cycle.2 =
        if machine.terminal.onConsole then machine.written?.getD "" else "" := by
  rw [terminal_cycle, texts_cycle]
  cases hwritten : machine.written? with
  | none =>
      constructor
      · dsimp only
        split <;> simp [Terminal.readKey_fst]
      · simp
  | some text =>
      have hfault := h (by rw [hwritten]; rfl)
      dsimp only
      rw [Terminal.write_of_fault?_eq_none hfault]
      cases machine.terminal.onConsole <;> simp

theorem text_after {steps : Nat} (h : machine.LosesNothing steps) :
    (machine.after steps).terminal.transcript =
        machine.terminal.transcript ++
          (if machine.terminal.onConsole then "" else machine.spoken steps) ∧
      Effect.texts (machine.sent steps) =
        if machine.terminal.onConsole then machine.spoken steps else "" := by
  induction steps with
  | zero => simp [spoken]
  | succ steps ih =>
      obtain ⟨htranscript, htexts⟩ := ih h.of_succ
      rw [after_succ, sent_succ, Effect.texts_append, htexts, spoken]
      cases hhalted : (machine.after steps).isHalted with
      | true => simp [step_of_isHalted hhalted, htranscript]
      | false =>
          obtain ⟨hkept, hpassed⟩ := text_cycle (h.fault?_eq_none hhalted)
          rw [step_of_running hhalted, hkept, hpassed, htranscript, onConsole_after]
          cases machine.terminal.onConsole <;> simp [String.append_assoc]

theorem received_eq {steps : Nat} (h : machine.LosesNothing steps) :
    machine.received steps = machine.terminal.transcript ++ machine.spoken steps := by
  obtain ⟨htranscript, htexts⟩ := text_after h
  rw [received, htranscript, htexts]
  cases machine.terminal.onConsole <;> simp

end Terminal

end Machine

end FoxMachine
