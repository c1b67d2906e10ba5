import FoxMachine.Proofs.CommandLine.Work
import FoxMachine.Proofs.Console.Observation
import FoxMachine.Proofs.Session.Halting

namespace FoxMachine

/-!
Launches of an image. A launch is prepared on some console, run until its machine halts, and then
finished. What goes to standard output meanwhile is the text of the program between lines of
progress, with a line break behind it where the texts and diagnostics that were shown, from the
console on, have stopped in the middle of a line.
-/

namespace Session

theorem console_repeatUntilHalted (limit : Nat) (session : Session) :
    (session.repeatUntilHalted Session.step limit).console =
      session.console.observeAll (session.machine.sent limit) := by
  induction limit generalizing session with
  | zero => rfl
  | succ limit ih =>
      have hconsole :
          session.step.console = session.console.observeAll session.machine.step.2 := rfl
      have hall : session.console.observeAll (session.machine.sent (limit + 1)) =
          session.step.console.observeAll (session.step.machine.sent limit) := by
        rw [Machine.sent_succ', hconsole]
        exact Console.observeAll_append _ _ _
      rw [repeatUntilHalted, hall]
      split
      case isTrue hhalted =>
        rw [Machine.sent_of_isHalted hhalted]
        rfl
      case isFalse => exact ih session.step

variable (session : Session) (limit : Nat)

theorem console_conclude :
    (session.repeatUntilHalted Session.step limit).conclude.console =
      (session.console.observeAll (session.machine.sent limit)).notify .halted := by
  rw [conclude, console_repeatUntilHalted]

theorem output_conclude :
    (session.repeatUntilHalted Session.step limit).conclude.console.output =
      session.console.output ++ Effect.texts (session.machine.sent limit) := by
  rw [console_conclude, Console.output_notify, Console.output_observeAll]

theorem settings_conclude :
    (session.repeatUntilHalted Session.step limit).conclude.console.settings =
      session.console.settings := by
  rw [console_conclude, Console.notify, Console.settings_print, Console.settings_observeAll]

/-- The last notice of a run ends its line where it is shown; where it is not, the line start
follows what the run itself has shown. -/
theorem lineStart_conclude :
    (session.repeatUntilHalted Session.step limit).conclude.console.lineStart =
      (session.console.trace || Console.lineStartAfter session.console.lineStart
        ((session.machine.sent limit).flatMap (Effect.shown session.console.trace))) := by
  have htrace : (session.console.observeAll (session.machine.sent limit)).trace =
      session.console.trace := congrArg Prod.fst (Console.settings_observeAll _ _)
  have hline : ∀ lineStart, Console.lineStartAfter lineStart
      (Text.visible Notice.halted.line.toList) = true := fun _ => rfl
  rw [console_conclude, Console.notify, Console.lineStart_print, hline,
    Console.lineStart_observeAll]
  cases h : session.console.trace <;> simp [Console.shows, Notice.condition, htrace, h]

end Session

namespace CommandLine

def runMachine (settings : Settings) (keys : List Char) (rate? : Option Nat) (image : Image) :
    Machine :=
  Machine.boot image.words (Clock.ofRate ((rate? <|> settings.rate?).getD Clock.nominalRate))
    (Terminal.console keys)

/-- What goes to standard output when an image is run: lines of progress and, between them, what the
program has written, with or without a line break behind it. -/
def runOutput (color : Bool) (path text lineBreak : String) (cycles : Nat) : String :=
  progressLine color .green "Running" "emitted binary" ++ "\n" ++ text ++ lineBreak ++
    progressLine color .cyan "Halted" ("after " ++ toString cycles ++ " cycles") ++ "\n" ++
    progressLine color .green "Completed" (target path) ++ "\n"

/-- What is put behind the text of a program, where that leaves the console in the middle of a
line. -/
def lineBreak (console : Console) (printed : List Char) : String :=
  if console.trace || Console.lineStartAfter console.lineStart printed then "" else "\n"

theorem lineBreak_eq_append (console : Console) (printed : List Char) :
    lineBreak console printed =
      (if !console.trace && Text.stopsInLine printed then "\n" else "") ++
        if !console.trace && printed.isEmpty && !console.lineStart then "\n" else "" := by
  unfold lineBreak
  cases printed with
  | nil => cases console.trace <;> cases hstart : console.lineStart <;> rfl
  | cons c printed =>
      rw [Console.lineStartAfter_of_ne_nil _ (List.cons_ne_nil c printed)]
      cases console.trace <;> cases Text.stopsInLine (c :: printed) <;> rfl

def launchSession (console : Console) (settings : Settings) (keys : List Char) (rate? : Option Nat)
    (image : Image) : Session where
  machine := runMachine settings keys rate? image
  console := progress (console.notify (.imageLoaded (Machine.loadedSize image.words))) .green
    "Running" "emitted binary"

theorem runOn_launch (settings : Settings) (keys : List Char) (path : String) (rate? : Option Nat)
    (image : Image) (console : Console) (tree : FileTree) :
    runOn (launch settings keys path rate? image) console tree =
      ((.ok (.ready ⟨launchSession console settings keys rate? image, path⟩), console), tree) := rfl

@[simp] theorem output_progress (console : Console) (style : Text.Style) (word rest : String) :
    (progress console style word rest).output =
      console.output ++ progressLine console.color style word rest ++ "\n" := rfl

@[simp] theorem color_progress (console : Console) (style : Text.Style) (word rest : String) :
    (progress console style word rest).color = console.color := rfl

theorem registers_eq (console : Console) (processor : Processor) :
    let console' :=
      if console.trace then console.printRegisters (.diagnostic .trace) processor else console
    console'.output = console.output ∧ console'.color = console.color := by
  intro console'
  unfold console'
  split
  · exact ⟨Console.output_printAll_diagnostic _ _ _,
      congrArg (·.2.2) (Console.settings_printAll _ _ _)⟩
  · exact ⟨rfl, rfl⟩

theorem output_finish (launch : Launch) :
    launch.finish.console.output =
      launch.session.console.output ++ (if launch.session.console.lineStart then "" else "\n") ++
        progressLine launch.session.console.color .cyan "Halted"
          ("after " ++ toString launch.session.machine.processor.cycles ++ " cycles") ++ "\n" ++
        progressLine launch.session.console.color .green "Completed" (target launch.path) ++
          "\n" := by
  have hcolor : (launch.session.console.startLine .normal).color = launch.session.console.color :=
    congrArg (·.2.2) (Console.settings_startLine _ _)
  simp only [Launch.finish, output_progress, (registers_eq _ _).1, (registers_eq _ _).2,
    color_progress, Console.output_startLine_normal, hcolor]

section Launch

variable (console : Console) (settings : Settings) (keys : List Char) (rate? : Option Nat)
  (image : Image)

theorem settings_launchSession :
    (launchSession console settings keys rate? image).console.settings = console.settings :=
  Console.settings_print _ _ _

theorem output_launchSession :
    (launchSession console settings keys rate? image).console.output =
      console.output ++ progressLine console.color .green "Running" "emitted binary" ++ "\n" := by
  have hcolor : (launchSession console settings keys rate? image).console.color = console.color :=
    congrArg (·.2.2) (settings_launchSession console settings keys rate? image)
  rw [launchSession, color_progress] at hcolor
  rw [launchSession, output_progress, hcolor, Console.output_notify]

theorem lineStart_launchSession (htrace : console.trace = false) :
    (launchSession console settings keys rate? image).console.lineStart = console.lineStart := by
  change (Console.notify _ _).lineStart = console.lineStart
  rw [Console.notify, Console.lineStart_print]
  simp [Console.shows, Notice.condition, htrace]

variable {limit : Nat}

theorem run?_launchSession_of_running
    (hrunning : ((runMachine settings keys rate? image).after limit).isHalted = false) :
    (launchSession console settings keys rate? image).run? limit = none := by
  rw [Option.eq_none_iff_forall_ne_some]
  intro session hrun
  have hhalted := (Session.run?_eq_some_iff.mp hrun).1
  change ((runMachine settings keys rate? image).after limit).isHalted = true at hhalted
  rw [hrunning] at hhalted
  contradiction

theorem exists_outcome_launch (path : String)
    (hhalted : ((runMachine settings keys rate? image).after limit).isHalted = true) :
    let machine := runMachine settings keys rate? image
    let printed := (machine.sent limit).flatMap (Effect.shown false)
    ∃ session, (launchSession console settings keys rate? image).run? limit = some session ∧
      (Launch.mk session path).finish.failure? = none ∧
      (Launch.mk session path).finish.console.output =
        console.output ++ runOutput console.color path (Effect.texts (machine.sent limit))
          (lineBreak console printed) (machine.after limit).processor.cycles := by
  intro machine printed
  let session := launchSession console settings keys rate? image
  have hrun := Session.run?_eq_some_iff.mpr
    ⟨show (session.machine.after limit).isHalted = true from hhalted, rfl⟩
  have hsettings := (Session.settings_conclude session limit).trans
    (settings_launchSession console settings keys rate? image)
  have hcolor : (session.repeatUntilHalted Session.step limit).conclude.console.color =
      console.color := congrArg (·.2.2) hsettings
  have hlineStart : (session.repeatUntilHalted Session.step limit).conclude.console.lineStart =
      (console.trace || Console.lineStartAfter console.lineStart printed) := by
    have htrace : session.console.trace = console.trace :=
      congrArg Prod.fst (settings_launchSession console settings keys rate? image)
    rw [Session.lineStart_conclude, htrace]
    cases htraced : console.trace with
    | true => rfl
    | false =>
        rw [lineStart_launchSession _ _ _ _ _ htraced]
        rfl
  have hmachine : (session.repeatUntilHalted Session.step limit).conclude.machine =
      machine.after limit := Machine.machine_repeatUntilHalted limit session
  refine ⟨_, hrun, rfl, ?_⟩
  rw [output_finish]
  dsimp only
  rw [hcolor, hlineStart, hmachine, Session.output_conclude, output_launchSession]
  simp only [runOutput, lineBreak, String.append_assoc]
  rfl

end Launch

theorem Outcome.exitCode_eq_zero_iff {outcome : Outcome} :
    outcome.exitCode = 0 ↔ outcome.failure? = none := by
  unfold exitCode
  cases outcome.failure? <;> simp

/-- A command that is left with a machine to run, for at most `limit` steps. It ends just when the
machine halts, without a failure and with this on standard output. -/
structure Drives (limit : Nat) (settings : Settings) (color : Bool) (keys : List Char)
    (command : Command) (tree : FileTree) (machine : Machine) (output : String) : Prop where
  starts : ∃ launch,
    (prepare settings color keys command : StateM FileTree Stage).run tree =
      (.ready launch, tree) ∧
    launch.session.machine = machine
  goesOn : (machine.after limit).isHalted = false →
    (execute limit settings color keys command : StateM FileTree (Option Outcome)).run tree =
      (none, tree)
  ends : (machine.after limit).isHalted = true → ∃ outcome,
    (execute limit settings color keys command : StateM FileTree (Option Outcome)).run tree =
      (some outcome, tree) ∧
    outcome.exitCode = 0 ∧ outcome.console.output = output

section Drives

variable {settings : Settings} {color : Bool} {keys : List Char} {command : Command}
  {tree : FileTree} {console : Console} {rate? : Option Nat} {image : Image} {path : String}

theorem drives_of_prepare (limit : Nat)
    (hprepare : (prepare settings color keys command : StateM FileTree Stage).run tree =
      (.ready ⟨launchSession console settings keys rate? image, path⟩, tree)) :
    let machine := runMachine settings keys rate? image
    let printed := (machine.sent limit).flatMap (Effect.shown false)
    Drives limit settings color keys command tree machine
      (console.output ++ runOutput console.color path (Effect.texts (machine.sent limit))
        (lineBreak console printed) (machine.after limit).processor.cycles) := by
  intro machine printed
  constructor
  · exact ⟨_, hprepare, rfl⟩
  · intro hrunning
    rw [execute_eq, hprepare]
    dsimp only
    rw [run?_launchSession_of_running _ _ _ _ _ hrunning]
    rfl
  · intro hhalted
    obtain ⟨session, hrun, hfailure, houtput⟩ :=
      exists_outcome_launch console settings keys rate? image path hhalted
    refine ⟨(Launch.mk session path).finish, ?_, ?_, houtput⟩
    · rw [execute_eq, hprepare]
      dsimp only
      rw [hrun]
      rfl
    · exact Outcome.exitCode_eq_zero_iff.mpr hfailure

theorem drives_of_prepare_fresh (limit : Nat) {minimal trace : Bool}
    (hprepare : (prepare settings color keys command : StateM FileTree Stage).run tree =
      (.ready ⟨launchSession ⟨true, minimal, trace, color, "", ""⟩ settings keys rate? image, path⟩,
        tree)) :
    let machine := runMachine settings keys rate? image
    let printed := (machine.sent limit).flatMap (Effect.shown false)
    Drives limit settings color keys command tree machine
      (runOutput color path (Effect.texts (machine.sent limit))
        (if !trace && Text.stopsInLine printed then "\n" else "")
        (machine.after limit).processor.cycles) := by
  intro machine printed
  have hdrives := drives_of_prepare limit hprepare
  dsimp only at hdrives
  rw [lineBreak_eq_append, String.empty_append] at hdrives
  simpa using hdrives

end Drives

end CommandLine

end FoxMachine
