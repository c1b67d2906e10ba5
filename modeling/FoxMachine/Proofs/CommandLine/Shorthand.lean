import FoxMachine.Proofs.Assembly.Notices
import FoxMachine.Proofs.CommandLine.Assembling
import FoxMachine.Proofs.CommandLine.Running

namespace FoxMachine

namespace CommandLine

variable {tree tree' : FileTree} {path text : String} {bytes : List UInt8} {image : Image}
  {assembly : Assembly}

/-- What goes to standard output of a run from where it starts to the report that it has halted. -/
def haltedOutput (color : Bool) (text lineBreak : String) (cycles : Nat) : String :=
  progressLine color .green "Running" "emitted binary" ++ "\n" ++ text ++ lineBreak ++
    progressLine color .cyan "Halted" ("after " ++ toString cycles ++ " cycles") ++ "\n"

def assemblingOutput (color : Bool) (path : String) : String :=
  progressLine color .green "Assembling" (target path) ++ "\n"

def completedOutput (color : Bool) (path : String) : String :=
  progressLine color .green "Completed" (target path) ++ "\n"

theorem runOutput_eq (color : Bool) (path text lineBreak : String) (cycles : Nat) :
    runOutput color path text lineBreak cycles =
      haltedOutput color text lineBreak cycles ++ completedOutput color path :=
  String.append_assoc

theorem lineBreak_notifyAll {console : Console} (printed : List Char)
    (hresult : (Assembly.assemble .strict text).result = .ok assembly)
    (hstart : console.lineStart = true) :
    lineBreak (console.notifyAll (Assembly.assemble .strict text).notices) printed =
      (if !console.trace && Text.stopsInLine printed then "\n" else "") ++
        if console.trace = false ∧ printed = [] ∧ assembly.LeavesOpen then "\n" else "" := by
  rw [lineBreak_eq_append, Console.trace_notifyAll]
  cases htraced : console.trace with
  | true => simp
  | false =>
      rw [Assembly.lineStart_notifyAll hresult htraced hstart]
      simp

section Prepare

variable (settings : Settings) (color : Bool) (keys : List Char)

theorem prepare_quick_source (hsource : tree.IsSource path text)
    (hresult : (Assembly.assemble .strict text).result = .ok assembly) :
    (prepare settings color keys (.quick path) : StateM FileTree Stage).run tree =
      (.ready ⟨launchSession
        (Console.notifyAll ⟨true, false, settings.trace, color, assemblingOutput color path, ""⟩
          (Assembly.assemble .strict text).notices)
        settings keys none assembly.image, path⟩, tree) := by
  have hconsole : progress (startConsole settings color) .green "Assembling" (target path) =
      ⟨true, false, settings.trace, color, assemblingOutput color path, ""⟩ := by
    simp [progress, Console.announce, startConsole, Console.fresh, assemblingOutput]
  rw [prepare_eq]
  simp only [perform, hsource.extension, report, runOn_bind, runOn_change,
    runOn_assembleFile _ hsource hresult, runOn_launch, hconsole]

theorem prepare_quick_image (hextension : Path.extension? path = some "bin")
    (hread : tree.read path = .ok bytes) (hdecode : Image.decode bytes = .ok image) :
    (prepare settings color keys (.quick path) : StateM FileTree Stage).run tree =
      (.ready ⟨launchSession ⟨true, false, settings.trace, color, "", ""⟩ settings keys none image,
        path⟩, tree) := by
  rw [prepare_eq]
  simp only [perform, hextension, runOn_bind, runOn_loadImage hread hdecode, runOn_launch]
  rfl

theorem drives_quick_source (limit : Nat) (hsource : tree.IsSource path text)
    (hresult : (Assembly.assemble .strict text).result = .ok assembly) :
    let machine := runMachine settings keys none assembly.image
    let printed := (machine.sent limit).flatMap (Effect.shown false)
    Drives limit settings color keys (.quick path) tree machine
      (assemblingOutput color path ++
        (haltedOutput color (Effect.texts (machine.sent limit))
          ((if !settings.trace && Text.stopsInLine printed then "\n" else "") ++
            if settings.trace = false ∧ printed = [] ∧ assembly.LeavesOpen then "\n" else "")
          (machine.after limit).processor.cycles ++
        completedOutput color path)) := by
  intro machine printed
  have hdrives := drives_of_prepare limit (prepare_quick_source settings color keys hsource hresult)
  dsimp only at hdrives
  rw [Console.output_notifyAll, Console.color_notifyAll, lineBreak_notifyAll _ hresult rfl,
    runOutput_eq] at hdrives
  exact hdrives

end Prepare

/-- A source that is run at once and one that is assembled to an image which is run then: the same
machine, on the same keys, and the same output from its start to its halt. There is one more line
break in the first case if nothing was shown in between and the last warning of the assembly had
left the console in the middle of a line. -/
theorem quick_agrees_with_run {source : String} (limit : Nat) (settings : Settings) (color : Bool)
    (keys : List Char) (path : String) (hsource : tree.IsSource source text)
    (hresult : (Assembly.assemble .strict text).result = .ok assembly)
    (hwrite : tree.write path assembly.image.encode = .ok tree') :
    let machine := runMachine settings keys none assembly.image
    let written := Effect.texts (machine.sent limit)
    let printed := (machine.sent limit).flatMap (Effect.shown false)
    let cycles := (machine.after limit).processor.cycles
    let ending := if !settings.trace && Text.stopsInLine printed then "\n" else ""
    let extra := if settings.trace = false ∧ printed = [] ∧ assembly.LeavesOpen then "\n" else ""
    (∃ outcome,
      (execute limit settings color keys (.assemble source (some path) false) :
        StateM FileTree (Option Outcome)).run tree = (some outcome, tree') ∧
      outcome.exitCode = 0) ∧
    Drives limit settings color keys (.quick source) tree machine
      (assemblingOutput color source ++
        (haltedOutput color written (ending ++ extra) cycles ++ completedOutput color source)) ∧
    ∀ command, command = .run path false false none ∨
        command = .quick path ∧ Path.extension? path = some "bin" →
      Drives limit settings color keys command tree' machine
        (haltedOutput color written ending cycles ++ completedOutput color path) := by
  intro machine written printed cycles ending extra
  have hread : tree'.read path = .ok assembly.image.encode := FileTree.read_of_write hwrite
  have hdecode := Image.decode_encode assembly.image
  refine ⟨?_, drives_quick_source settings color keys limit hsource hresult, ?_⟩
  · exact exists_outcome_assemble settings color keys limit hsource hresult hwrite
  · rw [← runOutput_eq]
    rintro command (rfl | ⟨rfl, hextension⟩)
    · have hrun := drives_run limit settings color keys false false none hread hdecode
      rwa [Bool.or_false] at hrun
    · exact drives_of_prepare_fresh limit
        (prepare_quick_image settings color keys hextension hread hdecode)

/-- A program that writes one character, from its source and from its image. -/
theorem quick_agrees_with_run_character :
    let settings : Settings := ⟨false, some 0, false, false⟩
    let image : Image := ⟨[0xC000, 1, 0, 14]⟩
    let tree := FileTree.empty.add "f.fox16"
      [0x44, 0x42, 0x47, 0x5F, 0x4C, 0x47, 0x43, 0x20, 0x25, 0x31]
    let tree' := tree.put ["home", "g.bin"] (.file image.encode)
    let machine := runMachine settings [] none image
    let output := haltedOutput false "A" "\n" 3
    (machine.after 3).isHalted = true ∧
    Drives 3 settings false [] (.quick "f.fox16") tree machine
      (assemblingOutput false "f.fox16" ++ (output ++ completedOutput false "f.fox16")) ∧
    Drives 3 settings false [] (.run "g.bin" false false none) tree' machine
      (output ++ completedOutput false "g.bin") ∧
    Drives 3 settings false [] (.quick "g.bin") tree' machine
      (output ++ completedOutput false "g.bin") := by
  intro settings image tree tree' machine output
  have hsource : tree.IsSource "f.fox16" "DBG_LGC %1" :=
    ⟨by decide +kernel, [0x44, 0x42, 0x47, 0x5F, 0x4C, 0x47, 0x43, 0x20, 0x25, 0x31], rfl,
      by decide +kernel⟩
  have hresult : (Assembly.assemble .strict "DBG_LGC %1").result = .ok ⟨image, [],
      [⟨.opcode "DBG_LGC", ⟨0, 7⟩⟩, ⟨.decimal 1, ⟨8, 2⟩⟩, ⟨.terminator, ⟨0, 0⟩⟩]⟩ := by
    decide +kernel
  have hwritten : Effect.texts ((runMachine settings [] none image).sent 3) = "A" := by
    decide +kernel
  have hprinted : ((runMachine settings [] none image).sent 3).flatMap (Effect.shown false) =
      ['A'] := by decide +kernel
  have hcycles : ((runMachine settings [] none image).after 3).processor.cycles = 3 := by
    decide +kernel
  have hending : (if !settings.trace && Text.stopsInLine ['A'] then "\n" else "") = "\n" := rfl
  have hclosed : ¬(settings.trace = false ∧ ['A'] = [] ∧ Assembly.LeavesOpen ⟨image, [],
      [⟨.opcode "DBG_LGC", ⟨0, 7⟩⟩, ⟨.decimal 1, ⟨8, 2⟩⟩, ⟨.terminator, ⟨0, 0⟩⟩]⟩) := by simp
  obtain ⟨-, hquick, hrun⟩ := quick_agrees_with_run 3 settings false [] "g.bin" hsource hresult rfl
  dsimp only at hquick hrun
  rw [hwritten, hprinted, hcycles, hending, if_neg hclosed, String.append_empty] at hquick
  rw [hwritten, hprinted, hcycles, hending] at hrun
  exact ⟨by decide +kernel, hquick, hrun _ (.inl rfl), hrun _ (.inr ⟨rfl, by decide +kernel⟩)⟩

/-- A name that opens a style sequence hides the end of the warning that quotes it. A program that
shows nothing is then run on a console that seems to be in the middle of a line. -/
theorem quick_disagrees_with_run :
    let settings : Settings := ⟨false, some 0, false, false⟩
    let tree := FileTree.empty.add "f.fox16" [0x4E, 0x4F, 0x50, 0x20, 0x3A, 0x1B]
    let executed (command : Command) (tree : FileTree) : Option Outcome × FileTree :=
      (execute 3 settings false [] command : StateM FileTree (Option Outcome)).run tree
    let tree' := (executed (.assemble "f.fox16" (some "g.bin") false) tree).2
    let quick? := (executed (.quick "f.fox16") tree).1.map (·.console.output)
    let run? := (executed (.run "g.bin" false false none) tree').1.map (·.console.output)
    quick? = some ("  Assembling target f.fox16\n" ++
      "     Running emitted binary\n\n      Halted after 3 cycles\n" ++
      "   Completed target f.fox16\n") ∧
    run? = some ("     Running emitted binary\n      Halted after 3 cycles\n" ++
      "   Completed target g.bin\n") ∧
    ¬∃ output,
      quick? = some ("  Assembling target f.fox16\n" ++ output ++ "   Completed target f.fox16\n") ∧
      run? = some (output ++ "   Completed target g.bin\n") := by
  intro settings tree executed tree' quick? run?
  have hquick : quick? = some ("  Assembling target f.fox16\n" ++
      "     Running emitted binary\n\n      Halted after 3 cycles\n" ++
      "   Completed target f.fox16\n") := by decide +kernel
  have hrun : run? = some ("     Running emitted binary\n      Halted after 3 cycles\n" ++
      "   Completed target g.bin\n") := by decide +kernel
  refine ⟨hquick, hrun, ?_⟩
  rintro ⟨output, hquick', hrun'⟩
  have hlong := congrArg String.length (Option.some.inj (hquick.symm.trans hquick'))
  have hshort := congrArg String.length (Option.some.inj (hrun.symm.trans hrun'))
  have hlonger : "     Running emitted binary\n\n      Halted after 3 cycles\n".length =
      "     Running emitted binary\n      Halted after 3 cycles\n".length + 1 := by decide +kernel
  simp only [String.length_append, hlonger] at hlong hshort
  omega

end CommandLine

end FoxMachine
