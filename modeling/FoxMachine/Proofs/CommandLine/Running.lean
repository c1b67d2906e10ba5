import FoxMachine.Proofs.CommandLine.Launching
import FoxMachine.Proofs.Image.Codec

namespace FoxMachine

namespace CommandLine

variable {tree : FileTree} {path : String} {bytes : List UInt8} {image : Image}
  {settings : Settings} {color : Bool} {keys : List Char} {minimal : Bool} {rate? : Option Nat}

theorem prepare_run (settings : Settings) (color : Bool) (keys : List Char) (trace minimal : Bool)
    (rate? : Option Nat) (hread : tree.read path = .ok bytes)
    (hdecode : Image.decode bytes = .ok image) :
    (prepare settings color keys (.run path trace minimal rate?) : StateM FileTree Stage).run tree =
      (.ready ⟨launchSession ⟨true, minimal, settings.trace || trace, color, "", ""⟩
        settings keys rate? image, path⟩, tree) := by
  rw [prepare_eq]
  simp [perform, runOn_loadImage hread hdecode, runOn_launch, startConsole,
    Console.fresh]

theorem drives_run (limit : Nat) (settings : Settings) (color : Bool) (keys : List Char)
    (trace minimal : Bool) (rate? : Option Nat) (hread : tree.read path = .ok bytes)
    (hdecode : Image.decode bytes = .ok image) :
    let machine := runMachine settings keys rate? image
    let printed := (machine.sent limit).flatMap (Effect.shown false)
    Drives limit settings color keys (.run path trace minimal rate?) tree machine
      (runOutput color path (Effect.texts (machine.sent limit))
        (if !(settings.trace || trace) && Text.stopsInLine printed then "\n" else "")
        (machine.after limit).processor.cycles) :=
  drives_of_prepare_fresh limit
    (prepare_run settings color keys trace minimal rate? hread hdecode)

/-- Standard output of runs that halt, without and with tracing, from the environment or from the
command line. -/
theorem output_of_tracing {limit : Nat} (settings : Settings) (color minimal : Bool)
    (hread : tree.read path = .ok bytes) (hdecode : Image.decode bytes = .ok image)
    (hhalted : ((runMachine settings keys rate? image).after limit).isHalted = true) :
    let machine := runMachine settings keys rate? image
    let text := Effect.texts (machine.sent limit)
    let printed := (machine.sent limit).flatMap (Effect.shown false)
    let cycles := (machine.after limit).processor.cycles
    (∃ plain,
      (execute limit { settings with trace := false } color keys (.run path false minimal rate?) :
        StateM FileTree (Option Outcome)).run tree = (some plain, tree) ∧
      plain.failure? = none ∧
      plain.console.output =
        runOutput color path text (if Text.stopsInLine printed then "\n" else "") cycles) ∧
    ∀ fromEnvironment fromArguments : Bool, (fromEnvironment || fromArguments) = true →
      ∃ traced,
        (execute limit { settings with trace := fromEnvironment } color keys
          (.run path fromArguments minimal rate?) : StateM FileTree (Option Outcome)).run tree =
            (some traced, tree) ∧
        traced.failure? = none ∧
        traced.console.output = runOutput color path text "" cycles := by
  intro machine text printed cycles
  constructor
  · obtain ⟨plain, hexecute, hexit, houtput⟩ :=
      (drives_run limit { settings with trace := false } color keys false minimal rate? hread
        hdecode).ends hhalted
    exact ⟨plain, hexecute, Outcome.exitCode_eq_zero_iff.mp hexit, houtput⟩
  · intro fromEnvironment fromArguments htraced
    obtain ⟨traced, hexecute, hexit, houtput⟩ :=
      (drives_run limit { settings with trace := fromEnvironment } color keys fromArguments minimal
        rate? hread hdecode).ends hhalted
    refine ⟨traced, hexecute, Outcome.exitCode_eq_zero_iff.mp hexit, houtput.trans ?_⟩
    simp only [htraced]
    rfl

/-- A program that writes one character and halts, traced from the environment. -/
theorem output_of_tracing_character :
    let settings : Settings := ⟨false, some 0, false, false⟩
    let image : Image := ⟨[0xC000, 0x01, 0x0E]⟩
    let tree := FileTree.empty.add "a.bin" image.encode
    ∃ plain traced,
      (execute 2 settings false [] (.run "a.bin" false false none) :
        StateM FileTree (Option Outcome)).run tree = (some plain, tree) ∧
      (execute 2 { settings with trace := true } false [] (.run "a.bin" false false none) :
        StateM FileTree (Option Outcome)).run tree = (some traced, tree) ∧
      plain.console.output = runOutput false "a.bin" "A" "\n" 2 ∧
      traced.console.output = runOutput false "a.bin" "A" "" 2 := by
  intro settings image tree
  have hhalted : ((runMachine settings [] none image).after 2).isHalted = true := by
    decide +kernel
  have htext : Effect.texts ((runMachine settings [] none image).sent 2) = "A" := by
    decide +kernel
  have hstops : Text.stopsInLine
      (((runMachine settings [] none image).sent 2).flatMap (Effect.shown false)) = true := by
    decide +kernel
  have hcycles : ((runMachine settings [] none image).after 2).processor.cycles = 2 := by
    decide +kernel
  obtain ⟨⟨plain, hplain, -, hplainOutput⟩, htracing⟩ :=
    output_of_tracing settings false false (show tree.read "a.bin" = .ok image.encode from rfl)
      (Image.decode_encode image) hhalted
  obtain ⟨traced, htraced, -, htracedOutput⟩ := htracing true false rfl
  rw [htext, hcycles] at hplainOutput htracedOutput
  rw [hstops] at hplainOutput
  exact ⟨plain, traced, hplain, htraced, hplainOutput, htracedOutput⟩

/-- The line break that a plain run writes behind its last character is missing from the standard
output of the traced one. -/
theorem output_ne_of_tracing :
    let settings : Settings := ⟨false, some 0, false, false⟩
    let tree := FileTree.empty.add "a.bin" (Image.encode ⟨[0xC000, 0x01, 0x0E]⟩)
    let output? (trace : Bool) : Option String :=
      ((execute 2 settings false [] (.run "a.bin" trace false none) :
        StateM FileTree (Option Outcome)).run tree).1.map (·.console.output)
    output? false = some
      "     Running emitted binary\nA\n      Halted after 2 cycles\n   Completed target a.bin\n" ∧
    output? true = some
      "     Running emitted binary\nA      Halted after 2 cycles\n   Completed target a.bin\n" ∧
    output? false ≠ output? true := by
  decide +kernel

end CommandLine

end FoxMachine
