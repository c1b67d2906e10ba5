import FoxMachine.Proofs.CommandLine.Work
import FoxMachine.Proofs.CommandLine.Writing
import FoxMachine.Proofs.Image.Codec

namespace FoxMachine

structure FileTree.IsSource (tree : FileTree) (path text : String) : Prop where
  extension : Path.extension? path = some "fox16"
  decoded : ∃ bytes, tree.read path = .ok bytes ∧ Text.decode? bytes = some text

namespace CommandLine

variable {tree tree' : FileTree} {path text : String} {mode : Mode} {assembly : Assembly}

theorem runOn_readSource (console : Console) (h : tree.IsSource path text) :
    runOn (readSource path) console tree = ((.ok text, console), tree) := by
  obtain ⟨bytes, hread, htext⟩ := h.decoded
  simp [readSource, runOn_requirePresent (FileTree.holds_of_read hread), h.extension,
    runOn_readFound hread, htext]

theorem runOn_readSource_failing (console : Console) (h : ∀ text, ¬tree.IsSource path text) :
    ∃ failure, runOn (readSource path) console tree = ((.error failure, console), tree) := by
  cases hholds : tree.holds path with
  | false => exact ⟨.missing path, by simp [readSource, requirePresent, hholds]⟩
  | true =>
      have hpresent : runOn (requirePresent path) console tree = ((.ok (), console), tree) :=
        runOn_requirePresent hholds
      by_cases hextension : Path.extension? path = some "fox16"
      case neg => exact ⟨.notSource path, by simp [readSource, hpresent, hextension]⟩
      case pos =>
        cases hread : tree.read path with
        | error fault =>
            exact ⟨.file fault, by simp [readSource, hpresent, hextension, readFound, hread]⟩
        | ok bytes =>
            cases htext : Text.decode? bytes with
            | none =>
                exact ⟨.notText, by
                  simp [readSource, hpresent, hextension, runOn_readFound hread, htext]⟩
            | some text => exact absurd ⟨hextension, bytes, hread, htext⟩ (h text)

theorem runOn_assembleFile (console : Console) (h : tree.IsSource path text)
    (hresult : (Assembly.assemble mode text).result = .ok assembly) :
    runOn (assembleFile mode path) console tree =
      ((.ok assembly, console.notifyAll (Assembly.assemble mode text).notices), tree) := by
  simp [assembleFile, runOn_readSource console h, hresult, Except.map]

theorem runOn_assembleFile_failing (console : Console)
    (h : ¬∃ text assembly, tree.IsSource path text ∧
      (Assembly.assemble mode text).result = .ok assembly) :
    ∃ failure console',
      runOn (assembleFile mode path) console tree = ((.error failure, console'), tree) := by
  by_cases hsource : ∃ text, tree.IsSource path text
  case neg =>
    obtain ⟨failure, hfailure⟩ := runOn_readSource_failing console (not_exists.mp hsource)
    exact ⟨failure, console, by simp [assembleFile, hfailure]⟩
  case pos =>
    obtain ⟨text, htext⟩ := hsource
    cases hresult : (Assembly.assemble mode text).result with
    | ok assembly => exact absurd ⟨text, assembly, htext, hresult⟩ h
    | error fault =>
        exact ⟨.source fault, console.notifyAll (Assembly.assemble mode text).notices, by
          simp [assembleFile, runOn_readSource console htext, hresult]⟩

section Command

variable (settings : Settings) (color : Bool) (keys : List Char) (limit : Nat)
  {source : String} {destination? : Option String} {lenient : Bool}

theorem exists_outcome_assemble (h : tree.IsSource source text)
    (hresult : (Assembly.assemble (if lenient then .lenient else .strict) text).result =
      .ok assembly)
    (hwrite : tree.write (destination?.getD defaultImage) assembly.image.encode = .ok tree') :
    ∃ outcome,
      (execute limit settings color keys (.assemble source destination? lenient) :
        StateM FileTree (Option Outcome)).run tree = (some outcome, tree') ∧
      outcome.exitCode = 0 := by
  rw [execute_eq, prepare_eq]
  simp only [perform, report, ended, runOn_bind, runOn_change, runOn_assembleFile _ h hresult,
    runOn_save hwrite, runOn_get, runOn_pure]
  exact ⟨_, rfl, rfl⟩

theorem exists_outcome_assemble_failing
    (h : ¬∃ text assembly, tree.IsSource source text ∧
      (Assembly.assemble (if lenient then .lenient else .strict) text).result = .ok assembly) :
    ∃ outcome,
      (execute limit settings color keys (.assemble source destination? lenient) :
        StateM FileTree (Option Outcome)).run tree = (some outcome, tree) ∧
      outcome.exitCode = 1 := by
  obtain ⟨failure, console, hfailure⟩ := runOn_assembleFile_failing
    (progress (startConsole settings color) .green "Assembling" (target source)) h
  rw [execute_eq, prepare_eq]
  simp only [perform, report, runOn_bind, runOn_change, hfailure]
  exact ⟨_, rfl, rfl⟩

end Command

/-- The command that assembles a source exits with one and leaves all files as they are, or it exits
with zero and has written the whole image to the destination and nothing anywhere else. -/
theorem execute_assemble_all_or_nothing (limit : Nat) (settings : Settings) (color : Bool)
    (keys : List Char) (tree : FileTree) (source : String) (destination? : Option String)
    (lenient : Bool) :
    let mode : Mode := if lenient then .lenient else .strict
    let destination := destination?.getD "fox16.bin"
    let executed :=
      (execute limit settings color keys (.assemble source destination? lenient) :
        StateM FileTree (Option Outcome)).run tree
    ((¬∃ text assembly, tree.IsSource source text ∧
        (Assembly.assemble mode text).result = .ok assembly) →
      ∃ outcome, executed = (some outcome, tree) ∧ outcome.exitCode = 1) ∧
    ∀ text assembly tree', tree.IsSource source text →
      (Assembly.assemble mode text).result = .ok assembly →
      tree.write destination assembly.image.encode = .ok tree' →
      ∃ outcome, executed = (some outcome, tree') ∧ outcome.exitCode = 0 ∧
        (∃ bytes, tree'.read destination = .ok bytes ∧ bytes = assembly.image.encode ∧
          Image.decode bytes = .ok assembly.image) ∧
        tree.DiffersAt destination tree' := by
  intro mode destination executed
  constructor
  · exact exists_outcome_assemble_failing settings color keys limit
  · intro text assembly tree' hsource hresult hwrite
    obtain ⟨outcome, hexecute, hexit⟩ :=
      exists_outcome_assemble settings color keys limit hsource hresult hwrite
    exact ⟨outcome, hexecute, hexit,
      ⟨_, FileTree.read_of_write hwrite, rfl, Image.decode_encode assembly.image⟩,
      FileTree.differsAt_of_write hwrite⟩

/-- A source that assembles, next to one that does not and leaves an earlier image alone. -/
theorem execute_assemble_all_or_nothing_nop :
    let settings : Settings := ⟨false, none, false, false⟩
    let tree := ((FileTree.empty.add "nop.fox16" [0x4E, 0x4F, 0x50]).add "foo.fox16"
      [0x66, 0x6F, 0x6F]).add "fox16.bin" [1, 2, 3]
    (∃ outcome tree',
      (execute 0 settings false [] (.assemble "nop.fox16" none false) :
        StateM FileTree (Option Outcome)).run tree = (some outcome, tree') ∧
      outcome.exitCode = 0 ∧ tree'.read "fox16.bin" = .ok (Image.encode ⟨[0, 0, 14]⟩) ∧
      tree.DiffersAt "fox16.bin" tree') ∧
    ∃ outcome,
      (execute 0 settings false [] (.assemble "foo.fox16" none false) :
        StateM FileTree (Option Outcome)).run tree = (some outcome, tree) ∧
      outcome.exitCode = 1 ∧ tree.read "fox16.bin" = .ok [1, 2, 3] := by
  intro settings tree
  constructor
  · have hsource : tree.IsSource "nop.fox16" "NOP" :=
      ⟨by decide +kernel, [0x4E, 0x4F, 0x50], rfl, by decide +kernel⟩
    have hresult : (Assembly.assemble .strict "NOP").result =
        .ok ⟨⟨[0, 0, 14]⟩, [], [⟨.opcode "NOP", ⟨0, 3⟩⟩, ⟨.terminator, ⟨0, 0⟩⟩]⟩ := by
      decide +kernel
    obtain ⟨outcome, hexecute, hexit, ⟨bytes, hread, rfl, -⟩, hdiffers⟩ :=
      (execute_assemble_all_or_nothing 0 settings false [] tree "nop.fox16" none false).2
        _ _ _ hsource hresult rfl
    exact ⟨outcome, _, hexecute, hexit, hread, hdiffers⟩
  · have hfails : ¬∃ text assembly, tree.IsSource "foo.fox16" text ∧
        (Assembly.assemble .strict text).result = .ok assembly := by
      rintro ⟨text, assembly, ⟨-, bytes, hread, htext⟩, hresult⟩
      have hbytes : bytes = [0x66, 0x6F, 0x6F] := by
        have hfoo : tree.read "foo.fox16" = .ok [0x66, 0x6F, 0x6F] := rfl
        exact Except.ok.inj (hread.symm.trans hfoo)
      have hfoo : text = "foo" := by
        subst hbytes
        have hdecoded : Text.decode? [0x66, 0x6F, 0x6F] = some "foo" := by decide +kernel
        exact Option.some.inj (htext.symm.trans hdecoded)
      subst hfoo
      have herror : (Assembly.assemble .strict "foo").result =
          .error (.unknownInstruction ⟨0, 3⟩ "foo") := by decide +kernel
      rw [herror] at hresult
      contradiction
    obtain ⟨outcome, hexecute, hexit⟩ :=
      (execute_assemble_all_or_nothing 0 settings false [] tree "foo.fox16" none false).1 hfails
    exact ⟨outcome, hexecute, hexit, rfl⟩

end CommandLine

end FoxMachine
