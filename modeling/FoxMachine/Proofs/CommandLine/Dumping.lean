import FoxMachine.Proofs.CommandLine.Work
import FoxMachine.Proofs.Image.Codec
import FoxMachine.Proofs.Listing.Reading

namespace FoxMachine

namespace Console

theorem output_announceAll (entries : List Listing.Entry) (console : Console) :
    (entries.foldl (fun console entry => console.announce entry.text) console).output =
      console.output ++ Listing.printed entries := by
  induction entries generalizing console with
  | nil => simp [Listing.printed]
  | cons entry entries ih =>
      rw [List.foldl_cons, ih]
      simp [announce, Listing.printed, String.append_assoc]

end Console

namespace CommandLine

variable {tree : FileTree} {path : String} {bytes : List UInt8} {image : Image}

theorem exists_outcome_dump (limit : Nat) (settings : Settings) (color : Bool) (keys : List Char)
    (hread : tree.read path = .ok bytes) (hdecode : Image.decode bytes = .ok image) :
    ∃ outcome,
      (execute limit settings color keys (.dump path) : StateM FileTree (Option Outcome)).run tree =
        (some outcome, tree) ∧
      outcome.exitCode = 0 ∧
      outcome.console.output = Listing.printed (Listing.ofWords image.words) := by
  refine ⟨⟨(Listing.ofWords image.words).foldl (fun console entry => console.announce entry.text)
    (startConsole settings color), none⟩, ?_, rfl, ?_⟩
  · rw [execute_eq, prepare_eq]
    simp only [perform, ended, runOn_bind, runOn_loadImage hread hdecode, runOn_change, runOn_get,
      runOn_pure]
  · rw [Console.output_announceAll]
    exact String.empty_append

/-- The lines of a listing say the listed words, and at which of them each line starts; so no other
words have the listing. It is all that goes to standard output when the image of the words is
listed. -/
theorem words_of_dump (words : List UInt16) :
    (∃ rows, Listing.read? (Listing.printed (Listing.ofWords words)) = some rows ∧
      Listing.Says rows words) ∧
    (∀ words', Listing.printed (Listing.ofWords words') = Listing.printed (Listing.ofWords words) →
      words' = words) ∧
    ∀ limit settings color keys tree path bytes, FileTree.read tree path = .ok bytes →
      Image.decode bytes = .ok ⟨words⟩ →
      ∃ outcome,
        (execute limit settings color keys (.dump path) : StateM FileTree (Option Outcome)).run
          tree = (some outcome, tree) ∧
        outcome.exitCode = 0 ∧
        outcome.console.output = Listing.printed (Listing.ofWords words) := by
  refine ⟨⟨_, Listing.read?_printed_ofWords words, Listing.says_ofWords words⟩, ?_, ?_⟩
  · exact fun words' h => Listing.printed_ofWords_injective h
  · intro limit settings color keys tree path bytes hread hdecode
    exact exists_outcome_dump limit settings color keys hread hdecode

/-- An operand that is the code of a jump, words that are no codes, and a code without its operand.
-/
theorem words_of_dump_truncated :
    let words : List UInt16 := [0x14, 0x0C, 0xFFFF, 0x04, 0x0C, 0x0C, 0x00F0, 0x14]
    let tree := FileTree.empty.add "a.bin" (Image.encode ⟨words⟩)
    let text := "$0000 0014 DWR 000C (12)\n$0002 FFFF .word\n$0003 0004 AXY\n" ++
      "$0004 000C JMP 000C (12)\n$0006 00F0 .word\n$0007 0014 DWR\n"
    (∃ outcome,
      (execute 0 ⟨false, none, false, false⟩ false [] (.dump "a.bin") :
        StateM FileTree (Option Outcome)).run tree = (some outcome, tree) ∧
      outcome.exitCode = 0 ∧ outcome.console.output = text) ∧
    (∃ rows, Listing.read? text = some rows ∧ Listing.Says rows words) ∧
    ∀ words', Listing.printed (Listing.ofWords words') = text → words' = words := by
  intro words tree text
  have htext : Listing.printed (Listing.ofWords words) = text := by decide +kernel
  have hread : tree.read "a.bin" = .ok (Image.encode ⟨words⟩) := by decide +kernel
  obtain ⟨hrows, hunique, hdump⟩ := words_of_dump words
  rw [htext] at hrows hunique
  have houtcome := hdump 0 ⟨false, none, false, false⟩ false [] tree "a.bin" _ hread
    (Image.decode_encode ⟨words⟩)
  rw [htext] at houtcome
  exact ⟨houtcome, hrows, hunique⟩

end CommandLine

end FoxMachine
