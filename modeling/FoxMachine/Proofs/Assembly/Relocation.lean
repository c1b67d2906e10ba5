import FoxMachine.Proofs.Assembly.Words
import FoxMachine.Proofs.Emission.Words
import FoxMachine.Proofs.Layout.Joining
import FoxMachine.Proofs.Outline.Contents
import FoxMachine.Proofs.Token.Source

namespace FoxMachine

namespace Token

def relocate (distance : UInt16) (token : Token) (value : UInt16) : UInt16 :=
  match token.kind with
  | .label _ => value + distance
  | _ => value

variable {labels : List Label} {value : UInt16}

theorem denotes_relocate {token : Token} (h : token.kind.Denotes labels value) (lines : Nat)
    (distance : UInt16) :
    token.kind.Denotes (labels.map (Label.moved lines distance))
      (token.relocate distance value) := by
  obtain ⟨kind, span⟩ := token
  cases h with
  | decimal => exact .decimal _
  | hexadecimal => exact .hexadecimal _
  | opcode hcode => exact .opcode hcode
  | @label name target htarget =>
      have hmoved : (labels.map (Label.moved lines distance)).find? (·.name == name) =
          some (target.moved lines distance) := by
        rw [List.find?_map]
        exact congrArg (Option.map (Label.moved lines distance)) htarget
      exact .label hmoved

theorem Kind.Denotes.of_nil {kind : Kind} (h : kind.Denotes [] value) (labels : List Label) :
    kind.Denotes labels value := by
  cases h with
  | decimal => exact .decimal _
  | hexadecimal => exact .hexadecimal _
  | opcode hcode => exact .opcode hcode
  | label htarget => contradiction

end Token

namespace Emission

variable {labels : List Label} {tokens : List Token} {words : List UInt16}

def relocated (distance : UInt16) (tokens : List Token) (words : List UInt16) : List UInt16 :=
  (tokens.filter Token.isWord).zipWith (Token.relocate distance) words

theorem Emits.relocated (h : Emits labels tokens words) (lines : Nat) (distance : UInt16) :
    Emits (labels.map (Label.moved lines distance)) tokens
      (Emission.relocated distance tokens words) := by
  unfold Emits at *
  unfold Emission.relocated
  generalize tokens.filter Token.isWord = wordTokens at h ⊢
  induction h with
  | nil => exact .nil
  | cons hdenotes _ ih => exact .cons (Token.denotes_relocate hdenotes lines distance) ih

theorem Emits.of_nil (h : Emits [] tokens words) (labels : List Label) :
    Emits labels tokens words :=
  List.Forall₂.imp (fun _ _ hdenotes => hdenotes.of_nil labels) h

theorem Emits.append {tokens' : List Token} {words' : List UInt16} (h : Emits labels tokens words)
    (h' : Emits labels tokens' words') : Emits labels (tokens ++ tokens') (words ++ words') := by
  unfold Emits
  rw [List.filter_append]
  exact List.rel_append h h'

end Emission

variable {lines lines' : List Line}

namespace Line

theorem countP_terminator_of_tokens {line : Line} {stream : List Token}
    (h : line.tokens = .ok stream) : stream.countP (·.kind == .terminator) = 1 := by
  obtain ⟨words, hwords, rfl⟩ := tokens_eq_ok_iff.mp h
  have hparts : words.countP (·.kind == .terminator) = 0 := by
    rw [List.countP_eq_zero]
    intro token htoken
    obtain ⟨place, _, hread⟩ := Rows.exists_of_mem_right hwords htoken
    have hpart := Token.isPart_of_read hread
    simpa [Token.isPart] using hpart
  rw [List.countP_append, hparts]
  rfl

end Line

theorem countP_terminator_of_lines {streams : List (List Token)}
    (h : List.Forall₂ (fun line stream => Line.tokens line = .ok stream) lines streams) :
    streams.flatten.countP (·.kind == .terminator) = lines.length := by
  induction h with
  | nil => rfl
  | cons hline _ ih =>
      rw [List.flatten_cons, List.countP_append, ih, Line.countP_terminator_of_tokens hline,
        List.length_cons, Nat.add_comm]

namespace Outline

theorem labelsFrom_add (anchor count : Nat) (lines : List Line) :
    labelsFrom (anchor + count) lines = (labelsFrom anchor lines).map (Label.reanchored count) := by
  induction lines generalizing anchor with
  | nil => rfl
  | cons line lines ih =>
      rw [labelsFrom, labelsFrom]
      cases line.declared? with
      | some name => rw [List.map_cons, ← ih, Label.reanchored]
      | none => rw [← ih, Nat.add_right_comm]

def behind (lines : List Line) (outline : Outline) : Outline where
  lines := lines ++ outline.lines
  labels := outline.labels.map (Label.reanchored lines.length)

theorem ofLines_append (h : ∀ line ∈ lines, line.declared? = none) (lines' : List Line) :
    ofLines (lines ++ lines') = (ofLines lines').behind lines := by
  have hcode : ∀ line ∈ lines, line.isCode = true := by
    intro line hline
    exact Line.isCode_of_declared?_eq_none (h line hline)
  have hnone : labelsFrom 0 lines = [] := by
    rw [← labels_ofLines, ofLines_of_declared?_eq_none h]
  have hlines : (ofLines (lines ++ lines')).lines = lines ++ (ofLines lines').lines := by
    rw [lines_ofLines, lines_ofLines, List.filter_append, List.filter_eq_self.mpr hcode]
  have hlabels : (ofLines (lines ++ lines')).labels =
      (ofLines lines').labels.map (Label.reanchored lines.length) := by
    rw [labels_ofLines, labels_ofLines, labelsFrom_append, hnone, List.countP_eq_length.mpr hcode,
      labelsFrom_add, List.nil_append]
  rw [behind, ← hlines, ← hlabels]

end Outline

structure DeclaresNothing (source : String) : Prop where
  declared?_eq_none : ∀ line ∈ cleanLines source.toList, line.declared? = none
  inlineFree : ∀ line ∈ cleanLines source.toList, line.InlineFree

namespace DeclaresNothing

variable {first : String}

theorem outline_eq (h : DeclaresNothing first) :
    Outline.ofSource first = ⟨cleanLines first.toList, []⟩ :=
  Outline.ofLines_of_declared?_eq_none h.declared?_eq_none

theorem alike_joined (h : DeclaresNothing first) (second : String) :
    ((Outline.ofSource second).behind (cleanLines first.toList)).Alike
      (Outline.ofSource (first ++ "\n" ++ second)) := by
  have htext : (first ++ "\n" ++ second).toList = first.toList ++ '\n' :: second.toList := by
    simp
  have hcontents := contents_append_newline first.toList second.toList
  rw [Outline.ofSource, ← Outline.ofLines_append h.declared?_eq_none]
  apply Outline.alike_of_contents
  rw [List.map_append, htext]
  exact hcontents.symm

end DeclaresNothing

namespace Assembly

def code (assembly : Assembly) : List UInt16 :=
  assembly.image.words.take (assembly.image.size - 2)

theorem code_of_words {assembly : Assembly} {words : List UInt16}
    (h : assembly.image.words = words ++ [0x00, 0x0E]) : assembly.code = words := by
  simp [code, Image.size, h]

theorem emits_code {source : String} {assembly : Assembly}
    (h : (assemble .strict source).result = .ok assembly) :
    assembly.image.words = assembly.code ++ [0x00, 0x0E] ∧
      Emission.Emits assembly.labels assembly.tokens assembly.code := by
  obtain ⟨_, _, emission, hemission, himage⟩ := emission_of_result h
  have hwords : assembly.image.words = emission.words ++ [0x00, 0x0E] := by
    rw [himage, Emission.words_image]
  rw [code_of_words hwords]
  exact ⟨hwords, Emission.emits_of_ofTokens hemission⟩

/-- The assembly of a program behind so many lines of other code. Its labels are those of the
program, moved on; its words are those of the other code, those of the program, moved along with
their labels, and the footer. -/
structure IsRelocated (lines : Nat) (prior main joined : Assembly) : Prop where
  kinds_eq : joined.tokens.map Token.kind =
    prior.tokens.map Token.kind ++ main.tokens.map Token.kind
  labels_eq : joined.labels = main.labels.map (Label.moved lines prior.code.length.toUInt16)
  words_eq : joined.image.words =
    prior.code ++ Emission.relocated prior.code.length.toUInt16 main.tokens main.code ++
      [0x00, 0x0E]

section Joined

variable {first second : String} {prior main : Assembly}

theorem tokenStream_joined (hfirst : DeclaresNothing first)
    (hprior : (assemble .strict first).result = .ok prior)
    (hmain : (assemble .strict second).result = .ok main) :
    tokenStream ((Outline.ofSource second).behind (cleanLines first.toList)).lines =
      .ok (prior.tokens ++ main.tokens) := by
  obtain ⟨htokens, _⟩ := emission_of_result hprior
  obtain ⟨htokens', _⟩ := emission_of_result hmain
  rw [hfirst.outline_eq] at htokens
  change tokenStream (cleanLines first.toList ++ (Outline.ofSource second).lines) = _
  rw [tokenStream_append, htokens, htokens']
  rfl

theorem resolve_joined (hfirst : DeclaresNothing first)
    (hprior : (assemble .strict first).result = .ok prior)
    (hmain : (assemble .strict second).result = .ok main) :
    Label.resolve (prior.tokens ++ main.tokens)
        ((Outline.ofSource second).behind (cleanLines first.toList)).labels =
      main.labels.map
        (Label.moved (cleanLines first.toList).length prior.code.length.toUInt16) := by
  obtain ⟨streams, _, hmade⟩ := exists_madeOf hprior
  obtain ⟨streams', _, hmade'⟩ := exists_madeOf hmain
  have hlines : (Outline.ofSource first).lines = cleanLines first.toList := by
    rw [hfirst.outline_eq]
  have hplain := isPlainLine_of_lines hmade.lines (hlines ▸ hfirst.inlineFree)
  have hlength : (cleanLines first.toList).length = streams.length := by
    rw [← hlines, hmade.lines.length_eq]
  have hwords : prior.code.length = streams.flatten.countP Token.isWord := by
    rw [(emits_code hprior).2.length_eq, hmade.tokens]
  have hsorted : (Outline.ofSource second).labels.Pairwise
      fun first second => first.line ≤ second.line := by
    rw [Outline.ofSource, Outline.labels_ofLines]
    exact Outline.pairwise_anchor_labelsFrom _ _
  have hbound : ∀ label ∈ (Outline.ofSource second).labels,
      label.line ≤ streams'.flatten.countP (·.kind == .terminator) := by
    intro label hlabel
    rw [countP_terminator_of_lines hmade'.lines]
    exact line_le_length_of_mem_labels hlabel
  rw [Outline.behind, hmade.tokens, hmade'.tokens, hmade'.labels, hlength, hwords]
  exact Label.resolve_behind hplain hsorted hbound

theorem emits_joined (hfirst : DeclaresNothing first)
    (hprior : (assemble .strict first).result = .ok prior)
    (hmain : (assemble .strict second).result = .ok main) (lines : Nat) (distance : UInt16) :
    Emission.Emits (main.labels.map (Label.moved lines distance)) (prior.tokens ++ main.tokens)
      (prior.code ++ Emission.relocated distance main.tokens main.code) := by
  have hlabels : prior.labels = [] := by
    rw [(emission_of_result hprior).2.1, hfirst.outline_eq, Label.resolve_nil]
  have hemits := (emits_code hprior).2
  rw [hlabels] at hemits
  exact (hemits.of_nil _).append ((emits_code hmain).2.relocated lines distance)

/-- Code that declares nothing moves the labels of a program behind it, and changes nothing else. -/
theorem relocation_of_prepended (hfirst : DeclaresNothing first)
    (hprior : (assemble .strict first).result = .ok prior)
    (hmain : (assemble .strict second).result = .ok main) :
    prior.image.words = prior.code ++ [0x00, 0x0E] ∧
      main.image.words = main.code ++ [0x00, 0x0E] ∧
      Emission.Emits main.labels main.tokens main.code ∧
      ∃ joined, (assemble .strict (first ++ "\n" ++ second)).result = .ok joined ∧
        IsRelocated (cleanLines first.toList).length prior main joined := by
  obtain ⟨hwords, _⟩ := emits_code hprior
  obtain ⟨hwords', hemits'⟩ := emits_code hmain
  refine ⟨hwords, hwords', hemits', ?_⟩
  have halike := hfirst.alike_joined second
  -- The spans of the joined tokens are not those of the parts, but nothing else depends on them.
  have hagree := agree_tokenStream halike.lines
  rw [tokenStream_joined hfirst hprior hmain] at hagree
  obtain ⟨tokens, htokens, hkinds⟩ := hagree.exists_of_ok
  have hlabels := resolve_joined hfirst hprior hmain
  rw [hkinds.resolve_eq, halike.labels_eq] at hlabels
  have hemits := emits_joined hfirst hprior hmain (cleanLines first.toList).length
    prior.code.length.toUInt16
  have hemission := hkinds.agree_ofTokens .strict (main.labels.map
    (Label.moved (cleanLines first.toList).length prior.code.length.toUInt16))
  rw [Emission.ofTokens_of_emits hemits] at hemission
  obtain ⟨emission, hemission, hjoined⟩ := hemission.exists_of_ok
  rw [result_assemble, htokens]
  dsimp only
  rw [hlabels, hemission]
  refine ⟨_, rfl, ?_, rfl, ?_⟩
  · rw [← Token.sameKinds_iff_map_kind.mp hkinds, List.map_append]
  · change emission.words ++ [0x00, 0x0E] = _
    rw [← hjoined]

/-- An inline declaration and a line of its own, behind two words. -/
theorem relocation_of_prepended_twoWords :
    DeclaresNothing "DWR %3 ; x" ∧
      ∃ prior main joined, (assemble .strict "DWR %3 ; x").result = .ok prior ∧
        (assemble .strict ":a\nNOP :b JMP a\n:c\nJMP c").result = .ok main ∧
        main.image.words = [0x00, 0x0C, 1, 0x0C, 3, 0x00, 0x0E] ∧
        (assemble .strict ("DWR %3 ; x" ++ "\n" ++ ":a\nNOP :b JMP a\n:c\nJMP c")).result =
          .ok joined ∧
        joined.image.words = [0x14, 3, 0x00, 0x0C, 3, 0x0C, 5, 0x00, 0x0E] ∧
        joined.labels = [⟨"a", 1, 3⟩, ⟨"c", 2, 5⟩] := by
  have hfirst : DeclaresNothing "DWR %3 ; x" := ⟨by decide +kernel, by decide +kernel⟩
  have hprior : (assemble .strict "DWR %3 ; x").result =
      .ok ⟨⟨[0x14, 3, 0x00, 0x0E]⟩, [],
        [⟨.opcode "DWR", ⟨0, 3⟩⟩, ⟨.decimal 3, ⟨4, 2⟩⟩, Token.terminator]⟩ := by
    decide +kernel
  have hmain : (assemble .strict ":a\nNOP :b JMP a\n:c\nJMP c").result =
      .ok ⟨⟨[0x00, 0x0C, 1, 0x0C, 3, 0x00, 0x0E]⟩, [⟨"a", 0, 1⟩, ⟨"c", 1, 3⟩],
        [⟨.opcode "NOP", ⟨3, 3⟩⟩, ⟨.declaration "b", ⟨7, 2⟩⟩, ⟨.opcode "JMP", ⟨10, 3⟩⟩,
          ⟨.label "a", ⟨14, 1⟩⟩, Token.terminator, ⟨.opcode "JMP", ⟨19, 3⟩⟩,
          ⟨.label "c", ⟨23, 1⟩⟩, Token.terminator]⟩ := by
    decide +kernel
  obtain ⟨_, _, _, joined, hjoined, hrelocated⟩ := relocation_of_prepended hfirst hprior hmain
  refine ⟨hfirst, _, _, joined, hprior, hmain, rfl, hjoined, ?_, ?_⟩
  · exact hrelocated.words_eq.trans (by decide +kernel)
  · exact hrelocated.labels_eq.trans (by decide +kernel)

end Joined

end Assembly

end FoxMachine
