import FoxMachine.Assembly
import FoxMachine.Proofs.Emission.Words
import FoxMachine.Proofs.Layout.Lines
import FoxMachine.Proofs.Outline.Labels
import FoxMachine.Proofs.Outline.Lines
import FoxMachine.Proofs.Rows
import FoxMachine.Proofs.Token.Reading

namespace FoxMachine

namespace Line

def InlineFree (line : Line) : Prop :=
  ∀ part ∈ line.parts, part.text.head? ≠ some ':'

instance (line : Line) : Decidable line.InlineFree :=
  inferInstanceAs (Decidable (∀ part ∈ line.parts, part.text.head? ≠ some ':'))

/-- The line stands for these words under a table of labels. -/
def Emits (labels : List Label) (line : Line) (block : List UInt16) : Prop :=
  ∃ stream, line.tokens = .ok stream ∧ Emission.Emits labels stream block

theorem forall_isWord_of_inlineFree {line : Line} {words : List Token} (hinline : line.InlineFree)
    (hwords : List.Forall₂ (fun place token => Place.read place = .ok token) line.places words) :
    ∀ token ∈ words, token.isWord = true := by
  intro token htoken
  obtain ⟨place, hplace, hread⟩ := Rows.exists_of_mem_right hwords htoken
  have hpart : place.piece ∈ line.parts := by
    rw [← map_piece_places]
    exact List.mem_map_of_mem hplace
  exact Token.Kind.isWord_of_spelledBy (Place.read_eq_ok_iff.mp hread).1 (hinline _ hpart)

theorem isPlainLine_of_inlineFree {line : Line} {stream : List Token} (hinline : line.InlineFree)
    (hstream : line.tokens = .ok stream) : Token.IsPlainLine stream := by
  obtain ⟨words, hwords, rfl⟩ := tokens_eq_ok_iff.mp hstream
  exact ⟨words, rfl, forall_isWord_of_inlineFree hinline hwords⟩

theorem Emits.length_eq {labels : List Label} {line : Line} {block : List UInt16}
    (hemits : line.Emits labels block) (hinline : line.InlineFree) :
    block.length = line.parts.length := by
  obtain ⟨stream, hstream, hblock⟩ := hemits
  obtain ⟨words, hwords, rfl⟩ := tokens_eq_ok_iff.mp hstream
  have hcount : words.countP Token.isWord = words.length :=
    List.countP_eq_length.mpr (forall_isWord_of_inlineFree hinline hwords)
  rw [hblock.length_eq, List.countP_append, hcount, ← List.Forall₂.length_eq hwords,
    ← map_piece_places, List.length_map]
  rfl

end Line

namespace Assembly

theorem result_assemble (mode : Mode) (source : String) :
    (assemble mode source).result =
      match tokenStream (Outline.ofSource source).lines with
      | .error fault => .error fault
      | .ok tokens =>
          let labels := Label.resolve tokens (Outline.ofSource source).labels
          (Emission.ofTokens mode labels tokens).map fun emission =>
            ⟨emission.image, labels, tokens⟩ := by
  unfold assemble generate
  cases htokens : tokenStream (Outline.ofSource source).lines with
  | error fault => simp [htokens]
  | ok tokens =>
      simp only [htokens]
      cases Emission.ofTokens mode _ tokens <;> rfl

theorem line_le_length_of_mem_labels {source : String} {label : Label}
    (hlabel : label ∈ (Outline.ofSource source).labels) :
    label.line ≤ (Outline.ofSource source).lines.length := by
  rw [Outline.ofSource, Outline.labels_ofLines] at hlabel
  have hanchor := (Outline.anchor_mem_labelsFrom hlabel).2
  rwa [Nat.zero_add, List.countP_eq_length_filter] at hanchor

section Labels

variable {source : String} {streams : List (List Token)}

theorem isPlainLine_of_lines
    (hlines : List.Forall₂ (fun line stream => line.tokens = .ok stream)
      (Outline.ofSource source).lines streams)
    (hinline : ∀ line ∈ (Outline.ofSource source).lines, line.InlineFree) :
    ∀ stream ∈ streams, Token.IsPlainLine stream := by
  intro stream hstream
  obtain ⟨line, hline, htokens⟩ := Rows.exists_of_mem_right hlines hstream
  exact Line.isPlainLine_of_inlineFree (hinline line hline) htokens

theorem resolve_of_lines
    (hlines : List.Forall₂ (fun line stream => line.tokens = .ok stream)
      (Outline.ofSource source).lines streams)
    (hinline : ∀ line ∈ (Outline.ofSource source).lines, line.InlineFree) :
    Label.resolve streams.flatten (Outline.ofSource source).labels =
      (Outline.ofSource source).labels.map fun label =>
        { label with
          address := ((streams.take label.line).flatten.countP Token.isWord).toUInt16 } := by
  have hlabels : (Outline.ofSource source).labels =
      Outline.labelsFrom 0 (cleanLines source.toList) := Outline.labels_ofLines _
  have hsorted := Outline.pairwise_anchor_labelsFrom 0 (cleanLines source.toList)
  apply Label.resolve_lines (isPlainLine_of_lines hlines hinline) (hlabels ▸ hsorted)
  intro label hlabel
  rw [← List.Forall₂.length_eq hlines]
  exact line_le_length_of_mem_labels hlabel

theorem lines_of_declaration {before after : List Line} {declaration : Line} {name : String}
    (hsplit : cleanLines source.toList = before ++ declaration :: after)
    (hname : declaration.declared? = some name) :
    (Outline.ofSource source).lines = before.filter Line.isCode ++ after.filter Line.isCode := by
  rw [Outline.ofSource, Outline.lines_ofLines, hsplit, List.filter_append,
    List.filter_cons_of_neg (by simp [Line.isCode_eq_false_of_declared? hname])]

/-- A declaration cuts the streams in two: those of the lines before it and those of the lines
behind it. Its label counts the word tokens of the former. -/
theorem exists_streams_of_declaration
    (hlines : List.Forall₂ (fun line stream => line.tokens = .ok stream)
      (Outline.ofSource source).lines streams)
    (hinline : ∀ line ∈ (Outline.ofSource source).lines, line.InlineFree)
    {before after : List Line} {declaration : Line} {name : String}
    (hsplit : cleanLines source.toList = before ++ declaration :: after)
    (hname : declaration.declared? = some name) :
    ∃ earlier later, streams = earlier ++ later ∧
      List.Forall₂ (fun line stream => line.tokens = .ok stream) (before.filter Line.isCode)
        earlier ∧
      List.Forall₂ (fun line stream => line.tokens = .ok stream) (after.filter Line.isCode) later ∧
      (Label.resolve streams.flatten (Outline.ofSource source).labels)[
          before.countP Line.isDeclaration]? =
        some ⟨name, before.countP Line.isCode,
          (earlier.flatten.countP Token.isWord).toUInt16⟩ := by
  have hlabels : (Outline.ofSource source).labels =
      Outline.labelsFrom 0 (before ++ declaration :: after) := by
    rw [← hsplit]
    exact Outline.labels_ofLines _
  have hresolve := resolve_of_lines hlines hinline
  rw [lines_of_declaration hsplit hname] at hlines
  obtain ⟨earlier, later, rfl, hearlier, hlater⟩ := Rows.exists_append_of_append_left hlines
  have hcount : before.countP Line.isCode = earlier.length := by
    rw [← List.Forall₂.length_eq hearlier, List.countP_eq_length_filter]
  refine ⟨earlier, later, rfl, hearlier, hlater, ?_⟩
  rw [hresolve, hlabels, List.getElem?_map, Outline.getElem?_labelsFrom hname, Option.map_some,
    hcount, List.take_left]

end Labels

/-- The lines of code of a source give streams of tokens, and the streams give blocks of words, of
which the assembly is made. -/
structure MadeOf (source : String) (assembly : Assembly) (streams : List (List Token))
    (blocks : List (List UInt16)) : Prop where
  lines : List.Forall₂ (fun line stream => line.tokens = .ok stream) (Outline.ofSource source).lines
    streams
  emits : List.Forall₂ (Emission.Emits assembly.labels) streams blocks
  tokens : assembly.tokens = streams.flatten
  labels : assembly.labels = Label.resolve streams.flatten (Outline.ofSource source).labels
  words : assembly.image.words = blocks.flatten ++ [0x00, 0x0E]

theorem result_eq_ok_iff {mode : Mode} {source : String} {assembly : Assembly} :
    (assemble mode source).result = .ok assembly ↔
      ∃ streams emission,
        List.Forall₂ (fun line stream => line.tokens = .ok stream) (Outline.ofSource source).lines
          streams ∧
        assembly.tokens = streams.flatten ∧
        assembly.labels = Label.resolve streams.flatten (Outline.ofSource source).labels ∧
        Emission.ofTokens mode assembly.labels streams.flatten = .ok emission ∧
        assembly.image = emission.image := by
  rw [result_assemble]
  constructor
  · intro h
    cases htokens : tokenStream (Outline.ofSource source).lines with
    | error fault =>
        rw [htokens] at h
        contradiction
    | ok tokens =>
        rw [htokens] at h
        obtain ⟨emission, hemission, hassembly⟩ := FirstFault.map_eq_ok_iff.mp h
        have hlabels : assembly.labels = Label.resolve tokens (Outline.ofSource source).labels := by
          rw [hassembly]
        have htokens' : assembly.tokens = tokens := by rw [hassembly]
        have himage : assembly.image = emission.image := by rw [hassembly]
        rw [← hlabels] at hemission
        obtain ⟨streams, hstreams, rfl⟩ := tokenStream_eq_ok_iff.mp htokens
        exact ⟨streams, emission, hstreams, htokens', hlabels, hemission, himage⟩
  · intro h
    obtain ⟨streams, emission, hstreams, htokens, hlabels, hemission, himage⟩ := h
    rw [tokenStream_eq_ok_iff.mpr ⟨streams, hstreams, rfl⟩, FirstFault.map_eq_ok_iff]
    rw [hlabels] at hemission
    refine ⟨emission, hemission, ?_⟩
    rw [← himage, ← hlabels, ← htokens]

theorem emission_of_result {mode : Mode} {source : String} {assembly : Assembly}
    (h : (assemble mode source).result = .ok assembly) :
    tokenStream (Outline.ofSource source).lines = .ok assembly.tokens ∧
      assembly.labels = Label.resolve assembly.tokens (Outline.ofSource source).labels ∧
      ∃ emission, Emission.ofTokens mode assembly.labels assembly.tokens = .ok emission ∧
        assembly.image = emission.image := by
  obtain ⟨streams, emission, hstreams, htokens, hlabels, hemission, himage⟩ :=
    result_eq_ok_iff.mp h
  rw [← htokens] at hlabels hemission
  have hread : tokenStream (Outline.ofSource source).lines = .ok assembly.tokens :=
    tokenStream_eq_ok_iff.mpr ⟨streams, hstreams, htokens⟩
  exact ⟨hread, hlabels, emission, hemission, himage⟩

theorem exists_madeOf {source : String} {assembly : Assembly}
    (h : (assemble .strict source).result = .ok assembly) :
    ∃ streams blocks, MadeOf source assembly streams blocks := by
  obtain ⟨streams, emission, hstreams, htokens, hlabels, hemission, himage⟩ :=
    result_eq_ok_iff.mp h
  obtain ⟨blocks, hblocks, hwords⟩ := (Emission.emits_of_ofTokens hemission).exists_blocks
  refine ⟨streams, blocks, hstreams, hblocks, htokens, hlabels, ?_⟩
  rw [himage, Emission.words_image, hwords]

theorem result_of_madeOf {source : String} {assembly : Assembly} {streams : List (List Token)}
    {blocks : List (List UInt16)} (h : MadeOf source assembly streams blocks) :
    (assemble .strict source).result = .ok assembly := by
  apply result_eq_ok_iff.mpr
  refine ⟨streams, _, h.lines, h.tokens, h.labels,
    Emission.ofTokens_of_emits (Emission.Emits.flatten h.emits), ?_⟩
  have hwords := h.words
  cases himage : assembly.image
  rw [himage] at hwords
  exact congrArg Image.mk hwords

namespace MadeOf

variable {source : String} {assembly : Assembly} {streams : List (List Token)}
  {blocks : List (List UInt16)}

theorem line_emits (hmade : MadeOf source assembly streams blocks) :
    List.Forall₂ (Line.Emits assembly.labels) (Outline.ofSource source).lines blocks :=
  Rows.comp hmade.lines hmade.emits

theorem labels_eq (hmade : MadeOf source assembly streams blocks)
    (hinline : ∀ line ∈ (Outline.ofSource source).lines, line.InlineFree) :
    assembly.labels = (Outline.ofSource source).labels.map fun label =>
      { label with address := (blocks.take label.line).flatten.length.toUInt16 } := by
  rw [hmade.labels, resolve_of_lines hmade.lines hinline]
  apply List.map_congr_left
  intro label _
  have hemits := Emission.Emits.flatten (List.forall₂_take label.line hmade.emits)
  rw [hemits.length_eq]

theorem names_labels (hmade : MadeOf source assembly streams blocks)
    (hinline : ∀ line ∈ (Outline.ofSource source).lines, line.InlineFree) :
    assembly.labels.map Label.name = (cleanLines source.toList).filterMap Line.declared? := by
  rw [hmade.labels_eq hinline, List.map_map]
  exact (congrArg (List.map Label.name) (Outline.labels_ofLines _)).trans
    (Outline.names_labelsFrom 0 _)

theorem block_ne_nil (hmade : MadeOf source assembly streams blocks)
    (hinline : ∀ line ∈ (Outline.ofSource source).lines, line.InlineFree) :
    ∀ block ∈ blocks, block ≠ [] := by
  intro block hblock
  obtain ⟨line, hline, hemits⟩ := Rows.exists_of_mem_right hmade.line_emits hblock
  have hparts := parts_ne_nil_of_mem_cleanLines (List.mem_of_mem_filter hline)
  rw [← List.length_pos_iff, hemits.length_eq (hinline line hline)]
  exact List.length_pos_iff.mpr hparts

/-- A declaration cuts the blocks in two: those of the lines before it and those of the lines behind
it. Its label has the address of the cut. -/
theorem label_of_declaration (hmade : MadeOf source assembly streams blocks)
    (hinline : ∀ line ∈ (Outline.ofSource source).lines, line.InlineFree)
    {before after : List Line} {declaration : Line} {name : String}
    (hsplit : cleanLines source.toList = before ++ declaration :: after)
    (hname : declaration.declared? = some name) :
    ∃ earlier later, blocks = earlier ++ later ∧
      List.Forall₂ (Line.Emits assembly.labels) (before.filter Line.isCode) earlier ∧
      List.Forall₂ (Line.Emits assembly.labels) (after.filter Line.isCode) later ∧
      assembly.labels[before.countP Line.isDeclaration]? =
        some ⟨name, before.countP Line.isCode, earlier.flatten.length.toUInt16⟩ := by
  obtain ⟨streams, streams', rfl, hstreams, hstreams', hlabel⟩ :=
    exists_streams_of_declaration hmade.lines hinline hsplit hname
  obtain ⟨earlier, later, rfl, hearlier, hlater⟩ := Rows.exists_append_of_append_left hmade.emits
  refine ⟨earlier, later, rfl, Rows.comp hstreams hearlier, Rows.comp hstreams' hlater, ?_⟩
  rw [hmade.labels, hlabel, (Emission.Emits.flatten hearlier).length_eq]

end MadeOf

/-- The words of a strict assembly and the addresses of its labels. Each word is the one that its
token denotes; each label stands where the words of the lines before its declaration end, which is
where those of the lines behind it start. -/
theorem image_of_strict {source : String} {assembly : Assembly}
    (hinline : ∀ line ∈ (Outline.ofSource source).lines, line.InlineFree)
    (h : (assemble .strict source).result = .ok assembly) :
    tokenStream (Outline.ofSource source).lines = .ok assembly.tokens ∧
      assembly.labels.map Label.name = (cleanLines source.toList).filterMap Line.declared? ∧
      ∃ blocks, assembly.image.words = blocks.flatten ++ [0x00, 0x0E] ∧
        Emission.Emits assembly.labels assembly.tokens blocks.flatten ∧
        List.Forall₂ (Line.Emits assembly.labels) (Outline.ofSource source).lines blocks ∧
        (∀ block ∈ blocks, block ≠ []) ∧
        ∀ before declaration after name,
          cleanLines source.toList = before ++ declaration :: after →
          declaration.declared? = some name →
          ∃ earlier later, blocks = earlier ++ later ∧
            List.Forall₂ (Line.Emits assembly.labels) (before.filter Line.isCode) earlier ∧
            List.Forall₂ (Line.Emits assembly.labels) (after.filter Line.isCode) later ∧
            assembly.labels[before.countP Line.isDeclaration]? =
              some ⟨name, before.countP Line.isCode, earlier.flatten.length.toUInt16⟩ := by
  obtain ⟨streams, blocks, hmade⟩ := exists_madeOf h
  have htokens : tokenStream (Outline.ofSource source).lines = .ok assembly.tokens :=
    tokenStream_eq_ok_iff.mpr ⟨streams, hmade.lines, hmade.tokens⟩
  have hemits : Emission.Emits assembly.labels assembly.tokens blocks.flatten := by
    rw [hmade.tokens]
    exact Emission.Emits.flatten hmade.emits
  refine ⟨htokens, hmade.names_labels hinline, blocks, hmade.words, hemits, hmade.line_emits,
    hmade.block_ne_nil hinline, ?_⟩
  intro before declaration after name hsplit hname
  exact hmade.label_of_declaration hinline hsplit hname

/-- A reference to a label at the end of the source, and a name declared twice. -/
theorem image_of_strict_stacked :
    ∃ assembly, (assemble .strict ":a\n:b\nJMP end ; on\n:a\n NOP\n:end").result = .ok assembly ∧
      assembly.labels.map Label.name = ["a", "b", "a", "end"] ∧
      ∃ blocks : List (List UInt16), assembly.image.words = blocks.flatten ++ [0x00, 0x0E] ∧
        Emission.Emits assembly.labels assembly.tokens blocks.flatten := by
  have hassembly : (assemble .strict ":a\n:b\nJMP end ; on\n:a\n NOP\n:end").result =
      .ok ⟨⟨[0x0C, 3, 0, 0, 0x0E]⟩, [⟨"a", 0, 0⟩, ⟨"b", 0, 0⟩, ⟨"a", 1, 2⟩, ⟨"end", 2, 3⟩],
        [⟨.opcode "JMP", ⟨6, 3⟩⟩, ⟨.label "end", ⟨10, 3⟩⟩, Token.terminator,
          ⟨.opcode "NOP", ⟨23, 3⟩⟩, Token.terminator]⟩ := by
    decide +kernel
  obtain ⟨_, _, blocks, hwords, hemits, _⟩ := image_of_strict (by decide +kernel) hassembly
  exact ⟨_, hassembly, rfl, blocks, hwords, hemits⟩

end Assembly

end FoxMachine
