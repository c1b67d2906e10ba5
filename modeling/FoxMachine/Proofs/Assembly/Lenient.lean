import FoxMachine.Proofs.Assembly.Words
import FoxMachine.Proofs.Emission.Lenient

namespace FoxMachine

/-!
The labels of a lenient assembly. Addresses count every word token, and so also the mnemonics that
are dropped from the image: a label points as many words too far as mnemonics were dropped before
it.
-/

namespace Line

def Gives (mode : Mode) (labels : List Label) (line : Line) (block : List UInt16) : Prop :=
  ∃ stream notices, line.tokens = .ok stream ∧
    Emission.ofTokens mode labels stream = .ok ⟨block, notices⟩

def dropped (line : Line) : List Token :=
  match line.tokens with
  | .ok stream => stream.filter Token.isDropped
  | .error _ => []

theorem gives_lenient {labels : List Label} {line : Line} {stream : List Token}
    (hstream : line.tokens = .ok stream) :
    line.Gives .lenient labels (Emission.lenientWords labels stream) :=
  ⟨stream, _, hstream, Emission.ofTokens_lenient labels stream⟩

theorem eq_lenientWords_of_gives {labels : List Label} {line : Line} {stream : List Token}
    {block : List UInt16} (hgives : line.Gives .lenient labels block)
    (hstream : line.tokens = .ok stream) : block = Emission.lenientWords labels stream := by
  obtain ⟨stream', notices, hstream', hblock⟩ := hgives
  rw [hstream] at hstream'
  obtain rfl := Except.ok.inj hstream'
  rw [Emission.ofTokens_lenient] at hblock
  cases hblock
  rfl

theorem flatMap_dropped {lines : List Line} {streams : List (List Token)}
    (h : List.Forall₂ (fun line stream => line.tokens = .ok stream) lines streams) :
    lines.flatMap dropped = streams.flatten.filter Token.isDropped := by
  induction h with
  | nil => rfl
  | @cons line stream lines streams hline _ ih =>
      rw [List.flatMap_cons, List.flatten_cons, List.filter_append, ih, dropped, hline]

theorem length_flatten_add_dropped {labels : List Label} {lines : List Line}
    {streams : List (List Token)} {blocks : List (List UInt16)}
    (hlines : List.Forall₂ (fun line stream => line.tokens = .ok stream) lines streams)
    (hblocks : List.Forall₂ (Gives .lenient labels) lines blocks) :
    blocks.flatten.length + (lines.flatMap dropped).length =
      streams.flatten.countP Token.isWord := by
  rw [flatMap_dropped hlines, ← List.countP_eq_length_filter]
  induction hlines generalizing blocks with
  | nil =>
      cases hblocks
      rfl
  | @cons line stream lines streams hline _ ih =>
      cases hblocks with
      | @cons _ block _ blocks hblock hblocks =>
          have hcount := Emission.length_lenientWords_add_countP labels stream
          rw [← eq_lenientWords_of_gives hblock hline] at hcount
          have hrest := ih hblocks
          simp only [List.flatten_cons, List.length_append, List.countP_append]
          omega

end Line

namespace Assembly

variable {source : String} {assembly : Assembly}

/-- Every label has the address at which the words emitted for the lines before its declaration
end. -/
def IsAligned (mode : Mode) (source : String) (assembly : Assembly) : Prop :=
  ∀ before declaration after name earlier,
    cleanLines source.toList = before ++ declaration :: after →
    declaration.declared? = some name →
    List.Forall₂ (Line.Gives mode assembly.labels) (before.filter Line.isCode) earlier →
    assembly.labels[before.countP Line.isDeclaration]? =
      some ⟨name, before.countP Line.isCode, earlier.flatten.length.toUInt16⟩

theorem exists_blocks_of_lenient (h : (assemble .lenient source).result = .ok assembly) :
    ∃ blocks, List.Forall₂ (Line.Gives .lenient assembly.labels) (Outline.ofSource source).lines
        blocks ∧
      assembly.image.words = blocks.flatten ++ [0x00, 0x0E] := by
  obtain ⟨streams, emission, hlines, _, _, hemission, himage⟩ := result_eq_ok_iff.mp h
  refine ⟨streams.map (Emission.lenientWords assembly.labels), ?_, ?_⟩
  · rw [List.forall₂_map_right_iff]
    exact hlines.imp fun _ _ hstream => Line.gives_lenient hstream
  · rw [Emission.ofTokens_lenient] at hemission
    cases hemission
    rw [himage, Emission.words_image, Emission.lenientWords, List.filterMap_flatten]
    rfl

theorem label_of_lenient
    (hinline : ∀ line ∈ (Outline.ofSource source).lines, line.InlineFree)
    (h : (assemble .lenient source).result = .ok assembly)
    {before after : List Line} {declaration : Line} {name : String} {earlier : List (List UInt16)}
    (hsplit : cleanLines source.toList = before ++ declaration :: after)
    (hname : declaration.declared? = some name)
    (hearlier : List.Forall₂ (Line.Gives .lenient assembly.labels) (before.filter Line.isCode)
      earlier) :
    assembly.labels[before.countP Line.isDeclaration]? =
      some ⟨name, before.countP Line.isCode, (earlier.flatten.length +
        ((before.filter Line.isCode).flatMap Line.dropped).length).toUInt16⟩ := by
  obtain ⟨streams, _, hlines, _, hlabels, _⟩ := result_eq_ok_iff.mp h
  obtain ⟨streams', _, _, hstreams, _, hlabel⟩ :=
    exists_streams_of_declaration hlines hinline hsplit hname
  rw [hlabels, hlabel, Line.length_flatten_add_dropped hstreams hearlier]

theorem toUInt16_add_eq_iff (count excess : Nat) :
    (count + excess).toUInt16 = count.toUInt16 ↔ excess % 65536 = 0 := by
  rw [← UInt16.toNat_inj]
  change (count + excess) % 65536 = count % 65536 ↔ _
  omega

theorem isAligned_iff_of_lenient
    (hinline : ∀ line ∈ (Outline.ofSource source).lines, line.InlineFree)
    (h : (assemble .lenient source).result = .ok assembly) :
    IsAligned .lenient source assembly ↔
      ∀ before declaration after, cleanLines source.toList = before ++ declaration :: after →
        declaration.isDeclaration = true →
        ((before.filter Line.isCode).flatMap Line.dropped).length % 65536 = 0 := by
  constructor
  · intro haligned before declaration after hsplit hdeclaration
    -- The blocks of the image start with those of the lines before the declaration.
    obtain ⟨name, hname⟩ := Option.isSome_iff_exists.mp hdeclaration
    obtain ⟨blocks, hblocks, _⟩ := exists_blocks_of_lenient h
    rw [lines_of_declaration hsplit hname] at hblocks
    obtain ⟨earlier, _, _, hearlier, _⟩ := Rows.exists_append_of_append_left hblocks
    have hlabel := haligned before declaration after name earlier hsplit hname hearlier
    rw [label_of_lenient hinline h hsplit hname hearlier] at hlabel
    have haddress := congrArg Label.address (Option.some.inj hlabel)
    exact (toUInt16_add_eq_iff _ _).mp haddress
  · intro hdropped before declaration after name earlier hsplit hname hearlier
    have hzero :=
      hdropped before declaration after hsplit (Option.isSome_iff_exists.mpr ⟨name, hname⟩)
    rw [label_of_lenient hinline h hsplit hname hearlier, (toUInt16_add_eq_iff _ _).mpr hzero]

/-- The image of a lenient assembly and the addresses of its labels. They agree if and only if
before every declaration the dropped mnemonics, modulo 65536, are none. -/
theorem labels_of_lenient
    (hinline : ∀ line ∈ (Outline.ofSource source).lines, line.InlineFree)
    (h : (assemble .lenient source).result = .ok assembly) :
    (∃ blocks, List.Forall₂ (Line.Gives .lenient assembly.labels) (Outline.ofSource source).lines
        blocks ∧
      assembly.image.words = blocks.flatten ++ [0x00, 0x0E]) ∧
    (∀ before declaration after name earlier,
      cleanLines source.toList = before ++ declaration :: after →
      declaration.declared? = some name →
      List.Forall₂ (Line.Gives .lenient assembly.labels) (before.filter Line.isCode) earlier →
      assembly.labels[before.countP Line.isDeclaration]? =
        some ⟨name, before.countP Line.isCode, (earlier.flatten.length +
          ((before.filter Line.isCode).flatMap Line.dropped).length).toUInt16⟩) ∧
    (IsAligned .lenient source assembly ↔
      ∀ before declaration after, cleanLines source.toList = before ++ declaration :: after →
        declaration.isDeclaration = true →
        ((before.filter Line.isCode).flatMap Line.dropped).length % 65536 = 0) := by
  refine ⟨exists_blocks_of_lenient h, ?_, isAligned_iff_of_lenient hinline h⟩
  intro before declaration after name earlier hsplit hname hearlier
  exact label_of_lenient hinline h hsplit hname hearlier

/-- Of two labels the second stands behind two mnemonics that are dropped. -/
theorem labels_of_lenient_dropped :
    ∃ assembly,
      (assemble .lenient ":a\nNOP foo bar\n:b\nJMP nowhere\nJMP b").result = .ok assembly ∧
      assembly.image.words = [0x00, 0x0C, 0, 0x0C, 3, 0x00, 0x0E] ∧
      (IsAligned .lenient ":a\nNOP foo bar\n:b\nJMP nowhere\nJMP b" assembly ↔
        ∀ before declaration after,
          cleanLines ":a\nNOP foo bar\n:b\nJMP nowhere\nJMP b".toList =
            before ++ declaration :: after →
          declaration.isDeclaration = true →
          ((before.filter Line.isCode).flatMap Line.dropped).length % 65536 = 0) := by
  have hassembly : (assemble .lenient ":a\nNOP foo bar\n:b\nJMP nowhere\nJMP b").result =
      .ok ⟨⟨[0x00, 0x0C, 0, 0x0C, 3, 0x00, 0x0E]⟩, [⟨"a", 0, 0⟩, ⟨"b", 1, 3⟩],
        [⟨.opcode "NOP", ⟨3, 3⟩⟩, ⟨.opcode "foo", ⟨7, 3⟩⟩, ⟨.opcode "bar", ⟨11, 3⟩⟩,
          Token.terminator, ⟨.opcode "JMP", ⟨18, 3⟩⟩, ⟨.label "nowhere", ⟨22, 7⟩⟩,
          Token.terminator, ⟨.opcode "JMP", ⟨30, 3⟩⟩, ⟨.label "b", ⟨34, 1⟩⟩,
          Token.terminator]⟩ := by
    decide +kernel
  exact ⟨_, hassembly, rfl, (labels_of_lenient (by decide +kernel) hassembly).2.2⟩

/-- No word is emitted before the label, and yet its address is not zero. -/
theorem not_isAligned_of_dropped :
    ∃ assembly, (assemble .lenient "foo\n:a\nJMP a").result = .ok assembly ∧
      (∀ line ∈ (Outline.ofSource "foo\n:a\nJMP a").lines, line.InlineFree) ∧
      ¬ IsAligned .lenient "foo\n:a\nJMP a" assembly := by
  have hassembly : (assemble .lenient "foo\n:a\nJMP a").result =
      .ok ⟨⟨[0x0C, 1, 0x00, 0x0E]⟩, [⟨"a", 1, 1⟩],
        [⟨.opcode "foo", ⟨0, 3⟩⟩, Token.terminator, ⟨.opcode "JMP", ⟨7, 3⟩⟩, ⟨.label "a", ⟨11, 1⟩⟩,
          Token.terminator]⟩ := by
    decide +kernel
  have hsplit : cleanLines "foo\n:a\nJMP a".toList =
      [⟨['f', 'o', 'o'], 0, 1⟩] ++ ⟨[':', 'a'], 4, 2⟩ ::
        [⟨['J', 'M', 'P', ' ', 'a'], 7, 3⟩] := by
    decide +kernel
  have hgives : Line.Gives .lenient [⟨"a", 1, 1⟩] ⟨['f', 'o', 'o'], 0, 1⟩ [] :=
    ⟨[⟨.opcode "foo", ⟨0, 3⟩⟩, Token.terminator], [.instructionDropped "foo"], by decide +kernel,
      by decide +kernel⟩
  refine ⟨_, hassembly, by decide +kernel, ?_⟩
  intro haligned
  have hlabel := haligned _ _ _ "a" [[]] hsplit (by decide +kernel) (.cons hgives .nil)
  exact absurd hlabel (by decide +kernel)

end Assembly

end FoxMachine
