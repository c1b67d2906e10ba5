import FoxMachine.Proofs.Assembly.Instructions
import FoxMachine.Proofs.Listing.Entries

namespace FoxMachine

namespace Listing

theorem takesOperand_of_mem_table {mnemonic : String} {code : UInt16}
    (hcode : (mnemonic, code) ∈ Opcode.table) :
    takesOperand code = (Opcode.operandCount code == 1) := by
  rw [takesOperand, Opcode.mnemonic?_eq_some_iff.mpr hcode]
  rfl

theorem listOnto_instruction {mnemonic : String} {code : UInt16} {operand? : Option UInt16}
    (hcode : (mnemonic, code) ∈ Opcode.table)
    (hcount : operand?.toList.length = Opcode.operandCount code) (address : UInt16)
    (words : List UInt16) :
    listOnto [] address (code :: operand?.toList ++ words) =
      ⟨address, code, some mnemonic, operand?⟩ ::
        listOnto [] (address + (code :: operand?.toList).length.toUInt16) words := by
  -- The table decides whether the next word is the operand, whatever that word looks like.
  have hmnemonic := Opcode.mnemonic?_eq_some_iff.mpr hcode
  have htakes := takesOperand_of_mem_table hcode
  rw [← hcount] at htakes
  cases operand? with
  | none =>
      rw [← hmnemonic]
      exact listOnto_of_not_takesOperand htakes address words
  | some operand =>
      rw [← hmnemonic]
      exact listOnto_of_takesOperand htakes address operand words

def footerAt (address : UInt16) : List Entry :=
  [⟨address, 0x00, some "NOP", none⟩, ⟨address + 1, 0x0E, some "HLT", none⟩]

theorem listOnto_footer (address : UInt16) :
    listOnto [] address [0x00, 0x0E] = footerAt address := by
  have hnop : takesOperand 0x00 = false := by decide +kernel
  rw [listOnto_of_not_takesOperand hnop, listOnto]
  rfl

end Listing

namespace Line

/-- The entry shows the instruction of a line, and stands for the words emitted for it. -/
structure ListedAs (labels : List Label) (line : Line) (entry : Listing.Entry) : Prop where
  emits : line.Emits labels entry.words
  instruction : ∃ mnemonic operands, line.instruction? = some (mnemonic, operands) ∧
    entry.mnemonic? = some mnemonic ∧
    List.Forall₂ (fun token value => token.kind.Denotes labels value) operands
      entry.operand?.toList

variable {labels : List Label}

theorem exists_toList_of_length_le_one {values : List UInt16} (h : values.length ≤ 1) :
    ∃ operand? : Option UInt16, operand?.toList = values := by
  rcases values with _ | ⟨value, _ | ⟨value', values⟩⟩
  · exact ⟨none, rfl⟩
  · exact ⟨some value, rfl⟩
  · simp at h

theorem exists_entry {line : Line} {block : List UInt16} (hemits : line.Emits labels block)
    (hinstruction : line.instruction?.isSome = true) (address : UInt16) (words : List UInt16) :
    ∃ entry, line.ListedAs labels entry ∧ entry.words = block ∧
      Listing.listOnto [] address (block ++ words) =
        entry :: Listing.listOnto [] (address + block.length.toUInt16) words := by
  obtain ⟨⟨mnemonic, operands⟩, hinstruction⟩ := Option.isSome_iff_exists.mp hinstruction
  obtain ⟨⟨span, htokens⟩, hcount, hkinds⟩ := tokens_of_instruction? hinstruction
  have hwords : ∀ operand ∈ operands, operand.isWord = true := by
    intro operand hoperand
    exact Token.Kind.isWord_of_isOperand (hkinds operand hoperand)
  obtain ⟨code, values, rfl, hcode, hvalues⟩ := hemits.of_tokens htokens hwords
  have hlength : values.length = Opcode.operandCount code := by
    rw [← List.Forall₂.length_eq hvalues, Token.length_of_countMatches hcount hcode]
  have hone : values.length ≤ 1 := hlength ▸ Opcode.operandCount_le_one code
  obtain ⟨operand?, rfl⟩ := exists_toList_of_length_le_one hone
  exact ⟨⟨address, code, some mnemonic, operand?⟩,
    ⟨hemits, mnemonic, operands, hinstruction, rfl, hvalues⟩, rfl,
    Listing.listOnto_instruction hcode hlength address words⟩

theorem exists_entries {lines : List Line} {blocks : List (List UInt16)}
    (hemits : List.Forall₂ (Emits labels) lines blocks)
    (hinstructions : ∀ line ∈ lines, line.instruction?.isSome = true) (address : UInt16)
    (words : List UInt16) :
    ∃ entries, List.Forall₂ (ListedAs labels) lines entries ∧
      entries.map Listing.Entry.words = blocks ∧
      Listing.listOnto [] address (blocks.flatten ++ words) =
        entries ++ Listing.listOnto [] (address + blocks.flatten.length.toUInt16) words := by
  induction hemits generalizing address with
  | nil => exact ⟨[], .nil, rfl, by simp⟩
  | @cons line block lines blocks hline _ ih =>
      obtain ⟨hfirst, hrest⟩ := List.forall_mem_cons.mp hinstructions
      obtain ⟨entry, hentry, hwords, hlist⟩ :=
        exists_entry hline hfirst address (blocks.flatten ++ words)
      obtain ⟨entries, hentries, hblocks, hlists⟩ := ih hrest (address + block.length.toUInt16)
      have haddress : address + block.length.toUInt16 + blocks.flatten.length.toUInt16 =
          address + (block ++ blocks.flatten).length.toUInt16 := by
        rw [List.length_append, UInt16.add_assoc]
        exact congrArg (address + ·) (UInt16.ofNat_add _ _).symm
      refine ⟨entry :: entries, .cons hentry hentries, by rw [List.map_cons, hwords, hblocks], ?_⟩
      rw [List.flatten_cons, List.append_assoc, hlist, hlists, haddress]
      rfl

end Line

namespace Assembly

variable {source : String} {assembly : Assembly}

theorem exists_entry_of_declaration {streams : List (List Token)}
    {entries footer : List Listing.Entry}
    (hmade : MadeOf source assembly streams (entries.map Listing.Entry.words))
    (hinline : ∀ line ∈ (Outline.ofSource source).lines, line.InlineFree)
    (hlisting : Listing.ofWords assembly.image.words = entries ++ footer) (hfooter : footer ≠ [])
    {before after : List Line} {declaration : Line} {name : String}
    (hsplit : cleanLines source.toList = before ++ declaration :: after)
    (hname : declaration.declared? = some name) :
    ∃ entry, (Listing.ofWords assembly.image.words)[before.countP Line.isCode]? = some entry ∧
      assembly.labels[before.countP Line.isDeclaration]? =
        some ⟨name, before.countP Line.isCode, entry.address⟩ := by
  obtain ⟨earlier, later, hblocks, hearlier, _, hlabel⟩ :=
    hmade.label_of_declaration hinline hsplit hname
  have hcount : before.countP Line.isCode = earlier.length := by
    rw [← List.Forall₂.length_eq hearlier, List.countP_eq_length_filter]
  have hle : earlier.length ≤ entries.length := by
    rw [← List.length_map Listing.Entry.words, hblocks, List.length_append]
    exact Nat.le_add_right _ _
  have hplace : earlier.length < (Listing.ofWords assembly.image.words).length := by
    have hpos := List.length_pos_iff.mpr hfooter
    rw [hlisting, List.length_append]
    omega
  obtain ⟨entry, hentry⟩ : ∃ entry,
      (Listing.ofWords assembly.image.words)[earlier.length]? = some entry :=
    ⟨_, List.getElem?_eq_getElem hplace⟩
  have haddress : entry.address = earlier.flatten.length.toUInt16 := by
    rw [Listing.address_of_getElem?_ofWords hentry, hlisting,
      List.take_append_of_le_length hle, List.flatMap_def, List.map_take, hblocks, List.take_left]
  exact ⟨entry, hcount ▸ hentry, haddress ▸ hlabel⟩

/-- The listing of an image that was assembled from instructions. -/
theorem listing_of_strict
    (hassembly : (assemble .strict source).result = .ok assembly)
    (hinline : ∀ line ∈ (Outline.ofSource source).lines, line.InlineFree)
    (hinstructions : ∀ line ∈ (Outline.ofSource source).lines, line.instruction?.isSome = true) :
    ∃ entries,
      Listing.ofWords assembly.image.words = entries ++
        Listing.footerAt (entries.flatMap Listing.Entry.words).length.toUInt16 ∧
      List.Forall₂ (Line.ListedAs assembly.labels) (Outline.ofSource source).lines entries ∧
      (∀ index entry, entries[index]? = some entry →
        entry.address = ((entries.take index).flatMap Listing.Entry.words).length.toUInt16) ∧
      ∀ before declaration after name,
        cleanLines source.toList = before ++ declaration :: after →
        declaration.declared? = some name →
        ∃ entry, (Listing.ofWords assembly.image.words)[before.countP Line.isCode]? = some entry ∧
          assembly.labels[before.countP Line.isDeclaration]? =
            some ⟨name, before.countP Line.isCode, entry.address⟩ := by
  obtain ⟨streams, blocks, hmade⟩ := exists_madeOf hassembly
  obtain ⟨entries, hentries, rfl, hlisting⟩ :=
    Line.exists_entries hmade.line_emits hinstructions 0 [0x00, 0x0E]
  rw [← hmade.words, Listing.listOnto_footer, ← Listing.ofWords, UInt16.zero_add,
    ← List.flatMap_def] at hlisting
  refine ⟨entries, hlisting, hentries, ?_, ?_⟩
  · intro index entry hentry
    obtain ⟨hindex, _⟩ := List.getElem?_eq_some_iff.mp hentry
    have hlisted : (Listing.ofWords assembly.image.words)[index]? = some entry := by
      rw [hlisting, List.getElem?_append_left hindex, hentry]
    rw [Listing.address_of_getElem?_ofWords hlisted, hlisting,
      List.take_append_of_le_length (Nat.le_of_lt hindex)]
  · intro before declaration after name hsplit hname
    exact exists_entry_of_declaration hmade hinline hlisting (List.cons_ne_nil _ _) hsplit hname

/-- Operands that are codes of jumps, and labels before a line and behind the last. -/
theorem listing_of_strict_jumps :
    ∃ assembly entries,
      (assemble .strict "JMP go\n:back\nJPZ $C\n:go\nDWR %12\nJMP back\n:end").result =
        .ok assembly ∧
      Listing.ofWords assembly.image.words = entries ++
        Listing.footerAt (entries.flatMap Listing.Entry.words).length.toUInt16 ∧
      List.Forall₂ (Line.ListedAs assembly.labels)
        (Outline.ofSource "JMP go\n:back\nJPZ $C\n:go\nDWR %12\nJMP back\n:end").lines
        entries := by
  have hassembly :
      (assemble .strict "JMP go\n:back\nJPZ $C\n:go\nDWR %12\nJMP back\n:end").result =
        .ok ⟨⟨[0x0C, 4, 0x0A, 0x0C, 0x14, 0x0C, 0x0C, 2, 0x00, 0x0E]⟩,
          [⟨"back", 1, 2⟩, ⟨"go", 2, 4⟩, ⟨"end", 4, 8⟩],
          [⟨.opcode "JMP", ⟨0, 3⟩⟩, ⟨.label "go", ⟨4, 2⟩⟩, Token.terminator,
            ⟨.opcode "JPZ", ⟨13, 3⟩⟩, ⟨.hexadecimal 0x0C, ⟨17, 2⟩⟩, Token.terminator,
            ⟨.opcode "DWR", ⟨24, 3⟩⟩, ⟨.decimal 0x0C, ⟨28, 3⟩⟩, Token.terminator,
            ⟨.opcode "JMP", ⟨32, 3⟩⟩, ⟨.label "back", ⟨36, 4⟩⟩, Token.terminator]⟩ := by
    decide +kernel
  obtain ⟨entries, hlisting, hentries, _⟩ :=
    listing_of_strict hassembly (by decide +kernel) (by decide +kernel)
  exact ⟨_, entries, hassembly, hlisting, hentries⟩

end Assembly

end FoxMachine
