import FoxMachine.Proofs.Assembly.Words
import FoxMachine.Proofs.Listing.Entries
import FoxMachine.Proofs.Literal.Spelling
import FoxMachine.Proofs.Outline.Texts

namespace FoxMachine

namespace Opcode

theorem isAlpha_of_mem_table : ∀ entry ∈ table, entry.1.toList.head?.any Char.isAlpha = true := by
  decide +kernel

theorem isPlain_of_mem_table : ∀ entry ∈ table, Text.IsPlain entry.1.toList := by
  have hchars : table.all (fun entry => entry.1.toList.all Text.isPlain) = true := by
    decide +kernel
  intro entry hentry
  have hne : entry.1.toList ≠ [] := by
    intro hempty
    have hletter := isAlpha_of_mem_table entry hentry
    rw [hempty] at hletter
    exact Bool.false_ne_true hletter
  exact ⟨hne, List.all_eq_true.mp (List.all_eq_true.mp hchars entry hentry)⟩

end Opcode

namespace Numeral

theorem toNat_of_digit? {base digit : Nat} {c : Char} (h : digit? base c = some digit) :
    48 ≤ c.toNat ∧ c.toNat ≤ 57 ∨ 65 ≤ c.toNat ∧ c.toNat ≤ 90 ∨ 97 ≤ c.toNat ∧ c.toNat ≤ 122 := by
  unfold digit? at h
  dsimp only at h
  split at h
  case isTrue hdigit => exact .inl hdigit
  case isFalse =>
    split at h
    case isTrue hlower => exact .inr (.inr hlower)
    case isFalse =>
      split at h
      case isTrue hupper => exact .inr (.inl hupper)
      case isFalse => contradiction

theorem isPlain_of_digit? {base digit : Nat} {c : Char} (h : digit? base c = some digit) :
    Text.isPlain c = true := by
  have hrange := toNat_of_digit? h
  have hcomment : c ≠ ';' := by
    rintro rfl
    contradiction
  have hcolon : c ≠ ':' := by
    rintro rfl
    contradiction
  have hblank : Text.isBlank c = false := by
    simp [Text.isBlank]
    omega
  simp [Text.isPlain, hblank, hcomment, hcolon]

theorem Spells.isPlain {base value : Nat} {text : List Char} (h : Spells base text value) :
    Text.IsPlain text := by
  obtain ⟨hne, digits, hdigits, _⟩ := h
  refine ⟨hne, fun c hc => ?_⟩
  obtain ⟨digit, _, hdigit⟩ := Rows.exists_of_mem_right hdigits.flip hc
  exact isPlain_of_digit? hdigit

theorem isPlain_of_spells {base value : Nat} {text : List Char} (h : Spells base text value) :
    Text.IsPlain ('$' :: text) :=
  ⟨List.cons_ne_nil _ _, List.forall_mem_cons.mpr ⟨by decide, h.isPlain.chars⟩⟩

end Numeral

theorem Token.Kind.spelledBy_opcode {mnemonic : String}
    (hletter : mnemonic.toList.head?.any Char.isAlpha = true) :
    SpelledBy false (opcode mnemonic) mnemonic.toList := by
  cases hchars : mnemonic.toList with
  | nil =>
      rw [hchars] at hletter
      contradiction
  | cons c rest =>
      have hname : String.ofList (c :: rest) = mnemonic := by
        rw [← hchars, String.ofList_toList]
      rw [hchars] at hletter
      exact hname ▸ .opcode rfl hletter

namespace Place

variable {labels : List Label} {place : Place} {value : UInt16}

def Gives (labels : List Label) (place : Place) (value : UInt16) : Prop :=
  ∃ token, Place.read place = .ok token ∧ token.kind.Denotes labels value

theorem gives_mnemonic {mnemonic : String} (hcode : (mnemonic, value) ∈ Opcode.table)
    (hjump : place.behindJump = false) (htext : place.piece.text = mnemonic.toList) :
    place.Gives labels value := by
  have hspelled := Token.Kind.spelledBy_opcode (Opcode.isAlpha_of_mem_table _ hcode)
  rw [← hjump, ← htext] at hspelled
  exact ⟨⟨.opcode mnemonic, place.span⟩, read_eq_ok_iff.mpr ⟨hspelled, rfl⟩, .opcode hcode⟩

theorem gives_literal {digits : List Char} (hdigits : Numeral.Spells 16 digits value.toNat)
    (htext : place.piece.text = '$' :: digits) : place.Gives labels value := by
  have hspelled : Token.Kind.SpelledBy place.behindJump (.hexadecimal value) ('$' :: digits) :=
    .hexadecimal (Literal.hexadecimal_of_spells hdigits)
  rw [← htext] at hspelled
  exact ⟨⟨.hexadecimal value, place.span⟩, read_eq_ok_iff.mpr ⟨hspelled, rfl⟩, .hexadecimal value⟩

end Place

theorem Line.emits_of_places {labels : List Label} {line : Line} {block : List UInt16}
    (h : List.Forall₂ (Place.Gives labels) line.places block) : line.Emits labels block := by
  obtain ⟨words, hwords, hblock⟩ := Rows.exists_between h
  have hisWord : ∀ token ∈ words, token.isWord = true := by
    intro token htoken
    obtain ⟨value, _, hdenotes⟩ := Rows.exists_of_mem_right hblock.flip htoken
    exact hdenotes.isWord
  refine ⟨words ++ [Token.terminator], tokens_eq_ok_iff.mpr ⟨words, hwords, rfl⟩, ?_⟩
  rw [Emission.Emits, List.filter_append, List.filter_eq_self.mpr hisWord]
  exact (List.append_nil words).symm ▸ hblock

namespace Listing

namespace Entry

/-- The parts of the line of an entry. Words are written with the digits that `spell` gives. -/
def parts (spell : UInt16 → List Char) (entry : Entry) : List (List Char) :=
  match entry.mnemonic?, entry.operand? with
  | some mnemonic, some operand => [mnemonic.toList, '$' :: spell operand]
  | some mnemonic, none => [mnemonic.toList]
  | none, _ => ['$' :: spell entry.word]

def line (spell : UInt16 → List Char) (entry : Entry) : List Char :=
  [' '].intercalate (entry.parts spell)

theorem parts_ne_nil (spell : UInt16 → List Char) (entry : Entry) : entry.parts spell ≠ [] := by
  unfold parts
  split <;> exact List.cons_ne_nil _ _

theorem IsRead.cases {entry : Entry} (hread : entry.IsRead) :
    (∃ mnemonic, (mnemonic, entry.word) ∈ Opcode.table ∧ entry.mnemonic? = some mnemonic) ∨
      entry.mnemonic? = none ∧ entry.operand? = none := by
  cases hmnemonic : entry.mnemonic? with
  | some mnemonic =>
      have hcode := Opcode.mnemonic?_eq_some_iff.mp (hread.mnemonic.symm.trans hmnemonic)
      exact .inl ⟨mnemonic, hcode, rfl⟩
  | none =>
      have htakes : takesOperand entry.word = false := by
        rw [takesOperand, ← hread.mnemonic, hmnemonic]
        rfl
      have hoperand := mt hread.operand (by simp [htakes])
      exact .inr ⟨rfl, by simpa using hoperand⟩

section Spelled

variable {entry : Entry} (hread : entry.IsRead) {spell : UInt16 → List Char}
  (hspell : ∀ word, Numeral.Spells 16 (spell word) word.toNat)

include hread hspell

theorem IsRead.isPlain : ∀ part ∈ entry.parts spell, Text.IsPlain part := by
  have hliteral : ∀ word, Text.IsPlain ('$' :: spell word) := by
    exact fun word => Numeral.isPlain_of_spells (hspell word)
  rcases hread.cases with ⟨mnemonic, hcode, hmnemonic⟩ | ⟨hmnemonic, _⟩
  · have hplain := Opcode.isPlain_of_mem_table _ hcode
    cases hoperand : entry.operand? with
    | none => simp [parts, hmnemonic, hoperand, hplain]
    | some operand => simp [parts, hmnemonic, hoperand, hplain, hliteral]
  · simp [parts, hmnemonic, hliteral]

theorem IsRead.emits (labels : List Label) {line : Line}
    (hparts : line.parts.map Text.Piece.text = entry.parts spell) :
    line.Emits labels entry.words := by
  apply Line.emits_of_places
  rcases hread.cases with ⟨mnemonic, hcode, hmnemonic⟩ | ⟨hmnemonic, hoperand⟩
  · cases hoperand : entry.operand? with
    | none =>
        simp only [parts, hmnemonic, hoperand] at hparts
        obtain ⟨piece, hpieces, htext⟩ := List.map_eq_singleton_iff.mp hparts
        rw [Line.places, hpieces, words, hoperand]
        exact .cons (Place.gives_mnemonic hcode rfl htext) .nil
    | some operand =>
        -- Behind a jump stands a label if it starts with a letter; a literal does not.
        simp only [parts, hmnemonic, hoperand] at hparts
        obtain ⟨piece, pieces, hpieces, htext, hrest⟩ := List.map_eq_cons_iff.mp hparts
        obtain ⟨piece', rfl, htext'⟩ := List.map_eq_singleton_iff.mp hrest
        rw [Line.places, hpieces, words, hoperand]
        exact .cons (Place.gives_mnemonic hcode rfl htext)
          (.cons (Place.gives_literal (hspell operand) htext') .nil)
  · simp only [parts, hmnemonic] at hparts
    obtain ⟨piece, hpieces, htext⟩ := List.map_eq_singleton_iff.mp hparts
    rw [Line.places, hpieces, words, hoperand]
    exact .cons (Place.gives_literal (hspell entry.word) htext) .nil

end Spelled

end Entry

def source (spell : UInt16 → List Char) (entries : List Entry) : String :=
  String.ofList (['\n'].intercalate (entries.map (Entry.line spell)))

section Source

variable {entries : List Entry} (hread : ∀ entry ∈ entries, entry.IsRead)
  {spell : UInt16 → List Char} (hspell : ∀ word, Numeral.Spells 16 (spell word) word.toNat)

include hread hspell

theorem map_text_source :
    (cleanLines (source spell entries).toList).map Line.text = entries.map (Entry.line spell) := by
  have hplain : ∀ entry ∈ entries, ∀ part ∈ entry.parts spell, Text.IsPlain part := by
    exact fun entry hentry => (hread entry hentry).isPlain hspell
  rw [source, String.toList_ofList]
  apply map_text_cleanLines_intercalate <;> rw [List.forall_mem_map] <;> intro entry hentry
  · exact Text.not_mem_intercalate (hplain entry hentry) (by decide) rfl
  · exact Text.intercalate_ne_nil (entry.parts_ne_nil spell) (hplain entry hentry)
  · exact Line.cleaned_intercalate (hplain entry hentry)

theorem forall₂_source :
    List.Forall₂ (fun entry line => entry.IsRead ∧ line.text = Entry.line spell entry) entries
      (cleanLines (source spell entries).toList) := by
  have htexts := map_text_source hread hspell
  rw [← List.forall₂_eq_eq_eq, List.forall₂_map_left_iff, List.forall₂_map_right_iff] at htexts
  exact (List.forall₂_and_left _ _).mpr ⟨hread, htexts.flip⟩

theorem outline_source :
    Outline.ofSource (source spell entries) = ⟨cleanLines (source spell entries).toList, []⟩ := by
  apply Outline.ofLines_of_declared?_eq_none
  intro line hline
  obtain ⟨entry, _, hentry, htext⟩ := Rows.exists_of_mem_right (forall₂_source hread hspell) hline
  exact Line.declared?_of_text (hentry.isPlain hspell) htext

theorem emits_source (labels : List Label) :
    List.Forall₂ (Line.Emits labels) (Outline.ofSource (source spell entries)).lines
      (entries.map Entry.words) := by
  rw [outline_source hread hspell, List.forall₂_map_right_iff]
  dsimp only
  refine (forall₂_source hread hspell).flip.imp ?_
  intro line entry hline
  obtain ⟨hentry, htext⟩ := hline
  have hparts := Line.map_text_parts_of_text (hentry.isPlain hspell) htext
  exact hentry.emits hspell labels hparts

end Source

end Listing

namespace Assembly

theorem exists_assembly_of_emits {source : String} {blocks : List (List UInt16)}
    (hlabels : (Outline.ofSource source).labels = [])
    (hemits : List.Forall₂ (Line.Emits []) (Outline.ofSource source).lines blocks) :
    ∃ assembly, (assemble .strict source).result = .ok assembly ∧
      assembly.image.words = blocks.flatten ++ [0x00, 0x0E] := by
  obtain ⟨streams, hlines, hblocks⟩ := Rows.exists_between hemits
  have hresolve : Label.resolve streams.flatten (Outline.ofSource source).labels = [] := by
    rw [hlabels, Label.resolve_nil]
  have hmade : MadeOf source ⟨⟨blocks.flatten ++ [0x00, 0x0E]⟩, [], streams.flatten⟩ streams
      blocks := ⟨hlines, hblocks, rfl, hresolve.symm, rfl⟩
  exact ⟨_, result_of_madeOf hmade, rfl⟩

/-- The listing of any words is a source that assembles to these words and the footer, however the
digits of its literals are written. -/
theorem strict_of_listing {spell : UInt16 → List Char}
    (hspell : ∀ word, Numeral.Spells 16 (spell word) word.toNat) (words : List UInt16) :
    ∃ assembly,
      (assemble .strict (Listing.source spell (Listing.ofWords words))).result = .ok assembly ∧
      assembly.image.words = words ++ [0x00, 0x0E] := by
  have hread : ∀ entry ∈ Listing.ofWords words, entry.IsRead := by
    exact fun entry => Listing.isRead_of_mem_ofWords
  have hlabels := congrArg Outline.labels (Listing.outline_source hread hspell)
  obtain ⟨assembly, hassembly, hwords⟩ :=
    exists_assembly_of_emits hlabels (Listing.emits_source hread hspell [])
  refine ⟨assembly, hassembly, ?_⟩
  rw [hwords, ← List.flatMap_def, Listing.flatMap_words_ofWords]

/-- Words that are no codes, an operand that is the code of a jump, and a code without its
operand. -/
theorem strict_of_listing_truncated :
    ∃ assembly,
      (assemble .strict "DWR $000C\n$FFFF\nJMP $000C\n$00F0\nDWR").result = .ok assembly ∧
      assembly.image.words = [0x14, 0x0C, 0xFFFF, 0x0C, 0x0C, 0x00F0, 0x14] ++ [0x00, 0x0E] := by
  have hsource : Listing.source (Text.hexDigits .upper)
      (Listing.ofWords [0x14, 0x0C, 0xFFFF, 0x0C, 0x0C, 0x00F0, 0x14]) =
        "DWR $000C\n$FFFF\nJMP $000C\n$00F0\nDWR" := by
    decide +kernel
  rw [← hsource]
  exact strict_of_listing (Numeral.spells_hexDigits .upper) _

end Assembly

end FoxMachine
