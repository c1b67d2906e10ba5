import FoxMachine.Proofs.Listing.Reassembly

namespace FoxMachine

namespace Text

theorem toList_decimal (word : UInt16) : (decimal word).toList = Nat.toDigits 10 word.toNat :=
  Nat.toList_repr

theorem toList_decimal_ne_nil (word : UInt16) : (decimal word).toList ≠ [] := by
  rw [toList_decimal]
  exact Nat.toDigits_ne_nil

theorem isDigit_of_mem_decimal {word : UInt16} {c : Char} (hc : c ∈ (decimal word).toList) :
    c.isDigit = true := by
  rw [toList_decimal] at hc
  exact Nat.isDigit_of_mem_toDigits (by decide) (by decide) hc

end Text

namespace Numeral

theorem digit?_of_isDigit {c : Char} (h : c.isDigit = true) :
    digit? 10 c = some (c.toNat - 48) := by
  have hrange : '0' ≤ c ∧ c ≤ '9' := by
    rw [Char.isDigit, Bool.and_eq_true, decide_eq_true_eq, decide_eq_true_eq] at h
    exact h
  have hle : c.toNat ≤ 57 := hrange.2
  have hlt : c.toNat - 48 < 10 := by omega
  simp [digit?, hrange, hlt]

theorem isPlain_decimal (word : UInt16) : Text.IsPlain (Text.decimal word).toList :=
  ⟨Text.toList_decimal_ne_nil word,
    fun _ hc => isPlain_of_digit? (digit?_of_isDigit (Text.isDigit_of_mem_decimal hc))⟩

end Numeral

namespace Listing

structure Row where
  address : UInt16
  word : UInt16
  operand? : Option UInt16
deriving DecidableEq, Repr

def Row.words (row : Row) : List UInt16 :=
  row.word :: row.operand?.toList

def readWord? (text : List Char) : Option UInt16 := do
  guard (text.length = 4)
  let digits ← text.mapM (Numeral.digit? 16)
  return (Nat.ofDigits 16 digits.reverse).toUInt16

def readFields? : List (List Char) → Option Row
  | [('$' :: address), word, _] => do
      return ⟨← readWord? address, ← readWord? word, none⟩
  | [('$' :: address), word, _, operand, _] => do
      return ⟨← readWord? address, ← readWord? word, some (← readWord? operand)⟩
  | _ => none

def readLine? (line : List Char) : Option Row :=
  readFields? (line.splitOn ' ')

/-- Reads the lines of a text of which each ends with a line break. -/
def read? (text : String) : Option (List Row) :=
  (text.toList.splitOn '\n').dropLast.mapM readLine?

@[simp] theorem readWord?_hexDigits (letters : Text.LetterCase) (word : UInt16) :
    readWord? (Text.hexDigits letters word) = some word := by
  obtain ⟨_, digits, hdigits, hvalue⟩ := Numeral.spells_hexDigits letters word
  rw [readWord?, Rows.mapM_eq_some hdigits]
  simp [← hvalue]

namespace Entry

def row (entry : Entry) : Row :=
  ⟨entry.address, entry.word, entry.operand?⟩

def names (entry : Entry) : List (List Char) :=
  match entry.mnemonic?, entry.operand? with
  | some mnemonic, some operand =>
      [mnemonic.toList, Text.hexDigits .upper operand,
        '(' :: (Text.decimal operand).toList ++ [')']]
  | some mnemonic, none => [mnemonic.toList]
  | none, _ => [".word".toList]

def fields (entry : Entry) : List (List Char) :=
  ('$' :: Text.hexDigits .upper entry.address) :: Text.hexDigits .upper entry.word :: entry.names

theorem names_ne_nil (entry : Entry) : entry.names ≠ [] := by
  unfold names
  split <;> exact List.cons_ne_nil _ _

theorem toList_meaning (entry : Entry) :
    entry.meaning.toList = [' '].intercalate entry.names := by
  obtain ⟨_, _, _ | mnemonic, _ | operand⟩ := entry <;>
    simp [meaning, names, Text.hex, List.intercalate_cons_cons]

theorem toList_text (entry : Entry) : entry.text.toList = [' '].intercalate entry.fields := by
  rw [fields, List.intercalate_cons_cons, List.intercalate_cons_of_ne_nil entry.names_ne_nil,
    ← toList_meaning]
  simp [text, Text.hex]

theorem isPlain_parenthesized (word : UInt16) :
    Text.IsPlain ('(' :: (Text.decimal word).toList ++ [')']) := by
  refine ⟨List.cons_ne_nil _ _, fun c hc => ?_⟩
  rw [List.cons_append, List.mem_cons, List.mem_append, List.mem_singleton] at hc
  rcases hc with rfl | hdigit | rfl
  · decide
  · exact (Numeral.isPlain_decimal word).chars c hdigit
  · decide

variable {entry : Entry} (hread : entry.IsRead)

include hread

theorem IsRead.isPlain_names : ∀ name ∈ entry.names, Text.IsPlain name := by
  have hmark : Text.IsPlain ".word".toList :=
    ⟨by decide, List.all_eq_true.mp (by decide)⟩
  rcases hread.cases with ⟨mnemonic, hcode, hmnemonic⟩ | ⟨hmnemonic, _⟩
  · have hplain := Opcode.isPlain_of_mem_table _ hcode
    cases hoperand : entry.operand? with
    | none => simp [names, hmnemonic, hoperand, hplain]
    | some operand =>
        have hhex := (Numeral.spells_hexDigits .upper operand).isPlain
        simpa [names, hmnemonic, hoperand, hplain, hhex] using isPlain_parenthesized operand
  · simpa [names, hmnemonic] using hmark

theorem IsRead.isPlain_fields : ∀ field ∈ entry.fields, Text.IsPlain field := by
  have haddress := Numeral.isPlain_of_spells (Numeral.spells_hexDigits .upper entry.address)
  have hword := (Numeral.spells_hexDigits .upper entry.word).isPlain
  exact List.forall_mem_cons.mpr ⟨haddress, List.forall_mem_cons.mpr ⟨hword, hread.isPlain_names⟩⟩

theorem IsRead.readFields?_fields : readFields? entry.fields = some entry.row := by
  rcases hread.cases with ⟨mnemonic, _, hmnemonic⟩ | ⟨hmnemonic, hoperand⟩
  · cases hoperand : entry.operand? with
    | none => simp [fields, names, row, readFields?, hmnemonic, hoperand]
    | some operand => simp [fields, names, row, readFields?, hmnemonic, hoperand]
  · simp [fields, names, row, readFields?, hmnemonic, hoperand]

theorem IsRead.readLine?_text : readLine? entry.text.toList = some entry.row := by
  have hspace : ∀ field ∈ entry.fields, ' ' ∉ field := by
    exact fun field hfield => (hread.isPlain_fields field hfield).not_mem rfl
  rw [toList_text, readLine?, List.splitOn_intercalate ' ' hspace (List.cons_ne_nil _ _)]
  exact hread.readFields?_fields

theorem IsRead.newline_not_mem_text : '\n' ∉ entry.text.toList := by
  rw [toList_text]
  exact Text.not_mem_intercalate hread.isPlain_fields (by decide) rfl

end Entry

def printed (entries : List Entry) : String :=
  String.join (entries.map fun entry => entry.text ++ "\n")

theorem flatMap_concat_newline (lines : List (List Char)) :
    lines.flatMap (· ++ ['\n']) = ['\n'].intercalate (lines ++ [[]]) := by
  induction lines with
  | nil => rfl
  | cons line lines ih =>
      rw [List.cons_append, List.intercalate_cons_of_ne_nil (by simp), ← ih, List.flatMap_cons]

theorem toList_printed (entries : List Entry) :
    (printed entries).toList =
      ['\n'].intercalate (entries.map (fun entry => entry.text.toList) ++ [[]]) := by
  rw [← flatMap_concat_newline, printed, String.toList_join, List.flatMap_map, List.flatMap_map]
  simp

theorem read?_printed {entries : List Entry} (hread : ∀ entry ∈ entries, entry.IsRead) :
    read? (printed entries) = some (entries.map Entry.row) := by
  have hnewline : ∀ line ∈ entries.map (fun entry => entry.text.toList) ++ [[]], '\n' ∉ line := by
    rw [List.forall_mem_append, List.forall_mem_map, List.forall_mem_singleton]
    exact ⟨fun entry hentry => (hread entry hentry).newline_not_mem_text, List.not_mem_nil⟩
  rw [read?, toList_printed, List.splitOn_intercalate '\n' hnewline (by simp), List.dropLast_concat]
  apply Rows.mapM_eq_some
  rw [List.forall₂_map_left_iff, List.forall₂_map_right_iff, List.forall₂_same]
  exact fun entry hentry => (hread entry hentry).readLine?_text

def wordsBefore (rows : List Row) (index : Nat) : Nat :=
  ((rows.take index).flatMap Row.words).length

/-- The rows say the words, in order, and each says at which of them it starts. -/
structure Says (rows : List Row) (words : List UInt16) : Prop where
  flatMap_words : rows.flatMap Row.words = words
  word : ∀ {index : Nat} {row : Row}, rows[index]? = some row →
    words[wordsBefore rows index]? = some row.word
  address : ∀ {index : Nat} {row : Row}, rows[index]? = some row →
    row.address.toNat = wordsBefore rows index % 65536

theorem getElem?_flatMap_words {rows : List Row} {index : Nat} {row : Row}
    (hrow : rows[index]? = some row) :
    (rows.flatMap Row.words)[wordsBefore rows index]? = some row.word := by
  induction rows generalizing index with
  | nil => simp at hrow
  | cons first rows ih =>
      cases index with
      | zero =>
          cases hrow
          rfl
      | succ index =>
          have hbefore : wordsBefore (first :: rows) (index + 1) =
              first.words.length + wordsBefore rows index := by
            simp [wordsBefore]
          rw [hbefore, List.flatMap_cons, List.getElem?_append_right (Nat.le_add_right _ _),
            Nat.add_sub_cancel_left]
          exact ih hrow

theorem flatMap_words_map_row (entries : List Entry) :
    (entries.map Entry.row).flatMap Row.words = entries.flatMap Entry.words :=
  List.flatMap_map ..

theorem says_ofWords (words : List UInt16) : Says ((ofWords words).map Entry.row) words := by
  have hwords : ((ofWords words).map Entry.row).flatMap Row.words = words := by
    rw [flatMap_words_map_row, flatMap_words_ofWords]
  refine ⟨hwords, fun hrow => ?_, fun {index row} hrow => ?_⟩
  · have hword := getElem?_flatMap_words hrow
    rwa [hwords] at hword
  · rw [List.getElem?_map, Option.map_eq_some_iff] at hrow
    obtain ⟨entry, hentry, rfl⟩ := hrow
    rw [wordsBefore, ← List.map_take, flatMap_words_map_row, Entry.row,
      address_of_getElem?_ofWords hentry]
    exact UInt16.toNat_ofNat'

theorem read?_printed_ofWords (words : List UInt16) :
    read? (printed (ofWords words)) = some ((ofWords words).map Entry.row) :=
  read?_printed fun _ => isRead_of_mem_ofWords

theorem printed_ofWords_injective :
    Function.Injective fun words => printed (ofWords words) := by
  intro words words' h
  have hrows := congrArg read? h
  dsimp only at hrows
  rw [read?_printed_ofWords, read?_printed_ofWords] at hrows
  rw [← (says_ofWords words).flatMap_words, Option.some.inj hrows,
    (says_ofWords words').flatMap_words]

end Listing

end FoxMachine
