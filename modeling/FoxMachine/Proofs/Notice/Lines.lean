import FoxMachine.Proofs.Console.Diagnostics
import FoxMachine.Proofs.Listing.Reading

namespace FoxMachine

namespace Text

/-- That a text has neither spaces nor any of the characters before them, such as line breaks and
escape characters. -/
def IsGraphic (text : List Char) : Prop :=
  ∀ c ∈ text, ' '.toNat < c.toNat

instance (text : List Char) : Decidable (IsGraphic text) :=
  List.decidableBAll _ text

theorem IsGraphic.not_mem {text : List Char} (h : IsGraphic text) {c : Char}
    (hc : c.toNat ≤ ' '.toNat) : c ∉ text :=
  fun hmem => Nat.not_lt.mpr hc (h c hmem)

theorem IsGraphic.cons {c : Char} {text : List Char} (hc : ' '.toNat < c.toNat)
    (h : IsGraphic text) :
    IsGraphic (c :: text) :=
  List.forall_mem_cons.mpr ⟨hc, h⟩

theorem IsGraphic.append {first second : List Char} (hfirst : IsGraphic first)
    (hsecond : IsGraphic second) : IsGraphic (first ++ second) :=
  List.forall_mem_append.mpr ⟨hfirst, hsecond⟩

theorem intercalate_append {first second : List (List Char)} (separator : List Char)
    (hfirst : first ≠ []) (hsecond : second ≠ []) :
    separator.intercalate (first ++ second) =
      separator.intercalate first ++ separator ++ separator.intercalate second := by
  induction first with
  | nil => contradiction
  | cons part first ih =>
      cases first with
      | nil => rw [List.singleton_append, List.intercalate_cons_of_ne_nil hsecond,
          List.intercalate_singleton]
      | cons part' first =>
          rw [List.cons_append, List.cons_append, List.intercalate_cons_cons, ← List.cons_append,
            ih (List.cons_ne_nil _ _), List.intercalate_cons_cons]
          simp only [List.append_assoc]

theorem isGraphic_of_digit? {base : Nat} {text : List Char}
    (h : ∀ c ∈ text, ∃ digit, Numeral.digit? base c = some digit) : IsGraphic text := by
  intro c hc
  obtain ⟨digit, hdigit⟩ := h c hc
  have hrange := Numeral.toNat_of_digit? hdigit
  have hspace : ' '.toNat = 32 := rfl
  omega

theorem isGraphic_decimal (word : UInt16) : IsGraphic (decimal word).toList :=
  isGraphic_of_digit? fun _ hc => ⟨_, Numeral.digit?_of_isDigit (isDigit_of_mem_decimal hc)⟩

theorem isGraphic_hexDigits (word : UInt16) : IsGraphic (hexDigits .upper word) := by
  obtain ⟨_, digits, hdigits, _⟩ := Numeral.spells_hexDigits .upper word
  apply isGraphic_of_digit?
  intro c hc
  obtain ⟨digit, _, hdigit⟩ := Rows.exists_of_mem_right hdigits.flip hc
  exact ⟨digit, hdigit⟩

theorem not_leavesOpen_of_not_mem {text : List Char} (h : escape ∉ text) : ¬ LeavesOpen text := by
  rintro ⟨before, after, rfl, -⟩
  simp at h

theorem not_leavesOpen_styled (style : Style) (text : List Char) :
    ¬ LeavesOpen (styled style text) := by
  have hclosed : (styled style text).foldl inSequence false = false := by
    rw [styled, List.foldl_append, (isSilent_reset _).closed]
  intro hopen
  rw [(foldl_inSequence_iff false _).mpr (.inr hopen)] at hclosed
  contradiction

end Text

namespace Notice

def readDecimal? (text : List Char) : Option UInt16 := do
  guard (text ≠ [] ∧ text.all Char.isDigit)
  return (Nat.ofDigitChars 10 text 0).toUInt16

/-- Reads the fields of a line, the last first, since what a word that is no code is called has two
fields or three, and these stand first. -/
def readBackward? : List (List Char) → Option Notice
  | [operand, _, _, _, '$' :: pc, _, name] => do
      return .executed (String.ofList name) (← Listing.readWord? pc) (← readDecimal? operand)
  | _ :: _ :: ('$' :: pc) :: _ :: _ :: operand :: _ :: _ :: code :: _ => do
      return .unhandled (← Listing.readWord? code) (← Listing.readWord? operand)
        (← Listing.readWord? pc.dropLast)
  | _ => none

def readLine? (line : List Char) : Option Notice :=
  readBackward? (line.splitOn ' ').reverse

def readAll? (text : List Char) : Option (List Notice) := do
  let lines := text.splitOn '\n'
  guard (lines.getLast? = some [])
  lines.dropLast.mapM readLine?

theorem readDecimal?_decimal (word : UInt16) :
    readDecimal? (Text.decimal word).toList = some word := by
  have hne := Text.toList_decimal_ne_nil word
  have hdigits : (Text.decimal word).toList.all Char.isDigit = true :=
    List.all_eq_true.mpr fun c hc => Text.isDigit_of_mem_decimal hc
  have hvalue : Nat.ofDigitChars 10 (Text.decimal word).toList 0 = word.toNat := by
    rw [Text.toList_decimal, Nat.ofDigitChars_ten_toDigits]
  simp [readDecimal?, hne, hdigits, hvalue]

def kindFields (code : UInt16) : List (List Char) :=
  (unhandledKind code).toList.splitOn ' '

def parenthesized (word : UInt16) : List Char :=
  '(' :: (Text.decimal word).toList ++ [')']

inductive HasFields : Notice → List (List Char) → Prop
  | executed {name : String} (hname : Text.IsGraphic name.toList) (pc operand : UInt16) :
      HasFields (.executed name pc operand)
        [name.toList, "at".toList, '$' :: Text.hexDigits .upper pc, parenthesized pc,
          "with".toList, "data".toList, (Text.decimal operand).toList]
  | unhandled (code operand pc : UInt16) :
      HasFields (.unhandled code operand pc)
        (kindFields code ++
          [Text.hexDigits .upper code, "with".toList, "data".toList, Text.hexDigits .upper operand,
            parenthesized operand, "at".toList, '$' :: Text.hexDigits .upper pc ++ [','],
            "executing".toList, "NOP".toList])

theorem isGraphic_kindFields (code : UInt16) : ∀ field ∈ kindFields code, Text.IsGraphic field := by
  unfold kindFields unhandledKind
  cases Opcode.range code <;> decide +kernel

theorem isGraphic_parenthesized (word : UInt16) : Text.IsGraphic (parenthesized word) :=
  ((Text.isGraphic_decimal word).append (by decide)).cons (by decide)

namespace HasFields

variable {notice : Notice} {fields : List (List Char)} (h : notice.HasFields fields)

include h

theorem isGraphic : ∀ field ∈ fields, Text.IsGraphic field := by
  have haddress : ∀ word, Text.IsGraphic ('$' :: Text.hexDigits .upper word) := fun word =>
    (Text.isGraphic_hexDigits word).cons (by decide)
  cases h with
  | executed hname pc operand =>
      simp only [List.forall_mem_cons]
      exact ⟨hname, by decide, haddress pc, isGraphic_parenthesized pc, by decide, by decide,
        Text.isGraphic_decimal operand, List.forall_mem_nil _⟩
  | unhandled code operand pc =>
      rw [List.forall_mem_append]
      refine ⟨isGraphic_kindFields code, ?_⟩
      simp only [List.forall_mem_cons]
      exact ⟨Text.isGraphic_hexDigits code, by decide, by decide, Text.isGraphic_hexDigits operand,
        isGraphic_parenthesized operand, by decide, (haddress pc).append (by decide), by decide,
        by decide, List.forall_mem_nil _⟩

theorem ne_nil : fields ≠ [] := by
  cases h <;> simp

theorem toList_text : notice.text.toList = [' '].intercalate fields := by
  cases h with
  | @executed name _ pc operand =>
      have htext : (Notice.executed name pc operand).text =
          name ++ " at $" ++ Text.hex pc ++ " (" ++ Text.decimal pc ++ ") with data " ++
            Text.decimal operand := rfl
      rw [htext]
      simp [Text.hex, parenthesized, List.intercalate_cons_cons]
  | unhandled code operand pc =>
      have htext : (Notice.unhandled code operand pc).text =
          unhandledKind code ++ " " ++ Text.hex code ++ " with data " ++ Text.hex operand ++ " (" ++
            Text.decimal operand ++ ") at $" ++ Text.hex pc ++ ", executing NOP" := rfl
      have hkind : [' '].intercalate (kindFields code) = (unhandledKind code).toList :=
        List.intercalate_splitOn ' '
      have hne : kindFields code ≠ [] := List.splitOn_ne_nil _ _
      rw [htext, Text.intercalate_append _ hne (List.cons_ne_nil _ _), hkind]
      simp [Text.hex, parenthesized, List.intercalate_cons_cons]

theorem readBackward?_reverse : readBackward? fields.reverse = some notice := by
  cases h <;> simp [readBackward?, readDecimal?_decimal]

theorem readLine?_text : readLine? notice.text.toList = some notice := by
  have hspace : ∀ field ∈ fields, ' ' ∉ field := by
    exact fun field hfield => (h.isGraphic field hfield).not_mem (Nat.le_refl _)
  rw [h.toList_text, readLine?, List.splitOn_intercalate ' ' hspace h.ne_nil]
  exact h.readBackward?_reverse

theorem not_mem_text {c : Char} (hc : c.toNat < ' '.toNat) : c ∉ notice.text.toList := by
  rw [h.toList_text]
  intro hmem
  rcases Text.mem_intercalate hmem with rfl | ⟨field, hfield, hmem⟩
  · exact Nat.lt_irrefl _ hc
  · exact (h.isGraphic field hfield).not_mem (Nat.le_of_lt hc) hmem

theorem escape_not_mem_line : Text.escape ∉ notice.line.toList := by
  rw [line, String.toList_append, List.mem_append]
  rintro (htext | hnewline)
  · exact h.not_mem_text (by decide) htext
  · exact absurd hnewline (by decide)

end HasFields

def TellsOfCycle (notice : Notice) : Prop :=
  ∃ fields, notice.HasFields fields

theorem toList_lines (notices : List Notice) :
    notices.flatMap (fun notice => notice.line.toList) =
      ['\n'].intercalate (notices.map (fun notice => notice.text.toList) ++ [[]]) := by
  rw [← Listing.flatMap_concat_newline, List.flatMap_map]
  simp [line]

theorem readAll?_lines {notices : List Notice} (h : ∀ notice ∈ notices, notice.TellsOfCycle) :
    readAll? (notices.flatMap fun notice => notice.line.toList) = some notices := by
  have hnewline : ∀ text ∈ notices.map (fun notice => notice.text.toList) ++ [[]], '\n' ∉ text := by
    rw [List.forall_mem_append, List.forall_mem_map, List.forall_mem_singleton]
    refine ⟨fun notice hnotice => ?_, List.not_mem_nil⟩
    obtain ⟨fields, hfields⟩ := h notice hnotice
    exact hfields.not_mem_text (by decide)
  have hlines : (notices.map fun notice => notice.text.toList).mapM readLine? = some notices := by
    apply Rows.mapM_eq_some
    rw [List.forall₂_map_left_iff, List.forall₂_same]
    intro notice hnotice
    obtain ⟨fields, hfields⟩ := h notice hnotice
    exact hfields.readLine?_text
  rw [readAll?, toList_lines, List.splitOn_intercalate '\n' hnewline (by simp)]
  simp [hlines]

/-- A warning, and the instruction that stands in for the word. -/
example :
    readAll? ("Illegal instruction 00F0 with data 000E (14) at $FFFE, executing NOP\n" ++
      "NOP at $FFFE (65534) with data 14\n").toList =
        some [.unhandled 0x00F0 0x000E 0xFFFE, .executed "NOP" 0xFFFE 14] := by
  decide +kernel

end Notice

namespace Console

variable {before after : Console} {notices : List Notice}

theorem not_leavesOpen_diagnosticForm (console : Console) {text : String}
    (h : Text.escape ∉ text.toList) : ¬ Text.LeavesOpen (console.diagnosticForm text).toList := by
  unfold diagnosticForm
  split
  case isTrue =>
    rw [String.toList_ofList, Text.visible_eq_self h]
    exact Text.not_leavesOpen_of_not_mem h
  case isFalse =>
    split
    · rw [String.toList_ofList]
      exact Text.not_leavesOpen_styled _ _
    · exact Text.not_leavesOpen_of_not_mem h

theorem visible_join_diagnosticForm (console : Console)
    (h : ∀ notice ∈ notices, Text.escape ∉ notice.line.toList) :
    Text.visible
        (String.join (notices.map fun notice => console.diagnosticForm notice.line)).toList =
      notices.flatMap fun notice => notice.line.toList := by
  induction notices with
  | nil => rfl
  | cons notice notices ih =>
      obtain ⟨hnotice, hnotices⟩ := List.forall_mem_cons.mp h
      rw [List.map_cons, String.join_cons, String.toList_append,
        Text.visible_append (console.not_leavesOpen_diagnosticForm hnotice),
        visible_diagnosticForm, Text.visible_eq_self hnotice, ih hnotices, List.flatMap_cons]

/-- That all that has gone to standard error, between two moments, is the lines of notices, each in
the form in which diagnostics are printed; and that what is visible of it says the notices. -/
structure HasPrinted (before : Console) (notices : List Notice) (after : Console) : Prop where
  errors : after.errors =
    before.errors ++ String.join (notices.map fun notice => before.diagnosticForm notice.line)
  visible : ∃ printed, after.errors = before.errors ++ printed ∧
    Notice.readAll? (Text.visible printed.toList) = some notices

theorem hasPrinted_of_errors (h : ∀ notice ∈ notices, notice.TellsOfCycle)
    (herrors : after.errors =
      before.errors ++ String.join (notices.map fun notice => before.diagnosticForm notice.line)) :
    before.HasPrinted notices after := by
  refine ⟨herrors, _, herrors, ?_⟩
  have hplain : ∀ notice ∈ notices, Text.escape ∉ notice.line.toList := by
    intro notice hnotice
    obtain ⟨fields, hfields⟩ := h notice hnotice
    exact hfields.escape_not_mem_line
  rw [before.visible_join_diagnosticForm hplain, Notice.readAll?_lines h]

end Console

end FoxMachine
