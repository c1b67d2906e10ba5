import FoxMachine.Proofs.Token.Faults

namespace FoxMachine

namespace Numeral

def digitChars : List Char :=
  ['0', '1', '2', '3', '4', '5', '6', '7', '8', '9', 'a', 'b', 'c', 'd', 'e', 'f']

/-- A row of digits, letters in either case, and the number that it denotes. -/
def Denotes (base : Nat) (text : List Char) (value : Nat) : Prop :=
  text ≠ [] ∧ (∀ c ∈ text, c.toLower ∈ digitChars.take base) ∧
    value = Nat.ofDigits base (text.map fun c => digitChars.idxOf c.toLower).reverse

theorem toLower_of_not_ascii {c : Char} (h : 128 ≤ c.toNat) : c.toLower = c := by
  unfold Char.toLower
  apply dif_neg
  intro hupper
  have hbound : c.toNat ≤ 90 := UInt32.le_iff_toNat_le.mp hupper.2
  omega

theorem digit?_of_not_ascii (base : Nat) {c : Char} (h : 128 ≤ c.toNat) : digit? base c = none := by
  have hnot : ∀ last ∈ ['9', 'z', 'Z'], ¬ c ≤ last := by
    intro last hlast hle
    have hascii : ∀ last ∈ ['9', 'z', 'Z'], last.toNat < 128 := by simp
    have hbound : c.toNat ≤ last.toNat := UInt32.le_iff_toNat_le.mp hle
    exact absurd (hascii last hlast) (by omega)
  simp [digit?, hnot]

/-- Below 128 the two tables agree, character by character; above there are no digits. -/
theorem digit?_eq {base : Nat} (hbase : base ∈ [10, 16]) (c : Char) :
    digit? base c =
      if c.toLower ∈ digitChars.take base then some (digitChars.idxOf c.toLower) else none := by
  rcases Nat.lt_or_ge c.toNat 128 with hascii | hother
  · have htable : ∀ base ∈ [10, 16], ∀ n < 128, digit? base (Char.ofNat n) =
        if (Char.ofNat n).toLower ∈ digitChars.take base then
          some (digitChars.idxOf (Char.ofNat n).toLower) else none := by
      decide +kernel
    simpa using htable base hbase c.toNat hascii
  · have hbelow : ∀ c ∈ digitChars, c.toNat < 128 := by simp [digitChars]
    have hmem : c ∉ digitChars.take base := fun hc =>
      Nat.not_lt.mpr hother (hbelow c (List.mem_of_mem_take hc))
    rw [digit?_of_not_ascii base hother, toLower_of_not_ascii hother, if_neg hmem]

theorem spells_iff_denotes {base : Nat} (hbase : base ∈ [10, 16]) {text : List Char} {value : Nat} :
    Spells base text value ↔ Denotes base text value := by
  have hdigit : ∀ c digit, digit? base c = some digit ↔
      c.toLower ∈ digitChars.take base ∧ digitChars.idxOf c.toLower = digit := by
    intro c digit
    rw [digit?_eq hbase]
    split <;> simp_all
  simp only [Spells, Denotes, hdigit, List.forall₂_and_left]
  have hrow : ∀ digits,
      List.Forall₂ (fun (c : Char) digit => digitChars.idxOf c.toLower = digit) text digits ↔
        text.map (fun c => digitChars.idxOf c.toLower) = digits := by
    intro digits
    rw [← List.forall₂_eq_eq_eq, List.forall₂_map_left_iff]
  simp only [hrow]
  constructor
  · rintro ⟨hne, digits, ⟨hdigits, rfl⟩, hvalue⟩
    exact ⟨hne, hdigits, hvalue⟩
  · rintro ⟨hne, hdigits, hvalue⟩
    exact ⟨hne, _, ⟨hdigits, rfl⟩, hvalue⟩

end Numeral

namespace Literal

open Numeral

def IsDecimal (text : List Char) (value : Int) : Prop :=
  ∃ sign digits magnitude, text = sign ++ digits ∧ Denotes 10 digits magnitude ∧
    ((sign = [] ∨ sign = ['+']) ∧ value = magnitude ∨ sign = ['-'] ∧ value = -magnitude)

def IsHexadecimal (text : List Char) (value : Nat) : Prop :=
  ∃ sign digits, text = sign ++ digits ∧ Denotes 16 digits value ∧ (sign = [] ∨ sign = ['+'])

theorem spellsUnsigned_iff {base : Nat} (hbase : base ∈ [10, 16]) {text : List Char} {value : Nat} :
    SpellsUnsigned base text value ↔
      ∃ sign digits, text = sign ++ digits ∧ Denotes base digits value ∧
        (sign = [] ∨ sign = ['+']) := by
  simp only [← spells_iff_denotes hbase]
  constructor
  · intro h
    cases h with
    | plain hspells => exact ⟨[], text, rfl, hspells, .inl rfl⟩
    | plus hspells => exact ⟨['+'], _, rfl, hspells, .inr rfl⟩
  · rintro ⟨sign, digits, rfl, hspells, rfl | rfl⟩
    · exact .plain hspells
    · exact .plus hspells

theorem spellsSigned_iff {text : List Char} {value : Int} :
    SpellsSigned 10 text value ↔ IsDecimal text value := by
  constructor
  · intro h
    cases h with
    | unsigned hspells =>
        obtain ⟨sign, digits, htext, hdigits, hsign⟩ :=
          (spellsUnsigned_iff (by decide)).mp hspells
        exact ⟨sign, digits, _, htext, hdigits, .inl ⟨hsign, rfl⟩⟩
    | minus hspells =>
        exact ⟨['-'], _, _, rfl, (spells_iff_denotes (by decide)).mp hspells, .inr ⟨rfl, rfl⟩⟩
  · rintro ⟨sign, digits, magnitude, rfl, hdigits, ⟨hsign, rfl⟩ | ⟨rfl, rfl⟩⟩
    · exact .unsigned ((spellsUnsigned_iff (by decide)).mpr ⟨sign, digits, rfl, hdigits, hsign⟩)
    · exact .minus ((spells_iff_denotes (by decide)).mpr hdigits)

theorem wordOf_eq_iff {value : Int} {word : UInt16} :
    word = wordOf value ↔ (word.toNat : Int) = value % 65536 := by
  constructor
  · rintro rfl
    simp [wordOf]
    omega
  · intro h
    rw [← wordOf_toNat word, h]
    simp [wordOf]

end Literal

namespace Token

open Literal

variable {previous? : Option Token} {offset : Nat} {text : List Char} {token : Token}

theorem read_decimal_iff :
    read previous? ⟨offset, '%' :: text⟩ = .ok token ↔
      ∃ value word, IsDecimal text value ∧ -32768 ≤ value ∧ value ≤ 65535 ∧
        (word.toNat : Int) = value % 65536 ∧
        token = ⟨.decimal word, spanOf ⟨offset, '%' :: text⟩⟩ := by
  have hread : read previous? ⟨offset, '%' :: text⟩ = .ok token ↔
      ∃ word, decimal text = .ok word ∧
        token = ⟨.decimal word, spanOf ⟨offset, '%' :: text⟩⟩ := by
    cases hvalue : decimal text <;>
      simp [read, Kind.read, hvalue, Except.map, Except.mapError, eq_comm]
  simp only [hread, decimal_eq_ok_iff, spellsSigned_iff, wordOf_eq_iff]
  constructor
  · rintro ⟨word, ⟨value, hspells, hleast, hgreatest, hword⟩, htoken⟩
    exact ⟨value, word, hspells, hleast, hgreatest, hword, htoken⟩
  · rintro ⟨value, word, hspells, hleast, hgreatest, hword, htoken⟩
    exact ⟨word, ⟨value, hspells, hleast, hgreatest, hword⟩, htoken⟩

theorem read_hexadecimal_iff :
    read previous? ⟨offset, '$' :: text⟩ = .ok token ↔
      ∃ value word, IsHexadecimal text value ∧ value ≤ 65535 ∧ word.toNat = value ∧
        token = ⟨.hexadecimal word, spanOf ⟨offset, '$' :: text⟩⟩ := by
  have hread : read previous? ⟨offset, '$' :: text⟩ = .ok token ↔
      ∃ word, hexadecimal text = .ok word ∧
        token = ⟨.hexadecimal word, spanOf ⟨offset, '$' :: text⟩⟩ := by
    cases hvalue : hexadecimal text <;>
      simp [read, Kind.read, hvalue, Except.map, Except.mapError, eq_comm]
  rw [hread]
  constructor
  · rintro ⟨word, hword, htoken⟩
    obtain ⟨value, hspells, hgreatest, hword⟩ := hexadecimal_eq_ok_iff.mp hword
    have hvalue := wordOf_eq_iff.mp hword
    exact ⟨value, word, (spellsUnsigned_iff (by decide)).mp hspells, hgreatest, by omega, htoken⟩
  · rintro ⟨value, word, hspells, hgreatest, rfl, htoken⟩
    have hword := hexadecimal_eq_ok_iff.mpr
      ⟨_, (spellsUnsigned_iff (by decide)).mpr hspells, hgreatest, (wordOf_toNat word).symm⟩
    exact ⟨word, hword, htoken⟩

theorem exists_fault_of_literal {mark : Char} (hmark : mark = '%' ∨ mark = '$')
    (h : ∀ token, read previous? ⟨offset, mark :: text⟩ ≠ .ok token) :
    ∃ fault, read previous? ⟨offset, mark :: text⟩ = .error fault ∧
      fault.code = "lex::bad_lit" := by
  cases hread : read previous? ⟨offset, mark :: text⟩ with
  | ok token => exact absurd hread (h token)
  | error fault =>
      obtain ⟨_, hcode⟩ := Kind.fault_of_read (FirstFault.map_eq_error_iff.mp hread)
      have hstarts : Text.startsLiteral (mark :: text) = true := by
        rcases hmark with rfl | rfl <;> rfl
      rw [if_pos hstarts] at hcode
      exact ⟨fault, rfl, hcode⟩

/-- A literal is read if and only if its number is spelled out and fits into a word, and then as
the word that agrees with the number modulo 65536; zeros may lead. All other parts that start like
a literal are faults of literals. -/
theorem read_literal_iff (previous? : Option Token) (offset : Nat) (text : List Char) :
    (∀ token, read previous? ⟨offset, '%' :: text⟩ = .ok token ↔
      ∃ value word, IsDecimal text value ∧ -32768 ≤ value ∧ value ≤ 65535 ∧
        (word.toNat : Int) = value % 65536 ∧
        token = ⟨.decimal word, spanOf ⟨offset, '%' :: text⟩⟩) ∧
    (∀ token, read previous? ⟨offset, '$' :: text⟩ = .ok token ↔
      ∃ value word, IsHexadecimal text value ∧ value ≤ 65535 ∧ word.toNat = value ∧
        token = ⟨.hexadecimal word, spanOf ⟨offset, '$' :: text⟩⟩) ∧
    ((¬ ∃ value, IsDecimal text value ∧ -32768 ≤ value ∧ value ≤ 65535) →
      ∃ fault, read previous? ⟨offset, '%' :: text⟩ = .error fault ∧
        fault.code = "lex::bad_lit") ∧
    ((¬ ∃ value, IsHexadecimal text value ∧ value ≤ 65535) →
      ∃ fault, read previous? ⟨offset, '$' :: text⟩ = .error fault ∧
        fault.code = "lex::bad_lit") := by
  refine ⟨fun _ => read_decimal_iff, fun _ => read_hexadecimal_iff, fun hnone => ?_,
    fun hnone => ?_⟩
  · apply exists_fault_of_literal (.inl rfl)
    intro token hread
    obtain ⟨value, _, hspells, hleast, hgreatest, _⟩ := read_decimal_iff.mp hread
    exact hnone ⟨value, hspells, hleast, hgreatest⟩
  · apply exists_fault_of_literal (.inr rfl)
    intro token hread
    obtain ⟨value, _, hspells, hgreatest, _⟩ := read_hexadecimal_iff.mp hread
    exact hnone ⟨value, hspells, hgreatest⟩

end Token

end FoxMachine
