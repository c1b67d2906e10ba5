import FoxMachine.Numeral
import FoxMachine.Proofs.FirstFault
import Mathlib.Data.Nat.Digits.Defs

namespace FoxMachine

namespace Numeral

/-- The text is a row of digits, at least one, which denotes a number. -/
def Spells (base : Nat) (text : List Char) (value : Nat) : Prop :=
  text ≠ [] ∧ ∃ digits, List.Forall₂ (fun c digit => digit? base c = some digit) text digits ∧
    value = Nat.ofDigits base digits.reverse

inductive SpellsUnsigned (base : Nat) : List Char → Nat → Prop
  | plain {text : List Char} {value : Nat} (hspells : Spells base text value) :
      SpellsUnsigned base text value
  | plus {text : List Char} {value : Nat} (hspells : Spells base text value) :
      SpellsUnsigned base ('+' :: text) value

inductive SpellsSigned (base : Nat) : List Char → Int → Prop
  | unsigned {text : List Char} {value : Nat} (hspells : SpellsUnsigned base text value) :
      SpellsSigned base text value
  | minus {text : List Char} {value : Nat} (hspells : Spells base text value) :
      SpellsSigned base ('-' :: text) (-value)

def extend (base value : Nat) (digits : List Nat) : Nat :=
  digits.foldl (fun value digit => value * base + digit) value

theorem le_extend {base : Nat} (hbase : 0 < base) (value : Nat) (digits : List Nat) :
    value ≤ extend base value digits := by
  induction digits generalizing value with
  | nil => exact Nat.le_refl value
  | cons digit digits ih =>
      have hstep : value ≤ value * base + digit :=
        Nat.le_trans (Nat.le_mul_of_pos_right value hbase) (Nat.le_add_right _ _)
      exact Nat.le_trans hstep (ih _)

theorem extend_zero (base : Nat) (digits : List Nat) :
    extend base 0 digits = Nat.ofDigits base digits.reverse := by
  rw [Nat.ofDigits_eq_foldr, List.foldr_reverse, extend]
  simp [Nat.add_comm, Nat.mul_comm]

theorem readDigits_eq_ok_iff {base limit : Nat} (hbase : 0 < base) {overflow : Fault}
    {value result : Nat} (hvalue : value ≤ limit) {text : List Char} :
    readDigits base limit overflow value text = .ok result ↔
      ∃ digits, List.Forall₂ (fun c digit => digit? base c = some digit) text digits ∧
        result = extend base value digits ∧ result ≤ limit := by
  induction text generalizing value with
  | nil =>
      constructor
      · intro h
        cases h
        exact ⟨[], .nil, rfl, hvalue⟩
      · intro h
        obtain ⟨digits, hdigits, hresult, _⟩ := h
        cases hdigits
        rw [hresult]
        rfl
  | cons c text ih =>
      rw [readDigits]
      cases hdigit : digit? base c with
      | none =>
          constructor
          · intro h
            contradiction
          · intro h
            obtain ⟨digits, hdigits, _⟩ := h
            cases hdigits with
            | cons hdigit' _ =>
                rw [hdigit] at hdigit'
                contradiction
      | some digit =>
          dsimp only
          split
          case isTrue hoverflow =>
            constructor
            · intro h
              contradiction
            · intro h
              obtain ⟨digits, hdigits, hresult, hlimit⟩ := h
              cases hdigits with
              | @cons _ _ _ digits hdigit' _ =>
                  rw [hdigit] at hdigit'
                  obtain rfl := Option.some.inj hdigit'
                  -- Digits to come only add to the number, so the limit stays passed.
                  have hlarger : value * base + digit ≤ result := by
                    rw [hresult]
                    exact le_extend hbase (value * base + digit) digits
                  omega
          case isFalse hfits =>
            rw [ih (Nat.le_of_not_lt hfits)]
            constructor
            · intro h
              obtain ⟨digits, hdigits, hresult⟩ := h
              exact ⟨digit :: digits, .cons hdigit hdigits, hresult⟩
            · intro h
              obtain ⟨digits, hdigits, hresult⟩ := h
              cases hdigits with
              | cons hdigit' hdigits =>
                  rw [hdigit] at hdigit'
                  obtain rfl := Option.some.inj hdigit'
                  exact ⟨_, hdigits, hresult⟩

theorem readDigits_zero_eq_ok_iff {base limit : Nat} (hbase : 0 < base) {overflow : Fault}
    {value : Nat} {text : List Char} (hne : text ≠ []) :
    readDigits base limit overflow 0 text = .ok value ↔ Spells base text value ∧ value ≤ limit := by
  rw [readDigits_eq_ok_iff hbase (Nat.zero_le limit)]
  simp only [extend_zero]
  constructor
  · intro h
    obtain ⟨digits, hdigits, hvalue, hlimit⟩ := h
    exact ⟨⟨hne, digits, hdigits, hvalue⟩, hlimit⟩
  · intro h
    obtain ⟨⟨_, digits, hdigits, hvalue⟩, hlimit⟩ := h
    exact ⟨digits, hdigits, hvalue, hlimit⟩

theorem Spells.head_ne {base value : Nat} {c sign : Char} {text : List Char}
    (hspells : Spells base (c :: text) value) (hsign : digit? base sign = none) : c ≠ sign := by
  intro heq
  obtain ⟨_, digits, hdigits, _⟩ := hspells
  cases hdigits with
  | cons hdigit _ =>
      rw [heq, hsign] at hdigit
      contradiction

theorem digit?_digitChar (letters : Text.LetterCase) :
    ∀ digit < 16, digit? 16 (Text.digitChar letters digit) = some digit := by
  cases letters <;> decide

theorem spells_hexDigits (letters : Text.LetterCase) (word : UInt16) :
    Spells 16 (Text.hexDigits letters word) word.toNat := by
  refine ⟨List.cons_ne_nil _ _, [word.toNat / 4096 % 16, word.toNat / 256 % 16,
    word.toNat / 16 % 16, word.toNat % 16], ?_, ?_⟩
  · rw [Text.hexDigits, List.forall₂_map_left_iff, List.forall₂_same]
    intro digit hdigit
    apply digit?_digitChar
    simp only [List.mem_cons, List.not_mem_nil, or_false] at hdigit
    omega
  · have hword : word.toNat < 65536 := word.toNat_lt
    simp [Nat.ofDigits_cons]
    omega

namespace Format

variable {format : Format} {text : List Char}

theorem read_of_spells {value : Nat} (hspells : Spells format.base text value) :
    format.read text =
      (readDigits format.base format.greatest .tooLarge 0 text).map Int.ofNat := by
  obtain ⟨c, rest, rfl⟩ := List.exists_cons_of_ne_nil hspells.1
  have hplus : c ≠ '+' := hspells.head_ne rfl
  have hminus : c ≠ '-' := hspells.head_ne rfl
  unfold read
  split <;> simp_all

theorem read_plus (hne : text ≠ []) :
    format.read ('+' :: text) =
      (readDigits format.base format.greatest .tooLarge 0 text).map Int.ofNat := by
  obtain ⟨c, rest, rfl⟩ := List.exists_cons_of_ne_nil hne
  rfl

theorem read_minus (hne : text ≠ []) {least : Nat} (hleast : format.least? = some least) :
    format.read ('-' :: text) =
      (readDigits format.base least .tooSmall 0 text).map fun (magnitude : Nat) =>
        -(magnitude : Int) := by
  obtain ⟨c, rest, rfl⟩ := List.exists_cons_of_ne_nil hne
  rw [read, hleast]
  case x_1 => simp
  dsimp only
  cases readDigits format.base least .tooSmall 0 (c :: rest) <;> rfl

theorem read_of_spellsUnsigned (hbase : 0 < format.base) {value : Nat}
    (hspells : SpellsUnsigned format.base text value) (hvalue : value ≤ format.greatest) :
    format.read text = .ok value := by
  cases hspells with
  | plain hspells =>
      rw [read_of_spells hspells, FirstFault.map_eq_ok_iff]
      exact ⟨value, (readDigits_zero_eq_ok_iff hbase hspells.1).mpr ⟨hspells, hvalue⟩, rfl⟩
  | plus hspells =>
      rw [read_plus hspells.1, FirstFault.map_eq_ok_iff]
      exact ⟨value, (readDigits_zero_eq_ok_iff hbase hspells.1).mpr ⟨hspells, hvalue⟩, rfl⟩

theorem spells_of_read (hbase : 0 < format.base) {value : Int} (h : format.read text = .ok value) :
    (∃ magnitude : Nat, SpellsUnsigned format.base text magnitude ∧ magnitude ≤ format.greatest ∧
        value = magnitude) ∨
      ∃ least magnitude digits, format.least? = some least ∧ text = '-' :: digits ∧
        Spells format.base digits magnitude ∧ magnitude ≤ least ∧ value = -magnitude := by
  unfold read at h
  split at h
  case h_1 => contradiction
  case h_2 => contradiction
  case h_3 => contradiction
  case h_4 digits hne =>
    left
    obtain ⟨magnitude, hread, hvalue⟩ := FirstFault.map_eq_ok_iff.mp h
    obtain ⟨hspells, hlimit⟩ := (readDigits_zero_eq_ok_iff hbase hne).mp hread
    exact ⟨magnitude, .plus hspells, hlimit, hvalue⟩
  case h_5 digits hne =>
    right
    cases hleast : format.least? with
    | none =>
        rw [hleast] at h
        contradiction
    | some least =>
        rw [← read.eq_5 format digits hne, read_minus hne hleast] at h
        obtain ⟨magnitude, hread, hvalue⟩ := FirstFault.map_eq_ok_iff.mp h
        obtain ⟨hspells, hlimit⟩ := (readDigits_zero_eq_ok_iff hbase hne).mp hread
        exact ⟨least, magnitude, digits, rfl, rfl, hspells, hlimit, hvalue⟩
  case h_6 hne _ _ _ _ =>
    left
    obtain ⟨magnitude, hread, hvalue⟩ := FirstFault.map_eq_ok_iff.mp h
    obtain ⟨hspells, hlimit⟩ := (readDigits_zero_eq_ok_iff hbase hne).mp hread
    exact ⟨magnitude, .plain hspells, hlimit, hvalue⟩

end Format

end Numeral

namespace Literal

open Numeral

theorem decimal_eq_ok_iff {text : List Char} {word : UInt16} :
    decimal text = .ok word ↔
      ∃ value, SpellsSigned 10 text value ∧ -32768 ≤ value ∧ value ≤ 65535 ∧
        word = wordOf value := by
  constructor
  · intro h
    unfold decimal at h
    split at h
    case h_1 => contradiction
    case h_2 value hread =>
      split at h
      case isFalse => contradiction
      case isTrue hrange =>
        refine ⟨value, ?_, hrange.1, hrange.2, (Except.ok.inj h).symm⟩
        rcases Format.spells_of_read (by decide) hread with hunsigned | hminus
        · obtain ⟨magnitude, hspells, _, rfl⟩ := hunsigned
          exact .unsigned hspells
        · obtain ⟨least, magnitude, digits, _, rfl, hspells, _, rfl⟩ := hminus
          exact .minus hspells
  · intro h
    obtain ⟨value, hspells, hleast, hgreatest, rfl⟩ := h
    have hread : signed32.read text = .ok value := by
      cases hspells with
      | @unsigned _ magnitude hspells =>
          apply Format.read_of_spellsUnsigned (by decide) hspells
          change magnitude ≤ 0x7FFFFFFF
          omega
      | @minus _ magnitude hspells =>
          rw [Format.read_minus hspells.1 rfl, FirstFault.map_eq_ok_iff]
          have hlimit : magnitude ≤ 0x80000000 := by omega
          exact ⟨magnitude,
            (readDigits_zero_eq_ok_iff (by decide) hspells.1).mpr ⟨hspells, hlimit⟩, rfl⟩
    rw [decimal, hread]
    exact if_pos ⟨hleast, hgreatest⟩

theorem hexadecimal_eq_ok_iff {text : List Char} {word : UInt16} :
    hexadecimal text = .ok word ↔
      ∃ value : Nat, SpellsUnsigned 16 text value ∧ value ≤ 65535 ∧ word = wordOf value := by
  constructor
  · intro h
    unfold hexadecimal at h
    split at h
    case h_1 => contradiction
    case h_2 value hread =>
      rcases Format.spells_of_read (by decide) hread with hunsigned | hminus
      · obtain ⟨magnitude, hspells, hlimit, rfl⟩ := hunsigned
        exact ⟨magnitude, hspells, hlimit, (Except.ok.inj h).symm⟩
      · obtain ⟨least, _, _, hleast, _⟩ := hminus
        contradiction
  · intro h
    obtain ⟨value, hspells, hlimit, rfl⟩ := h
    have hread : hex16.read text = .ok value :=
      Format.read_of_spellsUnsigned (by decide) hspells hlimit
    rw [hexadecimal, hread]

theorem wordOf_toNat (word : UInt16) : wordOf word.toNat = word := by
  have hword : ((word.toNat : Int) % 65536).toNat = word.toNat := by
    have hlt : word.toNat < 65536 := word.toNat_lt
    omega
  rw [wordOf, hword]
  exact UInt16.ofNat_toNat

theorem hexadecimal_of_spells {text : List Char} {word : UInt16}
    (hspells : Spells 16 text word.toNat) : hexadecimal text = .ok word := by
  have hle : word.toNat ≤ 65535 := Nat.le_of_lt_succ word.toNat_lt
  exact hexadecimal_eq_ok_iff.mpr ⟨word.toNat, .plain hspells, hle, (wordOf_toNat word).symm⟩

end Literal

end FoxMachine
