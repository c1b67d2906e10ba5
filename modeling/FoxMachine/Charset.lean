namespace FoxMachine

namespace Charset

def alphabet : List Char :=
  "#ABCDEFGHIJKLMNOPQRSTUVWXYZ-0123456789\n ".toList

/-- The code of a key that is not in the alphabet. -/
def unknownKey : UInt16 :=
  40

/-- The character of a code; a code outside the alphabet shows as a question mark. -/
def charFor (code : UInt16) : Char :=
  alphabet[code.toNat]?.getD '?'

/-- The code of a character. Small ASCII letters count as capitals. -/
def codeFor? (c : Char) : Option UInt16 :=
  (alphabet.idxOf? c.toUpper).map Nat.toUInt16

def keyCode (key? : Option Char) : UInt16 :=
  (key?.bind codeFor?).getD unknownKey

theorem length_alphabet : alphabet.length = 40 := by
  decide +kernel

/-- What a program is to receive for a key, or for no key: the one code whose character is the key,
written as a capital, or else the code that stands for all other keys. -/
inductive Receives (key? : Option Char) : UInt16 → Prop
  | code {key : Char} {code : UInt16} (hkey : key? = some key) (hcode : code < 40)
      (hchar : charFor code = key.toUpper)
      (hunique : ∀ other < 40, charFor other = key.toUpper → other = code) :
      Receives key? code
  | unknown (hnone : ∀ key ∈ key?, ∀ code < 40, charFor code ≠ key.toUpper) :
      Receives key? 40

theorem nodup_alphabet : alphabet.Nodup := by
  decide +kernel

theorem getElem?_alphabet {code : UInt16} (hcode : code < 40) :
    alphabet[code.toNat]? = some (charFor code) := by
  have hlt : code.toNat < alphabet.length := by
    rw [length_alphabet]
    exact hcode
  rw [charFor, List.getElem?_eq_getElem hlt]
  rfl

theorem eq_of_charFor_eq {first second : UInt16} (hfirst : first < 40)
    (hsecond : second < 40) (h : charFor first = charFor second) : first = second := by
  have hplaces : alphabet[first.toNat]? = alphabet[second.toNat]? := by
    rw [getElem?_alphabet hfirst, getElem?_alphabet hsecond, h]
  have hlt : first.toNat < alphabet.length := by
    rw [length_alphabet]
    exact hfirst
  exact UInt16.toNat_inj.mp ((List.getElem?_inj hlt nodup_alphabet).mp hplaces)

theorem idxOf?_alphabet {c : Char} {place : Nat} (h : alphabet.idxOf? c = some place) :
    place.toUInt16 < 40 ∧ charFor place.toUInt16 = c := by
  obtain ⟨hlt, hplace, _⟩ := List.idxOf?_eq_some_iff.mp h
  have hsmall : place < 40 := hlt
  have htoNat : place.toUInt16.toNat = place := Nat.mod_eq_of_lt (by simp; omega)
  constructor
  · rw [UInt16.lt_iff_toNat_lt, htoNat]
    exact hsmall
  · rw [charFor, htoNat, List.getElem?_eq_getElem hlt, hplace]
    rfl

theorem receives_keyCode (key? : Option Char) : Receives key? (keyCode key?) := by
  cases key? with
  | none =>
      apply Receives.unknown
      simp
  | some key =>
      cases hplace : alphabet.idxOf? key.toUpper with
      | none =>
          have hkeyCode : keyCode (some key) = unknownKey := by
            simp [keyCode, codeFor?, hplace]
          rw [hkeyCode]
          apply Receives.unknown
          intro key' hkey' code hcode hchar
          obtain rfl := Option.some.inj hkey'
          apply List.idxOf?_eq_none_iff.mp hplace
          rw [← hchar]
          exact List.mem_of_getElem? (getElem?_alphabet hcode)
      | some place =>
          obtain ⟨hcode, hchar⟩ := idxOf?_alphabet hplace
          have hkeyCode : keyCode (some key) = place.toUInt16 := by
            simp [keyCode, codeFor?, hplace]
          rw [hkeyCode]
          apply Receives.code rfl hcode hchar
          intro other hother hsame
          exact eq_of_charFor_eq hother hcode (hsame.trans hchar.symm)

end Charset

end FoxMachine
