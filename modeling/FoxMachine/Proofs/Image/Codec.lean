import FoxMachine.Image
import Mathlib.Data.List.Induction

namespace FoxMachine

namespace Image

variable {bytes code : List UInt8} {image : Image}

theorem wordOf_toUInt8 (word : UInt16) :
    wordOf (word.toNat / 256).toUInt8 (word.toNat % 256).toUInt8 = word := by
  have hhigh : word.toNat / 256 < UInt8.size := Nat.div_lt_of_lt_mul word.toNat_lt
  have hlow : word.toNat % 256 < UInt8.size := Nat.mod_lt _ (by decide)
  have hbytes : (word.toNat / 256).toUInt8.toNat * 256 + (word.toNat % 256).toUInt8.toNat =
      word.toNat := by
    rw [UInt8.toNat_ofNat_of_lt' hhigh, UInt8.toNat_ofNat_of_lt' hlow, Nat.div_add_mod']
  rw [wordOf, hbytes]
  exact UInt16.ofNat_toNat

theorem bytesOf_wordOf (high low : UInt8) : bytesOf (wordOf high low) = [high, low] := by
  have hlow : low.toNat < 256 := low.toNat_lt
  have hword : (wordOf high low).toNat = high.toNat * 256 + low.toNat := by
    have hhigh : high.toNat < 256 := high.toNat_lt
    apply UInt16.toNat_ofNat_of_lt'
    change _ < 65536
    omega
  have hquotient : (high.toNat * 256 + low.toNat) / 256 = high.toNat := by omega
  have hremainder : (high.toNat * 256 + low.toNat) % 256 = low.toNat := by omega
  rw [bytesOf, hword, hquotient, hremainder]
  exact congrArg₂ (fun high low => [high, low]) UInt8.ofNat_toNat UInt8.ofNat_toNat

theorem readWords_cons_cons (high low : UInt8) (bytes : List UInt8) :
    readWords [] (high :: low :: bytes) = wordOf high low :: readWords [] bytes :=
  readWords_append [] [wordOf high low] bytes

theorem readWords_flatMap_bytesOf (words : List UInt16) :
    readWords [] (words.flatMap bytesOf) = words := by
  induction words with
  | nil => rfl
  | cons word words ih =>
      rw [List.flatMap_cons, bytesOf, List.cons_append, List.cons_append, List.nil_append,
        readWords_cons_cons, wordOf_toUInt8, ih]

theorem flatMap_bytesOf_readWords (heven : code.length % 2 = 0) :
    (readWords [] code).flatMap bytesOf = code := by
  induction code using List.twoStepInduction with
  | nil => rfl
  | singleton byte => contradiction
  | cons_cons high low bytes ih _ =>
      have hrest : bytes.length % 2 = 0 := by
        simp only [List.length_cons] at heven
        omega
      rw [readWords_cons_cons, List.flatMap_cons, bytesOf_wordOf, ih hrest]
      rfl

theorem length_flatMap_bytesOf (words : List UInt16) :
    (words.flatMap bytesOf).length = 2 * words.length := by
  induction words with
  | nil => rfl
  | cons word words ih =>
      rw [List.flatMap_cons, List.length_append, ih, List.length_cons, Nat.mul_succ, Nat.add_comm]
      rfl

theorem decode_of_unidentified (h : ¬ identifier <+: bytes) :
    decode bytes = .error (.unidentified (bytes.take identifier.length)) := by
  rw [decode, if_neg (mt List.isPrefixOf_iff_prefix.mp h)]

theorem decode_identifier_append (code : List UInt8) :
    decode (identifier ++ code) =
      if code.length % 2 = 0 then .ok ⟨readWords [] code⟩
      else .error (.misaligned code.length) := by
  rw [decode, if_pos (List.isPrefixOf_iff_prefix.mpr (List.prefix_append identifier code)),
    List.drop_left]

theorem decode_encode (image : Image) : decode (encode image) = .ok image := by
  have heven : (image.words.flatMap bytesOf).length % 2 = 0 := by
    rw [length_flatMap_bytesOf, Nat.mul_mod_right]
  rw [encode, decode_identifier_append, if_pos heven, readWords_flatMap_bytesOf]

theorem decode_eq_ok_iff : decode bytes = .ok image ↔ bytes = encode image := by
  constructor
  · intro h
    by_cases hidentified : identifier <+: bytes
    · obtain ⟨code, rfl⟩ := hidentified
      rw [decode_identifier_append] at h
      split at h
      case isTrue heven =>
        cases h
        rw [encode, flatMap_bytesOf_readWords heven]
      case isFalse => contradiction
    · rw [decode_of_unidentified hidentified] at h
      contradiction
  · rintro rfl
    exact decode_encode image

theorem exists_decode_eq_ok_iff :
    (∃ image, decode bytes = .ok image) ↔
      ∃ code, bytes = identifier ++ code ∧ code.length % 2 = 0 := by
  constructor
  · intro h
    obtain ⟨image, h⟩ := h
    refine ⟨image.words.flatMap bytesOf, decode_eq_ok_iff.mp h, ?_⟩
    rw [length_flatMap_bytesOf, Nat.mul_mod_right]
  · intro h
    obtain ⟨code, rfl, heven⟩ := h
    exact ⟨_, (decode_identifier_append code).trans (if_pos heven)⟩

theorem decode_eq_error_iff {fault : Fault} :
    decode bytes = .error fault ↔
      (¬ identifier <+: bytes ∧ fault = .unidentified (bytes.take identifier.length)) ∨
        ∃ code, bytes = identifier ++ code ∧ code.length % 2 = 1 ∧
          fault = .misaligned code.length := by
  by_cases hidentified : identifier <+: bytes
  · obtain ⟨code, rfl⟩ := hidentified
    rw [decode_identifier_append]
    rcases Nat.mod_two_eq_zero_or_one code.length with hparity | hparity <;>
      simp [hparity, eq_comm]
  · have hcode : ∀ code, bytes ≠ identifier ++ code := by
      rintro code rfl
      exact hidentified (List.prefix_append identifier code)
    simp [decode_of_unidentified hidentified, hidentified, hcode, eq_comm]

theorem exists_unidentified_iff :
    (∃ fault, decode bytes = .error fault ∧ fault.code = "rom::magic") ↔
      ¬ identifier <+: bytes := by
  constructor
  · intro h
    obtain ⟨fault, hfault, hcode⟩ := h
    rcases decode_eq_error_iff.mp hfault with hunidentified | hmisaligned
    · exact hunidentified.1
    · obtain ⟨code, _, _, rfl⟩ := hmisaligned
      simp [Fault.code] at hcode
  · intro hidentified
    exact ⟨_, decode_of_unidentified hidentified, rfl⟩

theorem exists_misaligned_iff :
    (∃ fault, decode bytes = .error fault ∧ fault.code = "rom::alignment") ↔
      ∃ code, bytes = identifier ++ code ∧ code.length % 2 = 1 := by
  constructor
  · intro h
    obtain ⟨fault, hfault, hcode⟩ := h
    rcases decode_eq_error_iff.mp hfault with hunidentified | hmisaligned
    · obtain ⟨_, rfl⟩ := hunidentified
      simp [Fault.code] at hcode
    · obtain ⟨code, hbytes, hodd, _⟩ := hmisaligned
      exact ⟨code, hbytes, hodd⟩
  · intro h
    obtain ⟨code, hbytes, hodd⟩ := h
    exact ⟨_, decode_eq_error_iff.mpr (.inr ⟨code, hbytes, hodd, rfl⟩), rfl⟩

/-- What can be read is what is written, and what cannot is refused for the identifier before it is
refused for its length. -/
theorem decode_exact (words : List UInt16) (bytes : List UInt8) :
    decode (encode ⟨words⟩) = .ok ⟨words⟩ ∧
      ((∃ image, decode bytes = .ok image) ↔
        ∃ code, bytes = identifier ++ code ∧ code.length % 2 = 0) ∧
      (∀ image, decode bytes = .ok image → encode image = bytes) ∧
      ((∃ fault, decode bytes = .error fault ∧ fault.code = "rom::magic") ↔
        ¬ identifier <+: bytes) ∧
      ((∃ fault, decode bytes = .error fault ∧ fault.code = "rom::alignment") ↔
        ∃ code, bytes = identifier ++ code ∧ code.length % 2 = 1) ∧
      identifier.length = 10 ∧ (bytes.length < 10 → ¬ identifier <+: bytes) := by
  refine ⟨decode_encode ⟨words⟩, exists_decode_eq_ok_iff, ?_, exists_unidentified_iff,
    exists_misaligned_iff, rfl, ?_⟩
  · intro image h
    exact (decode_eq_ok_iff.mp h).symm
  · intro hshort hidentified
    exact Nat.not_le_of_lt hshort hidentified.length_le

end Image

end FoxMachine
