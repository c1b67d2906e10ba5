import FoxMachine.Text.Basic
import Mathlib.Data.List.TakeWhile

namespace FoxMachine

namespace Text

def IsBlank (text : List Char) : Prop :=
  ∀ c ∈ text, isBlank c = true

theorem isBlank_or_exists (text : List Char) : IsBlank text ∨ ∃ c ∈ text, isBlank c = false := by
  by_cases hblank : IsBlank text
  · exact .inl hblank
  · exact .inr (by simpa [IsBlank] using hblank)

theorem IsBlank.reverse {text : List Char} (h : IsBlank text) : IsBlank text.reverse :=
  fun c hc => h c (List.mem_reverse.mp hc)

variable {text blanks : List Char}

theorem trimStart_append_of_isBlank (hblanks : IsBlank blanks) (text : List Char) :
    trimStart (blanks ++ text) = trimStart text :=
  List.dropWhile_append_of_pos hblanks

theorem trimStart_of_isBlank (hblanks : IsBlank blanks) : trimStart blanks = [] := by
  simpa using trimStart_append_of_isBlank hblanks []

theorem trimStart_ne_nil (h : ∃ c ∈ text, isBlank c = false) : trimStart text ≠ [] := by
  rw [trimStart, Ne, List.dropWhile_eq_nil_iff]
  intro hblank
  obtain ⟨c, hc, hnot⟩ := h
  rw [hblank c hc] at hnot
  contradiction

theorem trimStart_append_of_exists (h : ∃ c ∈ text, isBlank c = false) (rest : List Char) :
    trimStart (text ++ rest) = trimStart text ++ rest := by
  have hkept : ¬ (text.dropWhile isBlank).isEmpty = true := by
    rw [List.isEmpty_iff]
    exact trimStart_ne_nil h
  rw [trimStart, List.dropWhile_append, if_neg hkept, ← trimStart]

theorem trimEnd_eq (text : List Char) : trimEnd text = (trimStart text.reverse).reverse := rfl

theorem trimEnd_append_of_isBlank (text : List Char) (hblanks : IsBlank blanks) :
    trimEnd (text ++ blanks) = trimEnd text := by
  rw [trimEnd_eq, List.reverse_append, trimStart_append_of_isBlank hblanks.reverse, ← trimEnd_eq]

theorem trimEnd_append_of_exists (before : List Char) (h : ∃ c ∈ text, isBlank c = false) :
    trimEnd (before ++ text) = before ++ trimEnd text := by
  have hreverse : ∃ c ∈ text.reverse, isBlank c = false := by simpa using h
  rw [trimEnd_eq, List.reverse_append, trimStart_append_of_exists hreverse, List.reverse_append,
    List.reverse_reverse, ← trimEnd_eq]

theorem trim_eq_nil_iff : trim text = [] ↔ IsBlank text := by
  constructor
  · intro h c hc
    rw [trim, trimEnd, List.reverse_eq_nil_iff, List.dropWhile_eq_nil_iff] at h
    rw [← List.takeWhile_append_dropWhile (p := isBlank) (l := text), List.mem_append] at hc
    rcases hc with hbefore | hkept
    · exact List.mem_takeWhile_imp hbefore
    · exact h c (List.mem_reverse.mpr hkept)
  · intro h
    rw [trim, trimStart_of_isBlank h, trimEnd_nil]

theorem trim_append_of_isBlank_left (hblanks : IsBlank blanks) (text : List Char) :
    trim (blanks ++ text) = trim text := by
  rw [trim, trimStart_append_of_isBlank hblanks, ← trim]

theorem trim_append_of_isBlank_right (text : List Char) (hblanks : IsBlank blanks) :
    trim (text ++ blanks) = trim text := by
  rcases isBlank_or_exists text with htext | htext
  · rw [trim, trimStart_append_of_isBlank htext, trimStart_of_isBlank hblanks, trim,
      trimStart_of_isBlank htext]
  · rw [trim, trimStart_append_of_exists htext, trimEnd_append_of_isBlank _ hblanks, ← trim]

theorem trim_append_append {first second : List Char} (hfirst : ∃ c ∈ first, isBlank c = false)
    (middle : List Char) (hsecond : ∃ c ∈ second, isBlank c = false) :
    trim (first ++ middle ++ second) = trimStart first ++ middle ++ trimEnd second := by
  rw [trim, List.append_assoc, trimStart_append_of_exists hfirst, ← List.append_assoc,
    trimEnd_append_of_exists _ hsecond]

section Kept

variable {c : Char}

theorem trimStart_append_cons (hc : isBlank c = false) (start rest : List Char) :
    trimStart (start ++ c :: rest) = trimStart start ++ c :: rest := by
  induction start with
  | nil => exact List.dropWhile_cons_of_neg (by simp [hc])
  | cons head start ih =>
      unfold trimStart at ih ⊢
      cases hhead : isBlank head with
      | false => simp [hhead]
      | true => simpa [hhead] using ih

theorem takeWhile_isBlank_append_cons (hc : isBlank c = false) (start rest : List Char) :
    (start ++ c :: rest).takeWhile isBlank = start.takeWhile isBlank := by
  induction start with
  | nil => exact List.takeWhile_cons_of_neg (by simp [hc])
  | cons head start ih =>
      cases hhead : isBlank head with
      | false => simp [hhead]
      | true => simpa [hhead] using ih

theorem exists_trim_append_cons (hc : isBlank c = false) (start rest : List Char) :
    ∃ back, trim (start ++ c :: rest) = trimStart start ++ c :: back := by
  rw [trim, trimStart_append_cons hc, List.append_cons]
  rcases isBlank_or_exists rest with hrest | hrest
  · refine ⟨[], ?_⟩
    rw [trimEnd_append_of_isBlank _ hrest, trimEnd_append_of_exists _ ⟨c, by simp, hc⟩]
    simp [trimEnd, hc]
  · refine ⟨trimEnd rest, ?_⟩
    rw [trimEnd_append_of_exists _ hrest, List.append_assoc]
    rfl

end Kept

end Text

end FoxMachine
