import FoxMachine.Text.Styled
import Mathlib.Data.List.Basic
import Mathlib.Tactic.Tauto

namespace FoxMachine

namespace Text

/-- Whether some escape character has no `m` behind it. -/
def LeavesOpen (text : List Char) : Prop :=
  ∃ before after, text = before ++ escape :: after ∧ 'm' ∉ after

theorem leavesOpen_cons {c : Char} {text : List Char} :
    LeavesOpen (c :: text) ↔ c = escape ∧ 'm' ∉ text ∨ LeavesOpen text := by
  constructor
  · rintro ⟨before, after, htext, hafter⟩
    cases before with
    | nil =>
        obtain ⟨rfl, rfl⟩ := List.cons.inj htext
        exact .inl ⟨rfl, hafter⟩
    | cons head before => exact .inr ⟨before, after, (List.cons.inj htext).2, hafter⟩
  · rintro (⟨rfl, hmem⟩ | ⟨before, after, rfl, hafter⟩)
    · exact ⟨[], text, rfl, hmem⟩
    · exact ⟨c :: before, after, rfl, hafter⟩

theorem foldl_inSequence_iff (isOpen : Bool) (text : List Char) :
    text.foldl inSequence isOpen = true ↔ isOpen = true ∧ 'm' ∉ text ∨ LeavesOpen text := by
  induction text generalizing isOpen with
  | nil => simp [LeavesOpen]
  | cons c text ih =>
      have hdistinct : c = escape → 'm' ≠ c := by
        rintro rfl
        decide
      rw [List.foldl_cons, ih, leavesOpen_cons, List.mem_cons]
      cases isOpen with
      | false => simp [inSequence]
      | true =>
          simp only [inSequence, if_true, bne_iff_ne]
          tauto

instance (text : List Char) : Decidable (LeavesOpen text) :=
  decidable_of_iff (text.foldl inSequence false = true) <| by simp [foldl_inSequence_iff]

theorem mem_of_mem_visibleFrom {isOpen : Bool} {text : List Char} {c : Char}
    (h : c ∈ visibleFrom isOpen text) : c ∈ text := by
  induction text generalizing isOpen with
  | nil => exact h
  | cons head text ih =>
      rw [visibleFrom_cons, List.mem_append, Option.mem_toList] at h
      rcases h with hhead | hrest
      · have hsame : head = c := by
          unfold seen? at hhead
          split at hhead
          · contradiction
          · exact Option.some.inj hhead
        exact hsame ▸ List.mem_cons_self
      · exact List.mem_cons_of_mem _ (ih hrest)

theorem visibleFrom_true_eq_nil {text : List Char} (h : 'm' ∉ text) :
    visibleFrom true text = [] := by
  induction text with
  | nil => rfl
  | cons c text ih =>
      obtain ⟨hc, htext⟩ := not_or.mp (mt List.mem_cons.mpr h)
      have hopen : inSequence true c = true := bne_iff_ne.mpr (Ne.symm hc)
      rw [visibleFrom_cons, hopen, ih htext]
      rfl

/-!
What a reader sees of a styled text. Styles add sequences around a text and behind its resets, and a
sequence that begins where none is open and closes itself adds nothing that is seen. A reset closes
whatever is open before it, so what is put behind it always begins there.
-/

theorem escape_not_mem_visibleFrom (isOpen : Bool) (text : List Char) :
    escape ∉ visibleFrom isOpen text := by
  induction text generalizing isOpen with
  | nil => exact List.not_mem_nil
  | cons c text ih =>
      rw [visibleFrom_cons, List.mem_append, Option.mem_toList]
      rintro (hseen | hrest)
      · unfold seen? at hseen
        split at hseen
        case isTrue => contradiction
        case isFalse hvisible =>
          obtain rfl := Option.some.inj hseen
          simp at hvisible
      · exact ih _ hrest

theorem visible_eq_self {text : List Char} (h : escape ∉ text) : visible text = text := by
  unfold visible
  induction text with
  | nil => rfl
  | cons c text ih =>
      obtain ⟨hc, htext⟩ := not_or.mp (mt List.mem_cons.mpr h)
      have hseen : seen? false c = some c := by
        simp [seen?, Ne.symm hc]
      have hclosed : inSequence false c = false := by
        simp [inSequence, Ne.symm hc]
      rw [visibleFrom_cons, hseen, hclosed, ih htext]
      rfl

theorem visible_visible (text : List Char) : visible (visible text) = visible text :=
  visible_eq_self (escape_not_mem_visibleFrom false text)

theorem visible_append {first : List Char} (hclosed : ¬ LeavesOpen first) (second : List Char) :
    visible (first ++ second) = visible first ++ visible second := by
  have hstate : first.foldl inSequence false = false := by
    rw [← Bool.not_eq_true, foldl_inSequence_iff]
    simpa using hclosed
  rw [visible, visibleFrom_append, hstate]
  rfl

/-- A text of which nothing is seen, wherever it begins, and behind which no sequence is open. -/
structure IsSilent (isOpen : Bool) (text : List Char) : Prop where
  visible_eq : visibleFrom isOpen text = []
  closed : text.foldl inSequence isOpen = false

theorem IsSilent.visibleFrom_append {isOpen : Bool} {text : List Char} (h : IsSilent isOpen text)
    (rest : List Char) : visibleFrom isOpen (text ++ rest) = visibleFrom false rest := by
  rw [Text.visibleFrom_append, h.visible_eq, h.closed, List.nil_append]

theorem isSilent_reset (isOpen : Bool) : IsSilent isOpen reset := by
  cases isOpen <;> exact ⟨rfl, rfl⟩

theorem isSilent_opening (style : Style) : IsSilent false style.opening := by
  cases style <;> exact ⟨rfl, rfl⟩

theorem visibleFrom_reopenAfterReset {opening : List Char} (hopening : IsSilent false opening)
    (isOpen : Bool) (text : List Char) :
    visibleFrom isOpen (reopenAfterReset opening text) = visibleFrom isOpen text := by
  induction text generalizing isOpen with
  | nil => rfl
  | cons c text ih =>
      rw [visibleFrom_cons, ← ih]
      unfold reopenAfterReset
      rw [List.foldr_cons, ← reopenAfterReset]
      split
      next rest hrest =>
          rw [hrest, List.append_assoc, (isSilent_reset isOpen).visibleFrom_append,
            hopening.visibleFrom_append, ← visibleFrom_cons]
          exact ((isSilent_reset isOpen).visibleFrom_append rest).symm
      next => exact visibleFrom_cons _ _ _

theorem visible_styled (style : Style) (text : List Char) :
    visible (styled style text) = visible text := by
  have hopening := isSilent_opening style
  have hreset : ∀ isOpen, visibleFrom isOpen reset = [] := fun isOpen =>
    (isSilent_reset isOpen).visible_eq
  rw [visible, styled, List.append_assoc, hopening.visibleFrom_append, visibleFrom_append,
    visibleFrom_reopenAfterReset hopening, hreset, List.append_nil]
  rfl

variable {opening part text : List Char}

theorem reopenAfterReset_reset (opening text : List Char) :
    reopenAfterReset opening (reset ++ text) =
      reset ++ opening ++ reopenAfterReset opening text := rfl

theorem exists_of_reopenAfterReset_eq_cons {c : Char} {rest : List Char} (hc : c ≠ escape)
    (h : reopenAfterReset opening text = c :: rest) :
    ∃ text', text = c :: text' ∧ reopenAfterReset opening text' = rest := by
  cases text with
  | nil => contradiction
  | cons d text =>
      unfold reopenAfterReset at h
      rw [List.foldr_cons, ← reopenAfterReset] at h
      split at h
      next => exact absurd (List.cons.inj h).1.symm hc
      next =>
          obtain ⟨rfl, hrest⟩ := List.cons.inj h
          exact ⟨text, rfl, hrest⟩

theorem reopenAfterReset_cons {c : Char} (h : ¬ reset <+: c :: text) :
    reopenAfterReset opening (c :: text) = c :: reopenAfterReset opening text := by
  rw [reopenAfterReset, List.foldr_cons, ← reopenAfterReset]
  split
  next rest hrest =>
      obtain ⟨behind, rfl, hzero⟩ := exists_of_reopenAfterReset_eq_cons (by decide) hrest
      obtain ⟨behind, rfl, hm⟩ := exists_of_reopenAfterReset_eq_cons (by decide) hzero
      obtain ⟨behind, rfl, -⟩ := exists_of_reopenAfterReset_eq_cons (by decide) hm
      exact absurd ⟨behind, rfl⟩ h
  next => rfl

theorem prefix_of_prefix_append_reset {c : Char}
    (h : reset <+: c :: (part ++ (reset ++ text))) : reset <+: c :: part := by
  match part with
  | [] | [_] | [_, _] =>
      obtain ⟨rest, hrest⟩ := h
      simp [reset, escape] at hrest
  | d :: e :: f :: part =>
      have hlength : reset.length ≤ (c :: d :: e :: f :: part).length := by
        simp [reset]
      exact List.prefix_of_prefix_length_le h ⟨reset ++ text, rfl⟩ hlength

theorem reopenAfterReset_of_free (h : ¬ reset <:+: part) :
    reopenAfterReset opening part = part := by
  induction part with
  | nil => rfl
  | cons c part ih =>
      obtain ⟨hstarts, hpart⟩ := not_or.mp (mt List.infix_cons_iff.mpr h)
      rw [reopenAfterReset_cons hstarts, ih hpart]

theorem reopenAfterReset_append_reset (h : ¬ reset <:+: part) :
    reopenAfterReset opening (part ++ (reset ++ text)) =
      part ++ (reset ++ opening ++ reopenAfterReset opening text) := by
  induction part with
  | nil => exact reopenAfterReset_reset opening text
  | cons c part ih =>
      obtain ⟨hstarts, hpart⟩ := not_or.mp (mt List.infix_cons_iff.mpr h)
      rw [List.cons_append, reopenAfterReset_cons (mt prefix_of_prefix_append_reset hstarts),
        ih hpart, List.cons_append]

theorem reopenAfterReset_intercalate {parts : List (List Char)}
    (h : ∀ part ∈ parts, ¬ reset <:+: part) :
    reopenAfterReset opening (reset.intercalate parts) = (reset ++ opening).intercalate parts := by
  induction parts with
  | nil => rfl
  | cons part parts ih =>
      obtain ⟨hpart, hparts⟩ := List.forall_mem_cons.mp h
      cases parts with
      | nil =>
          rw [List.intercalate_singleton, List.intercalate_singleton]
          exact reopenAfterReset_of_free hpart
      | cons part' parts =>
          rw [List.intercalate_cons_cons, List.intercalate_cons_cons, List.append_assoc,
            reopenAfterReset_append_reset hpart, ih hparts, List.append_assoc part]

theorem prefix_intercalate (part : List Char) (parts : List (List Char)) :
    part <+: reset.intercalate (part :: parts) := by
  cases parts with
  | nil => exact List.intercalate_singleton.symm ▸ List.prefix_rfl
  | cons part' parts =>
      rw [List.intercalate_cons_cons, List.append_assoc]
      exact List.prefix_append _ _

theorem exists_parts (text : List Char) :
    ∃ part parts, (∀ part' ∈ part :: parts, ¬ reset <:+: part') ∧
      text = reset.intercalate (part :: parts) := by
  match text with
  | [] => exact ⟨[], [], by simp [reset], rfl⟩
  | c :: text =>
      by_cases hstarts : reset <+: c :: text
      · obtain ⟨rest, hrest⟩ := hstarts
        have hshorter : rest.length < (c :: text).length := by
          rw [← hrest, List.length_append]
          exact Nat.lt_add_of_pos_left (by decide)
        obtain ⟨part, parts, hfree, hparts⟩ := exists_parts rest
        refine ⟨[], part :: parts, List.forall_mem_cons.mpr ⟨by simp [reset], hfree⟩, ?_⟩
        rw [← hrest, hparts, List.intercalate_cons_cons, List.nil_append]
      · obtain ⟨part, parts, hfree, hparts⟩ := exists_parts text
        obtain ⟨hpart, hrest⟩ := List.forall_mem_cons.mp hfree
        have hlonger : ¬ reset <:+: c :: part := by
          rintro hinfix
          rcases List.infix_cons_iff.mp hinfix with hhead | hinside
          · rw [hparts] at hstarts
            have htail := prefix_intercalate part parts
            exact hstarts (hhead.trans (List.cons_prefix_cons.mpr ⟨rfl, htail⟩))
          · exact hpart hinside
        refine ⟨c :: part, parts, List.forall_mem_cons.mpr ⟨hlonger, hrest⟩, ?_⟩
        rw [hparts, List.intercalate_cons_cons_left]
termination_by text.length
decreasing_by
  · exact hshorter
  · exact Nat.lt_succ_self _

end Text

end FoxMachine
