import Mathlib.Data.List.Forall2

namespace FoxMachine

namespace Rows

variable {α β γ : Type} {R : α → β → Prop} {S : β → γ → Prop}

theorem mapM_eq_some {f : α → Option β} {xs : List α} {ys : List β}
    (h : List.Forall₂ (fun x y => f x = some y) xs ys) : xs.mapM f = some ys := by
  induction h with
  | nil => rfl
  | cons hxy _ ih =>
      rw [List.mapM_cons, hxy, ih]
      rfl

theorem exists_of_mem_right {xs : List α} {ys : List β} (h : List.Forall₂ R xs ys) {y : β}
    (hy : y ∈ ys) : ∃ x ∈ xs, R x y := by
  induction h with
  | nil => contradiction
  | @cons x y' xs ys hxy _ ih =>
      rcases List.mem_cons.mp hy with rfl | hy
      · exact ⟨x, by simp, hxy⟩
      · obtain ⟨x', hx', hrelated⟩ := ih hy
        exact ⟨x', by simp [hx'], hrelated⟩

theorem exists_getElem?_left {xs : List α} {ys : List β} (h : List.Forall₂ R xs ys) {place : Nat}
    {y : β} (hy : ys[place]? = some y) : ∃ x, xs[place]? = some x ∧ R x y := by
  induction h generalizing place with
  | nil => simp at hy
  | cons hxy _ ih =>
      cases place with
      | zero =>
          cases hy
          exact ⟨_, rfl, hxy⟩
      | succ place => exact ih hy

theorem exists_append_of_append_left {xs xs' : List α} {ys : List β}
    (h : List.Forall₂ R (xs ++ xs') ys) :
    ∃ zs zs', ys = zs ++ zs' ∧ List.Forall₂ R xs zs ∧ List.Forall₂ R xs' zs' := by
  induction xs generalizing ys with
  | nil => exact ⟨[], ys, rfl, .nil, h⟩
  | cons x xs ih =>
      rw [List.cons_append] at h
      cases h with
      | @cons _ y _ ys hxy hrest =>
          obtain ⟨zs, zs', rfl, hzs, hzs'⟩ := ih hrest
          exact ⟨y :: zs, zs', rfl, .cons hxy hzs, hzs'⟩

theorem comp {xs : List α} {ys : List β} {zs : List γ} (hfirst : List.Forall₂ R xs ys)
    (hsecond : List.Forall₂ S ys zs) : List.Forall₂ (fun x z => ∃ y, R x y ∧ S y z) xs zs := by
  induction hfirst generalizing zs with
  | nil =>
      cases hsecond
      exact .nil
  | cons hxy _ ih =>
      cases hsecond with
      | cons hyz hrest => exact .cons ⟨_, hxy, hyz⟩ (ih hrest)

theorem exists_between {xs : List α} {zs : List γ}
    (h : List.Forall₂ (fun x z => ∃ y, R x y ∧ S y z) xs zs) :
    ∃ ys, List.Forall₂ R xs ys ∧ List.Forall₂ S ys zs := by
  induction h with
  | nil => exact ⟨[], .nil, .nil⟩
  | cons hxz _ ih =>
      obtain ⟨y, hxy, hyz⟩ := hxz
      obtain ⟨ys, hfirst, hsecond⟩ := ih
      exact ⟨y :: ys, .cons hxy hfirst, .cons hyz hsecond⟩

end Rows

end FoxMachine
