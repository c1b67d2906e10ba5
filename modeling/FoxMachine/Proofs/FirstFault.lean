import Mathlib.Data.List.Forall2

namespace FoxMachine

namespace FirstFault

variable {α β γ ε : Type}

theorem map_eq_ok_iff {attempt : Except ε α} {f : α → β} {y : β} :
    attempt.map f = .ok y ↔ ∃ x, attempt = .ok x ∧ y = f x := by
  cases attempt <;> simp [Except.map, eq_comm]

theorem map_eq_error_iff {attempt : Except ε α} {f : α → β} {fault : ε} :
    attempt.map f = .error fault ↔ attempt = .error fault := by
  cases attempt <;> simp [Except.map]

theorem map_map (attempt : Except ε α) (f : α → β) (g : β → γ) :
    (attempt.map f).map g = attempt.map fun x => g (f x) := by
  cases attempt <;> rfl

theorem mapM_cons (attempt : α → Except ε β) (x : α) (xs : List α) :
    (x :: xs).mapM attempt =
      match attempt x with
      | .error fault => .error fault
      | .ok y => (xs.mapM attempt).map (y :: ·) := by
  rw [List.mapM_cons]
  cases attempt x with
  | error fault => rfl
  | ok y => cases xs.mapM attempt <;> rfl

theorem mapM_eq_ok_iff {attempt : α → Except ε β} {xs : List α} {ys : List β} :
    xs.mapM attempt = .ok ys ↔ List.Forall₂ (fun x y => attempt x = .ok y) xs ys := by
  induction xs generalizing ys with
  | nil => cases ys <;> simp [pure, Except.pure]
  | cons x xs ih =>
      rw [mapM_cons]
      cases hx : attempt x with
      | error fault => cases ys <;> simp [hx]
      | ok y =>
          simp only [map_eq_ok_iff, ih]
          cases ys with
          | nil => simp
          | cons y' ys => simp [hx, and_comm, eq_comm]

theorem mapM_eq_error_iff {attempt : α → Except ε β} {xs : List α} {fault : ε} :
    xs.mapM attempt = .error fault ↔
      ∃ earlier x later, xs = earlier ++ x :: later ∧
        (∀ x' ∈ earlier, ∃ y, attempt x' = .ok y) ∧ attempt x = .error fault := by
  induction xs with
  | nil => simp [pure, Except.pure]
  | cons x xs ih =>
      rw [mapM_cons]
      cases hx : attempt x with
      | error fault' =>
          constructor
          · intro heq
            cases heq
            exact ⟨[], x, xs, rfl, by simp, hx⟩
          · intro h
            obtain ⟨earlier, x', later, hsplit, hearlier, hfault⟩ := h
            cases earlier with
            | nil =>
                cases hsplit
                simpa [hx] using hfault
            | cons first earlier =>
                cases hsplit
                obtain ⟨y, hy⟩ := hearlier x (by simp)
                rw [hx] at hy
                contradiction
      | ok y =>
          simp only [map_eq_error_iff, ih]
          constructor
          · intro h
            obtain ⟨earlier, x', later, rfl, hearlier, hfault⟩ := h
            refine ⟨x :: earlier, x', later, rfl, ?_, hfault⟩
            simpa using ⟨⟨y, hx⟩, hearlier⟩
          · intro h
            obtain ⟨earlier, x', later, hsplit, hearlier, hfault⟩ := h
            cases earlier with
            | nil =>
                cases hsplit
                rw [hx] at hfault
                contradiction
            | cons first earlier =>
                cases hsplit
                exact ⟨earlier, x', later, rfl, fun x hx => hearlier x (by simp [hx]), hfault⟩

theorem exists_mapM_eq_ok_iff {attempt : α → Except ε β} {xs : List α} :
    (∃ ys, xs.mapM attempt = .ok ys) ↔ ∀ x ∈ xs, ∃ y, attempt x = .ok y := by
  induction xs with
  | nil => exact ⟨fun _ x hx => by contradiction, fun _ => ⟨[], rfl⟩⟩
  | cons x xs ih =>
      rw [List.forall_mem_cons, ← ih, mapM_cons]
      cases attempt x with
      | error fault => simp
      | ok y => simp [map_eq_ok_iff]

theorem mapM_append (attempt : α → Except ε β) (xs xs' : List α) :
    (xs ++ xs').mapM attempt =
      match xs.mapM attempt with
      | .error fault => .error fault
      | .ok ys => (xs'.mapM attempt).map (ys ++ ·) := by
  rw [List.mapM_append]
  cases xs.mapM attempt with
  | error fault => rfl
  | ok ys => cases xs'.mapM attempt <;> rfl

end FirstFault

/-!
Agreement of attempts. Two attempts agree if both succeed or both fail, and what comes of them is
related. Attempts on the elements of two lists agree as a whole if they agree one by one.
-/

variable {ε δ α β γ κ : Type}

/-- Both attempts succeed, with related results, or both fail, with related faults. -/
inductive Agree (F : ε → δ → Prop) (R : α → β → Prop) : Except ε α → Except δ β → Prop
  | ok {x : α} {y : β} (h : R x y) : Agree F R (.ok x) (.ok y)
  | error {fault : ε} {fault' : δ} (h : F fault fault') : Agree F R (.error fault) (.error fault')

namespace Agree

variable {F : ε → δ → Prop} {R : α → β → Prop} {S : γ → κ → Prop}
  {attempt : Except ε α} {attempt' : Except δ β}

theorem map {f : α → γ} {g : β → κ} (h : Agree F R attempt attempt')
    (himages : ∀ x y, R x y → S (f x) (g y)) : Agree F S (attempt.map f) (attempt'.map g) := by
  cases h with
  | ok hresults => exact .ok (himages _ _ hresults)
  | error hfaults => exact .error hfaults

theorem mapM {f : α → Except ε γ} {g : β → Except δ κ} {xs : List α} {ys : List β}
    (h : List.Forall₂ (fun x y => Agree F S (f x) (g y)) xs ys) :
    Agree F (List.Forall₂ S) (xs.mapM f) (ys.mapM g) := by
  induction h with
  | nil => exact .ok .nil
  | @cons x y xs ys hfirst _ ih =>
      rw [FirstFault.mapM_cons, FirstFault.mapM_cons]
      generalize f x = attempt at hfirst ⊢
      generalize g y = attempt' at hfirst ⊢
      cases hfirst with
      | error hfaults => exact .error hfaults
      | ok hresults => exact ih.map fun _ _ hrest => .cons hresults hrest

theorem exists_of_ok {x : α} (h : Agree F R (.ok x) attempt') :
    ∃ y, attempt' = .ok y ∧ R x y := by
  cases h with
  | ok hresults => exact ⟨_, rfl, hresults⟩

end Agree

end FoxMachine
