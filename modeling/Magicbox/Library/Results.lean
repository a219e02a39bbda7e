import Mathlib.Data.List.Forall2

/-!
# Results that may be errors

What a sequence of computations returns, and when a list of them returns.
-/

set_option autoImplicit false

namespace Magicbox.Library.Results

theorem bind_ok_iff {ε α β : Type} {x : Except ε α} {f : α → Except ε β} {b : β} :
    (x >>= f) = .ok b ↔ ∃ a, x = .ok a ∧ f a = .ok b := by
  cases x with
  | error e => exact ⟨fun h => (by cases h), fun ⟨_, h, _⟩ => (by cases h)⟩
  | ok a => exact ⟨fun h => ⟨a, rfl, h⟩, fun ⟨_, h, hf⟩ => (by cases h; exact hf)⟩

theorem bind_error_iff {ε α β : Type} {x : Except ε α} {f : α → Except ε β} {e : ε} :
    (x >>= f) = .error e ↔ x = .error e ∨ ∃ a, x = .ok a ∧ f a = .error e := by
  cases x with
  | error e' =>
    constructor
    · intro h
      cases h
      exact .inl rfl
    · rintro (h | ⟨_, h, _⟩)
      · cases h
        rfl
      · cases h
  | ok a =>
    refine ⟨fun h => .inr ⟨a, rfl, h⟩, fun h => ?_⟩
    rcases h with h | ⟨_, h, hf⟩
    · cases h
    · cases h
      exact hf

theorem mapM_eq_ok {ε α β : Type} {f : α → Except ε β} {xs : List α} {ys : List β} :
    xs.mapM f = .ok ys ↔ List.Forall₂ (fun x y => f x = .ok y) xs ys := by
  induction xs generalizing ys with
  | nil =>
    rw [List.mapM_nil, List.forall₂_nil_left_iff]
    constructor
    · intro h
      cases h
      rfl
    · rintro rfl
      rfl
  | cons x xs ih =>
    rw [List.mapM_cons, List.forall₂_cons_left_iff]
    constructor
    · intro h
      cases hx : f x with
      | error e =>
        rw [hx] at h
        cases h
      | ok y =>
        cases hxs : xs.mapM f with
        | error e =>
          rw [hx, hxs] at h
          cases h
        | ok rest =>
          rw [hx, hxs] at h
          cases h
          exact ⟨y, rest, rfl, ih.mp hxs, rfl⟩
    · rintro ⟨y, rest, hx, hxs, rfl⟩
      rw [hx, ih.mpr hxs]
      rfl

/-- Results that determine a value determine the list of the values. -/
theorem map_eq_of_forall₂ {α β γ : Type} {R : α → β → Prop} {f : α → γ} {g : β → γ} {xs : List α}
    {ys : List β} (h : List.Forall₂ R xs ys) (heq : ∀ x ∈ xs, ∀ y, R x y → g y = f x) :
    ys.map g = xs.map f := by
  induction h with
  | nil => rfl
  | cons hxy hrest ih =>
    rw [List.map_cons, List.map_cons, heq _ List.mem_cons_self _ hxy,
      ih fun x hx => heq x (List.mem_cons_of_mem _ hx)]

theorem exists_of_forall₂ {α β : Type} {R : α → β → Prop} {xs : List α} {ys : List β}
    (h : List.Forall₂ R xs ys) {x : α} (hx : x ∈ xs) : ∃ y ∈ ys, R x y := by
  induction h with
  | nil => cases hx
  | cons hxy hrest ih =>
    rcases List.mem_cons.mp hx with rfl | hx
    · exact ⟨_, List.mem_cons_self, hxy⟩
    · obtain ⟨y, hy, hxy⟩ := ih hx
      exact ⟨y, List.mem_cons_of_mem _ hy, hxy⟩

theorem mapM_returns {ε α β : Type} {f : α → Except ε β} {xs : List α} :
    (∃ ys, xs.mapM f = .ok ys) ↔ ∀ x ∈ xs, ∃ y, f x = .ok y := by
  simp only [mapM_eq_ok]
  induction xs with
  | nil => simp
  | cons x xs ih =>
    simp only [List.forall_mem_cons, ← ih, List.forall₂_cons_left_iff]
    constructor
    · rintro ⟨_, y, ys, hx, hxs, -⟩
      exact ⟨⟨y, hx⟩, ⟨ys, hxs⟩⟩
    · rintro ⟨⟨y, hx⟩, ⟨ys, hxs⟩⟩
      exact ⟨_, y, ys, hx, hxs, rfl⟩

end Magicbox.Library.Results
