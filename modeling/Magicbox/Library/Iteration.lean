import Mathlib.Logic.Function.Iterate

/-!
# Iterates of a machine that takes no events

Whatever the machine asks for is answered by its own state, so that a run is the
orbit of one state. Invariants of an orbit are `Function.Iterate.rec`; what is
here is the other half, that an orbit gets somewhere.
-/

set_option autoImplicit false

namespace Magicbox.Library.Iteration

variable {σ : Type}

/-- Some number of steps leads to a state with `P`. -/
def Reaches (next : σ → σ) (P : σ → Prop) (s : σ) : Prop := ∃ n, P (next^[n] s)

variable {next : σ → σ} {P Q : σ → Prop} {s : σ}

theorem reaches_here (h : P s) : Reaches next P s := ⟨0, h⟩

theorem reaches_next (h : Reaches next P (next s)) : Reaches next P s := by
  obtain ⟨n, hn⟩ := h
  exact ⟨n + 1, hn⟩

theorem reaches_bind (h : Reaches next P s) (after : ∀ t, P t → Reaches next Q t) :
    Reaches next Q s := by
  obtain ⟨n, hn⟩ := h
  obtain ⟨m, hm⟩ := after _ hn
  exact ⟨m + n, by rw [Function.iterate_add_apply]; exact hm⟩

/-- What every step keeps still holds where the orbit gets. -/
theorem reaches_keeping (keep : ∀ s, Q s → Q (next s)) (start : Q s) (h : Reaches next P s) :
    Reaches next (fun t => P t ∧ Q t) s := by
  obtain ⟨n, hn⟩ := h
  exact ⟨n, hn, Function.Iterate.rec Q start keep n⟩

/-- A loop ends if its invariant comes back with a smaller variant until it ends. -/
theorem reaches_variant {I : σ → Prop} (variant : σ → Nat)
    (turn : ∀ s, I s → Reaches next (fun t => P t ∨ I t ∧ variant t < variant s) s)
    (start : I s) : Reaches next P s := by
  induction hsize : variant s using Nat.strongRecOn generalizing s with
  | ind size ih =>
    subst hsize
    refine reaches_bind (turn s start) fun t ht => ?_
    rcases ht with hdone | ⟨hinv, hless⟩
    · exact reaches_here hdone
    · exact ih (variant t) hless hinv rfl

end Magicbox.Library.Iteration
