import Magicbox.Library.Runs

/-!
# Events without influence

A view of the state on which some events have no influence: such an event does
not change it, and every other event changes it by what is in it alone. Then a
run and the same run without these events end in the same view.
-/

set_option autoImplicit false

namespace Magicbox.Library.Unwinding
open Library.Runs

variable {σ ε ω : Type}

/-- The silent events have no influence on the view. -/
structure Insulated (step : σ → ε → σ) (view : σ → ω) (silent : ε → Bool) : Prop where
  quiet : ∀ s e, silent e = true → view (step s e) = view s
  respects : ∀ s t e, view s = view t → view (step s e) = view (step t e)

variable {step : σ → ε → σ} {view : σ → ω} {silent : ε → Bool}

/-- Runs of the same events from states with the same view end with the same view. -/
theorem Insulated.same (h : Insulated step view silent) {s t : σ} (hview : view s = view t)
    (events : List ε) : view (run step s events) = view (run step t events) := by
  induction events generalizing s t with
  | nil => exact hview
  | cons e rest ih => exact ih (h.respects s t e hview)

/-- The silent events can be left out. -/
theorem Insulated.purge (h : Insulated step view silent) (s : σ) (events : List ε) :
    view (run step s events) = view (run step s (events.filter fun e => !silent e)) := by
  induction events generalizing s with
  | nil => rfl
  | cons e rest ih =>
    cases hsilent : silent e with
    | true =>
      rw [List.filter_cons_of_neg (by simp [hsilent]), run_cons, ← ih s]
      exact h.same (h.quiet s e hsilent) rest
    | false =>
      rw [List.filter_cons_of_pos (by simp [hsilent]), run_cons, run_cons]
      exact ih (step s e)

end Magicbox.Library.Unwinding
