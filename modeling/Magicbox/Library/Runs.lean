import Mathlib.Data.List.Induction

/-!
# Runs of a deterministic machine

A machine takes one event after the other. Everything that may vary from one
run to the next, failures and schedules included, is part of the events, so
that a statement over all lists of events is one over all runs.
-/

set_option autoImplicit false

namespace Magicbox.Library.Runs

variable {σ ε : Type}

/-- The state after a list of events. -/
def run (step : σ → ε → σ) (s : σ) (events : List ε) : σ := events.foldl step s

variable {step : σ → ε → σ}

@[simp] theorem run_nil (s : σ) : run step s [] = s := rfl

@[simp] theorem run_cons (s : σ) (e : ε) (events : List ε) :
    run step s (e :: events) = run step (step s e) events := rfl

theorem run_append (s : σ) (first second : List ε) :
    run step s (first ++ second) = run step (run step s first) second := by
  simp [run, List.foldl_append]

theorem run_snoc (s : σ) (past : List ε) (e : ε) :
    run step s (past ++ [e]) = step (run step s past) e := by
  rw [run_append, run_cons, run_nil]

/-- What holds at the start and is kept by every admissible event holds of
every run of admissible events. -/
theorem invariant {P : ε → Prop} {I : σ → Prop}
    (keep : ∀ s e, P e → I s → I (step s e)) {s : σ} (start : I s)
    {events : List ε} (h : ∀ e ∈ events, P e) : I (run step s events) := by
  induction events generalizing s with
  | nil => exact start
  | cons e rest ih =>
    exact ih (keep s e (h e List.mem_cons_self) start)
      fun f hf => h f (List.mem_cons_of_mem e hf)

/-- Every event of a run meets a condition on the state it finds. -/
def Admissible (step : σ → ε → σ) (P : σ → ε → Prop) : σ → List ε → Prop
  | _, [] => True
  | s, e :: rest => P s e ∧ Admissible step P (step s e) rest

theorem admissibleInvariant {P : σ → ε → Prop} {I : σ → Prop}
    (keep : ∀ s e, P s e → I s → I (step s e)) {s : σ} (start : I s)
    {events : List ε} (h : Admissible step P s events) : I (run step s events) := by
  induction events generalizing s with
  | nil => exact start
  | cons e rest ih => exact ih (keep s e h.1 start) h.2

/-- Every state of a run with its history. `J` may look back at the events so far. -/
theorem historyInvariant {J : List ε → σ → Prop} {s₀ : σ} (start : J [] s₀)
    (keep : ∀ past e, J past (run step s₀ past) → J (past ++ [e]) (run step s₀ (past ++ [e])))
    (events : List ε) : J events (run step s₀ events) := by
  induction events using List.reverseRecOn with
  | nil => exact start
  | append_singleton past e ih => exact keep past e ih

end Magicbox.Library.Runs
