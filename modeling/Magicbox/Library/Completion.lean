import Magicbox.Library.Crash

/-!
# Programs that come to their end

Total correctness with a budget. What a program needs from its environment is
counted, and `good n s` says that there is enough of it in `s` for `n` steps.
`Completes good cost m s Q` says that `m` returns from `s` in `Q` whenever there
is enough for `cost` steps, and spends no more than that, so that a program that
follows can have the rest. Neither an exception nor a crash is a way to complete.
-/

set_option autoImplicit false

namespace Magicbox.Library.Completion
open Crash

variable {σ ε α β : Type} {good : Nat → σ → Prop}

def Completes (good : Nat → σ → Prop) (cost : Nat) (m : Program σ ε α) (s : σ)
    (Q : α → σ → Prop) : Prop :=
  ∀ n, good (n + cost) s → ∃ a t, m s = (.returned a, t) ∧ good n t ∧ Q a t

/-- What is enough for a step more is enough. -/
def Budget (good : Nat → σ → Prop) : Prop := ∀ n s, good (n + 1) s → good n s

theorem Budget.le (h : Budget good) {m n : Nat} (hle : m ≤ n) {s : σ} (hs : good n s) :
    good m s := by
  induction hle with
  | refl => exact hs
  | step _ ih => exact ih (h _ s hs)

namespace Completes

variable {m : Program σ ε α} {s : σ} {Q Q' : α → σ → Prop} {cost : Nat}

theorem pure {a : α} (h : Q a s) : Completes good 0 (Pure.pure a : Program σ ε α) s Q :=
  fun _ hs => ⟨a, s, rfl, hs, h⟩

theorem read {f : σ → α} (h : Q (f s) s) : Completes good 0 (read f : Program σ ε α) s Q :=
  fun _ hs => ⟨f s, s, rfl, hs, h⟩

theorem update {f : σ → σ} {Q : Unit → σ → Prop} (hgood : ∀ n, good n s → good n (f s))
    (h : Q () (f s)) : Completes good 0 (update f : Program σ ε Unit) s Q :=
  fun n hs => ⟨(), f s, rfl, hgood n hs, h⟩

theorem liftExcept {x : Except ε α} {a : α} (hx : x = .ok a) (h : Q a s) :
    Completes good 0 (liftExcept x : Program σ ε α) s Q := by
  rw [hx]
  exact fun _ hs => ⟨a, s, rfl, hs, h⟩

/-- The second program has what the first one did not spend. -/
theorem bind {f : α → Program σ ε β} {R : β → σ → Prop} {cost' : Nat}
    (hm : Completes good cost m s Q)
    (hf : ∀ a t, Q a t → Completes good cost' (f a) t R) :
    Completes good (cost + cost') (m >>= f) s R := by
  intro n hs
  have hsplit : n + (cost + cost') = (n + cost') + cost := by omega
  obtain ⟨a, t, hrun, ht, hQ⟩ := hm (n + cost') (hsplit ▸ hs)
  rw [bind_returned hrun]
  exact hf a t hQ n ht

theorem imp (h : Completes good cost m s Q) (post : ∀ a t, Q a t → Q' a t) :
    Completes good cost m s Q' := by
  intro n hs
  obtain ⟨a, t, hrun, ht, hQ⟩ := h n hs
  exact ⟨a, t, hrun, ht, post a t hQ⟩

/-- A larger budget does as well. -/
theorem spend (hgood : Budget good) {cost' : Nat} (hle : cost ≤ cost')
    (h : Completes good cost m s Q) : Completes good cost' m s Q := by
  intro n hs
  exact h n (hgood.le (Nat.add_le_add_left hle n) hs)

/-- What every run respects, one that completes respects too. -/
theorem within {R : σ → σ → Prop} (h : Completes good cost m s Q) (hm : Within R m) :
    Completes good cost m s fun a t => R s t ∧ Q a t := by
  intro n hs
  obtain ⟨a, t, hrun, ht, hQ⟩ := h n hs
  have hR := hm s
  rw [hrun] at hR
  exact ⟨a, t, hrun, ht, hR, hQ⟩

/-- And what is known of every run that returns. -/
theorem reached {R : α → σ → Prop} (h : Completes good cost m s Q)
    (hrun : ∀ a t, m s = (.returned a, t) → R a t) :
    Completes good cost m s fun a t => R a t ∧ Q a t := by
  intro n hs
  obtain ⟨a, t, hend, ht, hQ⟩ := h n hs
  exact ⟨a, t, hend, ht, hrun a t hend, hQ⟩

theorem recover {handler : ε → Program σ ε α} (h : Completes good cost m s Q) :
    Completes good cost (recover m handler) s Q := by
  intro n hs
  obtain ⟨a, t, hrun, ht, hQ⟩ := h n hs
  refine ⟨a, t, ?_, ht, hQ⟩
  unfold Crash.recover
  rw [hrun]

/-- A best-effort step that completes notes nothing. -/
theorem attempt {note : β → ε → β} {acc : β} {m : Program σ ε Unit} {Q : σ → Prop}
    (h : Completes good cost m s fun _ => Q) :
    Completes good cost (attempt note acc m) s fun b t => b = acc ∧ Q t := by
  have hafter : Completes good (cost + 0) (m >>= fun _ => Pure.pure acc) s
      fun b t => b = acc ∧ Q t := h.bind fun _ _ hQ => Completes.pure ⟨rfl, hQ⟩
  exact recover hafter

/-- With enough for the whole program there is a run to the end. -/
theorem run (h : Completes good cost m s Q) (hs : good cost s) :
    ∃ a t, m s = (.returned a, t) ∧ Q a t := by
  obtain ⟨a, t, hrun, -, hQ⟩ := h 0 (by rwa [Nat.zero_add])
  exact ⟨a, t, hrun, hQ⟩

end Completes

end Magicbox.Library.Completion
