import Mathlib.Data.List.Basic

/-!
# A bounded queue and its ledger

A queue of fixed capacity that turns away what arrives when it is full. The
ledger keeps every arrival and every batch that was taken out; `Balanced` says
that the two and the queue account for each other.
-/

set_option autoImplicit false

namespace Magicbox.Library.BoundedQueue

variable {α : Type}

/-- The queue after an arrival. -/
def offer (capacity : Nat) (queue : List α) (x : α) : List α :=
  if queue.length = capacity then queue else queue ++ [x]

/-- An arrival, with the length of the queue it met and whether it was let in. -/
structure Arrival (α : Type) where
  item : α
  queued : Nat
  kept : Bool

structure Ledger (α : Type) where
  arrivals : List (Arrival α) := []
  taken : List (List α) := []

namespace Ledger

/-- The items that were let in, in their order. -/
def kept (l : Ledger α) : List α := (l.arrivals.filter (·.kept)).map (·.item)

def dropped (l : Ledger α) : Nat := (l.arrivals.filter fun a => !a.kept).length

/-- An arrival was let in if the queue grew. -/
def offered (l : Ledger α) (before after : List α) (x : α) : Ledger α :=
  { l with arrivals := l.arrivals ++ [⟨x, before.length, decide (before.length < after.length)⟩] }

def gave (l : Ledger α) (batch : List α) : Ledger α := { l with taken := l.taken ++ [batch] }

@[simp] theorem kept_gave (l : Ledger α) (batch : List α) : (l.gave batch).kept = l.kept := rfl

@[simp] theorem taken_offered (l : Ledger α) (before after : List α) (x : α) :
    (l.offered before after x).taken = l.taken := rfl

@[simp] theorem taken_gave (l : Ledger α) (batch : List α) :
    (l.gave batch).taken.flatten = l.taken.flatten ++ batch := by
  simp [gave]

theorem kept_offered (l : Ledger α) (before after : List α) (x : α) :
    (l.offered before after x).kept =
      if before.length < after.length then l.kept ++ [x] else l.kept := by
  by_cases h : before.length < after.length <;> simp [kept, offered, h]

theorem dropped_offered (l : Ledger α) (before after : List α) (x : α) :
    (l.offered before after x).dropped =
      if before.length < after.length then l.dropped else l.dropped + 1 := by
  by_cases h : before.length < after.length <;> simp [dropped, offered, h]

theorem length_arrivals (l : Ledger α) : l.arrivals.length = l.kept.length + l.dropped := by
  unfold kept dropped
  induction l.arrivals with
  | nil => rfl
  | cons a rest ih =>
    cases h : a.kept <;> simp [h, ih] <;> omega

end Ledger

/-- Queue and ledger account for each other. -/
structure Balanced (capacity : Nat) (queue : List α) (l : Ledger α) : Prop where
  bounded : queue.length ≤ capacity
  order : l.taken.flatten ++ queue = l.kept
  cause : ∀ a ∈ l.arrivals, a.kept = false ↔ a.queued = capacity

variable {capacity : Nat} {queue : List α} {l : Ledger α}

theorem Balanced.start (capacity : Nat) : Balanced capacity ([] : List α) {} :=
  ⟨Nat.zero_le _, rfl, by simp⟩

theorem offer_full (h : queue.length = capacity) (x : α) : offer capacity queue x = queue :=
  if_pos h

theorem offer_free (h : queue.length ≠ capacity) (x : α) :
    offer capacity queue x = queue ++ [x] :=
  if_neg h

/-- The queue grows exactly when it has room. -/
theorem length_lt_offer (x : α) :
    queue.length < (offer capacity queue x).length ↔ queue.length ≠ capacity := by
  by_cases h : queue.length = capacity
  · simp [offer_full h, h]
  · simp [offer_free h, h]

theorem Balanced.offer (h : Balanced capacity queue l) (x : α) :
    Balanced capacity (offer capacity queue x)
      (l.offered queue (BoundedQueue.offer capacity queue x) x) := by
  have hbounded := h.bounded
  have horder := h.order
  refine ⟨?_, ?_, fun a ha => ?_⟩
  · by_cases hfull : queue.length = capacity
    · rw [offer_full hfull]
      exact hbounded
    · rw [offer_free hfull, List.length_append, List.length_singleton]
      omega
  · rw [l.kept_offered, l.taken_offered, ← horder]
    by_cases hfull : queue.length = capacity
    · rw [if_neg fun hgrew => (length_lt_offer x).mp hgrew hfull, offer_full hfull]
    · rw [if_pos ((length_lt_offer x).mpr hfull), offer_free hfull, List.append_assoc]
  · rcases List.mem_append.mp ha with ha | ha
    · exact h.cause a ha
    · rw [List.mem_singleton.mp ha]
      simp [length_lt_offer]

theorem Balanced.take (h : Balanced capacity queue l) (limit : Nat) :
    Balanced capacity (queue.drop limit) (l.gave (queue.take limit)) := by
  refine ⟨?_, ?_, h.cause⟩
  · have := h.bounded
    rw [List.length_drop]
    omega
  · rw [l.taken_gave, List.append_assoc, List.take_append_drop, l.kept_gave, h.order]

/-- Every arrival was taken, is still queued, or was dropped. -/
theorem Balanced.conserved (h : Balanced capacity queue l) :
    l.arrivals.length = l.taken.flatten.length + queue.length + l.dropped := by
  rw [l.length_arrivals, ← h.order, List.length_append]

end Magicbox.Library.BoundedQueue
