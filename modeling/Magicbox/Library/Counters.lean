import Mathlib.Algebra.GroupWithZero.Nat

/-!
# Counters that wrap

Differences of the readings of a 64-bit counter, and sums of quantities that are
known modulo a number.
-/

set_option autoImplicit false

namespace Magicbox.Library.Counters

variable {α : Type} {f g : α → Nat} {l : List α} {m : Nat}

/-- The difference of two readings is what was counted between them, as a 64-bit number. -/
theorem toNat_ofNat_sub {before now : Nat} (h : before ≤ now) :
    (UInt64.ofNat now - UInt64.ofNat before).toNat = (now - before) % UInt64.size := by
  rw [← UInt64.ofNat_sub h]
  exact UInt64.toNat_ofNat'

theorem ofNat_eq_of_mod {n k : Nat} (h : n % UInt64.size = k % UInt64.size) :
    UInt64.ofNat n = UInt64.ofNat k := by
  apply UInt64.toNat.inj
  rw [UInt64.toNat_ofNat', UInt64.toNat_ofNat']
  exact h

/-- Sums of residues are residues of sums. -/
theorem sum_mod (h : ∀ x ∈ l, f x % m = g x % m) : (l.map f).sum % m = (l.map g).sum % m := by
  induction l with
  | nil => rfl
  | cons x rest ih =>
    have hrest := ih fun y hy => h y (List.mem_cons_of_mem x hy)
    rw [List.map_cons, List.map_cons, List.sum_cons, List.sum_cons, Nat.add_mod,
      h x List.mem_cons_self, hrest, ← Nat.add_mod]

/-- Terms that do not exceed others of the same residues are equal to them where the sum of the
others does not wrap. -/
theorem sum_exact (h : ∀ x ∈ l, f x % m = g x % m) (hle : ∀ x ∈ l, f x ≤ g x)
    (hsum : (l.map g).sum < m) : (l.map f).sum = (l.map g).sum := by
  have hmod := sum_mod h
  have hbound : (l.map f).sum ≤ (l.map g).sum := by
    clear hsum hmod h
    induction l with
    | nil => exact Nat.le_refl _
    | cons x rest ih =>
      rw [List.map_cons, List.map_cons, List.sum_cons, List.sum_cons]
      exact Nat.add_le_add (hle x List.mem_cons_self)
        (ih fun y hy => hle y (List.mem_cons_of_mem x hy))
  rwa [Nat.mod_eq_of_lt hsum, Nat.mod_eq_of_lt (by omega)] at hmod

end Magicbox.Library.Counters
