import Mathlib.Algebra.Group.Nat.Defs
import Mathlib.Order.Bounds.Basic
import Mathlib.Order.Interval.Set.Basic
import Mathlib.Tactic.Common

/-!
# Aligned blocks

The numbers that agree on everything but their last `s` bits. Two blocks are
disjoint or one contains the other, and a bit mask decides membership.
-/

set_option autoImplicit false

namespace Magicbox.Library.Blocks

def block (s a : Nat) : Set Nat := {x | x / 2 ^ s = a / 2 ^ s}

variable {s t a b x : Nat}

@[simp] theorem mem_block : x ∈ block s a ↔ x / 2 ^ s = a / 2 ^ s := Iff.rfl

theorem self_mem_block (s a : Nat) : a ∈ block s a := rfl

theorem block_eq (h : x ∈ block s a) : block s x = block s a := by
  ext y
  rw [mem_block, mem_block, mem_block.mp h]

/-- A block is an interval. -/
theorem block_eq_Ico (s a : Nat) :
    block s a = Set.Ico (a / 2 ^ s * 2 ^ s) (a / 2 ^ s * 2 ^ s + 2 ^ s) := by
  have hpos := Nat.two_pow_pos s
  ext x
  rw [mem_block, Set.mem_Ico, Nat.div_eq_iff hpos]
  omega

theorem isLeast_block (s a : Nat) : IsLeast (block s a) (a / 2 ^ s * 2 ^ s) := by
  have hpos := Nat.two_pow_pos s
  rw [block_eq_Ico]
  exact ⟨⟨Nat.le_refl _, by omega⟩, fun _ h => h.1⟩

theorem isGreatest_block (s a : Nat) :
    IsGreatest (block s a) (a / 2 ^ s * 2 ^ s + (2 ^ s - 1)) := by
  have hpos := Nat.two_pow_pos s
  rw [block_eq_Ico]
  refine ⟨⟨by omega, by omega⟩, fun x h => ?_⟩
  have := h.2
  omega

/-- The position inside the block tells its first and its last member. -/
theorem isLeast_iff : IsLeast (block s x) x ↔ x % 2 ^ s = 0 := by
  have hsplit := Nat.div_add_mod x (2 ^ s)
  rw [Nat.mul_comm] at hsplit
  constructor
  · intro h
    have := h.unique (isLeast_block s x)
    omega
  · intro h
    have hx : x = x / 2 ^ s * 2 ^ s := by omega
    have hleast := isLeast_block s x
    rwa [← hx] at hleast

theorem isGreatest_iff : IsGreatest (block s x) x ↔ x % 2 ^ s = 2 ^ s - 1 := by
  have hsplit := Nat.div_add_mod x (2 ^ s)
  rw [Nat.mul_comm] at hsplit
  constructor
  · intro h
    have := h.unique (isGreatest_block s x)
    omega
  · intro h
    have hx : x = x / 2 ^ s * 2 ^ s + (2 ^ s - 1) := by omega
    have hgreatest := isGreatest_block s x
    rwa [← hx] at hgreatest

/-- Blocks are disjoint when they differ in what the coarser one looks at. -/
theorem disjoint_iff :
    (∀ x ∈ block s a, x ∉ block t b) ↔ a / 2 ^ max s t ≠ b / 2 ^ max s t := by
  have hcoarse : ∀ {u v y z : Nat}, u ≤ v → y / 2 ^ u = z / 2 ^ u → y / 2 ^ v = z / 2 ^ v := by
    intro u v y z huv h
    obtain ⟨d, rfl⟩ := Nat.exists_eq_add_of_le huv
    rw [Nat.pow_add, ← Nat.div_div_eq_div_mul, ← Nat.div_div_eq_div_mul, h]
  constructor
  · intro hdisjoint heq
    rcases Nat.le_total s t with h | h
    · rw [Nat.max_eq_right h] at heq
      exact hdisjoint a (self_mem_block s a) heq
    · rw [Nat.max_eq_left h] at heq
      exact hdisjoint b heq.symm (self_mem_block t b)
  · intro hne x ha hb
    exact hne ((hcoarse (Nat.le_max_left s t) ha).symm.trans (hcoarse (Nat.le_max_right s t) hb))

/-! ## Masks -/

section Masks
variable {w : Nat} (x y : BitVec w)

/-- The mask that keeps all but the last `s` bits. -/
def mask (w s : Nat) : BitVec w := BitVec.allOnes w <<< s

theorem and_mask (s : Nat) : x &&& mask w s = (x >>> s) <<< s := by
  ext i hi
  simp only [mask, BitVec.getElem_and, BitVec.getElem_shiftLeft, BitVec.getElem_allOnes]
  by_cases h : i < s
  · simp [h]
  · have hi' : s + (i - s) = i := by omega
    simp [h, hi', hi]

theorem and_mask_toNat (s : Nat) : (x &&& mask w s).toNat = x.toNat / 2 ^ s * 2 ^ s := by
  have hle : x.toNat / 2 ^ s * 2 ^ s ≤ x.toNat := Nat.div_mul_le_self _ _
  have hlt := x.isLt
  rw [and_mask, BitVec.toNat_shiftLeft, BitVec.toNat_ushiftRight, Nat.shiftRight_eq_div_pow,
    Nat.shiftLeft_eq, Nat.mod_eq_of_lt (by omega)]

/-- Numbers agree under the mask when they share a block. -/
theorem and_mask_eq_iff (s : Nat) :
    x &&& mask w s = y &&& mask w s ↔ x.toNat / 2 ^ s = y.toNat / 2 ^ s := by
  rw [← BitVec.toNat_inj, and_mask_toNat, and_mask_toNat]
  exact Nat.mul_left_inj (Nat.pos_iff_ne_zero.mp (Nat.two_pow_pos s))

theorem not_mask_toNat {s : Nat} (h : s ≤ w) : (~~~mask w s).toNat = 2 ^ s - 1 := by
  have hmask : (mask w s).toNat = 2 ^ w - 2 ^ s := by
    have hall := and_mask_toNat (BitVec.allOnes w) s
    rw [BitVec.allOnes_and, BitVec.toNat_allOnes] at hall
    obtain ⟨d, rfl⟩ := Nat.exists_eq_add_of_le h
    have hs := Nat.two_pow_pos s
    have hdiv : (2 ^ (s + d) - 1) / 2 ^ s = 2 ^ d - 1 := by
      have := Nat.mul_sub_div 0 (2 ^ s) (2 ^ d) (Nat.mul_pos hs (Nat.two_pow_pos d))
      rwa [Nat.zero_div, Nat.zero_add, ← Nat.pow_add] at this
    rw [hall, hdiv, Nat.sub_mul, Nat.one_mul, ← Nat.pow_add, Nat.add_comm d s]
  have hle : 2 ^ s ≤ 2 ^ w := Nat.pow_le_pow_right (by decide) h
  have hs := Nat.two_pow_pos s
  rw [BitVec.toNat_not, hmask]
  omega

theorem and_not_mask_toNat {s : Nat} (h : s ≤ w) :
    (x &&& ~~~mask w s).toNat = x.toNat % 2 ^ s := by
  rw [BitVec.toNat_and, not_mask_toNat h, Nat.and_two_pow_sub_one_eq_mod]

end Masks

end Magicbox.Library.Blocks
