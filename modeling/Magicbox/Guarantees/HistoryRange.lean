import Magicbox.Source.Requests

/-!
# The range of a history query

`Store::history` compares the ends of a range and then takes their difference.
Both come from the query, where any integer of 64 bits can be written, so that
the difference may need one bit more.
-/

set_option autoImplicit false

namespace Magicbox.Guarantees.HistoryRange
open Library Library.Sqlite Source.Json Source.Store Source.Requests

/-! ## What is accepted -/

def Regular (interval : Int) : Prop := interval = 60 ∨ interval = 300 ∨ interval = 3600

instance (interval : Int) : Decidable (Regular interval) := instDecidableOr

/-- A range of up to seven days. -/
def Ranges (first last : Int64) : Prop :=
  0 < last.toInt - first.toInt ∧ last.toInt - first.toInt ≤ 604800

/-- The check has defined behaviour and accepts what it should. -/
structure Exact (first last : Int64) (interval : Int) : Prop where
  defined : checkHistory first last interval ≠ .error .undefined
  accepted : checkHistory first last interval = .ok () ↔ Regular interval ∧ Ranges first last

/-- The check comes to a difference that has more than 64 bits. -/
def Overflows (first last : Int64) (interval : Int) : Prop :=
  Regular interval ∧ first < last ∧ 9223372036854775808 ≤ last.toInt - first.toInt

/-- The difference of two ends in their order is too great or fits. -/
theorem fits_difference {first last : Int64} (h : first < last) :
    fits (last.toInt - first.toInt) = true ↔ last.toInt - first.toInt < 9223372036854775808 := by
  have hlt := Int64.lt_iff_toInt_lt.mp h
  rw [fits_iff]
  omega

/-- The text of the exception. -/
def rejection : Failure :=
  .threw (.invalidArgument "History requires interval 60/300/3600 and a range up to seven days")

/-- What the check comes to. -/
theorem checkHistory_cases (first last : Int64) (interval : Int) :
    Overflows first last interval ∧ checkHistory first last interval = .error .undefined ∨
      (Regular interval ∧ Ranges first last) ∧ checkHistory first last interval = .ok () ∨
      (¬ Overflows first last interval ∧ ¬ (Regular interval ∧ Ranges first last)) ∧
        checkHistory first last interval = .error rejection := by
  unfold checkHistory
  by_cases hregular : Regular interval
  · rw [if_neg (interval_accepted.mpr hregular)]
    by_cases horder : last ≤ first
    · have hle := Int64.le_iff_toInt_le.mp horder
      rw [if_pos horder]
      refine Or.inr (Or.inr ⟨⟨fun hover => ?_, fun haccepted => ?_⟩, rfl⟩)
      · have := hover.2.2
        omega
      · have := haccepted.2.1
        omega
    · have hlt : first < last := Int64.not_le.mp horder
      rw [if_neg horder]
      cases hfits : fits (last.toInt - first.toInt) with
      | false =>
        have hover : ¬ last.toInt - first.toInt < 9223372036854775808 := by
          rw [← fits_difference hlt, hfits]
          simp
        exact Or.inl ⟨⟨hregular, hlt, by omega⟩, rfl⟩
      | true =>
        have hfit := (fits_difference hlt).mp hfits
        have hpositive := Int64.lt_iff_toInt_lt.mp hlt
        right
        by_cases hlong : last.toInt - first.toInt > retention
        · right
          refine ⟨⟨fun hover => absurd hover.2.2 (by omega), fun haccepted => ?_⟩, if_pos hlong⟩
          have := haccepted.2.2
          simp only [retention] at hlong
          omega
        · left
          refine ⟨⟨hregular, by omega, ?_⟩, if_neg hlong⟩
          simp only [retention] at hlong
          omega
  · rw [if_pos (Decidable.of_not_not (mt interval_accepted.mp hregular))]
    exact Or.inr (Or.inr ⟨⟨fun hover => hregular hover.1, fun h => hregular h.1⟩, rfl⟩)

/-- The check is exact where it comes to no difference that overflows. -/
theorem range_exact (first last : Int64) (interval : Int) :
    Exact first last interval ↔ ¬ Overflows first last interval := by
  rcases checkHistory_cases first last interval with ⟨hover, hcheck⟩ | ⟨haccepted, hcheck⟩ |
    ⟨⟨hover, hrejected⟩, hcheck⟩
  · constructor
    · intro h
      exact absurd hcheck h.defined
    · intro h
      exact absurd hover h
  · have hshort : ¬ Overflows first last interval := by
      intro hover
      have hle := haccepted.2.2
      have hge := hover.2.2
      omega
    refine ⟨fun _ => hshort, fun _ => ⟨by rw [hcheck]; simp, ?_⟩⟩
    simp [hcheck, haccepted]
  · refine ⟨fun _ => hover, fun _ => ⟨by rw [hcheck]; simp [rejection], ?_⟩⟩
    simp [hcheck, hrejected]

/-- From the least to the greatest integer of 64 bits. -/
theorem range_not_exact : ¬ ∀ first last interval, Exact first last interval := by
  intro h
  exact (h Int64.minValue Int64.maxValue 60).defined (by decide)

end Magicbox.Guarantees.HistoryRange
