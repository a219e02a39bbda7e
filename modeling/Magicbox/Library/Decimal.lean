import Mathlib.Data.List.TakeWhile

/-!
# Decimal integers in texts

The value of a text that is an integer as a whole, an optional sign and decimal
digits, and the integer that a text begins with.
-/

set_option autoImplicit false

namespace Magicbox.Library.Decimal

/-- The value of a text of digits. -/
def natural (text : List Char) : Option Nat :=
  if text ≠ [] ∧ text.all Char.isDigit then some (Nat.ofDigitChars 10 text 0) else none

def integer (text : List Char) : Option Int :=
  match text with
  | '-' :: digits => (natural digits).map fun n => -n
  | '+' :: digits => (natural digits).map Int.ofNat
  | digits => (natural digits).map Int.ofNat

/-- The digits at the beginning of a text as a number with a sign, and what follows them. -/
def leadingDigits (sign : Int) (text : List Char) : Option (Int × List Char) :=
  if text.takeWhile Char.isDigit = [] then none
  else some (sign * Nat.ofDigitChars 10 (text.takeWhile Char.isDigit) 0, text.dropWhile Char.isDigit)

/-- The integer that a text begins with, and what follows it. -/
def leading (text : List Char) : Option (Int × List Char) :=
  match text with
  | '-' :: digits => leadingDigits (-1) digits
  | '+' :: digits => leadingDigits 1 digits
  | digits => leadingDigits 1 digits

/-- What `isspace` accepts. -/
def isSpace (c : Char) : Bool :=
  c = ' ' || c = '\t' || c = '\n' || c = '\x0b' || c = '\x0c' || c = '\r'

def trim (text : List Char) : List Char :=
  ((text.dropWhile isSpace).reverse.dropWhile isSpace).reverse

theorem digits_toString (n : Nat) :
    (toString n).toList = Nat.toDigits 10 n ∧ (toString n).toList.all Char.isDigit = true := by
  have hdigits : (toString n).toList = Nat.toDigits 10 n := Nat.toList_repr
  refine ⟨hdigits, ?_⟩
  rw [hdigits]
  exact List.all_eq_true.mpr fun c hc => Nat.isDigit_of_mem_toDigits (by decide) (by decide) hc

theorem natural_toString (n : Nat) : natural (toString n).toList = some n := by
  obtain ⟨hdigits, hall⟩ := digits_toString n
  rw [natural, if_pos ⟨by rw [hdigits]; exact Nat.toDigits_ne_nil, hall⟩, hdigits,
    Nat.ofDigitChars_ten_toDigits]

/-- A text of digits does not begin with a sign. -/
theorem integer_digits {text : List Char} (h : text.all Char.isDigit = true) :
    integer text = (natural text).map Int.ofNat := by
  unfold integer
  split
  · simp at h
  · simp at h
  · rfl

theorem integer_toString (n : Nat) : integer (toString n).toList = some (n : Int) := by
  rw [integer_digits (digits_toString n).2, natural_toString]
  rfl

theorem not_isSpace_of_isDigit {c : Char} (h : c.isDigit = true) : isSpace c = false := by
  simp only [Char.isDigit, Bool.and_eq_true, decide_eq_true_eq] at h
  simp only [isSpace, Bool.or_eq_false_iff, decide_eq_false_iff_not]
  refine ⟨⟨⟨⟨⟨?_, ?_⟩, ?_⟩, ?_⟩, ?_⟩, ?_⟩ <;> rintro rfl <;> simp at h

theorem dropWhile_digits {text : List Char} (h : ∀ c ∈ text, c.isDigit = true) :
    text.dropWhile isSpace = text := by
  cases text with
  | nil => rfl
  | cons c rest =>
    exact List.dropWhile_cons_of_neg (by simp [not_isSpace_of_isDigit (h c List.mem_cons_self)])

theorem trim_toString (n : Nat) : trim (toString n).toList = (toString n).toList := by
  have hdigits := List.all_eq_true.mp (digits_toString n).2
  rw [trim, dropWhile_digits hdigits,
    dropWhile_digits fun c hc => hdigits c (List.mem_reverse.mp hc), List.reverse_reverse]

theorem leadingDigits_whole {sign n : Int} {text : List Char} :
    leadingDigits sign text = some (n, []) ↔
      ∃ m, natural text = some m ∧ n = sign * (m : Int) := by
  have hsplit := List.takeWhile_append_dropWhile (p := Char.isDigit) (l := text)
  unfold leadingDigits natural
  constructor
  · intro h
    split at h
    · cases h
    · next hsome =>
      obtain ⟨hn, hrest⟩ := Prod.mk.inj (Option.some.inj h)
      rw [hrest, List.append_nil] at hsplit
      have hall : text.all Char.isDigit = true := by
        rw [← hsplit]
        exact List.all_takeWhile
      rw [hsplit] at hsome hn
      rw [if_pos ⟨hsome, hall⟩]
      exact ⟨_, rfl, hn.symm⟩
  · rintro ⟨m, hm, rfl⟩
    split at hm
    · next hdigits =>
      have htake : text.takeWhile Char.isDigit = text :=
        List.takeWhile_eq_self_iff.mpr (List.all_eq_true.mp hdigits.2)
      have hdrop : text.dropWhile Char.isDigit = [] :=
        List.dropWhile_eq_nil_iff.mpr (List.all_eq_true.mp hdigits.2)
      rw [htake, hdrop, if_neg hdigits.1, Option.some.inj hm]
    · cases hm

/-- A text is an integer if nothing follows the integer that it begins with. -/
theorem leading_whole {text : List Char} {n : Int} :
    leading text = some (n, []) ↔ integer text = some n := by
  unfold leading integer
  split
  · next digits =>
    rw [leadingDigits_whole]
    cases natural digits <;> simp [eq_comm]
  · next digits =>
    rw [leadingDigits_whole]
    cases natural digits <;> simp [eq_comm]
  · rw [leadingDigits_whole]
    cases natural text <;> simp [eq_comm]

end Magicbox.Library.Decimal
