import Magicbox.Guarantees.AddressText
import Magicbox.Library.Results
import Magicbox.Source.NetworkController

/-!
# The MAC address that was checked is the one that is used

config.cpp walks over a MAC text with `from_chars`, network.cpp cuts it up again
and reads each piece with `stoul`, which also takes blanks, signs, a `0x` and
less than two digits. On the texts that the check accepts there is none of these.
-/

set_option autoImplicit false

namespace Magicbox.Guarantees.MacDecoding
open Library.Results Source Source.Config Source.NetworkController AddressText

/-! ## Six bytes between colons -/

/-- A hexadecimal digit, in either case. -/
def HexDigit (c : Char) (n : Nat) : Prop :=
  "0123456789abcdef".toList[n]? = some c ∨ "0123456789ABCDEF".toList[n]? = some c

def TwoDigits (text : List Char) (byte : Nat) : Prop :=
  ∃ h l m n, HexDigit h m ∧ HexDigit l n ∧ text = [h, l] ∧ byte = 16 * m + n

/-- The text is six bytes of two digits each, with a colon between them. -/
def Spells (text : List Char) (bytes : List Nat) : Prop :=
  bytes.length = 6 ∧ ∃ pairs, List.Forall₂ TwoDigits pairs bytes ∧
    text = [':'].intercalate pairs

/-! ## Digits -/

theorem hexDigit_lt {c : Char} {n : Nat} (h : HexDigit c n) : n < 16 := by
  rcases h with h | h
  · exact (List.getElem?_eq_some_iff.mp h).1
  · exact (List.getElem?_eq_some_iff.mp h).1

/-- What the code takes for a digit. -/
theorem hexDigit_iff {c : Char} {n : Nat} : hexDigit c = some n ↔ HexDigit c n := by
  have hlower : ∀ m : Fin 16, hexDigit "0123456789abcdef".toList[m] = some m.val := by
    decide +kernel
  have hupper : ∀ m : Fin 16, hexDigit "0123456789ABCDEF".toList[m] = some m.val := by
    decide +kernel
  have hascii : ∀ m : Fin 128, ∀ n ∈ hexDigit (Char.ofNat m),
      "0123456789abcdef".toList[n]? = some (Char.ofNat m) ∨
        "0123456789ABCDEF".toList[n]? = some (Char.ofNat m) := by
    decide +kernel
  constructor
  · intro h
    have hc : c.toNat < 128 := by
      unfold hexDigit at h
      split at h
      case isTrue hrange => exact Nat.lt_of_le_of_lt (show c.toNat ≤ 57 from hrange.2) (by decide)
      split at h
      case isTrue hrange => exact Nat.lt_of_le_of_lt (show c.toNat ≤ 102 from hrange.2) (by decide)
      split at h
      case isTrue hrange => exact Nat.lt_of_le_of_lt (show c.toNat ≤ 70 from hrange.2) (by decide)
      cases h
    have hthis := hascii ⟨c.toNat, hc⟩ n
    rw [Char.ofNat_toNat] at hthis
    exact hthis h
  · rintro (h | h)
    · obtain ⟨hn, rfl⟩ := List.getElem?_eq_some_iff.mp h
      exact hlower ⟨n, hn⟩
    · obtain ⟨hn, rfl⟩ := List.getElem?_eq_some_iff.mp h
      exact hupper ⟨n, hn⟩

/-- Neither a blank nor a sign. -/
def Plain (c : Char) : Bool := !Library.Decimal.isSpace c && c != '+' && c != '-'

theorem hexDigit_plain {c : Char} {n : Nat} (h : HexDigit c n) :
    Library.Decimal.isSpace c = false ∧ c ≠ '+' ∧ c ≠ '-' := by
  have hlower : ∀ m : Fin 16, Plain "0123456789abcdef".toList[m] = true := by decide
  have hupper : ∀ m : Fin 16, Plain "0123456789ABCDEF".toList[m] = true := by decide
  have hplain : Plain c = true := by
    rcases h with h | h
    · obtain ⟨hn, rfl⟩ := List.getElem?_eq_some_iff.mp h
      exact hlower ⟨n, hn⟩
    · obtain ⟨hn, rfl⟩ := List.getElem?_eq_some_iff.mp h
      exact hupper ⟨n, hn⟩
  simpa [Plain, and_assoc] using hplain

theorem TwoDigits.le {text : List Char} {byte : Nat} (h : TwoDigits text byte) : byte ≤ 255 := by
  obtain ⟨h, l, m, n, hh, hl, -, rfl⟩ := h
  have := hexDigit_lt hh
  have := hexDigit_lt hl
  omega

/-- `stoul` reads two digits as they stand. -/
theorem stoul16_twoDigits {text : List Char} {byte : Nat} (h : TwoDigits text byte) :
    stoul16 text = .ok byte.toUInt8 := by
  obtain ⟨h, l, m, n, hh, hl, rfl, rfl⟩ := h
  obtain ⟨hblank, hplus, hminus⟩ := hexDigit_plain hh
  have hdigits : hexDigits (stripHexPrefix [h, l]) = [m, n] := by
    simp [stripHexPrefix, hexDigits, hexDigit_iff.mpr hh, hexDigit_iff.mpr hl]
  have hstart : [h, l].dropWhile Library.Decimal.isSpace = [h, l] := by
    simp [hblank]
  unfold stoul16
  rw [hstart]
  split
  case h_1 heq => exact absurd (List.cons.inj heq).1 hplus
  case h_2 heq => exact absurd (List.cons.inj heq).1 hminus
  · simp [hdigits, hexValue]

/-! ## The walk -/

section Walk
variable {text : List Char} {i byte : Nat}

/-- In a text of 17 characters every `start` has the characters that are read there. -/
theorem walk_inside (hlength : text.length = 17) (hi : i < 6) :
    ((text.drop (i * 3)).take 2).length = 2 ∧
      (i < 5 → ((text.drop (i * 3))[2]?).isSome = true) := by
  constructor
  · simp only [List.length_take, List.length_drop]
    omega
  · intro hinner
    rw [List.getElem?_drop, List.getElem?_eq_getElem (by omega)]
    rfl

theorem pair_iff {h l : Char} :
    (text.drop (i * 3)).take 2 = [h, l] ↔ text[3 * i]? = some h ∧ text[3 * i + 1]? = some l := by
  constructor
  · intro he
    have hfirst := congrArg (fun pair => pair[0]?) he
    have hsecond := congrArg (fun pair => pair[1]?) he
    simp [Nat.mul_comm i 3] at hfirst hsecond
    exact ⟨hfirst, hsecond⟩
  · rintro ⟨hh, hl⟩
    obtain ⟨hfirst, rfl⟩ := List.getElem?_eq_some_iff.mp hh
    obtain ⟨hsecond, rfl⟩ := List.getElem?_eq_some_iff.mp hl
    rw [Nat.mul_comm, List.drop_eq_getElem_cons hfirst, List.drop_eq_getElem_cons hsecond]
    rfl

/-- What one turn of the walk checks. -/
theorem macByte_twoDigits (hlength : text.length = 17) (hi : i < 6) :
    macByte text i = some byte ↔ TwoDigits ((text.drop (i * 3)).take 2) byte ∧
      (i < 5 → text[3 * i + 2]? = some ':') := by
  rw [macByte_iff hlength hi]
  constructor
  · rintro ⟨h, l, m, n, hh, hl, hm, hn, hbyte, hcolon⟩
    exact ⟨⟨h, l, m, n, hexDigit_iff.mp hm, hexDigit_iff.mp hn, pair_iff.mpr ⟨hh, hl⟩, hbyte⟩,
      hcolon⟩
  · rintro ⟨⟨h, l, m, n, hm, hn, hpair, hbyte⟩, hcolon⟩
    obtain ⟨hh, hl⟩ := pair_iff.mp hpair
    exact ⟨h, l, m, n, hh, hl, hexDigit_iff.mpr hm, hexDigit_iff.mpr hn, hbyte, hcolon⟩

end Walk

/-! ## Cutting and joining -/

/-- The six pieces that both parsers look at. -/
def cut (text : List Char) : List (List Char) :=
  (List.range 6).map fun i => (text.drop (i * 3)).take 2

theorem joined_cut {text : List Char} (hlength : text.length = 17)
    (hcolons : ∀ i < 5, text[3 * i + 2]? = some ':') : [':'].intercalate (cut text) = text := by
  match text, hlength with
  | [a, b, c, d, e, f, g, h, i, j, k, l, m, n, o, p, q], _ =>
    obtain rfl : c = ':' := Option.some.inj (hcolons 0 (by decide))
    obtain rfl : f = ':' := Option.some.inj (hcolons 1 (by decide))
    obtain rfl : i = ':' := Option.some.inj (hcolons 2 (by decide))
    obtain rfl : l = ':' := Option.some.inj (hcolons 3 (by decide))
    obtain rfl : o = ':' := Option.some.inj (hcolons 4 (by decide))
    rfl

theorem cut_joined {pairs : List (List Char)} (hsix : pairs.length = 6)
    (htwo : ∀ pair ∈ pairs, pair.length = 2) :
    cut ([':'].intercalate pairs) = pairs ∧ ([':'].intercalate pairs).length = 17 ∧
      ∀ i < 5, ([':'].intercalate pairs)[3 * i + 2]? = some ':' := by
  match pairs, hsix with
  | [p, q, r, s, t, u], _ =>
    simp only [List.forall_mem_cons, List.length_eq_two] at htwo
    obtain ⟨⟨_, _, rfl⟩, ⟨_, _, rfl⟩, ⟨_, _, rfl⟩, ⟨_, _, rfl⟩, ⟨_, _, rfl⟩, ⟨_, _, rfl⟩, -⟩ := htwo
    refine ⟨rfl, rfl, ?_⟩
    intro i hi
    match i, hi with
    | 0, _ | 1, _ | 2, _ | 3, _ | 4, _ => rfl

/-- The walk of the check, turn by turn. -/
theorem walk_iff {text : List Char} {bytes : List Nat} (hlength : text.length = 17) :
    (List.range 6).mapM (macByte text) = some bytes ↔
      List.Forall₂ TwoDigits (cut text) bytes ∧ ∀ i < 5, text[3 * i + 2]? = some ':' := by
  rw [mapM_eq_some, cut, List.forall₂_map_left_iff]
  have hrange : ∀ i ∈ List.range 6, i < 6 := fun i => List.mem_range.mp
  constructor
  · intro h
    have hturns := ((List.forall₂_and_left _ _).mpr ⟨hrange, h⟩).imp fun i byte hturn =>
      ((macByte_twoDigits hlength hturn.1).mp hturn.2).symm
    obtain ⟨hcolons, hpairs⟩ := (List.forall₂_and_left _ _).mp hturns
    exact ⟨hpairs, fun i hi => hcolons i (List.mem_range.mpr (by omega)) hi⟩
  · rintro ⟨hpairs, hcolons⟩
    exact ((List.forall₂_and_left _ _).mpr ⟨hrange, hpairs⟩).imp fun i byte hturn =>
      (macByte_twoDigits hlength hturn.1).mpr ⟨hturn.2, hcolons i⟩

theorem twoDigits_length {pairs : List (List Char)} {bytes : List Nat}
    (h : List.Forall₂ TwoDigits pairs bytes) : ∀ pair ∈ pairs, pair.length = 2 := by
  induction h with
  | nil => simp
  | cons hpair _ ih =>
    obtain ⟨_, _, _, _, -, -, rfl, -⟩ := hpair
    exact List.forall_mem_cons.mpr ⟨rfl, ih⟩

/-- The walk goes through exactly the texts that spell six bytes. -/
theorem spells_iff {text : List Char} {bytes : List Nat} :
    Spells text bytes ↔ text.length = 17 ∧ (List.range 6).mapM (macByte text) = some bytes := by
  constructor
  · rintro ⟨hsix, pairs, hpairs, rfl⟩
    obtain ⟨hcut, hlength, hcolons⟩ :=
      cut_joined (hpairs.length_eq.trans hsix) (twoDigits_length hpairs)
    exact ⟨hlength, (walk_iff hlength).mpr ⟨hcut.symm ▸ hpairs, hcolons⟩⟩
  · rintro ⟨hlength, hwalk⟩
    obtain ⟨hpairs, hcolons⟩ := (walk_iff hlength).mp hwalk
    exact ⟨hpairs.length_eq.symm, cut text, hpairs, (joined_cut hlength hcolons).symm⟩

/-! ## The check and the decoding -/

theorem unicastMac_spells (s : String) : unicastMac s = true ↔ ∃ bytes, Spells s.toList bytes ∧
    (∃ byte ∈ bytes, byte ≠ 0) ∧ ∃ first, bytes.head? = some first ∧ first % 2 = 0 := by
  have hlength : s.length = s.toList.length := String.length_toList.symm
  simp only [spells_iff]
  unfold unicastMac
  rw [hlength]
  by_cases hsize : s.toList.length = 17
  · rw [if_neg (not_not_intro hsize)]
    cases hwalk : (List.range 6).mapM (macByte s.toList) with
    | none => simp
    | some bytes => simp [hsize, List.any_eq_true, Option.any_eq_true]
  · simp [hsize]

/-- On a text that spells six bytes, `link_state` decodes these bytes. -/
theorem macBytes_spells {s : String} {bytes : List Nat} (h : Spells s.toList bytes) :
    macBytes s = .ok (bytes.map Nat.toUInt8) := by
  obtain ⟨hlength, hwalk⟩ := spells_iff.mp h
  have hpairs := ((walk_iff hlength).mp hwalk).1
  rw [cut, List.forall₂_map_left_iff] at hpairs
  have hrange : ∀ i ∈ List.range 6, i < 6 := fun i => List.mem_range.mp
  unfold macBytes
  rw [mapM_eq_ok, List.forall₂_map_right_iff]
  refine ((List.forall₂_and_left _ _).mpr ⟨hrange, hpairs⟩).imp fun i byte hturn => ?_
  have hsize : ¬ i * 3 > s.length := by
    have hsame : s.toList.length = s.length := String.length_toList
    have := hturn.1
    omega
  rw [if_neg hsize, stoul16_twoDigits hturn.2]

theorem spells_bytes {text : List Char} {bytes : List Nat} (h : Spells text bytes) :
    ∀ byte ∈ bytes, byte ≤ 255 := by
  obtain ⟨-, pairs, hpairs, -⟩ := h
  induction hpairs with
  | nil => simp
  | cons hpair _ ih => exact List.forall_mem_cons.mpr ⟨hpair.le, ih⟩

/-- The cast to `unsigned char` loses nothing. -/
theorem spells_cast {text : List Char} {bytes : List Nat} (h : Spells text bytes) :
    (bytes.map Nat.toUInt8).map UInt8.toNat = bytes := by
  rw [List.map_map]
  refine (List.map_congr_left fun byte hbyte => ?_).trans (List.map_id bytes)
  exact UInt8.toNat_ofNat_of_lt' (Nat.lt_succ_of_le (spells_bytes h byte hbyte))

/-- The check says what the address spells, and the decoding reads the same bytes. -/
theorem mac_agrees (s : String) :
    (unicastMac s = true ↔ ∃ bytes, Spells s.toList bytes ∧ (∃ byte ∈ bytes, byte ≠ 0) ∧
      ∃ first, bytes.head? = some first ∧ first % 2 = 0) ∧
    (unicastMac s = true → ∃ parsed bytes, (List.range 6).mapM (macByte s.toList) = some parsed ∧
      parsed.length = 6 ∧ (∀ byte ∈ parsed, byte ≤ 255) ∧ s.isEmpty = false ∧
      macBytes s = .ok bytes ∧ bytes.map UInt8.toNat = parsed) ∧
    (s.length = 17 → ∀ i < 6, ((s.toList.drop (i * 3)).take 2).length = 2 ∧
      (i < 5 → ((s.toList.drop (i * 3))[2]?).isSome = true)) := by
  have hchars : s.toList.length = s.length := String.length_toList
  refine ⟨unicastMac_spells s, fun h => ?_, fun h i hi => walk_inside (hchars.trans h) hi⟩
  obtain ⟨parsed, hspells, -, -⟩ := (unicastMac_spells s).mp h
  obtain ⟨hlength, hwalk⟩ := spells_iff.mp hspells
  have hfilled : s.isEmpty = false := by
    rw [Bool.eq_false_iff, ne_eq, String.isEmpty_iff, ← String.length_eq_zero_iff]
    omega
  exact ⟨parsed, parsed.map Nat.toUInt8, hwalk, hspells.1, spells_bytes hspells, hfilled,
    macBytes_spells hspells, spells_cast hspells⟩

theorem mac_agrees_example : ∃ bytes, macBytes "02:1a:2B:00:ff:0C" = .ok bytes ∧
    bytes.map UInt8.toNat = [2, 26, 43, 0, 255, 12] := by
  obtain ⟨parsed, bytes, hwalk, -, -, -, hbytes, hparsed⟩ :=
    (mac_agrees "02:1a:2B:00:ff:0C").2.1 (by decide +kernel)
  have hknown : (List.range 6).mapM (macByte "02:1a:2B:00:ff:0C".toList) =
      some [2, 26, 43, 0, 255, 12] := by
    decide +kernel
  obtain rfl : parsed = [2, 26, 43, 0, 255, 12] := Option.some.inj (hwalk.symm.trans hknown)
  exact ⟨bytes, hbytes, hparsed⟩

end Magicbox.Guarantees.MacDecoding
