import Magicbox.Source.Config
import Mathlib.Algebra.Group.Nat.Defs
import Mathlib.Data.List.Forall2
import Mathlib.Data.List.TakeWhile

/-!
# The texts of a configuration

What the checks on single fields accept, stated without their code: names of
interfaces, addresses as four decimal octets between dots, and MAC addresses.
-/

set_option autoImplicit false

namespace Magicbox.Guarantees.AddressText
open Source.Config

structure InterfaceName (name : String) : Prop where
  nonempty : 1 ≤ name.length
  short : name.length ≤ 15
  ne_dot : name ≠ "."
  ne_dots : name ≠ ".."
  chars : ∀ c ∈ name.toList, ('a' ≤ c ∧ c ≤ 'z') ∨ ('A' ≤ c ∧ c ≤ 'Z') ∨ ('0' ≤ c ∧ c ≤ '9') ∨
    c = '_' ∨ c = '-' ∨ c = '.'

/-- Four decimal octets between dots. -/
def dotted (a b c d : Nat) : String :=
  ".".intercalate [toString a, toString b, toString c, toString d]

def Denotes (text : String) (address : Nat) : Prop :=
  ∃ a b c d, (a ≤ 255 ∧ b ≤ 255 ∧ c ≤ 255 ∧ d ≤ 255) ∧ text = dotted a b c d ∧
    address = ((a * 256 + b) * 256 + c) * 256 + d

/-- The first octet is in 1..223 and not 127. -/
def Unicast (address : Nat) : Prop :=
  1 ≤ address / 2 ^ 24 ∧ address / 2 ^ 24 ≤ 223 ∧ address / 2 ^ 24 ≠ 127

/-- Six pairs of hex digits between colons. The address is not zero, and the last bit of
its first byte is. -/
structure UnicastMac (text : List Char) : Prop where
  length : text.length = 17
  digits : ∀ i < 17, i % 3 ≠ 2 → ∃ c n, text[i]? = some c ∧ hexDigit c = some n
  colons : ∀ i < 17, i % 3 = 2 → text[i]? = some ':'
  nonzero : ∃ i < 17, i % 3 ≠ 2 ∧ text[i]? ≠ some '0'
  unicast : ∃ c n, text[1]? = some c ∧ hexDigit c = some (2 * n)

/-! ## Interface names -/

theorem interfaceChar_iff (c : Char) : interfaceChar c = true ↔
    ('a' ≤ c ∧ c ≤ 'z') ∨ ('A' ≤ c ∧ c ≤ 'Z') ∨ ('0' ≤ c ∧ c ≤ '9') ∨
      c = '_' ∨ c = '-' ∨ c = '.' := by
  simp only [interfaceChar, Bool.or_eq_true, Bool.and_eq_true, decide_eq_true_eq, beq_iff_eq,
    or_assoc]

theorem validInterface_iff (name : String) : validInterface name = true ↔ InterfaceName name := by
  have hempty : name.isEmpty = true ↔ ¬ 1 ≤ name.length := by
    rw [String.isEmpty_iff, ← String.length_eq_zero_iff]
    omega
  unfold validInterface
  constructor
  · intro h
    split at h
    · cases h
    · rename_i hbad
      simp only [Bool.or_eq_true, hempty, decide_eq_true_eq, beq_iff_eq, not_or, not_not] at hbad
      obtain ⟨⟨⟨hnonempty, hshort⟩, hdot⟩, hdots⟩ := hbad
      exact ⟨hnonempty, by omega, hdot, hdots,
        fun c hc => (interfaceChar_iff c).mp (List.all_eq_true.mp h c hc)⟩
  · rintro ⟨hnonempty, hshort, hdot, hdots, hchars⟩
    have hgood : ¬ (name.isEmpty || decide (name.length > 15) || name == "." || name == "..") =
        true := by
      simp only [Bool.or_eq_true, hempty, decide_eq_true_eq, beq_iff_eq, not_or, not_not]
      exact ⟨⟨⟨hnonempty, by omega⟩, hdot⟩, hdots⟩
    rw [if_neg hgood, List.all_eq_true]
    exact fun c hc => (interfaceChar_iff c).mpr (hchars c hc)

/-! ## Octets -/

theorem mapM_eq_some {α β : Type} {f : α → Option β} {xs : List α} {ys : List β} :
    xs.mapM f = some ys ↔ List.Forall₂ (fun x y => f x = some y) xs ys := by
  induction xs generalizing ys with
  | nil =>
    cases ys with
    | nil => simp
    | cons y ys => simp
  | cons x xs ih =>
    rw [List.mapM_cons]
    cases ys with
    | nil => cases f x <;> cases xs.mapM f <;> simp
    | cons y ys =>
      rw [List.forall₂_cons, ← ih]
      cases f x with
      | none => simp
      | some z =>
        cases xs.mapM f with
        | none => simp
        | some zs => simp

theorem decimalDigit_iff {c : Char} {n : Nat} :
    decimalDigit c = some n ↔ n ≤ 9 ∧ c = Nat.digitChar n := by
  have hchar : ∀ m : Fin 10, Char.ofNat (48 + m) = Nat.digitChar m := by decide
  have hdigit : ∀ m : Fin 10, decimalDigit (Nat.digitChar m) = some m.val := by decide
  constructor
  · intro h
    unfold decimalDigit at h
    split at h
    · rename_i hrange
      have hlow : 48 ≤ c.toNat := hrange.1
      have hhigh : c.toNat ≤ 57 := hrange.2
      have hn : c.toNat - 48 = n := Option.some.inj h
      have hc : c = Char.ofNat (48 + n) := by
        rw [← hn, Nat.add_sub_cancel' hlow, Char.ofNat_toNat]
      refine ⟨by omega, hc.trans ?_⟩
      exact hchar ⟨n, by omega⟩
    · cases h
  · rintro ⟨hn, rfl⟩
    exact hdigit ⟨n, by omega⟩

theorem toDigits_two {a b : Nat} (ha : 1 ≤ a ∧ a ≤ 9) (hb : b ≤ 9) :
    Nat.toDigits 10 (10 * a + b) = [a.digitChar, b.digitChar] := by
  rw [Nat.toDigits_of_base_le (by decide) (by omega), Nat.toDigits_of_lt_base (by omega)]
  rw [show (10 * a + b) / 10 = a by omega, show (10 * a + b) % 10 = b by omega]
  rfl

theorem toDigits_three {a b c : Nat} (ha : 1 ≤ a ∧ a ≤ 9) (hb : b ≤ 9) (hc : c ≤ 9) :
    Nat.toDigits 10 (100 * a + 10 * b + c) = [a.digitChar, b.digitChar, c.digitChar] := by
  rw [Nat.toDigits_of_base_le (by decide) (by omega),
    show (100 * a + 10 * b + c) / 10 = 10 * a + b by omega,
    show (100 * a + 10 * b + c) % 10 = c by omega, toDigits_two ha hb]
  rfl

/-- The digits of an octet are those of its decimal text. -/
theorem octet_iff {digits : List Char} {n : Nat} :
    octet digits = some n ↔ n ≤ 255 ∧ digits = Nat.toDigits 10 n := by
  constructor
  · intro h
    unfold octet at h
    split at h
    · rename_i a hdigits
      obtain _ | ⟨ha, ⟨⟩⟩ := mapM_eq_some.mp hdigits
      obtain ⟨ha, rfl⟩ := decimalDigit_iff.mp ha
      cases h
      exact ⟨by omega, (Nat.toDigits_of_lt_base (by omega)).symm⟩
    · rename_i a b hdigits
      obtain _ | ⟨hfirst, _ | ⟨hsecond, ⟨⟩⟩⟩ := mapM_eq_some.mp hdigits
      obtain ⟨ha, rfl⟩ := decimalDigit_iff.mp hfirst
      obtain ⟨hb, rfl⟩ := decimalDigit_iff.mp hsecond
      split at h
      · cases h
        exact ⟨by omega, (toDigits_two (by omega) hb).symm⟩
      · cases h
    · rename_i a b c hdigits
      obtain _ | ⟨hfirst, _ | ⟨hsecond, _ | ⟨hthird, ⟨⟩⟩⟩⟩ := mapM_eq_some.mp hdigits
      obtain ⟨ha, rfl⟩ := decimalDigit_iff.mp hfirst
      obtain ⟨hb, rfl⟩ := decimalDigit_iff.mp hsecond
      obtain ⟨hc, rfl⟩ := decimalDigit_iff.mp hthird
      split at h
      · cases h
        exact ⟨by omega, (toDigits_three (by omega) hb hc).symm⟩
      · cases h
    · cases h
  · rintro ⟨hn, rfl⟩
    have hdigit : ∀ {m : Nat}, m ≤ 9 → decimalDigit m.digitChar = some m := fun h =>
      decimalDigit_iff.mpr ⟨h, rfl⟩
    unfold octet
    by_cases hone : n < 10
    · rw [Nat.toDigits_of_lt_base hone,
        mapM_eq_some.mpr (.cons (hdigit (by omega)) .nil)]
    · by_cases htwo : n < 100
      · have hsplit : n = 10 * (n / 10) + n % 10 := by omega
        rw [hsplit, toDigits_two (by omega) (by omega),
          mapM_eq_some.mpr (.cons (hdigit (by omega)) (.cons (hdigit (by omega)) .nil))]
        simp only
        rw [if_pos (by omega)]
      · have hsplit : n = 100 * (n / 100) + 10 * (n / 10 % 10) + n % 10 := by omega
        rw [hsplit, toDigits_three (by omega) (by omega) (by omega),
          mapM_eq_some.mpr (.cons (hdigit (by omega)) (.cons (hdigit (by omega))
            (.cons (hdigit (by omega)) .nil)))]
        simp only
        rw [if_pos (by omega)]

/-! ## Addresses -/

theorem dotted_toList (a b c d : Nat) :
    (dotted a b c d).toList = ['.'].intercalate ([a, b, c, d].map (Nat.toDigits 10)) := by
  simp only [dotted, String.toList_intercalate, Nat.toString_eq_repr, List.map_cons, List.map_nil,
    Nat.toList_repr]
  rfl

theorem isDigit_of_mem {c : Char} {n : Nat} (h : c ∈ Nat.toDigits 10 n) : c.isDigit = true :=
  Nat.isDigit_of_mem_toDigits (by decide) (by decide) h

theorem inetPton_iff {text : String} {x : BitVec 32} :
    inetPton text.toList = some x ↔ Denotes text x.toNat := by
  constructor
  · intro h
    have hjoin : ['.'].intercalate (text.toList.splitOn '.') = text.toList :=
      List.intercalate_splitOn '.'
    unfold inetPton at h
    generalize text.toList.splitOn '.' = segments at h hjoin
    split at h
    · rename_i a b c d hoctets
      obtain _ | ⟨hfirst, _ | ⟨hsecond, _ | ⟨hthird, _ | ⟨hfourth, ⟨⟩⟩⟩⟩⟩ :=
        mapM_eq_some.mp hoctets
      obtain ⟨ha, rfl⟩ := octet_iff.mp hfirst
      obtain ⟨hb, rfl⟩ := octet_iff.mp hsecond
      obtain ⟨hc, rfl⟩ := octet_iff.mp hthird
      obtain ⟨hd, rfl⟩ := octet_iff.mp hfourth
      cases h
      refine ⟨a, b, c, d, ⟨ha, hb, hc, hd⟩, ?_, ?_⟩
      · rw [← String.toList_inj, ← hjoin, dotted_toList]
        rfl
      · rw [BitVec.toNat_ofNat, Nat.mod_eq_of_lt (by omega)]
    · cases h
  · rintro ⟨a, b, c, d, ⟨ha, hb, hc, hd⟩, rfl, hx⟩
    have hnodot : ∀ l ∈ [a, b, c, d].map (Nat.toDigits 10), '.' ∉ l := by
      intro l hl hdot
      obtain ⟨n, -, rfl⟩ := List.mem_map.mp hl
      exact absurd (isDigit_of_mem hdot) (by decide)
    have hsplit : (dotted a b c d).toList.splitOn '.' = [a, b, c, d].map (Nat.toDigits 10) := by
      rw [dotted_toList, List.splitOn_intercalate '.' hnodot (by simp)]
    have hoctets : ([a, b, c, d].map (Nat.toDigits 10)).mapM octet = some [a, b, c, d] :=
      mapM_eq_some.mpr (.cons (octet_iff.mpr ⟨ha, rfl⟩) (.cons (octet_iff.mpr ⟨hb, rfl⟩)
        (.cons (octet_iff.mpr ⟨hc, rfl⟩) (.cons (octet_iff.mpr ⟨hd, rfl⟩) .nil))))
    unfold inetPton
    rw [hsplit, hoctets]
    simp only
    rw [← hx, BitVec.ofNat_toNat, BitVec.setWidth_eq]

/-- The text of an address holds no NUL, so that `c_str` shows all of it. -/
theorem ne_nul_of_denotes {text : String} {address : Nat} (h : Denotes text address) {c : Char}
    (hc : c ∈ text.toList) : c ≠ '\x00' := by
  obtain ⟨a, b, c', d, -, rfl, -⟩ := h
  rintro rfl
  rw [dotted_toList] at hc
  have hdigits : ∀ n : Nat, '\x00' ∉ Nat.toDigits 10 n := fun n hn =>
    absurd (isDigit_of_mem hn) (by decide)
  simp [List.intercalate_cons_cons, hdigits] at hc

theorem cStr_of_denotes {text : String} {address : Nat} (h : Denotes text address) :
    cStr text = text.toList := by
  rw [cStr, List.takeWhile_eq_self_iff]
  intro c hc
  exact decide_eq_true (ne_nul_of_denotes h hc)

theorem unicast_iff (x : BitVec 32) :
    (x >>> 24 != 0#32 && x >>> 24 != 127#32 && decide (x >>> 24 < 224#32)) = true ↔
      Unicast x.toNat := by
  have hfirst : (x >>> 24).toNat = x.toNat / 2 ^ 24 := by
    rw [BitVec.toNat_ushiftRight, Nat.shiftRight_eq_div_pow]
  simp only [Bool.and_eq_true, bne_iff_ne, ne_eq, decide_eq_true_eq, ← BitVec.toNat_inj,
    BitVec.lt_def, hfirst, BitVec.toNat_ofNat, Unicast]
  omega

theorem unicastIpv4_iff (value : String) :
    unicastIpv4 value = true ↔
      Denotes value (host value).toNat ∧ Unicast (host value).toNat := by
  constructor
  · intro h
    unfold unicastIpv4 at h
    unfold host
    split at h
    · cases h
    · rename_i x hx
      rw [Bool.and_eq_true, Bool.not_eq_true', unicast_iff] at h
      have hwhole : cStr value = value.toList := by
        rw [cStr, List.takeWhile_eq_self_iff]
        intro c hc
        refine decide_eq_true fun hnul => ?_
        rw [hnul, ← List.contains_iff_mem, h.1] at hc
        cases hc
      rw [hx, Option.getD_some]
      exact ⟨inetPton_iff.mp (hwhole ▸ hx), h.2⟩
  · rintro ⟨hdenotes, hunicast⟩
    have hpton : inetPton (cStr value) = some (host value) := by
      rw [cStr_of_denotes hdenotes]
      exact inetPton_iff.mpr hdenotes
    unfold unicastIpv4
    rw [hpton]
    simp only
    rw [Bool.and_eq_true, Bool.not_eq_true', unicast_iff]
    refine ⟨?_, hunicast⟩
    rw [Bool.eq_false_iff, ne_eq, List.contains_iff_mem]
    exact fun hnul => ne_nul_of_denotes hdenotes hnul rfl

/-- Texts of addresses are equal when the addresses are. -/
theorem denotes_inj {text text' : String} {address : Nat} (h : Denotes text address)
    (h' : Denotes text' address) : text = text' := by
  obtain ⟨a, b, c, d, hsmall, rfl, hvalue⟩ := h
  obtain ⟨a', b', c', d', hsmall', rfl, hvalue'⟩ := h'
  have hoctets : a = a' ∧ b = b' ∧ c = c' ∧ d = d' := by omega
  obtain ⟨rfl, rfl, rfl, rfl⟩ := hoctets
  rfl

/-- A text denotes one address. -/
theorem denotes_host {text : String} {address : Nat} (h : Denotes text address) :
    address = (host text).toNat := by
  have hsmall : address < 2 ^ 32 := by
    obtain ⟨a, b, c, d, hsmall, -, rfl⟩ := h
    omega
  have hx : (BitVec.ofNat 32 address).toNat = address := by
    rw [BitVec.toNat_ofNat, Nat.mod_eq_of_lt hsmall]
  have hpton : inetPton text.toList = some (BitVec.ofNat 32 address) :=
    inetPton_iff.mpr (hx.symm ▸ h)
  rw [host, cStr_of_denotes h, hpton, Option.getD_some, hx]

/-! ## MAC addresses -/

theorem mapM_eq_some_map {α : Type} {f : α → Option Nat} {xs : List α} {ys : List Nat} :
    xs.mapM f = some ys ↔ (∀ x ∈ xs, ∃ y, f x = some y) ∧ ys = xs.map fun x => (f x).getD 0 := by
  rw [mapM_eq_some]
  induction xs generalizing ys with
  | nil => simp
  | cons x xs ih =>
    rw [List.map_cons, List.forall_mem_cons]
    constructor
    · rintro (_ | ⟨hx, hxs⟩)
      obtain ⟨hall, rfl⟩ := ih.mp hxs
      exact ⟨⟨⟨_, hx⟩, hall⟩, by rw [hx, Option.getD_some]⟩
    · rintro ⟨⟨⟨y, hy⟩, hall⟩, rfl⟩
      exact .cons (by rw [hy, Option.getD_some]) (ih.mpr ⟨hall, rfl⟩)

theorem hexDigit_zero {c : Char} : hexDigit c = some 0 ↔ c = '0' := by
  constructor
  · intro h
    unfold hexDigit at h
    split at h
    · rename_i hrange
      have hlow : 48 ≤ c.toNat := hrange.1
      have hvalue : c.toNat - 48 = 0 := Option.some.inj h
      have hc : c.toNat = '0'.toNat := by
        rw [show '0'.toNat = 48 from rfl]
        omega
      exact Char.toNat_inj.mp hc
    · split at h
      · cases h
      · split at h <;> cases h
  · rintro rfl
    rfl

/-- Byte `i` of a text of the right length. -/
theorem macByte_iff {text : List Char} (hlength : text.length = 17) {i byte : Nat} (hi : i < 6) :
    macByte text i = some byte ↔
      ∃ h l m n, text[3 * i]? = some h ∧ text[3 * i + 1]? = some l ∧ hexDigit h = some m ∧
        hexDigit l = some n ∧ byte = 16 * m + n ∧ (i < 5 → text[3 * i + 2]? = some ':') := by
  have hfirst : 3 * i < text.length := by omega
  have hsecond : 3 * i + 1 < text.length := by omega
  have hdrop : text.drop (i * 3) =
      text[3 * i] :: text[3 * i + 1] :: text.drop (3 * i + 2) := by
    rw [Nat.mul_comm, List.drop_eq_getElem_cons hfirst, List.drop_eq_getElem_cons hsecond]
  have hcolon : (text.drop (i * 3))[2]? = text[3 * i + 2]? := by
    rw [List.getElem?_drop, Nat.mul_comm]
  have hpair : (text.drop (i * 3)).take 2 = [text[3 * i], text[3 * i + 1]] := by rw [hdrop]; rfl
  unfold macByte
  simp only [hpair, hcolon, fromChars16]
  rw [List.getElem?_eq_getElem hfirst, List.getElem?_eq_getElem hsecond]
  generalize text[3 * i] = first
  generalize text[3 * i + 1] = second
  generalize text[3 * i + 2]? = separator
  constructor
  · intro h
    cases hm : hexDigit first with
    | none => simp [hm] at h
    | some m =>
      cases hn : hexDigit second with
      | none => simp [hm, hn] at h
      | some n =>
        simp only [hm, hn, Option.bind_eq_bind, Option.bind_some, Option.pure_def] at h
        split at h
        · cases h
        · rename_i hgood
          exact ⟨first, second, m, n, rfl, rfl, hm, hn, (Option.some.inj h).symm,
            fun hi => Classical.not_not.mp fun hne => hgood ⟨hi, hne⟩⟩
  · rintro ⟨h, l, m, n, hh, hl, hm, hn, rfl, hseparator⟩
    cases hh
    cases hl
    have hgood : ¬ (i < 5 ∧ separator ≠ some ':') := fun hbad => hbad.2 (hseparator hbad.1)
    simp only [hm, hn, Option.bind_eq_bind, Option.bind_some, Option.pure_def]
    rw [if_neg hgood]

/-- The check runs over the six bytes. -/
theorem unicastMac_bytes (value : String) : unicastMac value = true ↔
    value.toList.length = 17 ∧ (∀ i < 6, ∃ byte, macByte value.toList i = some byte) ∧
      (∃ i < 6, (macByte value.toList i).getD 0 ≠ 0) ∧
      (macByte value.toList 0).getD 0 % 2 = 0 := by
  have hlength : value.length = value.toList.length := String.length_toList.symm
  unfold unicastMac
  rw [hlength]
  generalize value.toList = text
  by_cases hsize : text.length = 17
  · rw [if_neg (not_not_intro hsize)]
    constructor
    · intro h
      split at h
      · rename_i bytes hbytes
        obtain ⟨hall, rfl⟩ := mapM_eq_some_map.mp hbytes
        rw [Bool.and_eq_true, List.any_map] at h
        obtain ⟨i, hi, hne⟩ := List.any_eq_true.mp h.1
        refine ⟨hsize, fun i hi => hall i (List.mem_range.mpr hi),
          ⟨i, List.mem_range.mp hi, of_decide_eq_true hne⟩, ?_⟩
        exact of_decide_eq_true h.2
      · cases h
    · rintro ⟨-, hall, ⟨i, hi, hne⟩, heven⟩
      have hbytes : (List.range 6).mapM (macByte text) =
          some ((List.range 6).map fun i => (macByte text i).getD 0) :=
        mapM_eq_some_map.mpr ⟨fun i hi => hall i (List.mem_range.mp hi), rfl⟩
      rw [hbytes]
      simp only
      rw [Bool.and_eq_true, List.any_map]
      exact ⟨List.any_eq_true.mpr ⟨i, List.mem_range.mpr hi, decide_eq_true hne⟩,
        decide_eq_true heven⟩
  · rw [if_pos hsize]
    exact ⟨fun h => (Bool.false_ne_true h).elim, fun h => absurd h.1 hsize⟩

theorem unicastMac_iff (value : String) : unicastMac value = true ↔ UnicastMac value.toList := by
  rw [unicastMac_bytes]
  generalize value.toList = text
  constructor
  · rintro ⟨hlength, hall, ⟨k, hk, hne⟩, heven⟩
    refine ⟨hlength, fun i hi hdigit => ?_, fun i hi hcolon => ?_, ?_, ?_⟩
    · obtain ⟨byte, hbyte⟩ := hall (i / 3) (by omega)
      obtain ⟨h, l, m, n, hh, hl, hm, hn, -, -⟩ := (macByte_iff hlength (by omega)).mp hbyte
      by_cases hfirst : i % 3 = 0
      · rw [show 3 * (i / 3) = i by omega] at hh
        exact ⟨h, m, hh, hm⟩
      · rw [show 3 * (i / 3) + 1 = i by omega] at hl
        exact ⟨l, n, hl, hn⟩
    · obtain ⟨byte, hbyte⟩ := hall (i / 3) (by omega)
      obtain ⟨h, l, m, n, -, -, -, -, -, hseparator⟩ :=
        (macByte_iff hlength (by omega)).mp hbyte
      have hthis := hseparator (by omega)
      rwa [show 3 * (i / 3) + 2 = i by omega] at hthis
    · obtain ⟨byte, hbyte⟩ := hall k hk
      obtain ⟨h, l, m, n, hh, hl, hm, hn, hvalue, -⟩ := (macByte_iff hlength hk).mp hbyte
      rw [hbyte, Option.getD_some] at hne
      by_cases hzero : m = 0
      · refine ⟨3 * k + 1, by omega, by omega, ?_⟩
        rintro hl'
        rw [hl'] at hl
        cases hl
        have : n = 0 := Option.some.inj (hn.symm.trans rfl)
        omega
      · refine ⟨3 * k, by omega, by omega, ?_⟩
        rintro hh'
        rw [hh'] at hh
        cases hh
        have : m = 0 := Option.some.inj (hm.symm.trans rfl)
        omega
    · obtain ⟨byte, hbyte⟩ := hall 0 (by omega)
      obtain ⟨h, l, m, n, -, hl, -, hn, hvalue, -⟩ := (macByte_iff hlength (by omega)).mp hbyte
      rw [hbyte, Option.getD_some] at heven
      refine ⟨l, n / 2, hl, ?_⟩
      rw [hn, show 2 * (n / 2) = n by omega]
  · rintro ⟨hlength, hdigits, hcolons, ⟨k, hk, hdigit, hne⟩, c, n, hc, hn⟩
    have hall : ∀ i < 6, ∃ h l m n, text[3 * i]? = some h ∧ text[3 * i + 1]? = some l ∧
        hexDigit h = some m ∧ hexDigit l = some n ∧ macByte text i = some (16 * m + n) := by
      intro i hi
      obtain ⟨h, m, hh, hm⟩ := hdigits (3 * i) (by omega) (by omega)
      obtain ⟨l, n, hl, hn⟩ := hdigits (3 * i + 1) (by omega) (by omega)
      refine ⟨h, l, m, n, hh, hl, hm, hn, (macByte_iff hlength hi).mpr ?_⟩
      exact ⟨h, l, m, n, hh, hl, hm, hn, rfl, fun h5 => hcolons (3 * i + 2) (by omega) (by omega)⟩
    refine ⟨hlength, fun i hi => ?_, ⟨k / 3, by omega, ?_⟩, ?_⟩
    · obtain ⟨_, _, _, _, _, _, _, _, hbyte⟩ := hall i hi
      exact ⟨_, hbyte⟩
    · obtain ⟨h, l, m, n, hh, hl, hm, hn, hbyte⟩ := hall (k / 3) (by omega)
      rw [hbyte, Option.getD_some]
      intro hzero
      by_cases hfirst : k % 3 = 0
      · rw [show 3 * (k / 3) = k by omega] at hh
        have hm0 : m = 0 := by omega
        rw [hm0] at hm
        exact hne (hh.trans (congrArg some (hexDigit_zero.mp hm)))
      · rw [show 3 * (k / 3) + 1 = k by omega] at hl
        have hn0 : n = 0 := by omega
        rw [hn0] at hn
        exact hne (hl.trans (congrArg some (hexDigit_zero.mp hn)))
    · obtain ⟨h, l, m, n', -, hl, -, hn', hbyte⟩ := hall 0 (by omega)
      have hlc : some l = some c := hl.symm.trans hc
      cases hlc
      have hvalue : n' = 2 * n := Option.some.inj (hn'.symm.trans hn)
      rw [hbyte, Option.getD_some]
      omega

end Magicbox.Guarantees.AddressText
