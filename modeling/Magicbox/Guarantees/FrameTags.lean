import Magicbox.Guarantees.FrameLayers
import Mathlib.Algebra.Group.Nat.Defs

/-!
# VLAN tags

A tag moves everything behind it by four bytes. The layers are relative to the
bytes behind the tags, so one or two tags change nothing; a third one is left
in the place of the type, where no network layer is known.
-/

set_option autoImplicit false

namespace Magicbox.Guarantees.FrameTags
open Source.Capture Guarantees.FrameLayers

/-- Two bytes in network order. -/
def wordBytes (x : UInt16) : Bytes := [(x >>> 8).toUInt8, x.toUInt8]

theorem be16_toNat (high low : UInt8) :
    (be16 high low).toNat = high.toNat * 2 ^ 8 + low.toNat := by
  have hhigh : high.toNat < 2 ^ 8 := high.toNat_lt
  have hlow : low.toNat < 2 ^ 8 := low.toNat_lt
  have hvalue : (be16 high low).toNat = (high.toNat <<< 8) % 2 ^ 16 ||| low.toNat := by
    simp [be16]
  have hfits : high.toNat * 2 ^ 8 < 2 ^ 16 := by omega
  rw [hvalue, Nat.shiftLeft_eq, Nat.mod_eq_of_lt hfits, ← Nat.shiftLeft_eq,
    ← Nat.shiftLeft_add_eq_or_of_lt hlow, Nat.shiftLeft_eq]

theorem be16_wordBytes (x : UInt16) : be16 (x >>> 8).toUInt8 x.toUInt8 = x := by
  apply UInt16.toNat_inj.mp
  have hx : x.toNat < 2 ^ 16 := x.toNat_lt
  have hhigh : (x >>> 8).toUInt8.toNat = x.toNat / 2 ^ 8 % 2 ^ 8 := by
    simp [Nat.shiftRight_eq_div_pow]
  have hlow : x.toUInt8.toNat = x.toNat % 2 ^ 8 := UInt16.toNat_toUInt8 x
  rw [be16_toNat, hhigh, hlow]
  omega

theorem word_append_wordBytes (x : UInt16) (l : Bytes) : word (wordBytes x ++ l) 0 = x :=
  be16_wordBytes x

/-- A word behind other bytes. -/
theorem word_append_right (l l' : Bytes) (i : Nat) : word (l ++ l') (l.length + i) = word l' i := by
  unfold word
  rw [Nat.add_assoc]
  simp only [List.getD, List.getElem?_append_right (Nat.le_add_right _ _), Nat.add_sub_cancel_left]

/-- A VLAN tag: its type and whatever it says about priority and network. -/
structure Tag where
  tpid : UInt16
  tci : UInt16
  known : tpid = 0x8100 ∨ tpid = 0x88a8
  deriving DecidableEq, Repr

def Tag.bytes (t : Tag) : Bytes := wordBytes t.tpid ++ wordBytes t.tci

theorem Tag.isTag (t : Tag) : isTag t.tpid = true := by
  rcases t.known with h | h <;> rw [h] <;> rfl

/-- The tags go between the addresses and the type. -/
def insertTags (tags : List Tag) (b : Bytes) : Bytes :=
  b.take 12 ++ (tags.flatMap Tag.bytes ++ b.drop 12)

theorem peel_tag (depth : Nat) (t : Tag) (l : Bytes) (h : 2 ≤ l.length) :
    peelTags (depth + 1) (word (t.bytes ++ l) 0) ((t.bytes ++ l).drop 2) =
      peelTags depth (word l 0) (l.drop 2) := by
  have hrest : (t.bytes ++ l).drop 2 = wordBytes t.tci ++ l := rfl
  have htype : word (t.bytes ++ l) 0 = t.tpid := word_append_wordBytes t.tpid (wordBytes t.tci ++ l)
  have hlength : ¬ (wordBytes t.tci ++ l).length < 4 := by
    simp only [wordBytes, List.length_append, List.length_cons, List.length_nil]
    omega
  rw [hrest, htype, peelTags, if_pos t.isTag, if_neg hlength]
  rfl

/-- Tags that fit the loop are peeled off. -/
theorem peel_tags (tags : List Tag) (depth : Nat) (l : Bytes) (h : 2 ≤ l.length) :
    peelTags (depth + tags.length) (word (tags.flatMap Tag.bytes ++ l) 0)
        ((tags.flatMap Tag.bytes ++ l).drop 2) =
      peelTags depth (word l 0) (l.drop 2) := by
  induction tags with
  | nil => rfl
  | cons t tags ih =>
    rw [List.flatMap_cons, List.append_assoc, List.length_cons, ← Nat.add_assoc, peel_tag, ih]
    rw [List.length_append]
    omega

theorem peel_untagged (depth : Nat) {type : UInt16} (rest : Bytes) (h : isTag type = false) :
    peelTags depth type rest = some (type, rest) := by
  cases depth with
  | zero => rfl
  | succ depth => rw [peelTags, h, if_neg Bool.false_ne_true]

/-- A frame whose addresses are followed by `l` shows the layers behind them. -/
theorem layers_behind (inetNtop : InetNtop) (addresses l : Bytes) (size : UInt32)
    (timestamp : Int) (haddresses : addresses.length = 12) (h : 2 ≤ l.length) :
    layers inetNtop (addresses ++ l) size timestamp =
      layersBehind inetNtop (peelTags 2 (word l 0) (l.drop 2))
        { timestamp := timestamp, wireBytes := size } := by
  have hlength : ¬ (addresses ++ l).length < 14 := by
    rw [List.length_append]
    omega
  have hword : word (addresses ++ l) 12 = word l 0 := by
    have := word_append_right addresses l 0
    rwa [haddresses] at this
  have hdrop : (addresses ++ l).drop 14 = l.drop 2 := by
    have := @List.drop_length_add_append _ addresses l 2
    rwa [haddresses] at this
  unfold layers
  rw [if_neg hlength, hword, hdrop]

/-- The loop stops before a third tag and takes it for the type. -/
theorem peel_three {tags : List Tag} (htags : 3 ≤ tags.length) (l : Bytes) (h : 2 ≤ l.length) :
    ∃ t ∈ tags, ∃ rest, peelTags 2 (word (tags.flatMap Tag.bytes ++ l) 0)
      ((tags.flatMap Tag.bytes ++ l).drop 2) = some (Tag.tpid t, rest) := by
  rcases tags with _ | ⟨t₁, _ | ⟨t₂, _ | ⟨t₃, tags⟩⟩⟩
  case cons.cons.cons =>
    refine ⟨t₃, by simp, (((t₃ :: tags).flatMap Tag.bytes ++ l).drop 2), ?_⟩
    have hlong : 2 ≤ ((t₃ :: tags).flatMap Tag.bytes ++ l).length := by
      rw [List.length_append]
      omega
    have hlonger : 2 ≤ ((t₂ :: t₃ :: tags).flatMap Tag.bytes ++ l).length := by
      rw [List.length_append]
      omega
    have htype : word ((t₃ :: tags).flatMap Tag.bytes ++ l) 0 = t₃.tpid :=
      word_append_wordBytes t₃.tpid _
    have hpeel := peel_tag 1 t₁ _ hlonger
    rw [List.flatMap_cons, List.append_assoc, hpeel, List.flatMap_cons, List.append_assoc,
      peel_tag 0 t₂ _ hlong, htype]
    rfl
  all_goals simp only [List.length_cons, List.length_nil] at htags; omega

theorem layersBehind_tag (inetNtop : InetNtop) (t : Tag) (rest : Bytes) (p : PacketMetadata) :
    layersBehind inetNtop (some (t.tpid, rest)) p = p := by
  rcases t.known with h | h <;> rw [h] <;> rfl

/-- Up to two tags change nothing that is reported; three or more hide everything. -/
theorem vlan_transparent (inetNtop : InetNtop) (b : Bytes) (size : UInt32) (timestamp : Int)
    (tags : List Tag) (hlength : 14 ≤ b.length) (hplain : word b 12 ≠ 0x8100)
    (hservice : word b 12 ≠ 0x88a8) :
    (tags.length ≤ 2 → dissect inetNtop (insertTags tags b) size timestamp =
      dissect inetNtop b size timestamp) ∧
    (3 ≤ tags.length → dissect inetNtop (insertTags tags b) size timestamp =
      .ok { timestamp := timestamp, wireBytes := size }) := by
  have haddresses : (b.take 12).length = 12 := by
    rw [List.length_take]
    omega
  have hrest : 2 ≤ (b.drop 12).length := by
    rw [List.length_drop]
    omega
  have hinserted : 2 ≤ (tags.flatMap Tag.bytes ++ b.drop 12).length := by
    rw [List.length_append]
    omega
  have hword : word (b.drop 12) 0 = word b 12 := by
    simp [word, List.getD, List.getElem?_drop]
  have huntagged : isTag (word (b.drop 12) 0) = false := by
    rw [hword, isTag, Bool.or_eq_false_iff, beq_eq_false_iff_ne, beq_eq_false_iff_ne]
    exact ⟨hplain, hservice⟩
  have hb := layers_behind inetNtop (b.take 12) (b.drop 12) size timestamp haddresses hrest
  rw [List.take_append_drop, peel_untagged 2 _ huntagged] at hb
  rw [dissect_layers, dissect_layers, insertTags,
    layers_behind inetNtop _ _ size timestamp haddresses hinserted]
  refine ⟨fun htags => ?_, fun htags => ?_⟩
  · have hpeel := peel_tags tags (2 - tags.length) (b.drop 12) hrest
    rw [Nat.sub_add_cancel htags, peel_untagged _ _ huntagged] at hpeel
    rw [hpeel, hb]
  · obtain ⟨t, -, rest, hpeel⟩ := peel_three htags (b.drop 12) hrest
    rw [hpeel, layersBehind_tag]

/-- An IPv4 frame with a UDP header and one byte of payload. -/
def udpFrame : Bytes :=
  List.replicate 12 2 ++ [8, 0] ++
    [0x45, 0, 0, 29, 0, 0, 0, 0, 64, 17, 0, 0, 10, 0, 0, 1, 10, 0, 0, 2] ++
    [0, 53, 4, 0, 0, 9, 0, 0, 7]

theorem vlan_transparent_example :
    let service : Tag := ⟨0x88a8, 0, by decide⟩
    let customer : Tag := ⟨0x8100, 5, by decide⟩
    dissect (fun _ _ => "") (insertTags [service, customer] udpFrame) 60 0 =
        dissect (fun _ _ => "") udpFrame 60 0 ∧
      dissect (fun _ _ => "") (insertTags [service, customer, customer] udpFrame) 60 0 =
        .ok { timestamp := 0, wireBytes := 60 } :=
  ⟨(vlan_transparent (fun _ _ => "") udpFrame 60 0 _ (by decide) (by decide) (by decide)).1
      (by decide),
    (vlan_transparent (fun _ _ => "") udpFrame 60 0 _ (by decide) (by decide) (by decide)).2
      (by decide)⟩

end Magicbox.Guarantees.FrameTags
