import Magicbox.Guarantees.FrameCuts
import Magicbox.Guarantees.FrameEncoding

/-!
# Recognized frames

The other direction of the layout: what has to be in a buffer for the dissector
to name an application. Its bytes are then, all of them, a well-formed frame
whose lengths are consistent, and the report is what its sender put in. The one
liberty is that an IP packet may go on behind the UDP datagram that it carries.
-/

set_option autoImplicit false

namespace Magicbox.Guarantees.FrameDecoding
open Source.Capture FrameLayers FrameTags FrameCuts FrameEncoding

/-! ## Frames with slack -/

/-- A frame with bytes between the end of its datagram and the end of its packet. -/
def layout (x : Frame) (slack : Bytes) : Bytes :=
  x.addresses.bytes ++ (x.tags.flatMap Tag.bytes ++
    (wordBytes x.network.type ++
      (x.network.bytes x.transport.number (x.body ++ slack) ++ x.padding)))

/-- The bytes are the frame. Behind a TCP header everything is payload. -/
structure Carries (x : Frame) (slack b : Bytes) : Prop where
  bytes : layout x slack = b
  tcp : ∀ header, x.transport = .tcp header → slack = []
  fits : x.network.counted (x.body ++ slack).length ≤ 65535

/-! ## Fields from their bytes -/

theorem wordBytes_be16 (high low : UInt8) : wordBytes (be16 high low) = [high, low] := by
  have hlow : low.toNat < 2 ^ 8 := low.toNat_lt
  have hhigh : high.toNat < 2 ^ 8 := high.toNat_lt
  have hfirst : ((be16 high low) >>> 8).toUInt8 = high := by
    apply UInt8.toNat_inj.mp
    have hshift : ((be16 high low) >>> 8).toUInt8.toNat = (be16 high low).toNat / 2 ^ 8 % 2 ^ 8 := by
      simp [Nat.shiftRight_eq_div_pow]
    rw [hshift, be16_toNat]
    omega
  have hsecond : (be16 high low).toUInt8 = low := by
    apply UInt8.toNat_inj.mp
    rw [UInt16.toNat_toUInt8, be16_toNat]
    omega
  rw [wordBytes, hfirst, hsecond]

theorem wordBytes_word (l : Bytes) (i : Nat) :
    wordBytes (word l i) = [l.getD i 0, l.getD (i + 1) 0] :=
  wordBytes_be16 _ _

theorem nibbles_halves (x : UInt8) : nibbles (x >>> 4).toNat (x &&& 15).toNat = x := by
  have hhigh : (x >>> 4).toNat = x.toNat / 16 := by simp [Nat.shiftRight_eq_div_pow]
  have hlow : (x &&& 15).toNat = x.toNat % 16 := by
    have hand : (x &&& 15).toNat = x.toNat &&& (2 ^ 4 - 1) := by simp
    rw [hand, Nat.and_two_pow_sub_one_eq_mod]
  rw [hhigh, hlow, nibbles, Nat.div_add_mod, UInt8.ofNat_toNat]

theorem low_lt (x : UInt8) : (x &&& 15).toNat < 16 := by
  have hand : (x &&& 15).toNat = x.toNat &&& 15 := by simp
  rw [hand]
  exact Nat.lt_succ_of_le Nat.and_le_right

theorem high_lt (x : UInt8) : (x >>> 4).toNat < 16 := by
  have hhigh : (x >>> 4).toNat = x.toNat / 16 := by simp [Nat.shiftRight_eq_div_pow]
  have hx : x.toNat < 256 := x.toNat_lt
  omega

/-- The word of a packet that is no fragment has two flags left. -/
theorem fragmentWord_of_whole {w : UInt16} (h : w &&& 0x3fff = 0) :
    ∃ reserved unfragmented, fragmentWord reserved unfragmented = w := by
  have hand : (w &&& 0x3fff).toNat = w.toNat &&& (2 ^ 14 - 1) := by simp
  have hmod : w.toNat % 2 ^ 14 = 0 := by
    rw [← Nat.and_two_pow_sub_one_eq_mod, ← hand, h]
    rfl
  have hw : w.toNat < 2 ^ 16 := w.toNat_lt
  have hcases : w.toNat = 0 ∨ w.toNat = 16384 ∨ w.toNat = 32768 ∨ w.toNat = 49152 := by omega
  rcases hcases with hvalue | hvalue | hvalue | hvalue
  · exact ⟨false, false, UInt16.toNat_inj.mp hvalue.symm⟩
  · exact ⟨false, true, UInt16.toNat_inj.mp hvalue.symm⟩
  · exact ⟨true, false, UInt16.toNat_inj.mp hvalue.symm⟩
  · exact ⟨true, true, UInt16.toNat_inj.mp hvalue.symm⟩

/-- The first bytes, one by one. -/
theorem take_getD {n : Nat} {l : Bytes} (h : n ≤ l.length) :
    l.take n = (List.range n).map fun i => l.getD i 0 := by
  refine List.ext_getElem (by simp [h]) fun i hi hi' => ?_
  have hlt : i < l.length := by
    rw [List.length_take] at hi
    omega
  simp [List.getD, List.getElem?_eq_getElem hlt]

/-- The bytes that a length counts behind a header, and what follows them. -/
theorem split_counted {l : Bytes} {header total : Nat} (hheader : header ≤ total)
    (htotal : total ≤ l.length) :
    l.drop header = (l.take total).drop header ++ l.drop total := by
  have hlength : header ≤ (l.take total).length := by
    rw [List.length_take]
    omega
  rw [← List.drop_append_of_le_length hlength, List.take_append_drop]

theorem split_at {l : Bytes} (i n : Nat) : l.drop i = (l.drop i).take n ++ l.drop (i + n) := by
  rw [← List.drop_drop, List.take_append_drop]

/-! ## Tags -/

theorem tags_of_peel {depth : Nat} {type type' : UInt16} {rest behind : Bytes}
    (h : peelTags depth type rest = some (type', behind)) :
    ∃ tags : List Tag, tags.length ≤ depth ∧
      wordBytes type ++ rest = tags.flatMap Tag.bytes ++ (wordBytes type' ++ behind) := by
  induction depth generalizing type rest with
  | zero =>
    cases h
    exact ⟨[], Nat.le_refl _, rfl⟩
  | succ depth ih =>
    rw [peelTags] at h
    split at h
    · next htag =>
      split at h
      · cases h
      · next hlength =>
        obtain ⟨tags, htags, hrest⟩ := ih h
        have hknown : type = 0x8100 ∨ type = 0x88a8 := by simpa [isTag] using htag
        have hfour : rest = wordBytes (word rest 0) ++ (wordBytes (word rest 2) ++ rest.drop 4) := by
          have hfirst := take_getD (n := 4) (l := rest) (by omega)
          rw [wordBytes_word, wordBytes_word]
          conv_lhs => rw [← List.take_append_drop 4 rest, hfirst]
          rfl
        refine ⟨⟨type, word rest 0, hknown⟩ :: tags, Nat.succ_le_succ htags, ?_⟩
        rw [List.flatMap_cons, List.append_assoc, ← hrest, Tag.bytes, List.append_assoc, ← hfour]
    · cases h
      exact ⟨[], Nat.zero_le _, rfl⟩

/-! ## The network layer -/

section Network

variable {inetNtop : InetNtop} {rest : Bytes} {p p' : PacketMetadata} {k : Packet}

theorem ipv4_of_peel (h : peelIpv4 inetNtop rest p = (p', some k)) (hcomplete : k.complete = true) :
    ∃ (x : Ipv4) (padding : Bytes),
      rest = x.bytes k.protocol k.body.length ++ (k.body ++ padding) ∧
        20 + 4 * x.options.words + k.body.length ≤ 65535 := by
  have hnibble := low_lt (rest.getD 0 0)
  have htotal : (word rest 2).toNat < 2 ^ 16 := (word rest 2).toNat_lt
  unfold peelIpv4 at h
  dsimp only at h
  split at h
  · cases h
  · next hgood =>
    simp only [not_or, not_not, Nat.not_lt, headerLength] at hgood
    obtain ⟨hlength, hversion, hheader, hcounted, hroom⟩ := hgood
    split at h
    · cases h
    · next hwhole =>
      obtain ⟨-, hpacket⟩ := Prod.mk.inj h
      obtain rfl := Option.some.inj hpacket
      simp only [headerLength, decide_eq_true_eq] at hcomplete ⊢
      obtain ⟨reserved, unfragmented, hfragment⟩ := fragmentWord_of_whole (not_not.mp hwhole)
      generalize hwords : (rest.getD 0 0 &&& 15).toNat - 5 = words
      have hihl : (rest.getD 0 0 &&& 15).toNat = 5 + words := by omega
      have hend : (rest.getD 0 0 &&& 15).toNat * 4 = 20 + 4 * words := by omega
      rw [hend] at hcounted hroom ⊢
      have hbody : ((rest.take (word rest 2).toNat).drop (20 + 4 * words)).length =
          (word rest 2).toNat - (20 + 4 * words) := by
        rw [List.length_drop, List.length_take, Nat.min_eq_left hcomplete]
      refine ⟨⟨rest.getD 1 0, word rest 4, reserved, unfragmented, rest.getD 8 0, word rest 10,
        ⟨(rest.drop 12).take 4, by simp; omega⟩, ⟨(rest.drop 16).take 4, by simp; omega⟩,
        ⟨words, (rest.drop 20).take (4 * words), by simp; omega, by omega⟩⟩,
        rest.drop (word rest 2).toNat, ?_, by dsimp only; omega⟩
      have hfirst := take_getD (n := 12) (l := rest) (by omega)
      have hfields : (List.range 12).map (fun i => rest.getD i 0) =
          [nibbles 4 (5 + words), rest.getD 1 0] ++
            wordBytes (UInt16.ofNat (word rest 2).toNat) ++ wordBytes (word rest 4) ++
            wordBytes (fragmentWord reserved unfragmented) ++ [rest.getD 8 0, rest.getD 9 0] ++
            wordBytes (word rest 10) := by
        have hbyte : nibbles 4 (5 + words) = rest.getD 0 0 := by
          have hhalves := nibbles_halves (rest.getD 0 0)
          rwa [hversion, hihl] at hhalves
        rw [hbyte, UInt16.ofNat_toNat, hfragment, wordBytes_word, wordBytes_word, wordBytes_word,
          wordBytes_word]
        rfl
      have hsize : 20 + 4 * words + ((word rest 2).toNat - (20 + 4 * words)) =
          (word rest 2).toNat := by omega
      rw [Ipv4.bytes, hbody, hsize, ← split_counted hcounted hcomplete]
      conv_lhs => rw [← List.take_append_drop 12 rest, hfirst, hfields, split_at 12 4,
        split_at 16 4, split_at 20 (4 * words)]
      simp only [List.append_assoc]

theorem ipv6_of_peel (h : peelIpv6 inetNtop rest p = (p', some k)) (hcomplete : k.complete = true) :
    ∃ (x : Ipv6) (padding : Bytes),
      rest = x.bytes k.protocol k.body.length ++ (k.body ++ padding) ∧ k.body.length ≤ 65535 := by
  have hsize : (word rest 4).toNat < 2 ^ 16 := (word rest 4).toNat_lt
  unfold peelIpv6 at h
  dsimp only at h
  split at h
  · cases h
  · next hgood =>
    simp only [not_or, not_not, Nat.not_lt] at hgood
    obtain ⟨hlength, hversion⟩ := hgood
    obtain ⟨-, hpacket⟩ := Prod.mk.inj h
    obtain rfl := Option.some.inj hpacket
    simp only [decide_eq_true_eq] at hcomplete ⊢
    have hbody : ((rest.take (40 + (word rest 4).toNat)).drop 40).length =
        (word rest 4).toNat := by
      rw [List.length_drop, List.length_take, Nat.min_eq_left hcomplete]
      omega
    refine ⟨⟨⟨(rest.getD 0 0 &&& 15).toNat, low_lt _⟩, rest.getD 1 0, rest.getD 2 0,
      rest.getD 3 0, rest.getD 7 0, ⟨(rest.drop 8).take 16, by simp; omega⟩,
      ⟨(rest.drop 24).take 16, by simp; omega⟩⟩, rest.drop (40 + (word rest 4).toNat), ?_,
      by omega⟩
    have hfirst := take_getD (n := 8) (l := rest) (by omega)
    have hfields : (List.range 8).map (fun i => rest.getD i 0) =
        [nibbles 6 (rest.getD 0 0 &&& 15).toNat, rest.getD 1 0, rest.getD 2 0, rest.getD 3 0] ++
          wordBytes (UInt16.ofNat (word rest 4).toNat) ++ [rest.getD 6 0, rest.getD 7 0] := by
      have hbyte : nibbles 6 (rest.getD 0 0 &&& 15).toNat = rest.getD 0 0 := by
        have hhalves := nibbles_halves (rest.getD 0 0)
        rwa [hversion] at hhalves
      rw [hbyte, UInt16.ofNat_toNat, wordBytes_word]
      rfl
    rw [Ipv6.bytes, hbody, ← split_counted (Nat.le_add_right _ _) hcomplete]
    conv_lhs => rw [← List.take_append_drop 8 rest, hfirst, hfields, split_at 8 16,
      split_at 24 16]
    simp only [List.append_assoc]

theorem network_of_peel {type : UInt16} (h : peelNetwork inetNtop type rest p = (p', some k))
    (hcomplete : k.complete = true) :
    ∃ (x : Network) (padding : Bytes), type = x.type ∧
      rest = x.bytes k.protocol k.body ++ padding ∧ x.counted k.body.length ≤ 65535 := by
  unfold peelNetwork at h
  split at h
  · next htype =>
    obtain ⟨x, padding, hrest, hfits⟩ := ipv4_of_peel h hcomplete
    exact ⟨.ipv4 x, padding, htype, by rw [Network.bytes, List.append_assoc]; exact hrest, hfits⟩
  · split at h
    · next htype =>
      obtain ⟨x, padding, hrest, hfits⟩ := ipv6_of_peel h hcomplete
      exact ⟨.ipv6 x, padding, htype, by rw [Network.bytes, List.append_assoc]; exact hrest, hfits⟩
    · cases h

end Network

/-! ## The transport layer -/

/-- A payload that is there to its end lies behind a header that is. -/
theorem transport_of_peel {k : Packet} {p p' : PacketMetadata} {s : Payload}
    (h : peelTransport k p = (p', some s)) (hcomplete : s.complete = true) :
    k.complete = true ∧ ∃ (t : Transport) (slack : Bytes), k.protocol = t.number ∧
      k.body = t.bytes (word k.body 0) (word k.body 2) s.content ++ slack ∧
        ∀ header, t = .tcp header → slack = [] := by
  obtain ⟨number, body, complete⟩ := k
  unfold peelTransport at h
  dsimp only at h
  split at h
  · next hnumber =>
    split at h
    · cases h
    · next hgood =>
      have hnibble := high_lt (body.getD 12 0)
      simp only [not_or, Nat.not_lt, headerLength] at hgood
      obtain ⟨hlength, hheader, hroom⟩ := hgood
      obtain ⟨-, hsome⟩ := Prod.mk.inj h
      obtain rfl := Option.some.inj hsome
      generalize hwords : (body.getD 12 0 >>> 4).toNat - 5 = words
      have hoffset : (body.getD 12 0 >>> 4).toNat = 5 + words := by omega
      have hend : (body.getD 12 0 >>> 4).toNat * 4 = 20 + 4 * words := by omega
      refine ⟨hcomplete, .tcp ⟨word body 4, word body 6, word body 8, word body 10,
        ⟨(body.getD 12 0 &&& 15).toNat, low_lt _⟩, body.getD 13 0, word body 14, word body 16,
        word body 18, ⟨words, (body.drop 20).take (4 * words), by simp; omega, by omega⟩⟩, [],
        hnumber, ?_, fun _ _ => rfl⟩
      have hfirst := take_getD (n := 20) (l := body) (by omega)
      have hfields : (List.range 20).map (fun i => body.getD i 0) =
          wordBytes (word body 0) ++ wordBytes (word body 2) ++ wordBytes (word body 4) ++
            wordBytes (word body 6) ++ wordBytes (word body 8) ++ wordBytes (word body 10) ++
            [nibbles (5 + words) (body.getD 12 0 &&& 15).toNat, body.getD 13 0] ++
            wordBytes (word body 14) ++ wordBytes (word body 16) ++ wordBytes (word body 18) := by
        rw [← hoffset, nibbles_halves]
        simp only [wordBytes_word]
        rfl
      dsimp only [headerLength]
      rw [List.append_nil, Transport.bytes, hend]
      conv_lhs => rw [← List.take_append_drop 20 body, hfirst, hfields, split_at 20 (4 * words)]
      simp only [List.append_assoc]
  · split at h
    · next hnumber =>
      split at h
      · cases h
      · next hgood =>
        simp only [not_or, Nat.not_lt] at hgood
        obtain ⟨hlength, hheader⟩ := hgood
        obtain ⟨-, hsome⟩ := Prod.mk.inj h
        obtain rfl := Option.some.inj hsome
        simp only [Bool.and_eq_true, decide_eq_true_eq] at hcomplete
        obtain ⟨hcomplete, hcounted⟩ := hcomplete
        refine ⟨hcomplete, .udp (word body 6), body.drop (word body 4).toNat, hnumber, ?_,
          fun header hudp => by cases hudp⟩
        have hcontent : 8 + ((body.take (word body 4).toNat).drop 8).length =
            (word body 4).toNat := by
          rw [List.length_drop, List.length_take, Nat.min_eq_left hcounted]
          omega
        have hfirst := take_getD (n := 8) (l := body) (by omega)
        have hfields : (List.range 8).map (fun i => body.getD i 0) =
            wordBytes (word body 0) ++ wordBytes (word body 2) ++ wordBytes (word body 4) ++
              wordBytes (word body 6) := by
          simp only [wordBytes_word]
          rfl
        dsimp only
        rw [Transport.bytes, hcontent, UInt16.ofNat_toNat, List.append_assoc,
          ← split_counted hheader hcounted]
        conv_lhs => rw [← List.take_append_drop 8 body, hfirst, hfields]
    · split at h <;> cases h

/-! ## Both directions -/

/-- A datagram with slack behind it. -/
theorem peelTransport_slack {t : Transport} {sourcePort destinationPort : UInt16}
    {payload slack : Bytes} (p : PacketMetadata)
    (hfits : (t.bytes sourcePort destinationPort payload).length ≤ 65535)
    (htcp : ∀ header, t = .tcp header → slack = []) :
    peelTransport ⟨t.number, t.bytes sourcePort destinationPort payload ++ slack, true⟩ p =
      ({ p with protocol := t.protocol }, some ⟨payload, true⟩) := by
  cases t with
  | tcp header =>
    rw [htcp header rfl, List.append_nil]
    exact peelTransport_bytes sourcePort destinationPort payload (.tcp header) p hfits
  | udp checksum =>
    have hlength : ((Transport.udp checksum).bytes sourcePort destinationPort payload).length =
        8 + payload.length := by
      simp only [Transport.bytes, List.length_append, wordBytes_length]
    have hcounted : (word ((Transport.udp checksum).bytes sourcePort destinationPort payload ++
        slack) 4).toNat = 8 + payload.length := by
      have hword : word ((Transport.udp checksum).bytes sourcePort destinationPort payload ++
          slack) 4 = UInt16.ofNat (8 + payload.length) := be16_wordBytes _
      rw [hword, toNat_word (by omega)]
    have hpayload : ((Transport.udp checksum).bytes sourcePort destinationPort payload).drop 8 =
        payload := rfl
    have hroom : ((Transport.udp checksum).bytes sourcePort destinationPort payload ++
        slack).length = 8 + payload.length + slack.length := by
      rw [List.length_append, hlength]
    simp only [peelTransport, Transport.number, hcounted, hroom, ← hlength,
      List.take_left' rfl, hpayload]
    rw [if_neg (by decide), if_pos trivial, if_neg (by omega), decide_eq_true (by omega)]
    rfl

theorem dissect_carries {x : Frame} {slack b : Bytes} (h : Carries x slack b)
    (inetNtop : InetNtop) (size : UInt32) (timestamp : Int) :
    dissect inetNtop b size timestamp = .ok (x.metadata inetNtop size timestamp) := by
  obtain ⟨rest, hrest⟩ :
      ∃ rest, rest = x.network.bytes x.transport.number (x.body ++ slack) ++ x.padding := ⟨_, rfl⟩
  have htyped : 2 ≤ (wordBytes x.network.type ++ rest).length := by
    rw [List.length_append, wordBytes_length]
    omega
  have hbehind : 2 ≤ (x.tags.flatMap Tag.bytes ++ (wordBytes x.network.type ++ rest)).length := by
    rw [List.length_append]
    omega
  have htags := peel_tags x.tags (2 - x.tags.length) (wordBytes x.network.type ++ rest) htyped
  rw [Nat.sub_add_cancel x.tags_le, word_append_wordBytes,
    peel_untagged _ _ (isTag_type x.network)] at htags
  have hdrop : (wordBytes x.network.type ++ rest).drop 2 = rest := rfl
  have hnetwork := peelNetwork_bytes inetNtop x.transport.number (x.body ++ slack) x.padding
    { timestamp := timestamp, wireBytes := size } x.network h.fits
  have htransport := peelTransport_slack
    { timestamp := timestamp, wireBytes := size,
      sourceIp := inetNtop x.network.family x.network.source,
      destinationIp := inetNtop x.network.family x.network.destination } (body_le x) h.tcp
  have hports : word (x.body ++ slack) 0 = x.sourcePort ∧
      word (x.body ++ slack) 2 = x.destinationPort := by
    unfold Frame.body
    cases x.transport <;> exact ⟨be16_wordBytes _, be16_wordBytes _⟩
  rw [dissect_layers, ← h.bytes, layout, ← hrest,
    layers_behind inetNtop _ _ size timestamp x.addresses.size hbehind, htags, hdrop, layersBehind,
    hrest, hnetwork]
  simp only [layersAbove, layersPayload, hports]
  rw [show peelTransport ⟨x.transport.number, x.body ++ slack, true⟩ _ = _ from htransport]
  simp only [if_true]
  rw [Frame.metadata]
  cases hx : x.transport with
  | tcp header =>
    rw [nameOf_tcp x.payload rfl rfl header x.sourcePort x.destinationPort]
  | udp checksum =>
    rw [nameOf_udp x.payload rfl rfl checksum]
    rfl

/-- Where an application is named, each layer was found, and the payload to its end. -/
theorem packet_of_known {found : PacketMetadata × Option Packet} (hblank : Blank found.1)
    (hknown : (layersAbove found).application ≠ .unknown) :
    ∃ k s, found.2 = some k ∧ (peelTransport k found.1).2 = some s ∧ s.complete = true := by
  obtain ⟨q, packet⟩ := found
  cases packet with
  | none => exact absurd hblank.application hknown
  | some k =>
    simp only [layersAbove] at hknown
    cases htransport : (peelTransport k q).2 with
    | none =>
      rw [layersPayload_none htransport] at hknown
      exact absurd hblank.application hknown
    | some s =>
      rw [layersPayload_some htransport] at hknown
      cases hcomplete : s.complete with
      | false =>
        rw [hcomplete] at hknown
        exact absurd hblank.application hknown
      | true => exact ⟨k, s, rfl, htransport, hcomplete⟩

theorem carries_of_dissect {inetNtop : InetNtop} {b : Bytes} {size : UInt32} {timestamp : Int}
    {p : PacketMetadata} (h : dissect inetNtop b size timestamp = .ok p)
    (hknown : p.application ≠ .unknown) : ∃ x slack, Carries x slack b := by
  rw [dissect_layers, Except.ok.injEq] at h
  subst h
  unfold layers at hknown
  dsimp only at hknown
  split at hknown
  · exact absurd rfl hknown
  · next hlength =>
    cases hpeel : peelTags 2 (word b 12) (b.drop 14) with
    | none =>
      rw [hpeel] at hknown
      exact absurd rfl hknown
    | some found =>
      obtain ⟨type, behind⟩ := found
      rw [hpeel] at hknown
      simp only [layersBehind] at hknown
      obtain ⟨k, s, hnetwork, htransport, hcomplete⟩ := packet_of_known
        (peelNetwork_blank inetNtop type behind ⟨rfl, rfl, rfl, rfl⟩) hknown
      obtain ⟨htcomplete, t, slack, hnumber, hbody, htcp⟩ :=
        transport_of_peel (Prod.ext rfl htransport) hcomplete
      obtain ⟨network, padding, rfl, hbehind, hfits⟩ :=
        network_of_peel (Prod.ext rfl hnetwork) htcomplete
      obtain ⟨tags, htags, hrest⟩ := tags_of_peel hpeel
      generalize word k.body 0 = sourcePort at hbody
      generalize word k.body 2 = destinationPort at hbody
      have hshorter : network.counted
          (t.bytes sourcePort destinationPort s.content).length ≤ 65535 := by
        have hlonger : (t.bytes sourcePort destinationPort s.content).length ≤ k.body.length := by
          rw [hbody, List.length_append]
          omega
        cases network with
        | ipv4 header =>
          simp only [Network.counted] at hfits ⊢
          omega
        | ipv6 header => exact Nat.le_trans hlonger hfits
      have htype : b.drop 12 = wordBytes (word b 12) ++ b.drop 14 := by
        have hfirst := take_getD (n := 2) (l := b.drop 12) (by rw [List.length_drop]; omega)
        rw [wordBytes_word]
        conv_lhs => rw [split_at 12 2, hfirst]
        simp [List.range_succ]
      refine ⟨⟨⟨b.take 12, by rw [List.length_take]; omega⟩, tags, network, t, sourcePort,
        destinationPort, s.content, padding, htags, hshorter⟩, slack, ?_, htcp, ?_⟩
      · dsimp only [layout, Frame.body]
        rw [← hbody, ← hnumber, ← hbehind, ← hrest, ← htype, List.take_append_drop]
      · dsimp only [Frame.body]
        rwa [← hbody]

/-- **What is recognized is well formed.** The dissector names an application
exactly for the frames whose sender put one in. Every byte of the buffer is then
accounted for, every length in it is the one of what it counts, and the report is
what went into the frame. -/
theorem recognized_iff (inetNtop : InetNtop) (b : Bytes) (size : UInt32) (timestamp : Int)
    (p : PacketMetadata) :
    dissect inetNtop b size timestamp = .ok p ∧ p.application ≠ .unknown ↔
      ∃ x slack, Carries x slack b ∧ p = x.metadata inetNtop size timestamp ∧
        reference x.transport x.sourcePort x.destinationPort x.payload ≠ .unknown := by
  constructor
  · rintro ⟨h, hknown⟩
    obtain ⟨x, slack, hcarries⟩ := carries_of_dissect h hknown
    have hp : p = x.metadata inetNtop size timestamp := by
      rw [dissect_carries hcarries, Except.ok.injEq] at h
      exact h.symm
    exact ⟨x, slack, hcarries, hp, by rwa [hp] at hknown⟩
  · rintro ⟨x, slack, hcarries, rfl, hreference⟩
    exact ⟨dissect_carries hcarries inetNtop size timestamp, hreference⟩

end Magicbox.Guarantees.FrameDecoding
