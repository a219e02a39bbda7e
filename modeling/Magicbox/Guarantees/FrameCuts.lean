import Magicbox.Guarantees.FrameLayers

/-!
# Frames that were cut

A capture keeps a prefix of the frame. Each layer of a prefix is a prefix of
that layer, or it is missing. What the dissector reports of the prefix is
therefore part of what it reports of the frame, and it is all of it once the
prefix holds the datagram that the IP header announces.
-/

set_option autoImplicit false

namespace Magicbox.Guarantees.FrameCuts
open Source.Capture Guarantees.FrameLayers

/-- Each field of one report is missing or as in the other. -/
structure SaysLess (p q : PacketMetadata) : Prop where
  sourceIp : p.sourceIp = "" ∨ p.sourceIp = q.sourceIp
  destinationIp : p.destinationIp = "" ∨ p.destinationIp = q.destinationIp
  sourcePort : p.sourcePort = none ∨ p.sourcePort = q.sourcePort
  destinationPort : p.destinationPort = none ∨ p.destinationPort = q.destinationPort
  protocol : p.protocol = .other ∨ p.protocol = q.protocol
  application : p.application = .unknown ∨ p.application = q.application

theorem SaysLess.refl (p : PacketMetadata) : SaysLess p p :=
  ⟨.inr rfl, .inr rfl, .inr rfl, .inr rfl, .inr rfl, .inr rfl⟩

/-- The length of the datagram, as the header at the start of `rest` announces it. -/
def announced (type : UInt16) (rest : Bytes) : Option Nat :=
  if type = 0x0800 ∧ 4 ≤ rest.length then some (word rest 2).toNat
  else if type = 0x86dd ∧ 6 ≤ rest.length then some (40 + (word rest 4).toNat)
  else none

/-- The offset at which the IP datagram of a frame ends. -/
def datagramEnd (b : Bytes) : Option Nat :=
  if b.length < 14 then none
  else (peelTags 2 (word b 12) (b.drop 14)).bind fun x =>
    (announced x.1 x.2).map (b.length - x.2.length + ·)

/-! ## Prefixes of the bytes -/

section Prefixes
variable {l : Bytes} {i k : Nat}

theorem getD_take (h : i < k) : (l.take k).getD i 0 = l.getD i 0 := by
  simp only [List.getD, List.getElem?_take, if_pos h]

theorem word_take (h : i + 1 < k) : word (l.take k) i = word l i := by
  rw [word, word, getD_take (by omega), getD_take h]

end Prefixes

/-! ## Tags -/

theorem peelTags_length {depth : Nat} {type type' : UInt16} {rest behind : Bytes}
    (h : peelTags depth type rest = some (type', behind)) : behind.length ≤ rest.length := by
  induction depth generalizing type rest with
  | zero =>
    cases h
    omega
  | succ depth ih =>
    unfold peelTags at h
    split at h
    · split at h
      · cases h
      · have := ih h
        rw [List.length_drop] at this
        omega
    · cases h
      omega

theorem peelTags_take_none {depth : Nat} {type : UInt16} {rest : Bytes} (n : Nat)
    (h : peelTags depth type rest = none) : peelTags depth type (rest.take n) = none := by
  induction depth generalizing type rest n with
  | zero => cases h
  | succ depth ih =>
    unfold peelTags at h ⊢
    cases htag : isTag type with
    | false =>
      rw [htag, if_neg Bool.false_ne_true] at h
      cases h
    | true =>
      rw [htag, if_pos rfl] at h
      rw [if_pos rfl, List.length_take]
      by_cases hshort : min n rest.length < 4
      · rw [if_pos hshort]
      · rw [if_neg (by omega)] at h
        rw [if_neg hshort, word_take (by omega), List.drop_take]
        exact ih _ h

/-- The tags of a prefix are the tags of the bytes, as long as they are whole. -/
theorem peelTags_take {depth : Nat} {type type' : UInt16} {rest behind : Bytes} (n : Nat)
    (h : peelTags depth type rest = some (type', behind)) :
    peelTags depth type (rest.take n) =
      if rest.length - behind.length ≤ n then
        some (type', behind.take (n - (rest.length - behind.length)))
      else none := by
  induction depth generalizing type rest n with
  | zero =>
    cases h
    rw [Nat.sub_self, if_pos (Nat.zero_le n)]
    rfl
  | succ depth ih =>
    unfold peelTags at h ⊢
    cases htag : isTag type with
    | false =>
      rw [htag, if_neg Bool.false_ne_true] at h
      cases h
      rw [if_neg Bool.false_ne_true, Nat.sub_self, if_pos (Nat.zero_le n)]
      rfl
    | true =>
      rw [htag, if_pos rfl] at h
      by_cases hwhole : rest.length < 4
      · rw [if_pos hwhole] at h
        cases h
      · rw [if_neg hwhole] at h
        have hbehind := peelTags_length h
        rw [List.length_drop] at hbehind
        rw [if_pos rfl, List.length_take]
        by_cases hshort : min n rest.length < 4
        · rw [if_pos hshort, if_neg (by omega)]
        · rw [if_neg hshort, word_take (by omega), List.drop_take, ih (n - 4) h, List.length_drop]
          have hmoved : n - 4 - (rest.length - 4 - behind.length) =
              n - (rest.length - behind.length) := by omega
          rw [hmoved]
          by_cases hin : rest.length - behind.length ≤ n
          · rw [if_pos hin, if_pos (by omega)]
          · rw [if_neg hin, if_neg (by omega)]

/-! ## The network layer -/

/-- A packet that lost bytes at its end. A complete one lost none. -/
structure Cut (k₁ k₂ : Packet) : Prop where
  protocol : k₁.protocol = k₂.protocol
  body : ∃ n, k₁.body = k₂.body.take n
  complete : k₁.complete = true → k₁ = k₂

/-- The network layer of a prefix, against that of the bytes. -/
inductive CutNetwork (p : PacketMetadata) :
    PacketMetadata × Option Packet → PacketMetadata × Option Packet → Prop where
  | lost (whole : PacketMetadata × Option Packet) : CutNetwork p (p, none) whole
  | same (whole : PacketMetadata × Option Packet) : CutNetwork p whole whole
  | cut (p' : PacketMetadata) {k₁ k₂ : Packet} (h : Cut k₁ k₂) :
      CutNetwork p (p', some k₁) (p', some k₂)

/-- The bytes that a header encloses, in a prefix. -/
theorem take_enclosed (l : Bytes) (n total header : Nat) :
    ((l.take n).take total).drop header = ((l.take total).drop header).take (n - header) := by
  rw [List.take_take, Nat.min_comm, ← List.take_take, List.drop_take]

theorem take_enclosed_whole (l : Bytes) {n total : Nat} (h : total ≤ n) :
    (l.take n).take total = l.take total := by
  rw [List.take_take, Nat.min_eq_left h]

theorem decide_min {n total size : Nat} (h : total ≤ n) :
    decide (total ≤ min n size) = decide (total ≤ size) :=
  decide_eq_decide.mpr (by omega)

section Network
variable (inetNtop : InetNtop) (rest : Bytes) (p : PacketMetadata) (n : Nat)

/-- A prefix shows less of an IPv4 packet, and all of it if it has the announced length. -/
theorem peelIpv4_take :
    CutNetwork p (peelIpv4 inetNtop (rest.take n) p) (peelIpv4 inetNtop rest p) ∧
      ((word rest 2).toNat ≤ n →
        peelIpv4 inetNtop (rest.take n) p = peelIpv4 inetNtop rest p) := by
  have hlength : (rest.take n).length = min n rest.length := List.length_take
  by_cases hshort : (rest.take n).length < 20
  · rw [peelIpv4, if_pos (.inl hshort)]
    refine ⟨.lost _, fun hn => ?_⟩
    unfold peelIpv4
    by_cases hrest : rest.length < 20
    · rw [if_pos (.inl hrest)]
    · rw [if_pos (.inr (.inr (by omega)))]
  · have hn : 20 ≤ n := by omega
    have hsource : ((rest.take n).drop 12).take 4 = (rest.drop 12).take 4 := by
      rw [List.drop_take, take_enclosed_whole _ (by omega)]
    have hdestination : ((rest.take n).drop 16).take 4 = (rest.drop 16).take 4 := by
      rw [List.drop_take, take_enclosed_whole _ (by omega)]
    unfold peelIpv4
    simp only [getD_take (show 0 < n by omega), getD_take (show 9 < n by omega),
      word_take (show 2 + 1 < n by omega), word_take (show 6 + 1 < n by omega), hsource,
      hdestination, hlength]
    generalize headerLength (rest.getD 0 0 &&& 15) = header
    generalize (word rest 2).toNat = total
    by_cases hwhole : rest.length < 20 ∨ rest.getD 0 0 >>> 4 ≠ 4 ∨ header < 20 ∨
        total < header ∨ rest.length < header
    · have hcut : min n rest.length < 20 ∨ rest.getD 0 0 >>> 4 ≠ 4 ∨ header < 20 ∨
          total < header ∨ min n rest.length < header := by
        rcases hwhole with h | h | h
        · exact .inl (by omega)
        · exact .inr (.inl h)
        · exact .inr (.inr (by omega))
      rw [if_pos hcut, if_pos hwhole]
      exact ⟨.lost _, fun _ => rfl⟩
    · obtain ⟨hlong, hversion⟩ := not_or.mp hwhole
      obtain ⟨hversion, hheader⟩ := not_or.mp hversion
      rw [if_neg hwhole]
      by_cases hin : header ≤ n
      · have hcut : ¬ (min n rest.length < 20 ∨ rest.getD 0 0 >>> 4 ≠ 4 ∨ header < 20 ∨
            total < header ∨ min n rest.length < header) := by
          rintro (h | h | h)
          · omega
          · exact hversion h
          · omega
        rw [if_neg hcut]
        by_cases hfragment : word rest 6 &&& 0x3fff ≠ 0
        · rw [if_pos hfragment, if_pos hfragment]
          exact ⟨.same _, fun _ => rfl⟩
        · rw [if_neg hfragment, if_neg hfragment]
          refine ⟨.cut _ ⟨rfl, ⟨_, take_enclosed rest n total header⟩, fun hcomplete => ?_⟩,
            fun h => ?_⟩
          · have hn : total ≤ min n rest.length := of_decide_eq_true hcomplete
            rw [take_enclosed_whole rest (by omega : total ≤ n), decide_min (by omega)]
          · rw [take_enclosed_whole rest h, decide_min h]
      · rw [if_pos (.inr (.inr (by omega)))]
        exact ⟨.lost _, fun h => by omega⟩

theorem peelIpv6_take :
    CutNetwork p (peelIpv6 inetNtop (rest.take n) p) (peelIpv6 inetNtop rest p) ∧
      (40 + (word rest 4).toNat ≤ n →
        peelIpv6 inetNtop (rest.take n) p = peelIpv6 inetNtop rest p) := by
  have hlength : (rest.take n).length = min n rest.length := List.length_take
  by_cases hshort : (rest.take n).length < 40
  · rw [peelIpv6, if_pos (.inl hshort)]
    refine ⟨.lost _, fun hn => ?_⟩
    rw [peelIpv6, if_pos (.inl (by omega))]
  · have hn : 40 ≤ n := by omega
    have hsource : ((rest.take n).drop 8).take 16 = (rest.drop 8).take 16 := by
      rw [List.drop_take, take_enclosed_whole _ (by omega)]
    have hdestination : ((rest.take n).drop 24).take 16 = (rest.drop 24).take 16 := by
      rw [List.drop_take, take_enclosed_whole _ (by omega)]
    unfold peelIpv6
    simp only [getD_take (show 0 < n by omega), getD_take (show 6 < n by omega),
      word_take (show 4 + 1 < n by omega), hsource, hdestination, hlength]
    generalize 40 + (word rest 4).toNat = total
    by_cases hversion : rest.getD 0 0 >>> 4 ≠ 6
    · rw [if_pos (.inr hversion), if_pos (.inr hversion)]
      exact ⟨.lost _, fun _ => rfl⟩
    · have hcut : ¬ (min n rest.length < 40 ∨ rest.getD 0 0 >>> 4 ≠ 6) :=
        not_or.mpr ⟨by omega, hversion⟩
      have hwhole : ¬ (rest.length < 40 ∨ rest.getD 0 0 >>> 4 ≠ 6) :=
        not_or.mpr ⟨by omega, hversion⟩
      rw [if_neg hcut, if_neg hwhole]
      refine ⟨.cut _ ⟨rfl, ⟨_, take_enclosed rest n total 40⟩, fun hcomplete => ?_⟩,
        fun h => ?_⟩
      · have hn : total ≤ min n rest.length := of_decide_eq_true hcomplete
        rw [take_enclosed_whole rest (by omega : total ≤ n), decide_min (by omega)]
      · rw [take_enclosed_whole rest h, decide_min h]

theorem peelNetwork_take (type : UInt16) :
    CutNetwork p (peelNetwork inetNtop type (rest.take n) p)
        (peelNetwork inetNtop type rest p) ∧
      ∀ total, announced type rest = some total → total ≤ n →
        peelNetwork inetNtop type (rest.take n) p = peelNetwork inetNtop type rest p := by
  unfold peelNetwork announced
  by_cases h4 : type = 0x0800
  · obtain ⟨hcut, hwhole⟩ := peelIpv4_take inetNtop rest p n
    rw [if_pos h4, if_pos h4]
    refine ⟨hcut, fun total htotal hn => hwhole ?_⟩
    rw [h4] at htotal
    split at htotal
    · cases htotal
      exact hn
    · simp only [if_neg (show ¬ ((0x0800 : UInt16) = 0x86dd ∧ 6 ≤ rest.length) by simp)] at htotal
      cases htotal
  · rw [if_neg h4, if_neg h4]
    by_cases h6 : type = 0x86dd
    · obtain ⟨hcut, hwhole⟩ := peelIpv6_take inetNtop rest p n
      rw [if_pos h6, if_pos h6]
      refine ⟨hcut, fun total htotal hn => hwhole ?_⟩
      rw [if_neg (fun h => h4 h.1)] at htotal
      split at htotal
      · cases htotal
        exact hn
      · cases htotal
    · rw [if_neg h6, if_neg h6]
      exact ⟨.same _, fun _ _ _ => rfl⟩

end Network

/-! ## The transport layer -/

def protocolOf (number : UInt8) (p : PacketMetadata) : Protocol :=
  if number = 6 then .tcp
  else if number = 17 then .udp
  else if number = 1 ∨ number = 58 then .icmp
  else p.protocol

/-- Before the ports, the transport layer only names the protocol. -/
theorem peelTransport_report (k : Packet) (p : PacketMetadata) :
    (peelTransport k p).1 = { p with protocol := protocolOf k.protocol p } := by
  unfold peelTransport protocolOf
  by_cases htcp : k.protocol = 6
  · simp only [if_pos htcp]
    split <;> rfl
  · simp only [if_neg htcp]
    by_cases hudp : k.protocol = 17
    · simp only [if_pos hudp]
      split <;> rfl
    · simp only [if_neg hudp]
      split <;> rfl

/-- A packet that was cut has a payload only if it has one uncut. -/
theorem peelTransport_cut {k₁ k₂ : Packet} (h : Cut k₁ k₂) {p : PacketMetadata} {s₁ : Payload}
    (hs : (peelTransport k₁ p).2 = some s₁) :
    (s₁.complete = true → k₁.complete = true) ∧ 8 ≤ k₁.body.length ∧
      ∃ s₂, (peelTransport k₂ p).2 = some s₂ := by
  obtain ⟨n, hbody⟩ := h.body
  have hlength : k₁.body.length = min n k₂.body.length := by rw [hbody, List.length_take]
  unfold peelTransport at hs ⊢
  rw [← h.protocol]
  by_cases htcp : k₁.protocol = 6
  · simp only [if_pos htcp] at hs ⊢
    split at hs
    · cases hs
    · rename_i hlong
      cases hs
      have hheader : k₁.body.getD 12 0 = k₂.body.getD 12 0 := by
        rw [hbody, getD_take (by omega)]
      rw [hheader] at hlong
      rw [if_neg (by omega)]
      exact ⟨id, by omega, _, rfl⟩
  · simp only [if_neg htcp] at hs ⊢
    by_cases hudp : k₁.protocol = 17
    · simp only [if_pos hudp] at hs ⊢
      split at hs
      · cases hs
      · rename_i hlong
        cases hs
        have hannounced : word k₁.body 4 = word k₂.body 4 := by
          rw [hbody, word_take (by omega)]
        rw [hannounced] at hlong
        rw [if_neg (by omega)]
        refine ⟨fun hcomplete => ?_, by omega, _, rfl⟩
        exact (Bool.and_eq_true _ _ ▸ hcomplete).1
    · simp only [if_neg hudp] at hs
      split at hs <;> cases hs

/-! ## The report -/

theorem layersPayload_none {k : Packet} {p : PacketMetadata} (h : (peelTransport k p).2 = none) :
    layersPayload k p = { p with protocol := protocolOf k.protocol p } := by
  rw [← peelTransport_report, layersPayload]
  split
  · rename_i hpeel
    rw [hpeel]
  · rename_i hpeel
    rw [hpeel] at h
    cases h

theorem layersPayload_some {k : Packet} {p : PacketMetadata} {s : Payload}
    (h : (peelTransport k p).2 = some s) :
    layersPayload k p =
      let p : PacketMetadata := { p with
        protocol := protocolOf k.protocol p
        sourcePort := some (word k.body 0)
        destinationPort := some (word k.body 2) }
      if s.complete then { p with application := nameOf s.content p } else p := by
  have hreport := peelTransport_report k p
  rw [layersPayload]
  split
  · rename_i hpeel
    rw [hpeel] at h
    cases h
  · rename_i p' s' hpeel
    rw [hpeel] at h hreport
    cases h
    rw [show p' = _ from hreport]

/-- What is still to be reported once the network layer is. -/
structure Blank (p : PacketMetadata) : Prop where
  sourcePort : p.sourcePort = none
  destinationPort : p.destinationPort = none
  protocol : p.protocol = .other
  application : p.application = .unknown

theorem layersPayload_report (k : Packet) (p : PacketMetadata) :
    (layersPayload k p).sourceIp = p.sourceIp ∧
      (layersPayload k p).destinationIp = p.destinationIp ∧
      (layersPayload k p).protocol = protocolOf k.protocol p := by
  cases hs : (peelTransport k p).2 with
  | none =>
    rw [layersPayload_none hs]
    exact ⟨rfl, rfl, rfl⟩
  | some s =>
    rw [layersPayload_some hs]
    cases s.complete <;> exact ⟨rfl, rfl, rfl⟩

/-- Of a cut packet the application is unknown, and the rest is what it is uncut. -/
theorem layersPayload_cut {k₁ k₂ : Packet} (h : Cut k₁ k₂) {p : PacketMetadata} (hp : Blank p) :
    SaysLess (layersPayload k₁ p) (layersPayload k₂ p) := by
  cases hcomplete : k₁.complete with
  | true =>
    rw [h.complete hcomplete]
    exact .refl _
  | false =>
    obtain ⟨hsource, hdestination, hprotocol⟩ := layersPayload_report k₂ p
    cases hs : (peelTransport k₁ p).2 with
    | none =>
      rw [layersPayload_none hs, h.protocol]
      exact ⟨.inr hsource.symm, .inr hdestination.symm, .inl hp.sourcePort,
        .inl hp.destinationPort, .inr hprotocol.symm, .inl hp.application⟩
    | some s₁ =>
      obtain ⟨hwhole, hlength, s₂, hs₂⟩ := peelTransport_cut h hs
      have hcut : s₁.complete = false := by
        cases hs₁ : s₁.complete with
        | false => rfl
        | true =>
          have := hwhole hs₁
          rw [hcomplete] at this
          cases this
      obtain ⟨n, hbody⟩ := h.body
      rw [hbody, List.length_take] at hlength
      have hports : (layersPayload k₂ p).sourcePort = some (word k₂.body 0) ∧
          (layersPayload k₂ p).destinationPort = some (word k₂.body 2) := by
        rw [layersPayload_some hs₂]
        cases s₂.complete <;> exact ⟨rfl, rfl⟩
      rw [layersPayload_some hs, hcut, h.protocol, hbody, word_take (by omega),
        word_take (by omega)]
      exact ⟨.inr hsource.symm, .inr hdestination.symm, .inr hports.1.symm, .inr hports.2.symm,
        .inr hprotocol.symm, .inl hp.application⟩

/-- The network layer leaves everything but the addresses to be reported. -/
theorem peelNetwork_blank (inetNtop : InetNtop) (type : UInt16) (rest : Bytes)
    {p : PacketMetadata} (hp : Blank p) : Blank (peelNetwork inetNtop type rest p).1 := by
  obtain ⟨hsource, hdestination, hprotocol, happlication⟩ := hp
  unfold peelNetwork peelIpv4 peelIpv6
  dsimp only
  repeat' split
  all_goals exact ⟨hsource, hdestination, hprotocol, happlication⟩

/-- A report that is empty but for the time and the size. -/
theorem saysLess_empty (size : UInt32) (timestamp : Int) (q : PacketMetadata) :
    SaysLess { timestamp := timestamp, wireBytes := size } q :=
  ⟨.inl rfl, .inl rfl, .inl rfl, .inl rfl, .inl rfl, .inl rfl⟩

theorem layersBehind_cut (inetNtop : InetNtop) (type : UInt16) (rest : Bytes) (n : Nat)
    (size : UInt32) (timestamp : Int) :
    let p : PacketMetadata := { timestamp := timestamp, wireBytes := size }
    SaysLess (layersBehind inetNtop (some (type, rest.take n)) p)
      (layersBehind inetNtop (some (type, rest)) p) := by
  intro p
  have hblank : Blank p := ⟨rfl, rfl, rfl, rfl⟩
  have hleft := peelNetwork_blank inetNtop type rest hblank
  have hcut := (peelNetwork_take inetNtop rest p n type).1
  simp only [layersBehind]
  generalize peelNetwork inetNtop type (rest.take n) p = short at hcut
  generalize peelNetwork inetNtop type rest p = full at hcut hleft
  cases hcut with
  | lost => exact saysLess_empty size timestamp _
  | same => exact .refl _
  | cut p' h => exact layersPayload_cut h hleft

theorem layers_take (inetNtop : InetNtop) {b : Bytes} (n : Nat) (size : UInt32)
    (timestamp : Int) (h : 14 ≤ b.length) :
    layers inetNtop (b.take n) size timestamp =
      let p : PacketMetadata := { timestamp := timestamp, wireBytes := size }
      if n < 14 then p
      else layersBehind inetNtop (peelTags 2 (word b 12) ((b.drop 14).take (n - 14))) p := by
  rw [layers, List.length_take]
  by_cases hn : n < 14
  · rw [if_pos (by omega), if_pos hn]
  · rw [if_neg (by omega), if_neg hn, word_take (by omega), List.drop_take]

/-- A cut frame is reported in part; with its datagram in the prefix, in full. -/
theorem dissect_cut (inetNtop : InetNtop) (b : Bytes) (n : Nat) (size : UInt32)
    (timestamp : Int) :
    ∃ p q, dissect inetNtop (b.take n) size timestamp = .ok p ∧
      dissect inetNtop b size timestamp = .ok q ∧ SaysLess p q ∧
      ∀ last, datagramEnd b = some last → last ≤ n → p = q := by
  refine ⟨_, _, dissect_layers .., dissect_layers .., ?_⟩
  unfold datagramEnd
  by_cases hb : b.length < 14
  · have hcut : (b.take n).length < 14 := by
      rw [List.length_take]
      omega
    rw [layers, layers, if_pos hb, if_pos hcut, if_pos hb]
    exact ⟨.refl _, fun _ _ _ => rfl⟩
  · have htake := layers_take inetNtop n size timestamp (Nat.le_of_not_lt hb)
    rw [htake, layers, if_neg hb, if_neg hb]
    have hrest : (b.drop 14).length = b.length - 14 := List.length_drop
    cases hpeel : peelTags 2 (word b 12) (b.drop 14) with
    | none =>
      rw [peelTags_take_none (n - 14) hpeel]
      refine ⟨?_, fun last hlast => by cases hlast⟩
      split <;> exact saysLess_empty size timestamp _
    | some found =>
      obtain ⟨type, behind⟩ := found
      have hbehind := peelTags_length hpeel
      rw [peelTags_take (n - 14) hpeel]
      simp only [Option.bind_some, Option.map_eq_some_iff]
      by_cases hin : b.length - behind.length ≤ n
      · rw [if_neg (by omega), if_pos (by omega)]
        refine ⟨layersBehind_cut inetNtop type behind _ size timestamp, ?_⟩
        rintro last ⟨total, htotal, rfl⟩ hlast
        have hwhole := (peelNetwork_take inetNtop behind
          { timestamp := timestamp, wireBytes := size }
          (n - 14 - ((b.drop 14).length - behind.length)) type).2 total htotal (by omega)
        simp only [layersBehind, hwhole]
      · refine ⟨?_, ?_⟩
        · by_cases hn : n < 14
          · rw [if_pos hn]
            exact saysLess_empty size timestamp _
          · rw [if_neg hn, if_neg (by omega)]
            exact saysLess_empty size timestamp _
        · rintro last ⟨total, -, rfl⟩ hlast
          omega

end Magicbox.Guarantees.FrameCuts
