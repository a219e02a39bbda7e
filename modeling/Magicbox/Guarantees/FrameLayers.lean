import Magicbox.Source.Capture

/-!
# A frame, layer by layer

The dissector works with offsets into one buffer. What it computes is simpler:
each layer looks at the bytes behind the previous one and hands on the bytes it
encloses. `layers` says so without an offset, and `dissect_layers` shows that
the dissector computes it and reads nothing outside the captured bytes.
-/

set_option autoImplicit false

namespace Magicbox.Guarantees.FrameLayers
open Source.Capture

/-! ## The layers -/

def word (l : Bytes) (i : Nat) : UInt16 := be16 (l.getD i 0) (l.getD (i + 1) 0)

/-- The type and the bytes behind at most `depth` tags. -/
def peelTags : Nat → UInt16 → Bytes → Option (UInt16 × Bytes)
  | 0, type, rest => some (type, rest)
  | depth + 1, type, rest =>
    if isTag type then
      if rest.length < 4 then none else peelTags depth (word rest 2) (rest.drop 4)
    else some (type, rest)

/-- The captured part of what an IP header encloses. -/
structure Packet where
  protocol : UInt8
  body : Bytes
  complete : Bool
  deriving DecidableEq, Repr

def headerLength (nibble : UInt8) : Nat := nibble.toNat * 4

def peelIpv4 (inetNtop : InetNtop) (rest : Bytes) (p : PacketMetadata) :
    PacketMetadata × Option Packet :=
  let header := headerLength (rest.getD 0 0 &&& 15)
  let total := (word rest 2).toNat
  if rest.length < 20 ∨ rest.getD 0 0 >>> 4 ≠ 4 ∨ header < 20 ∨ total < header ∨
      rest.length < header then (p, none)
  else
    let p := { p with sourceIp := inetNtop .inet ((rest.drop 12).take 4),
                      destinationIp := inetNtop .inet ((rest.drop 16).take 4) }
    if word rest 6 &&& 0x3fff ≠ 0 then (p, none)
    else (p, some ⟨rest.getD 9 0, (rest.take total).drop header, total ≤ rest.length⟩)

def peelIpv6 (inetNtop : InetNtop) (rest : Bytes) (p : PacketMetadata) :
    PacketMetadata × Option Packet :=
  let size := (word rest 4).toNat
  if rest.length < 40 ∨ rest.getD 0 0 >>> 4 ≠ 6 then (p, none)
  else
    ({ p with sourceIp := inetNtop .inet6 ((rest.drop 8).take 16),
              destinationIp := inetNtop .inet6 ((rest.drop 24).take 16) },
      some ⟨rest.getD 6 0, (rest.take (40 + size)).drop 40, 40 + size ≤ rest.length⟩)

def peelNetwork (inetNtop : InetNtop) (type : UInt16) (rest : Bytes) (p : PacketMetadata) :
    PacketMetadata × Option Packet :=
  if type = 0x0800 then peelIpv4 inetNtop rest p
  else if type = 0x86dd then peelIpv6 inetNtop rest p
  else (p, none)

/-- The captured part of a transport payload. -/
structure Payload where
  content : Bytes
  complete : Bool
  deriving DecidableEq, Repr

def peelTransport (k : Packet) (p : PacketMetadata) : PacketMetadata × Option Payload :=
  if k.protocol = 6 then
    let header := headerLength (k.body.getD 12 0 >>> 4)
    if k.body.length < 20 ∨ header < 20 ∨ k.body.length < header then
      ({ p with protocol := .tcp }, none)
    else ({ p with protocol := .tcp }, some ⟨k.body.drop header, k.complete⟩)
  else if k.protocol = 17 then
    let length := (word k.body 4).toNat
    if k.body.length < 8 ∨ length < 8 then ({ p with protocol := .udp }, none)
    else ({ p with protocol := .udp },
      some ⟨(k.body.take length).drop 8, k.complete && decide (length ≤ k.body.length)⟩)
  else if k.protocol = 1 ∨ k.protocol = 58 then ({ p with protocol := .icmp }, none)
  else (p, none)

def looksTls (content : Bytes) : Bool :=
  6 ≤ content.length && content.getD 0 0 == 22 && content.getD 1 0 == 3 &&
    content.getD 2 0 ≤ 4 && (content.getD 5 0 == 1 || content.getD 5 0 == 2)

def looksDns (content : Bytes) (p : PacketMetadata) : Bool :=
  (portOf p.sourcePort == 53 || portOf p.destinationPort == 53) && 12 ≤ content.length &&
    content.getD 2 0 &&& 0x78 == 0 && word content 4 > 0

/-- What the code calls the application of a complete payload. -/
def nameOf (content : Bytes) (p : PacketMetadata) : Application :=
  if p.protocol == .tcp then
    if looksTls content then .tls
    else if httpPrefixes.any (·.isPrefixOf content) then .http
    else p.application
  else if looksDns content p then .dns
  else p.application

def layersPayload (k : Packet) (p : PacketMetadata) : PacketMetadata :=
  match peelTransport k p with
  | (p, none) => p
  | (p, some s) =>
    let p := { p with sourcePort := some (word k.body 0),
                      destinationPort := some (word k.body 2) }
    if s.complete then { p with application := nameOf s.content p } else p

/-- The layers above the network layer, if it encloses a packet. -/
def layersAbove : PacketMetadata × Option Packet → PacketMetadata
  | (p, none) => p
  | (p, some k) => layersPayload k p

/-- The layers behind the tags, if the tags are whole. -/
def layersBehind (inetNtop : InetNtop) (found : Option (UInt16 × Bytes)) (p : PacketMetadata) :
    PacketMetadata :=
  match found with
  | none => p
  | some (type, rest) => layersAbove (peelNetwork inetNtop type rest p)

def layers (inetNtop : InetNtop) (b : Bytes) (size : UInt32) (timestamp : Int) : PacketMetadata :=
  let p : PacketMetadata := { timestamp := timestamp, wireBytes := size }
  if b.length < 14 then p
  else layersBehind inetNtop (peelTags 2 (word b 12) (b.drop 14)) p

/-! ## The reads -/

section Reads
variable {b : Bytes} {o i n : Nat}

theorem byteAt_ok (h : o + i < b.length) : byteAt b (o + i) = .ok ((b.drop o).getD i 0) := by
  unfold byteAt
  rw [List.getElem?_eq_getElem h]
  simp [List.getD, List.getElem?_drop, List.getElem?_eq_getElem h]

theorem u16_ok (h : o + i + 1 < b.length) : u16 b (o + i) = .ok (word (b.drop o) i) := by
  unfold u16
  rw [byteAt_ok (by omega), Nat.add_assoc, byteAt_ok (by omega)]
  rfl

theorem addressAt_ok (h : o + i + n ≤ b.length) :
    addressAt b (o + i) n = .ok (((b.drop o).drop i).take n) := by
  rw [addressAt, if_pos h, List.drop_drop]

/-- The bytes between two offsets, cut at the end of the buffer. -/
theorem take_min_drop (b : Bytes) (o t h : Nat) :
    (b.take (min b.length (o + t))).drop (o + h) = ((b.drop o).take t).drop h := by
  have hmin : b.take (min b.length (o + t)) = b.take (o + t) := by
    rcases Nat.le_total b.length (o + t) with h | h
    · rw [Nat.min_eq_left h, List.take_length, List.take_of_length_le h]
    · rw [Nat.min_eq_right h]
  rw [hmin, List.drop_take, List.drop_take, List.drop_drop, Nat.add_sub_add_left]

theorem bind_ok {α β : Type} (a : α) (f : α → Except Fault β) : (Except.ok a >>= f) = f a := rfl

end Reads

/-! ## The dissector computes the layers -/

theorem skipTags_eq (b : Bytes) (depth : Nat) (type : UInt16) (o : Nat) :
    ∃ r, skipTags b depth type o = .ok r ∧
      r.map (fun x => (x.1, b.drop x.2)) = peelTags depth type (b.drop o) := by
  induction depth generalizing type o with
  | zero => exact ⟨_, rfl, rfl⟩
  | succ depth ih =>
    unfold skipTags peelTags
    cases isTag type with
    | false => exact ⟨_, rfl, rfl⟩
    | true =>
      rw [if_pos rfl, if_pos rfl, List.length_drop]
      by_cases h : b.length < o + 4
      · rw [if_pos h, if_pos (by omega)]
        exact ⟨_, rfl, rfl⟩
      · rw [if_neg h, if_neg (by omega), u16_ok (by omega), bind_ok, List.drop_drop]
        exact ih _ _

/-- The datagram that the dissector goes on with. -/
def packetOf (b : Bytes) (d : Datagram) : Packet :=
  ⟨d.protocol, (b.take d.finish).drop d.offset, d.complete⟩

/-- Its bounds are in order and inside the buffer. -/
def Inside (b : Bytes) (d : Datagram) : Prop := d.offset ≤ d.finish ∧ d.finish ≤ b.length

/-- What a network layer of the dissector agrees on with the layers. -/
def Agrees (b : Bytes) (run : Except Fault (PacketMetadata × Option Datagram))
    (peeled : PacketMetadata × Option Packet) : Prop :=
  ∃ r, run = .ok r ∧ (r.1, r.2.map (packetOf b)) = peeled ∧ ∀ d, r.2 = some d → Inside b d

theorem agrees_none (b : Bytes) (p : PacketMetadata) : Agrees b (pure (p, none)) (p, none) :=
  ⟨_, rfl, rfl, by simp⟩

theorem dissectIpv4_eq (inetNtop : InetNtop) (b : Bytes) (o : Nat) (p : PacketMetadata) :
    Agrees b (dissectIpv4 inetNtop b o p) (peelIpv4 inetNtop (b.drop o) p) := by
  unfold dissectIpv4 peelIpv4
  have hlength : (b.drop o).length = b.length - o := List.length_drop
  by_cases h : b.length < o + 20
  · rw [if_pos h, if_pos (.inl (by omega))]
    exact agrees_none b p
  · have hfirst : byteAt b o = .ok ((b.drop o).getD 0 0) := byteAt_ok (i := 0) (by omega)
    have htotal : u16 b (o + 2) = .ok (word (b.drop o) 2) := u16_ok (by omega)
    have hsource := @addressAt_ok b o 12 4 (by omega)
    have hdestination := @addressAt_ok b o 16 4 (by omega)
    have hprotocol : byteAt b (o + 9) = .ok ((b.drop o).getD 9 0) := byteAt_ok (by omega)
    have hfragment : u16 b (o + 6) = .ok (word (b.drop o) 6) := u16_ok (by omega)
    rw [if_neg h]
    simp only [hfirst, htotal, hsource, hdestination, hprotocol, hfragment, bind_ok, bne_iff_ne,
      Bool.or_eq_true, decide_eq_true_eq]
    have hbody := take_min_drop b o
    generalize b.drop o = rest at *
    by_cases hversion : rest.getD 0 0 >>> 4 = 4
    · rw [if_neg (not_not_intro hversion)]
      generalize hheader : headerLength (rest.getD 0 0 &&& 15) = header
      have hcode : (rest.getD 0 0 &&& 15).toNat * 4 = header := hheader
      rw [hcode]
      by_cases hgood : header < 20 ∨ (word rest 2).toNat < header ∨ rest.length < header
      · rw [if_pos (by omega), if_pos (.inr (.inr hgood))]
        exact agrees_none b p
      · have hpeel : ¬ (rest.length < 20 ∨ rest.getD 0 0 >>> 4 ≠ 4 ∨ header < 20 ∨
            (word rest 2).toNat < header ∨ rest.length < header) := by
          rintro (hshort | hother | hbad)
          · omega
          · exact hother hversion
          · exact hgood hbad
        rw [if_neg (by omega), if_neg hpeel]
        by_cases hwhole : word rest 6 &&& 0x3fff = 0
        · rw [if_neg (not_not_intro hwhole), if_neg (not_not_intro hwhole)]
          refine ⟨_, rfl, ?_, fun d hd => ?_⟩
          · have hcomplete : o + (word rest 2).toNat ≤ b.length ↔
                (word rest 2).toNat ≤ rest.length := by omega
            simp only [Option.map_some, packetOf, hbody, hcomplete]
          · cases hd
            exact ⟨by simp only; omega, Nat.min_le_left _ _⟩
        · rw [if_pos hwhole, if_pos hwhole]
          exact agrees_none b _
    · rw [if_pos hversion, if_pos (.inr (.inl hversion))]
      exact agrees_none b p

theorem dissectIpv6_eq (inetNtop : InetNtop) (b : Bytes) (o : Nat) (p : PacketMetadata) :
    Agrees b (dissectIpv6 inetNtop b o p) (peelIpv6 inetNtop (b.drop o) p) := by
  unfold dissectIpv6 peelIpv6
  have hlength : (b.drop o).length = b.length - o := List.length_drop
  by_cases h : b.length < o + 40
  · rw [if_pos h, if_pos (.inl (by omega))]
    exact agrees_none b p
  · have hfirst : byteAt b o = .ok ((b.drop o).getD 0 0) := byteAt_ok (i := 0) (by omega)
    have hsize : u16 b (o + 4) = .ok (word (b.drop o) 4) := u16_ok (by omega)
    have hsource := @addressAt_ok b o 8 16 (by omega)
    have hdestination := @addressAt_ok b o 24 16 (by omega)
    have hprotocol : byteAt b (o + 6) = .ok ((b.drop o).getD 6 0) := byteAt_ok (by omega)
    rw [if_neg h]
    simp only [hfirst, hsize, hsource, hdestination, hprotocol, bind_ok, bne_iff_ne]
    have hbody := take_min_drop b o
    generalize b.drop o = rest at *
    by_cases hversion : rest.getD 0 0 >>> 4 = 6
    · have hpeel : ¬ (rest.length < 40 ∨ rest.getD 0 0 >>> 4 ≠ 6) := by
        rintro (hshort | hother)
        · omega
        · exact hother hversion
      rw [if_neg (not_not_intro hversion), if_neg hpeel]
      refine ⟨_, rfl, ?_, fun d hd => ?_⟩
      · have hcomplete : o + (40 + (word rest 4).toNat) ≤ b.length ↔
            40 + (word rest 4).toNat ≤ rest.length := by omega
        simp only [Option.map_some, packetOf, Nat.add_assoc, hbody, hcomplete]
      · cases hd
        exact ⟨by simp only; omega, Nat.min_le_left _ _⟩
    · rw [if_pos hversion, if_pos (.inr hversion)]
      exact agrees_none b p

theorem dissectNetwork_eq (inetNtop : InetNtop) (b : Bytes) (type : UInt16) (o : Nat)
    (p : PacketMetadata) :
    Agrees b (dissectNetwork inetNtop b type o p) (peelNetwork inetNtop type (b.drop o) p) := by
  unfold dissectNetwork peelNetwork
  simp only [beq_iff_eq]
  by_cases h4 : type = 0x0800
  · rw [if_pos h4, if_pos h4]
    exact dissectIpv4_eq inetNtop b o p
  · rw [if_neg h4, if_neg h4]
    by_cases h6 : type = 0x86dd
    · rw [if_pos h6, if_pos h6]
      exact dissectIpv6_eq inetNtop b o p
    · rw [if_neg h6, if_neg h6]
      exact agrees_none b p

/-- The payload that the dissector names an application for. -/
def payloadOf (b : Bytes) (s : Segment) : Payload :=
  ⟨(b.take s.finish).drop s.payload, s.complete⟩

def WithinBytes (b : Bytes) (s : Segment) : Prop := s.payload ≤ s.finish ∧ s.finish ≤ b.length

section Transport
variable {b : Bytes} {d : Datagram} {p : PacketMetadata} {i : Nat}

theorem packetOf_length (h : Inside b d) :
    (packetOf b d).body.length = d.finish - d.offset := by
  simp only [packetOf, List.length_drop, List.length_take]
  have := h.2
  omega

theorem packetOf_getD (h : Inside b d) (hi : d.offset + i < d.finish) :
    byteAt b (d.offset + i) = .ok ((packetOf b d).body.getD i 0) := by
  have hlast := h.2
  rw [byteAt_ok (by omega)]
  simp only [packetOf, List.getD, List.getElem?_drop, List.getElem?_take, if_pos hi]

theorem packetOf_word (h : Inside b d) (hi : d.offset + i + 1 < d.finish) :
    u16 b (d.offset + i) = .ok (word (packetOf b d).body i) := by
  unfold u16
  rw [packetOf_getD h (by omega), Nat.add_assoc, packetOf_getD h (by omega)]
  rfl

/-- What the transport layer of the dissector agrees on with the layers. -/
def AgreesPayload (b : Bytes) (d : Datagram)
    (run : Except Fault (PacketMetadata × Option Segment))
    (peeled : PacketMetadata × Option Payload) : Prop :=
  ∃ r, run = .ok r ∧ (r.1, r.2.map (payloadOf b)) = peeled ∧
    ∀ s, r.2 = some s → WithinBytes b s ∧ d.offset + 8 ≤ d.finish

theorem agreesPayload_none (b : Bytes) (d : Datagram) (p : PacketMetadata) :
    AgreesPayload b d (.ok (p, none)) (p, none) :=
  ⟨_, rfl, rfl, by simp⟩

theorem udp_body (b : Bytes) (d : Datagram) (n : Nat) :
    (b.take (min d.finish (d.offset + n))).drop (d.offset + 8) =
      ((packetOf b d).body.take n).drop 8 := by
  rw [packetOf, List.take_drop, List.take_take, List.drop_drop, Nat.min_comm]

theorem dissectTransport_eq (h : Inside b d) :
    AgreesPayload b d (dissectTransport b d p) (peelTransport (packetOf b d) p) := by
  have hlength := packetOf_length h
  have hprotocol : (packetOf b d).protocol = d.protocol := rfl
  have hcomplete : (packetOf b d).complete = d.complete := rfl
  obtain ⟨horder, hend⟩ := h
  unfold dissectTransport peelTransport
  rw [hprotocol, hcomplete]
  simp only [beq_iff_eq, Bool.or_eq_true]
  by_cases htcp : d.protocol = 6
  · rw [if_pos htcp, if_pos htcp]
    by_cases hshort : d.finish < d.offset + 20
    · rw [if_pos hshort, if_pos (.inl (by omega))]
      exact agreesPayload_none b d _
    · rw [if_neg hshort, packetOf_getD ⟨horder, hend⟩ (by omega), bind_ok]
      generalize hheader : headerLength ((packetOf b d).body.getD 12 0 >>> 4) = header
      have hcode : ((packetOf b d).body.getD 12 0 >>> 4).toNat * 4 = header := hheader
      simp only [hcode, decide_eq_true_eq]
      by_cases hbad : header < 20 ∨ (packetOf b d).body.length < header
      · rw [if_pos (by omega), if_pos (.inr hbad)]
        exact agreesPayload_none b d _
      · rw [if_neg (by omega), if_neg (by omega)]
        refine ⟨_, rfl, ?_, fun s hs => ?_⟩
        · simp only [Option.map_some, payloadOf, packetOf, List.drop_drop]
        · cases hs
          exact ⟨⟨by simp only; omega, hend⟩, by omega⟩
  · rw [if_neg htcp, if_neg htcp]
    by_cases hudp : d.protocol = 17
    · rw [if_pos hudp, if_pos hudp]
      by_cases hshort : d.finish < d.offset + 8
      · rw [if_pos hshort, if_pos (.inl (by omega))]
        exact agreesPayload_none b d _
      · rw [if_neg hshort, packetOf_word ⟨horder, hend⟩ (by omega), bind_ok]
        generalize (word (packetOf b d).body 4).toNat = size
        by_cases hbad : size < 8
        · rw [if_pos hbad, if_pos (.inr hbad)]
          exact agreesPayload_none b d _
        · rw [if_neg hbad, if_neg (by omega)]
          refine ⟨_, rfl, ?_, fun s hs => ?_⟩
          · have hwhole : d.offset + size ≤ d.finish ↔ size ≤ (packetOf b d).body.length := by
              omega
            simp only [Option.map_some, payloadOf, udp_body, hwhole]
          · cases hs
            exact ⟨⟨by simp only; omega, by simp only; omega⟩, by omega⟩
    · rw [if_neg hudp, if_neg hudp]
      by_cases hicmp : d.protocol = 1 ∨ d.protocol = 58
      · rw [if_pos hicmp, if_pos hicmp]
        exact agreesPayload_none b d _
      · rw [if_neg hicmp, if_neg hicmp]
        exact agreesPayload_none b d _

end Transport

/-! ## The application -/

section Classify
variable {b : Bytes} {s : Segment} {p : PacketMetadata} {i : Nat}

theorem payloadOf_getD (h : WithinBytes b s) (hi : s.payload + i < s.finish) :
    byteAt b (s.payload + i) = .ok ((payloadOf b s).content.getD i 0) := by
  have hlast := h.2
  rw [byteAt_ok (by omega)]
  simp only [payloadOf, List.getD, List.getElem?_drop, List.getElem?_take, if_pos hi]

theorem payloadOf_word (h : WithinBytes b s) (hi : s.payload + i + 1 < s.finish) :
    u16 b (s.payload + i) = .ok (word (payloadOf b s).content i) := by
  unfold u16
  rw [payloadOf_getD h (by omega), Nat.add_assoc, payloadOf_getD h (by omega)]
  rfl

theorem payloadOf_length (h : WithinBytes b s) :
    (payloadOf b s).content.length = s.finish - s.payload := by
  simp only [payloadOf, List.length_drop, List.length_take]
  have := h.2
  omega

theorem minus_ok (h : WithinBytes b s) : minus s.finish s.payload = .ok (s.finish - s.payload) :=
  if_pos h.1

/-- The view is the payload, and lies inside the buffer. -/
theorem viewAt_ok (h : WithinBytes b s) :
    viewAt b s.payload (s.finish - s.payload) = .ok (payloadOf b s).content := by
  obtain ⟨horder, hend⟩ := h
  rw [viewAt, if_pos (by omega)]
  simp only [payloadOf, List.drop_take]

theorem isTls_eq (h : WithinBytes b s) :
    isTls b (payloadOf b s).content s.payload = .ok (looksTls (payloadOf b s).content) := by
  have hlength := payloadOf_length h
  unfold isTls looksTls
  by_cases hshort : (payloadOf b s).content.length < 6
  · have hsix : ¬ 6 ≤ (payloadOf b s).content.length := by omega
    simp only [if_pos hshort, hsix, decide_false, Bool.false_and]
    rfl
  · have hsix : 6 ≤ (payloadOf b s).content.length := by omega
    have h0 : byteAt b s.payload = .ok ((payloadOf b s).content.getD 0 0) :=
      payloadOf_getD (i := 0) h (by omega)
    simp only [if_neg hshort, h0, payloadOf_getD (i := 1) h (by omega),
      payloadOf_getD (i := 2) h (by omega), payloadOf_getD (i := 5) h (by omega), bind_ok, hsix,
      decide_true, Bool.true_and]
    generalize (payloadOf b s).content.getD 0 0 = type
    generalize (payloadOf b s).content.getD 1 0 = major
    generalize (payloadOf b s).content.getD 2 0 = minor
    by_cases htype : type = 22
    · by_cases hmajor : major = 3
      · by_cases hminor : 4 < minor
        · simp [htype, hmajor, hminor, UInt8.not_le.mpr hminor, pure, Except.pure]
        · simp [htype, hmajor, hminor, UInt8.not_lt.mp hminor, pure, Except.pure]
      · simp [htype, hmajor, pure, Except.pure]
    · simp [htype, pure, Except.pure]

theorem isDns_eq (h : WithinBytes b s) :
    isDns b (payloadOf b s).content s.payload p = .ok (looksDns (payloadOf b s).content p) := by
  have hlength := payloadOf_length h
  unfold isDns looksDns
  cases hport : portOf p.sourcePort == 53 || portOf p.destinationPort == 53 with
  | false => rfl
  | true =>
    by_cases hshort : (payloadOf b s).content.length < 12
    · have htwelve : ¬ 12 ≤ (payloadOf b s).content.length := by omega
      simp only [if_pos hshort, htwelve, decide_false, Bool.true_and, Bool.false_and]
      rfl
    · have htwelve : 12 ≤ (payloadOf b s).content.length := by omega
      simp only [if_neg hshort, payloadOf_getD (i := 2) h (by omega),
        payloadOf_word (i := 4) h (by omega), bind_ok, htwelve, decide_true, Bool.true_and]
      generalize (payloadOf b s).content.getD 2 0 = flags
      generalize word (payloadOf b s).content 4 = questions
      by_cases hopcode : flags &&& 0x78 = 0
      · simp [hopcode, pure, Except.pure]
      · simp [hopcode, pure, Except.pure]

theorem classify_eq (h : WithinBytes b s) :
    classify b s p = .ok { p with application := nameOf (payloadOf b s).content p } := by
  unfold classify nameOf
  rw [minus_ok h, bind_ok, viewAt_ok h, bind_ok, isTls_eq h, isDns_eq h]
  by_cases htcp : p.protocol == .tcp
  · simp only [if_pos htcp, bind_ok]
    by_cases htls : looksTls (payloadOf b s).content
    · simp only [if_pos htls]
      split <;> rfl
    · simp only [if_neg htls]
      split <;> rfl
  · simp only [if_neg htcp, bind_ok]
    split <;> rfl

end Classify

/-! ## The whole dissector -/

theorem dissectPayload_eq {b : Bytes} {d : Datagram} (h : Inside b d) (p : PacketMetadata) :
    dissectPayload b d p = .ok (layersPayload (packetOf b d) p) := by
  obtain ⟨⟨p', segment⟩, hrun, hpeel, hwithin⟩ := @dissectTransport_eq b d p h
  unfold dissectPayload layersPayload
  rw [hrun, bind_ok, ← hpeel]
  cases segment with
  | none => rfl
  | some s =>
    obtain ⟨hs, hports⟩ := hwithin s rfl
    have hsource : u16 b d.offset = .ok (word (packetOf b d).body 0) :=
      packetOf_word (i := 0) h (by omega)
    have hdestination := @packetOf_word b d 2 h (by omega)
    simp only [hsource, hdestination, bind_ok, Option.map_some, classify_eq hs]
    cases hcomplete : s.complete with
    | false => simp only [payloadOf, hcomplete]; rfl
    | true => simp only [payloadOf, hcomplete]; rfl

/-- The dissector reads inside the captured bytes and reports their layers. -/
theorem dissect_layers (inetNtop : InetNtop) (b : Bytes) (size : UInt32) (timestamp : Int) :
    dissect inetNtop b size timestamp = .ok (layers inetNtop b size timestamp) := by
  unfold dissect layers layersBehind
  by_cases hshort : b.length < 14
  · simp only [if_pos hshort]
    rfl
  · have htype : u16 b 12 = .ok (word b 12) := u16_ok (o := 0) (i := 12) (by omega)
    obtain ⟨peeled, hrun, hpeel⟩ := skipTags_eq b 2 (word b 12) 14
    simp only [if_neg hshort, htype, bind_ok, hrun, ← hpeel]
    rcases peeled with _ | ⟨type, o⟩
    · rfl
    · obtain ⟨⟨p, datagram⟩, hnetwork, hpacket, hinside⟩ :=
        dissectNetwork_eq inetNtop b type o { timestamp := timestamp, wireBytes := size }
      simp only [Option.map_some, hnetwork, bind_ok, ← hpacket]
      cases datagram with
      | none => rfl
      | some d => exact dissectPayload_eq (hinside d rfl) p

/-- Whatever the bytes are, no read lies outside them, the payload view is in order and
inside them, and no subtraction goes below zero. -/
theorem dissect_in_bounds (inetNtop : InetNtop) (b : Bytes) (size : UInt32) (timestamp : Int)
    (fault : Fault) : dissect inetNtop b size timestamp ≠ .error fault := by
  rw [dissect_layers]
  intro h
  cases h

end Magicbox.Guarantees.FrameLayers
