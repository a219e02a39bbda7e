import Magicbox.Guarantees.FrameTags

/-!
# Well-formed frames

`Frame` is what a sender puts into an Ethernet frame with IPv4 or IPv6 and TCP
or UDP; `Frame.encode` lays it out. The lengths and the header sizes follow
from the fields, so a frame cannot contradict itself. What the dissector makes
of the layout is what the sender put in, and the application it names is that
of `reference`, which looks at the transport, the ports and the payload alone.
-/

set_option autoImplicit false

namespace Magicbox.Guarantees.FrameEncoding
open Source.Capture Guarantees.FrameLayers Guarantees.FrameTags

/-! ## Frames -/

structure Octets (n : Nat) where
  bytes : Bytes
  size : bytes.length = n

/-- What a header carries behind its twenty fixed bytes. -/
structure Options where
  words : Nat
  bytes : Bytes
  size : bytes.length = 4 * words
  fits : words ≤ 10

structure Ipv4 where
  service : UInt8
  identification : UInt16
  reserved : Bool
  unfragmented : Bool
  timeToLive : UInt8
  checksum : UInt16
  source : Octets 4
  destination : Octets 4
  options : Options

structure Ipv6 where
  trafficClass : Fin 16
  flow₁ : UInt8
  flow₂ : UInt8
  flow₃ : UInt8
  hopLimit : UInt8
  source : Octets 16
  destination : Octets 16

inductive Network where
  | ipv4 (header : Ipv4)
  | ipv6 (header : Ipv6)

structure Tcp where
  sequenceHigh : UInt16
  sequenceLow : UInt16
  acknowledgmentHigh : UInt16
  acknowledgmentLow : UInt16
  reserved : Fin 16
  flags : UInt8
  window : UInt16
  checksum : UInt16
  urgent : UInt16
  options : Options

inductive Transport where
  | tcp (header : Tcp)
  | udp (checksum : UInt16)

/-! ## The layout -/

def nibbles (high low : Nat) : UInt8 := UInt8.ofNat (16 * high + low)

/-- The word that holds the flags and the offset of a packet that is not a fragment. -/
def fragmentWord (reserved unfragmented : Bool) : UInt16 :=
  (if reserved then 0x8000 else 0) ||| if unfragmented then 0x4000 else 0

def Ipv4.bytes (h : Ipv4) (number : UInt8) (size : Nat) : Bytes :=
  [nibbles 4 (5 + h.options.words), h.service] ++
    wordBytes (UInt16.ofNat (20 + 4 * h.options.words + size)) ++ wordBytes h.identification ++
    wordBytes (fragmentWord h.reserved h.unfragmented) ++ [h.timeToLive, number] ++
    wordBytes h.checksum ++ h.source.bytes ++ h.destination.bytes ++ h.options.bytes

def Ipv6.bytes (h : Ipv6) (number : UInt8) (size : Nat) : Bytes :=
  [nibbles 6 h.trafficClass, h.flow₁, h.flow₂, h.flow₃] ++ wordBytes (UInt16.ofNat size) ++
    [number, h.hopLimit] ++ h.source.bytes ++ h.destination.bytes

/-- The number that names the transport in the IP header. -/
def Transport.number : Transport → UInt8
  | .tcp _ => 6
  | .udp _ => 17

def Transport.bytes (sourcePort destinationPort : UInt16) (payload : Bytes) : Transport → Bytes
  | .tcp h =>
    wordBytes sourcePort ++ wordBytes destinationPort ++ wordBytes h.sequenceHigh ++
      wordBytes h.sequenceLow ++ wordBytes h.acknowledgmentHigh ++
      wordBytes h.acknowledgmentLow ++ [nibbles (5 + h.options.words) h.reserved, h.flags] ++
      wordBytes h.window ++ wordBytes h.checksum ++ wordBytes h.urgent ++ h.options.bytes ++
      payload
  | .udp checksum =>
    wordBytes sourcePort ++ wordBytes destinationPort ++
      wordBytes (UInt16.ofNat (8 + payload.length)) ++ wordBytes checksum ++ payload

def Network.type : Network → UInt16
  | .ipv4 _ => 0x0800
  | .ipv6 _ => 0x86dd

/-- What the length field of the header counts, for `size` bytes behind the header. -/
def Network.counted (size : Nat) : Network → Nat
  | .ipv4 h => 20 + 4 * h.options.words + size
  | .ipv6 _ => size

def Network.bytes (number : UInt8) (body : Bytes) : Network → Bytes
  | .ipv4 h => h.bytes number body.length ++ body
  | .ipv6 h => h.bytes number body.length ++ body

structure Frame where
  addresses : Octets 12
  tags : List Tag
  network : Network
  transport : Transport
  sourcePort : UInt16
  destinationPort : UInt16
  payload : Bytes
  padding : Bytes
  tags_le : tags.length ≤ 2
  fits : network.counted (transport.bytes sourcePort destinationPort payload).length ≤ 65535

def Frame.body (x : Frame) : Bytes := x.transport.bytes x.sourcePort x.destinationPort x.payload

def Frame.encode (x : Frame) : Bytes :=
  x.addresses.bytes ++ (x.tags.flatMap Tag.bytes ++
    (wordBytes x.network.type ++ (x.network.bytes x.transport.number x.body ++ x.padding)))

/-! ## What is to be reported -/

def startsHttp (payload : Bytes) : Bool :=
  ["GET ", "POST ", "HEAD ", "PUT ", "DELETE ", "OPTIONS ", "HTTP/1."].any fun start =>
    (ascii start).isPrefixOf payload

/-- A record of type 22 and version 3.0 to 3.4 whose handshake is a hello. -/
def opensTls : Bytes → Bool
  | type :: major :: minor :: _ :: _ :: handshake :: _ =>
    type == 22 && major == 3 && minor ≤ 4 && (handshake == 1 || handshake == 2)
  | _ => false

/-- A DNS header with opcode zero and a question. -/
def asksDns : Bytes → Bool
  | _ :: _ :: flags :: _ :: high :: low :: rest =>
    6 ≤ rest.length && (flags >>> 3) &&& 15 == 0 && (high != 0 || low != 0)
  | _ => false

def reference (transport : Transport) (sourcePort destinationPort : UInt16) (payload : Bytes) :
    Application :=
  match transport with
  | .tcp _ => if startsHttp payload then .http else if opensTls payload then .tls else .unknown
  | .udp _ =>
    if (sourcePort == 53 || destinationPort == 53) && asksDns payload then .dns else .unknown

def Transport.protocol : Transport → Protocol
  | .tcp _ => .tcp
  | .udp _ => .udp

def Network.family : Network → AddressFamily
  | .ipv4 _ => .inet
  | .ipv6 _ => .inet6

def Network.source : Network → Bytes
  | .ipv4 h => h.source.bytes
  | .ipv6 h => h.source.bytes

def Network.destination : Network → Bytes
  | .ipv4 h => h.destination.bytes
  | .ipv6 h => h.destination.bytes

def Frame.metadata (x : Frame) (inetNtop : InetNtop) (size : UInt32) (timestamp : Int) :
    PacketMetadata where
  timestamp := timestamp
  wireBytes := size
  sourceIp := inetNtop x.network.family x.network.source
  destinationIp := inetNtop x.network.family x.network.destination
  sourcePort := some x.sourcePort
  destinationPort := some x.destinationPort
  protocol := x.transport.protocol
  application := reference x.transport x.sourcePort x.destinationPort x.payload

/-! ## The network layer -/

theorem nibbles_high {high low : Nat} (hhigh : high < 16) (hlow : low < 16) :
    nibbles high low >>> 4 = UInt8.ofNat high := by
  have : ∀ h l : Fin 16, nibbles h l >>> 4 = UInt8.ofNat h := by decide
  exact this ⟨high, hhigh⟩ ⟨low, hlow⟩

theorem nibbles_low {high low : Nat} (hhigh : high < 16) (hlow : low < 16) :
    nibbles high low &&& 15 = UInt8.ofNat low := by
  have : ∀ h l : Fin 16, nibbles h l &&& 15 = UInt8.ofNat l := by decide
  exact this ⟨high, hhigh⟩ ⟨low, hlow⟩

theorem headerLength_ofNat {n : Nat} (h : n < 16) : headerLength (UInt8.ofNat n) = 4 * n := by
  rw [headerLength, UInt8.toNat_ofNat', Nat.mod_eq_of_lt (by omega), Nat.mul_comm]

theorem toNat_word {n : Nat} (h : n ≤ 65535) : (UInt16.ofNat n).toNat = n := by
  rw [UInt16.toNat_ofNat', Nat.mod_eq_of_lt (by omega)]

theorem wordBytes_length (x : UInt16) : (wordBytes x).length = 2 := rfl

theorem Ipv4.bytes_length (h : Ipv4) (number : UInt8) (size : Nat) :
    (h.bytes number size).length = 20 + 4 * h.options.words := by
  simp only [Ipv4.bytes, List.length_append, List.length_cons, List.length_nil,
    wordBytes_length, h.source.size, h.destination.size, h.options.size]

theorem Ipv6.bytes_length (h : Ipv6) (number : UInt8) (size : Nat) :
    (h.bytes number size).length = 40 := by
  simp only [Ipv6.bytes, List.length_append, List.length_cons, List.length_nil,
    wordBytes_length, h.source.size, h.destination.size]

/-- A header that is followed by its body and by padding encloses the body. -/
theorem enclosed_body (header body padding : Bytes) {n : Nat} (h : header.length = n) :
    ((header ++ (body ++ padding)).take (n + body.length)).drop n = body := by
  rw [List.drop_take, List.drop_left' h, Nat.add_sub_cancel_left, List.take_left' rfl]

theorem fragmentWord_whole (reserved unfragmented : Bool) :
    fragmentWord reserved unfragmented &&& 0x3fff = 0 := by
  cases reserved <;> cases unfragmented <;> rfl

section Network
variable (inetNtop : InetNtop) (number : UInt8) (body padding : Bytes) (p : PacketMetadata)

theorem peelIpv4_bytes (h : Ipv4) (hfits : 20 + 4 * h.options.words + body.length ≤ 65535) :
    peelIpv4 inetNtop (h.bytes number body.length ++ (body ++ padding)) p =
      ({ p with sourceIp := inetNtop .inet h.source.bytes,
                destinationIp := inetNtop .inet h.destination.bytes },
        some ⟨number, body, true⟩) := by
  have hwords := h.options.fits
  have hbody := enclosed_body _ body padding (h.bytes_length number body.length)
  have hlength : (h.bytes number body.length ++ (body ++ padding)).length =
      20 + 4 * h.options.words + body.length + padding.length := by
    rw [List.length_append, List.length_append, h.bytes_length, ← Nat.add_assoc]
  obtain ⟨behind, hbehind⟩ : ∃ behind, behind = h.source.bytes ++ (h.destination.bytes ++
    (h.options.bytes ++ (body ++ padding))) := ⟨_, rfl⟩
  have hsource : behind.take 4 = h.source.bytes := by
    rw [hbehind, List.take_left' h.source.size]
  have hdestination : (behind.drop 4).take 4 = h.destination.bytes := by
    rw [hbehind, List.drop_left' h.source.size, List.take_left' h.destination.size]
  generalize htotal : 20 + 4 * h.options.words + body.length = total at *
  have hrest : h.bytes number body.length ++ (body ++ padding) =
      nibbles 4 (5 + h.options.words) :: h.service :: (UInt16.ofNat total >>> 8).toUInt8 ::
        (UInt16.ofNat total).toUInt8 :: (h.identification >>> 8).toUInt8 ::
        h.identification.toUInt8 :: (fragmentWord h.reserved h.unfragmented >>> 8).toUInt8 ::
        (fragmentWord h.reserved h.unfragmented).toUInt8 :: h.timeToLive :: number ::
        (h.checksum >>> 8).toUInt8 :: h.checksum.toUInt8 :: behind := by
    simp only [Ipv4.bytes, wordBytes, htotal, hbehind, List.append_assoc, List.cons_append,
      List.nil_append]
  generalize h.bytes number body.length ++ (body ++ padding) = rest at *
  have hversion : rest.getD 0 0 >>> 4 = 4 := by
    rw [hrest]
    exact nibbles_high (by omega) (by omega)
  have hheader : headerLength (rest.getD 0 0 &&& 15) = 20 + 4 * h.options.words := by
    have hlow : rest.getD 0 0 &&& 15 = UInt8.ofNat (5 + h.options.words) := by
      rw [hrest]
      exact nibbles_low (by omega) (by omega)
    rw [hlow, headerLength_ofNat (by omega)]
    omega
  have hcounted : (word rest 2).toNat = total := by
    have hword : word rest 2 = UInt16.ofNat total := by
      rw [hrest]
      exact be16_wordBytes _
    rw [hword, toNat_word hfits]
  have hfragment : word rest 6 &&& 0x3fff = 0 := by
    have hword : word rest 6 = fragmentWord h.reserved h.unfragmented := by
      rw [hrest]
      exact be16_wordBytes _
    rw [hword, fragmentWord_whole]
  have hnumber : rest.getD 9 0 = number := by rw [hrest]; rfl
  have hbehind₁₂ : rest.drop 12 = behind := by rw [hrest]; rfl
  have hbehind₁₆ : rest.drop 16 = behind.drop 4 := by rw [hrest]; rfl
  have hgood : ¬ (rest.length < 20 ∨ rest.getD 0 0 >>> 4 ≠ 4 ∨
      20 + 4 * h.options.words < 20 ∨ total < 20 + 4 * h.options.words ∨
      rest.length < 20 + 4 * h.options.words) := by
    rintro (hbad | hbad | hbad)
    · omega
    · exact hbad hversion
    · omega
  unfold peelIpv4
  simp only [hheader, hcounted, hfragment, hnumber, hbehind₁₂, hbehind₁₆, hsource, hdestination,
    hbody]
  rw [if_neg hgood, if_neg (by simp), decide_eq_true (by omega)]

theorem peelIpv6_bytes (h : Ipv6) (hfits : body.length ≤ 65535) :
    peelIpv6 inetNtop (h.bytes number body.length ++ (body ++ padding)) p =
      ({ p with sourceIp := inetNtop .inet6 h.source.bytes,
                destinationIp := inetNtop .inet6 h.destination.bytes },
        some ⟨number, body, true⟩) := by
  have hbody := enclosed_body _ body padding (h.bytes_length number body.length)
  have hlength : (h.bytes number body.length ++ (body ++ padding)).length =
      40 + body.length + padding.length := by
    rw [List.length_append, List.length_append, h.bytes_length, Nat.add_assoc]
  obtain ⟨behind, hbehind⟩ : ∃ behind, behind = h.source.bytes ++ (h.destination.bytes ++
    (body ++ padding)) := ⟨_, rfl⟩
  have hsource : behind.take 16 = h.source.bytes := by
    rw [hbehind, List.take_left' h.source.size]
  have hdestination : (behind.drop 16).take 16 = h.destination.bytes := by
    rw [hbehind, List.drop_left' h.source.size, List.take_left' h.destination.size]
  have hrest : h.bytes number body.length ++ (body ++ padding) =
      nibbles 6 h.trafficClass :: h.flow₁ :: h.flow₂ :: h.flow₃ ::
        (UInt16.ofNat body.length >>> 8).toUInt8 :: (UInt16.ofNat body.length).toUInt8 ::
        number :: h.hopLimit :: behind := by
    simp only [Ipv6.bytes, wordBytes, hbehind, List.append_assoc, List.cons_append,
      List.nil_append]
  generalize h.bytes number body.length ++ (body ++ padding) = rest at *
  have hversion : rest.getD 0 0 >>> 4 = 6 := by
    rw [hrest]
    exact nibbles_high (by omega) h.trafficClass.isLt
  have hcounted : (word rest 4).toNat = body.length := by
    have hword : word rest 4 = UInt16.ofNat body.length := by
      rw [hrest]
      exact be16_wordBytes _
    rw [hword, toNat_word hfits]
  have hnumber : rest.getD 6 0 = number := by rw [hrest]; rfl
  have hbehind₈ : rest.drop 8 = behind := by rw [hrest]; rfl
  have hbehind₂₄ : rest.drop 24 = behind.drop 16 := by rw [hrest]; rfl
  have hgood : ¬ (rest.length < 40 ∨ rest.getD 0 0 >>> 4 ≠ 6) :=
    not_or.mpr ⟨by omega, not_not_intro hversion⟩
  unfold peelIpv6
  simp only [hcounted, hnumber, hbehind₈, hbehind₂₄, hsource, hdestination, hbody]
  rw [if_neg hgood, decide_eq_true (by omega)]

theorem peelNetwork_ipv4 (h : Ipv4) (bytes : List UInt8) :
    peelNetwork inetNtop (Network.ipv4 h).type bytes p = peelIpv4 inetNtop bytes p :=
  if_pos rfl

theorem peelNetwork_ipv6 (h : Ipv6) (bytes : List UInt8) :
    peelNetwork inetNtop (Network.ipv6 h).type bytes p = peelIpv6 inetNtop bytes p := by
  have hother : (0x86dd : UInt16) ≠ 0x0800 := by decide
  exact (if_neg hother).trans (if_pos rfl)

theorem peelNetwork_bytes (x : Network) (hfits : x.counted body.length ≤ 65535) :
    peelNetwork inetNtop x.type (x.bytes number body ++ padding) p =
      ({ p with sourceIp := inetNtop x.family x.source,
                destinationIp := inetNtop x.family x.destination },
        some ⟨number, body, true⟩) := by
  cases x with
  | ipv4 h =>
    rw [Network.bytes, List.append_assoc, peelNetwork_ipv4]
    exact peelIpv4_bytes inetNtop number body padding p h hfits
  | ipv6 h =>
    rw [Network.bytes, List.append_assoc, peelNetwork_ipv6]
    exact peelIpv6_bytes inetNtop number body padding p h hfits

end Network

/-! ## The transport layer -/

section Transport
variable (sourcePort destinationPort : UInt16) (payload : Bytes)

theorem bytes_ports (t : Transport) :
    word (t.bytes sourcePort destinationPort payload) 0 = sourcePort ∧
      word (t.bytes sourcePort destinationPort payload) 2 = destinationPort := by
  cases t <;> exact ⟨be16_wordBytes _, be16_wordBytes _⟩

theorem peelTransport_bytes (t : Transport) (p : PacketMetadata)
    (hfits : (t.bytes sourcePort destinationPort payload).length ≤ 65535) :
    peelTransport ⟨t.number, t.bytes sourcePort destinationPort payload, true⟩ p =
      ({ p with protocol := t.protocol }, some ⟨payload, true⟩) := by
  cases t with
  | tcp h =>
    have hwords := h.options.fits
    obtain ⟨header, hheader⟩ : ∃ header, header = wordBytes sourcePort ++
        wordBytes destinationPort ++ wordBytes h.sequenceHigh ++
        wordBytes h.sequenceLow ++ wordBytes h.acknowledgmentHigh ++
        wordBytes h.acknowledgmentLow ++ [nibbles (5 + h.options.words) h.reserved, h.flags] ++
        wordBytes h.window ++ wordBytes h.checksum ++ wordBytes h.urgent ++ h.options.bytes :=
      ⟨_, rfl⟩
    have hbody : (Transport.tcp h).bytes sourcePort destinationPort payload =
        header ++ payload := by
      rw [hheader, Transport.bytes]
    have hsize : header.length = 20 + 4 * h.options.words := by
      simp only [hheader, List.length_append, List.length_cons, List.length_nil,
        wordBytes_length, h.options.size]
    have hoffset : (header ++ payload).getD 12 0 = nibbles (5 + h.options.words) h.reserved := by
      rw [hheader]
      rfl
    have hlength : headerLength ((header ++ payload).getD 12 0 >>> 4) =
        20 + 4 * h.options.words := by
      rw [hoffset, nibbles_high (by omega) h.reserved.isLt, headerLength_ofNat (by omega)]
      omega
    have hlong : (header ++ payload).length = 20 + 4 * h.options.words + payload.length := by
      rw [List.length_append, hsize]
    simp only [peelTransport, Transport.number, hbody, hlength, if_true, List.drop_left' hsize]
    rw [if_neg (by omega)]
    rfl
  | udp checksum =>
    have hlength : ((Transport.udp checksum).bytes sourcePort destinationPort payload).length =
        8 + payload.length := by
      simp only [Transport.bytes, List.length_append, wordBytes_length]
    have hcounted : (word ((Transport.udp checksum).bytes sourcePort destinationPort payload)
        4).toNat = 8 + payload.length := by
      have hword : word ((Transport.udp checksum).bytes sourcePort destinationPort payload) 4 =
          UInt16.ofNat (8 + payload.length) := be16_wordBytes _
      rw [hword, toNat_word (by omega)]
    have hpayload : ((Transport.udp checksum).bytes sourcePort destinationPort payload).drop 8 =
        payload := rfl
    simp only [peelTransport, Transport.number, hcounted, ← hlength, List.take_length, hpayload]
    rw [if_neg (by decide), if_pos trivial, if_neg (by omega), decide_eq_true (Nat.le_refl _)]
    rfl

end Transport

/-! ## The application -/

theorem looksTls_eq (content : Bytes) : looksTls content = opensTls content := by
  rcases content with _ | ⟨a, _ | ⟨b, _ | ⟨c, _ | ⟨d, _ | ⟨e, _ | ⟨f, rest⟩⟩⟩⟩⟩⟩
  case cons.cons.cons.cons.cons.cons =>
    have hlong : 6 ≤ (a :: b :: c :: d :: e :: f :: rest).length := by
      simp only [List.length_cons]
      omega
    simp only [looksTls, opensTls, hlong, decide_true, Bool.true_and]
    rfl
  all_goals rfl

/-- The opcode is in bits 3 to 6. -/
theorem opcode_zero (flags : UInt8) : (flags &&& 0x78 == 0) = ((flags >>> 3) &&& 15 == 0) := by
  have h : ∀ high low : Fin 16, (nibbles high low &&& 0x78 == 0) =
      ((nibbles high low >>> 3) &&& 15 == 0) := by
    decide
  have hsmall : flags.toNat < 256 := flags.toNat_lt
  have hflags : nibbles (flags.toNat / 16) (flags.toNat % 16) = flags := by
    rw [nibbles, Nat.div_add_mod, UInt8.ofNat_toNat]
  have hthis := h ⟨flags.toNat / 16, by omega⟩ ⟨flags.toNat % 16, by omega⟩
  simp only [hflags] at hthis
  exact hthis

theorem be16_pos (high low : UInt8) : decide (be16 high low > 0) = (high != 0 || low != 0) := by
  rw [Bool.eq_iff_iff]
  simp only [decide_eq_true_eq, gt_iff_lt, UInt16.lt_iff_toNat_lt, be16_toNat, Bool.or_eq_true,
    bne_iff_ne, ne_eq, ← UInt8.toNat_inj, UInt16.toNat_zero, UInt8.toNat_zero]
  omega

theorem looksDns_eq (content : Bytes) (p : PacketMetadata) :
    looksDns content p =
      ((portOf p.sourcePort == 53 || portOf p.destinationPort == 53) && asksDns content) := by
  rw [looksDns, Bool.and_assoc, Bool.and_assoc]
  congr 1
  rcases content with _ | ⟨a, _ | ⟨b, _ | ⟨c, _ | ⟨d, _ | ⟨e, _ | ⟨f, rest⟩⟩⟩⟩⟩⟩
  case cons.cons.cons.cons.cons.cons =>
    have hlong : decide (12 ≤ (a :: b :: c :: d :: e :: f :: rest).length) =
        decide (6 ≤ rest.length) := by
      simp only [List.length_cons]
      exact decide_eq_decide.mpr (by omega)
    have hword : word (a :: b :: c :: d :: e :: f :: rest) 4 = be16 e f := rfl
    have hflags : (a :: b :: c :: d :: e :: f :: rest).getD 2 0 = c := rfl
    rw [hlong, hword, hflags, be16_pos, opcode_zero, asksDns, Bool.and_assoc]
  all_goals rfl

/-- No method or version starts with the byte of a handshake record. -/
theorem not_startsHttp {content : Bytes} (h : opensTls content = true) :
    startsHttp content = false := by
  rcases content with _ | ⟨a, content⟩
  · cases h
  · have htype : a = 22 := by
      rcases content with _ | ⟨b, _ | ⟨c, _ | ⟨d, _ | ⟨e, _ | ⟨f, rest⟩⟩⟩⟩⟩
      case cons.cons.cons.cons.cons =>
        simp only [opensTls, Bool.and_eq_true, beq_iff_eq] at h
        exact h.1.1.1
      all_goals cases h
    rw [htype]
    rfl

theorem nameOf_tcp (content : Bytes) {p : PacketMetadata} (hprotocol : p.protocol = .tcp)
    (happlication : p.application = .unknown) (header : Tcp) (sourcePort destinationPort : UInt16) :
    nameOf content p = reference (.tcp header) sourcePort destinationPort content := by
  simp only [nameOf, reference, hprotocol, beq_self_eq_true, if_true, looksTls_eq, happlication]
  cases htls : opensTls content with
  | true =>
    rw [not_startsHttp htls]
    rfl
  | false => rfl

theorem nameOf_udp (content : Bytes) {p : PacketMetadata} (hprotocol : p.protocol = .udp)
    (happlication : p.application = .unknown) (checksum : UInt16) :
    nameOf content p =
      reference (.udp checksum) (portOf p.sourcePort) (portOf p.destinationPort) content := by
  simp only [nameOf, reference, hprotocol, looksDns_eq, happlication]
  rfl

/-! ## Whole frames -/

theorem isTag_type (x : Network) : isTag x.type = false := by cases x <;> rfl

theorem body_le (x : Frame) : x.body.length ≤ 65535 := by
  have hfits := x.fits
  cases hx : x.network with
  | ipv4 h =>
    simp only [hx, Network.counted] at hfits
    exact Nat.le_trans (Nat.le_add_left _ _) hfits
  | ipv6 h =>
    simp only [hx, Network.counted] at hfits
    exact hfits

/-- The dissector reports of a well-formed frame what went into it. -/
theorem dissect_encode (inetNtop : InetNtop) (x : Frame) (size : UInt32) (timestamp : Int) :
    dissect inetNtop x.encode size timestamp = .ok (x.metadata inetNtop size timestamp) := by
  obtain ⟨rest, hrest⟩ : ∃ rest, rest = x.network.bytes x.transport.number x.body ++ x.padding :=
    ⟨_, rfl⟩
  have htyped : 2 ≤ (wordBytes x.network.type ++ rest).length := by
    rw [List.length_append, wordBytes_length]
    omega
  have hbehind : 2 ≤ (x.tags.flatMap Tag.bytes ++ (wordBytes x.network.type ++ rest)).length := by
    rw [List.length_append]
    omega
  have htags := peel_tags x.tags (2 - x.tags.length) (wordBytes x.network.type ++ rest) htyped
  rw [Nat.sub_add_cancel x.tags_le, word_append_wordBytes,
    peel_untagged _ _ (isTag_type x.network)] at htags
  have hdrop : (wordBytes x.network.type ++ rest).drop 2 = rest := rfl
  have hnetwork := peelNetwork_bytes inetNtop x.transport.number x.body x.padding
    { timestamp := timestamp, wireBytes := size } x.network x.fits
  have htransport := peelTransport_bytes x.sourcePort x.destinationPort x.payload x.transport
    { timestamp := timestamp, wireBytes := size,
      sourceIp := inetNtop x.network.family x.network.source,
      destinationIp := inetNtop x.network.family x.network.destination } (body_le x)
  obtain ⟨hsource, hdestination⟩ :=
    bytes_ports x.sourcePort x.destinationPort x.payload x.transport
  rw [dissect_layers, Frame.encode, ← hrest,
    layers_behind inetNtop _ _ size timestamp x.addresses.size hbehind, htags, hdrop, layersBehind,
    hrest, hnetwork]
  simp only [layersAbove, layersPayload, Frame.body, htransport, hsource, hdestination, if_true]
  rw [Frame.metadata]
  cases hx : x.transport with
  | tcp header =>
    rw [nameOf_tcp x.payload rfl rfl header x.sourcePort x.destinationPort]
  | udp checksum =>
    rw [nameOf_udp x.payload rfl rfl checksum]
    rfl

end Magicbox.Guarantees.FrameEncoding
