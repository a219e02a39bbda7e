import Mathlib.Data.List.Basic

/-!
# The packet dissector

capture.cpp: `dissect`. Every read of the captured bytes goes through a check
that the C++ code does not make, so that a read outside of them is a `Fault` of
the model instead of a value. The same holds of the subtraction that sizes the
payload view, and of the view itself.

`inet_ntop` is a parameter: nothing here depends on how an address is written.
-/

set_option autoImplicit false

namespace Magicbox.Source.Capture

abbrev Bytes : Type := List UInt8

inductive Fault where
  | read (index : Nat)
  | underflow
  | view (first last : Nat)
  deriving DecidableEq, Repr

inductive Protocol where
  | other
  | tcp
  | udp
  | icmp
  deriving DecidableEq, Repr

inductive Application where
  | unknown
  | http
  | dns
  | tls
  deriving DecidableEq, Repr

structure PacketMetadata where
  timestamp : Int
  wireBytes : UInt32 := 0
  sourceIp : String := ""
  destinationIp : String := ""
  sourcePort : Option UInt16 := none
  destinationPort : Option UInt16 := none
  protocol : Protocol := .other
  application : Application := .unknown
  deriving DecidableEq, Repr

/-- The address families that `dissect` has rendered. -/
inductive AddressFamily where
  | inet
  | inet6
  deriving DecidableEq, Repr

/-- `inet_ntop`. -/
abbrev InetNtop : Type := AddressFamily → Bytes → String

/-! ## Checked reads -/

/-- `b[i]`. -/
def byteAt (b : Bytes) (i : Nat) : Except Fault UInt8 :=
  match b[i]? with
  | some x => .ok x
  | none => .error (.read i)

/-- Two bytes in network order. -/
def be16 (high low : UInt8) : UInt16 := (high.toUInt16 <<< 8) ||| low.toUInt16

/-- `u16(i)`. -/
def u16 (b : Bytes) (i : Nat) : Except Fault UInt16 := do
  let high ← byteAt b i
  let low ← byteAt b (i + 1)
  pure (be16 high low)

/-- The bytes of an address, all of which `inet_ntop` reads. -/
def addressAt (b : Bytes) (i length : Nat) : Except Fault Bytes :=
  if i + length ≤ b.length then .ok ((b.drop i).take length) else .error (.read (i + length - 1))

/-- A subtraction of sizes. -/
def minus (n m : Nat) : Except Fault Nat := if m ≤ n then .ok (n - m) else .error .underflow

/-- The view of `size` bytes from `first` on. -/
def viewAt (b : Bytes) (first size : Nat) : Except Fault Bytes :=
  if first + size ≤ b.length then .ok ((b.drop first).take size)
  else .error (.view first (first + size))

/-! ## Layers -/

def isTag (type : UInt16) : Bool := type == 0x8100 || type == 0x88a8

/-- The loop over VLAN tags: the type and the offset behind them, or nothing
when a tag is cut off. -/
def skipTags (b : Bytes) : Nat → UInt16 → Nat → Except Fault (Option (UInt16 × Nat))
  | 0, type, offset => .ok (some (type, offset))
  | depth + 1, type, offset =>
    if isTag type then
      if b.length < offset + 4 then .ok none
      else do
        let type ← u16 b (offset + 2)
        skipTags b depth type (offset + 4)
    else .ok (some (type, offset))

/-- What the network layer leaves to the transport layer. -/
structure Datagram where
  protocol : UInt8
  offset : Nat
  finish : Nat
  complete : Bool
  deriving DecidableEq, Repr

/-- The IPv4 header at `offset`. Without a datagram the caller returns at once. -/
def dissectIpv4 (inetNtop : InetNtop) (b : Bytes) (offset : Nat) (p : PacketMetadata) :
    Except Fault (PacketMetadata × Option Datagram) := do
  if b.length < offset + 20 then return (p, none)
  let first ← byteAt b offset
  if first >>> 4 != 4 then return (p, none)
  let header := (first &&& 15).toNat * 4
  let total := (← u16 b (offset + 2)).toNat
  if header < 20 || total < header || b.length < offset + header then return (p, none)
  let finish := min b.length (offset + total)
  let complete : Bool := offset + total ≤ b.length
  let source ← addressAt b (offset + 12) 4
  let destination ← addressAt b (offset + 16) 4
  let p := { p with sourceIp := inetNtop .inet source,
                    destinationIp := inetNtop .inet destination }
  let protocol ← byteAt b (offset + 9)
  let fragment ← u16 b (offset + 6)
  -- Neither initial nor later fragments are dissected without reassembly.
  if fragment &&& 0x3fff != 0 then return (p, none)
  return (p, some ⟨protocol, offset + header, finish, complete⟩)

def dissectIpv6 (inetNtop : InetNtop) (b : Bytes) (offset : Nat) (p : PacketMetadata) :
    Except Fault (PacketMetadata × Option Datagram) := do
  if b.length < offset + 40 then return (p, none)
  let first ← byteAt b offset
  if first >>> 4 != 6 then return (p, none)
  let size := (← u16 b (offset + 4)).toNat
  let finish := min b.length (offset + 40 + size)
  let complete : Bool := offset + 40 + size ≤ b.length
  let source ← addressAt b (offset + 8) 16
  let destination ← addressAt b (offset + 24) 16
  let p := { p with sourceIp := inetNtop .inet6 source,
                    destinationIp := inetNtop .inet6 destination }
  let protocol ← byteAt b (offset + 6)
  return (p, some ⟨protocol, offset + 40, finish, complete⟩)

def dissectNetwork (inetNtop : InetNtop) (b : Bytes) (type : UInt16) (offset : Nat)
    (p : PacketMetadata) : Except Fault (PacketMetadata × Option Datagram) :=
  if type == 0x0800 then dissectIpv4 inetNtop b offset p
  else if type == 0x86dd then dissectIpv6 inetNtop b offset p
  else .ok (p, none)

/-- The bounds of the transport payload. -/
structure Segment where
  payload : Nat
  finish : Nat
  complete : Bool
  deriving DecidableEq, Repr

/-- The transport header, up to the ports. Without a segment the caller returns at once. -/
def dissectTransport (b : Bytes) (d : Datagram) (p : PacketMetadata) :
    Except Fault (PacketMetadata × Option Segment) := do
  if d.protocol == 6 then
    let p := { p with protocol := .tcp }
    if d.finish < d.offset + 20 then return (p, none)
    let header := ((← byteAt b (d.offset + 12)) >>> 4).toNat * 4
    if header < 20 || d.finish < d.offset + header then return (p, none)
    return (p, some ⟨d.offset + header, d.finish, d.complete⟩)
  else if d.protocol == 17 then
    let p := { p with protocol := .udp }
    if d.finish < d.offset + 8 then return (p, none)
    let length := (← u16 b (d.offset + 4)).toNat
    if length < 8 then return (p, none)
    return (p, some ⟨d.offset + 8, min d.finish (d.offset + length),
      d.complete && d.offset + length ≤ d.finish⟩)
  else if d.protocol == 1 || d.protocol == 58 then return ({ p with protocol := .icmp }, none)
  else return (p, none)

def ascii (text : String) : Bytes := text.toList.map fun c => c.toNat.toUInt8

def httpPrefixes : List Bytes :=
  ["GET ", "POST ", "HEAD ", "PUT ", "DELETE ", "OPTIONS ", "HTTP/1."].map ascii

def portOf (port : Option UInt16) : UInt16 := port.getD 0

/-- A handshake record of TLS that opens a connection. -/
def isTls (b content : Bytes) (payload : Nat) : Except Fault Bool := do
  if content.length < 6 then return false
  if (← byteAt b payload) != 22 then return false
  if (← byteAt b (payload + 1)) != 3 then return false
  if (← byteAt b (payload + 2)) > 4 then return false
  let handshake ← byteAt b (payload + 5)
  return handshake == 1 || handshake == 2

def isDns (b content : Bytes) (payload : Nat) (p : PacketMetadata) : Except Fault Bool := do
  if !(portOf p.sourcePort == 53 || portOf p.destinationPort == 53) then return false
  if content.length < 12 then return false
  if (← byteAt b (payload + 2)) &&& 0x78 != 0 then return false
  return (← u16 b (payload + 4)) > 0

/-- The application, from a payload that is there to its end. -/
def classify (b : Bytes) (s : Segment) (p : PacketMetadata) : Except Fault PacketMetadata := do
  let content ← viewAt b s.payload (← minus s.finish s.payload)
  if p.protocol == .tcp then
    let p := if httpPrefixes.any (·.isPrefixOf content) then { p with application := .http } else p
    if ← isTls b content s.payload then return { p with application := .tls }
    return p
  else if ← isDns b content s.payload p then return { p with application := .dns }
  else return p

/-- What follows the network layer. -/
def dissectPayload (b : Bytes) (d : Datagram) (p : PacketMetadata) :
    Except Fault PacketMetadata := do
  match ← dissectTransport b d p with
  | (p, none) => return p
  | (p, some s) =>
    let sourcePort ← u16 b d.offset
    let destinationPort ← u16 b (d.offset + 2)
    let p := { p with sourcePort := some sourcePort, destinationPort := some destinationPort }
    if !s.complete then return p
    classify b s p

def dissect (inetNtop : InetNtop) (b : Bytes) (size : UInt32) (timestamp : Int) :
    Except Fault PacketMetadata := do
  let p : PacketMetadata := { timestamp := timestamp, wireBytes := size }
  if b.length < 14 then return p
  match ← skipTags b 2 (← u16 b 12) 14 with
  | none => return p
  | some (type, offset) =>
    match ← dissectNetwork inetNtop b type offset p with
    | (p, none) => return p
    | (p, some d) => dissectPayload b d p

end Magicbox.Source.Capture
