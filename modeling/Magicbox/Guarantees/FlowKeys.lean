import Magicbox.Guarantees.FrameCuts
import Magicbox.Library.Decimal
import Magicbox.Source.Sampling

/-!
# The keys of flows

A key is six texts with a bar between each two of them. No text that the program
puts there contains a bar, so that different flows have different keys.
-/

set_option autoImplicit false

namespace Magicbox.Guarantees.FlowKeys
open Source.Capture Source.Sampling Library FrameLayers FrameCuts

/-- The flow that a packet belongs to. -/
structure FlowTuple where
  captureInterface : String
  sourceIp : String
  destinationIp : String
  protocol : Protocol
  sourcePort : Option UInt16
  destinationPort : Option UInt16
  deriving DecidableEq, Repr

def tupleOf (captureInterface : String) (p : PacketMetadata) : FlowTuple :=
  ⟨captureInterface, p.sourceIp, p.destinationIp, p.protocol, p.sourcePort, p.destinationPort⟩

/-- A packet that the dissector makes of some frame. -/
def Dissected (inetNtop : InetNtop) (p : PacketMetadata) : Prop :=
  ∃ b size timestamp, dissect inetNtop b size timestamp = .ok p

def Plain (text : String) : Prop := '|' ∉ text.toList

/-! ## Texts without bars -/

theorem plain_digits (n : Nat) : Plain (toString n) := by
  intro hbar
  have hdigits : (toString n).toList = Nat.toDigits 10 n := Nat.toList_repr
  rw [hdigits] at hbar
  have hdigit : Char.isDigit '|' = true :=
    Nat.isDigit_of_mem_toDigits (by decide) (by decide) hbar
  cases hdigit

theorem plain_port (port : Option UInt16) : Plain (portText port) := by
  cases port with
  | none => exact List.not_mem_nil
  | some port => exact plain_digits port.toNat

theorem plain_protocol (protocol : Protocol) : Plain (protocolName protocol) := by
  unfold Plain
  cases protocol <;> decide

theorem plain_interface {name : String} (h : validName name = true) : Plain name := by
  intro hbar
  simp only [validName, Bool.and_eq_true, List.all_eq_true] at h
  have := h.2 '|' hbar
  revert this
  decide

/-- The dissector reports the addresses as `inet_ntop` writes them. -/
theorem plain_addresses {inetNtop : InetNtop} (hinet : ∀ family b, Plain (inetNtop family b))
    {p : PacketMetadata} (h : Dissected inetNtop p) :
    Plain p.sourceIp ∧ Plain p.destinationIp := by
  obtain ⟨b, size, timestamp, hdissect⟩ := h
  rw [dissect_layers, Except.ok.injEq] at hdissect
  subst hdissect
  have hempty : Plain "" := List.not_mem_nil
  have hnetwork : ∀ type rest (q : PacketMetadata), Plain q.sourceIp ∧ Plain q.destinationIp →
      Plain (peelNetwork inetNtop type rest q).1.sourceIp ∧
        Plain (peelNetwork inetNtop type rest q).1.destinationIp := by
    intro type rest q hq
    unfold peelNetwork peelIpv4 peelIpv6
    dsimp only
    repeat' split
    all_goals first | exact hq | exact ⟨hinet _ _, hinet _ _⟩
  unfold layers layersBehind
  dsimp only
  split
  · exact ⟨hempty, hempty⟩
  · split
    · exact ⟨hempty, hempty⟩
    · next type rest hfound =>
      have hplain := hnetwork type rest { timestamp := timestamp, wireBytes := size }
        ⟨hempty, hempty⟩
      generalize peelNetwork inetNtop type rest _ = peeled at hplain ⊢
      obtain ⟨q, packet⟩ := peeled
      cases packet with
      | none => exact hplain
      | some k =>
        obtain ⟨hsource, hdestination, -⟩ := layersPayload_report k q
        simp only [layersAbove, hsource, hdestination]
        exact hplain

/-! ## Keys -/

/-- A text without a bar ends at the first bar. -/
theorem append_bar_inj {a a' b b' : List Char} (ha : '|' ∉ a) (ha' : '|' ∉ a')
    (h : a ++ '|' :: b = a' ++ '|' :: b') : a = a' ∧ b = b' := by
  induction a generalizing a' with
  | nil =>
    cases a' with
    | nil => exact ⟨rfl, List.tail_eq_of_cons_eq h⟩
    | cons c rest =>
      have hc := List.head_eq_of_cons_eq h
      exact absurd List.mem_cons_self (hc ▸ ha')
  | cons c rest ih =>
    cases a' with
    | nil =>
      have hc := List.head_eq_of_cons_eq h
      exact absurd List.mem_cons_self (hc ▸ ha)
    | cons c' rest' =>
      have hc := List.head_eq_of_cons_eq h
      obtain ⟨hrest, hb⟩ := ih (fun hbar => ha (List.mem_cons_of_mem c hbar))
        (fun hbar => ha' (List.mem_cons_of_mem c' hbar)) (List.tail_eq_of_cons_eq h)
      exact ⟨by rw [hc, hrest], hb⟩

theorem portText_inj {a b : Option UInt16} (h : portText a = portText b) : a = b := by
  have hdigits : ∀ port : UInt16, Decimal.natural (portText (some port)).toList =
      some port.toNat := fun port => Decimal.natural_toString port.toNat
  have hvalue := congrArg (fun text : String => Decimal.natural text.toList) h
  cases a with
  | none =>
    cases b with
    | none => rfl
    | some port =>
      rw [hdigits port] at hvalue
      cases hvalue
  | some port =>
    cases b with
    | none =>
      rw [hdigits port] at hvalue
      cases hvalue
    | some port' =>
      rw [hdigits port, hdigits port', Option.some.injEq] at hvalue
      rw [UInt16.toNat_inj.mp hvalue]

theorem protocolName_inj {a b : Protocol} (h : protocolName a = protocolName b) : a = b := by
  revert h
  cases a <;> cases b <;> decide

/-- Distinct flows never share a key. -/
theorem flowKey_inj {captureInterface captureInterface' : String} {p q : PacketMetadata}
    (hinterface : Plain captureInterface) (hinterface' : Plain captureInterface')
    (hp : Plain p.sourceIp ∧ Plain p.destinationIp)
    (hq : Plain q.sourceIp ∧ Plain q.destinationIp) :
    flowKey captureInterface p = flowKey captureInterface' q ↔
      tupleOf captureInterface p = tupleOf captureInterface' q := by
  constructor
  · intro h
    have hlist := congrArg String.toList h
    simp only [flowKey, String.toList_append, List.append_assoc] at hlist
    obtain ⟨h₁, hlist⟩ := append_bar_inj hinterface hinterface' hlist
    obtain ⟨h₂, hlist⟩ := append_bar_inj hp.1 hq.1 hlist
    obtain ⟨h₃, hlist⟩ := append_bar_inj hp.2 hq.2 hlist
    obtain ⟨h₄, hlist⟩ := append_bar_inj (plain_protocol _) (plain_protocol _) hlist
    obtain ⟨h₅, h₆⟩ := append_bar_inj (plain_port _) (plain_port _) hlist
    rw [tupleOf, tupleOf, String.toList_inj.mp h₁, String.toList_inj.mp h₂,
      String.toList_inj.mp h₃, protocolName_inj (String.toList_inj.mp h₄),
      portText_inj (String.toList_inj.mp h₅), portText_inj (String.toList_inj.mp h₆)]
  · intro h
    simp only [tupleOf, FlowTuple.mk.injEq] at h
    obtain ⟨h₁, h₂, h₃, h₄, h₅, h₆⟩ := h
    rw [flowKey, flowKey, h₁, h₂, h₃, h₄, h₅, h₆]

end Magicbox.Guarantees.FlowKeys
