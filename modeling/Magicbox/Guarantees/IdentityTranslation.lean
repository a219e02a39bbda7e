import Magicbox.Guarantees.AddressPlan
import Magicbox.Source.Translation

/-!
# The translated identity

README.md: routed IPv4 identity translation, with bidirectional NAT. `Complete`
says what that promises of one packet. It holds of every packet after every
sequence of packets, with one exception: a connection that the outer side opens
by addressing the device itself. The second accept rule is meant for packets
whose destination has been translated, and it lets this one through untranslated.
No mapping is kept for it, and the device's answers go out under its own address.
-/

set_option autoImplicit false

namespace Magicbox.Guarantees.IdentityTranslation
open Library.Conntrack Library.Blocks Source.Config Source.Nftables Source.Translation
  Guarantees.AddressText Guarantees.AddressPlan

variable {π : Type} [DecidableEq π]

/-- What the forward hook sees of a packet. -/
def seen (c : NetworkConfig) (t : Connections π) (a : Forwarded π) : Packet :=
  ⟨a.iif, outgoing (ruled c) t a, a.tuple.src.address, (departing (ruled c) t a).dst.address⟩

/-- The rule set does to a packet what it is for. -/
structure Complete (c : NetworkConfig) (t : Connections π) (a : Forwarded π) : Prop where
  /-- What leaves the outer interface carries the outer address. -/
  outward : ∀ d, deliver (ruled c) t a = some d → d.oif = effectiveOuter c →
    d.tuple.src.address = host c.outerIpv4
  /-- On the two interfaces only the device's packets pass. -/
  closed : touches c (seen c t a) → (seen c t a).src ≠ host c.deviceIpv4 →
    (seen c t a).dst ≠ host c.deviceIpv4 → deliver (ruled c) t a = none
  /-- For all other packets there might as well be no rule set. -/
  apart : ¬ touches c (seen c t a) →
    deliver (ruled c) t a = deliver (plain c) t a ∧ track (ruled c) t a = track (plain c) t a
  /-- Those of no tracked connection go on as they came. -/
  unchanged : ¬ touches c (seen c t a) → find t a.tuple = none →
    deliver (ruled c) t a = some ⟨a.way, a.tuple⟩

/-- The packet comes in on one of the two interfaces. -/
def Enters (c : NetworkConfig) (a : Forwarded π) : Prop :=
  a.iif = c.innerInterface ∨ a.iif = effectiveOuter c

/-- The outer side addresses the device by its inner address. -/
def Direct (c : NetworkConfig) (a : Forwarded π) : Prop :=
  a.iif = effectiveOuter c ∧ a.tuple.dst.address = host c.deviceIpv4

/-- The packet goes from the inner to the outer interface and answers on a connection whose first
packet was addressed to the device itself. -/
def AnswersDirect (c : NetworkConfig) (t : Connections π) (a : Forwarded π) : Prop :=
  a.iif = c.innerInterface ∧ ∃ k, find t a.tuple = some (k, .reply) ∧
    k.original.dst.address = host c.deviceIpv4 ∧
    (ruled c).route a.way k.original.src.address = effectiveOuter c

/-! ## The two kinds of connections -/

/-- A connection that the device opened. -/
structure Outward (c : NetworkConfig) (k : Connection (BitVec 32) π) : Prop where
  device : k.original.src.address = host c.deviceIpv4
  mapped : k.reply.dst.address = host c.outerIpv4
  elsewhere : k.original.dst.address ≠ host c.deviceIpv4

/-- A connection that was opened from the outer side. -/
structure Inward (c : NetworkConfig) (k : Connection (BitVec 32) π) : Prop where
  device : k.reply.src.address = host c.deviceIpv4
  addressed : k.original.dst.address = host c.outerIpv4 ∨
    k.original.dst.address = host c.deviceIpv4

section Packets
variable {c : NetworkConfig} {t : Connections π} {a : Forwarded π}

theorem ruled_route (way : String) (dst : BitVec 32) :
    (ruled c).route way dst = if dst = host c.deviceIpv4 then c.innerInterface else way := rfl

theorem passes_iff :
    passes (ruled c) t a = true ↔ (touches c (seen c t a) → deviceFlow c (seen c t a)) :=
  ruled_forward c _ _ _ _

theorem outgoing_device (h : (departing (ruled c) t a).dst.address = host c.deviceIpv4) :
    outgoing (ruled c) t a = c.innerInterface := by
  unfold outgoing
  rw [ruled_route, if_pos h]

/-- What passes to the outer interface comes from the device, and is for somebody else. -/
theorem outward_flow (hports : c.innerInterface ≠ effectiveOuter c)
    (hpasses : passes (ruled c) t a = true) (hout : outgoing (ruled c) t a = effectiveOuter c) :
    a.iif = c.innerInterface ∧ a.tuple.src.address = host c.deviceIpv4 ∧
      (departing (ruled c) t a).dst.address ≠ host c.deviceIpv4 := by
  have htouches : touches c (seen c t a) := .inr (.inr hout)
  have helsewhere : (departing (ruled c) t a).dst.address ≠ host c.deviceIpv4 := by
    intro hdevice
    rw [outgoing_device hdevice] at hout
    exact hports hout
  rcases passes_iff.mp hpasses htouches with ⟨hiif, -, hsrc⟩ | ⟨-, hin, -⟩
  · exact ⟨hiif, hsrc, helsewhere⟩
  · exact absurd (hin.symm.trans hout) hports

/-- A packet on the two interfaces opens a connection of either kind, if any. -/
theorem opened_kinds (hports : c.innerInterface ≠ effectiveOuter c) (henters : Enters c a)
    (hpasses : passes (ruled c) [] a = true) :
    (a.iif = c.innerInterface ∧ Outward c (opened (ruled c) a)) ∨
      (a.iif = effectiveOuter c ∧ Inward c (opened (ruled c) a)) := by
  have hfinal : (departing (ruled c) [] a).dst = (opened (ruled c) a).reply.src := rfl
  rcases passes_iff.mp hpasses (.inl henters) with ⟨hiif, hout, hsrc⟩ | ⟨hiif, hin, hdst⟩
  · left
    obtain ⟨-, -, helsewhere⟩ := outward_flow hports hpasses hout
    have hkept : (opened (ruled c) a).reply.src = a.tuple.dst := by
      refine opened_dst_none ?_
      rw [ruled_prerouting, if_neg]
      rintro ⟨houter, -⟩
      exact hports (hiif.symm.trans houter)
    have hmapped : (opened (ruled c) a).reply.dst = ⟨host c.outerIpv4, a.port⟩ := by
      refine opened_src_some ?_
      rw [ruled_postrouting, if_pos]
      exact ⟨hout, hsrc⟩
    refine ⟨hiif, hsrc, by rw [hmapped], ?_⟩
    rw [hfinal, hkept] at helsewhere
    exact helsewhere
  · right
    refine ⟨hiif, hdst, ?_⟩
    by_cases houter : a.tuple.dst.address = host c.outerIpv4
    · exact .inl houter
    · right
      have hkept : (opened (ruled c) a).reply.src = a.tuple.dst := by
        refine opened_dst_none ?_
        rw [ruled_prerouting, if_neg]
        rintro ⟨-, hmatch⟩
        exact houter hmatch
      rw [← hdst]
      exact congrArg Endpoint.address hkept.symm

theorem closed_always (htouches : touches c (seen c t a))
    (hsrc : (seen c t a).src ≠ host c.deviceIpv4) (hdst : (seen c t a).dst ≠ host c.deviceIpv4) :
    deliver (ruled c) t a = none := by
  rw [deliver_eq_none, ← Bool.not_eq_true, passes_iff]
  intro hflow
  rcases hflow htouches with ⟨-, -, hdevice⟩ | ⟨-, -, hdevice⟩
  · exact hsrc hdevice
  · exact hdst hdevice

/-- A packet that touches neither interface opens the connection it would open without rules. -/
theorem opened_apart (hfind : find t a.tuple = none) (h : ¬ touches c (seen c t a)) :
    opened (ruled c) a = opened (plain c) a := by
  have hunmapped : (ruled c).prerouting a.iif a.tuple.src.address a.tuple.dst.address = none := by
    rw [ruled_prerouting, if_neg]
    rintro ⟨hiif, -⟩
    exact h (.inl (.inr hiif))
  have hdst := opened_dst_none hunmapped
  have hsource : (opened (ruled c) a).reply.dst = a.tuple.src := by
    refine opened_src_none ?_
    rw [ruled_postrouting, if_neg]
    rintro ⟨hout, -⟩
    refine h (.inr (.inr ?_))
    have hnew : outgoing (ruled c) t a = outgoing (ruled c) [] a := outgoing_new hfind
    exact hnew.trans hout
  calc opened (ruled c) a
      = ⟨a.tuple, ⟨(opened (ruled c) a).reply.src, (opened (ruled c) a).reply.dst⟩⟩ := rfl
    _ = ⟨a.tuple, ⟨a.tuple.dst, a.tuple.src⟩⟩ := by rw [hdst, hsource]
    _ = opened (plain c) a := rfl

theorem apart_always (h : ¬ touches c (seen c t a)) :
    deliver (ruled c) t a = deliver (plain c) t a ∧ track (ruled c) t a = track (plain c) t a :=
  treated_alike (fun hfind => opened_apart hfind h) rfl
    (passes_iff.mpr fun htouches => absurd htouches h) rfl

theorem unchanged_always (h : ¬ touches c (seen c t a)) (hfind : find t a.tuple = none) :
    deliver (ruled c) t a = some ⟨a.way, a.tuple⟩ := by
  have hdeparting : departing (plain c) t a = a.tuple := departing_new hfind
  have helsewhere : a.tuple.dst.address ≠ host c.deviceIpv4 := by
    intro hdevice
    refine h (.inr (.inl (outgoing_device ?_)))
    rw [departing_new hfind]
    change (opened (ruled c) a).reply.src.address = _
    rw [opened_apart hfind h]
    exact hdevice
  have hway : outgoing (plain c) t a = a.way := by
    unfold outgoing
    rw [hdeparting]
    exact if_neg helsewhere
  rw [(apart_always h).1]
  exact deliver_eq_some.mpr ⟨rfl, hway, hdeparting⟩

end Packets

/-! ## Runs -/

section Runs
variable {c : NetworkConfig} {arrivals : List (Forwarded π)} {a : Forwarded π}

theorem tracked_kinds (hports : c.innerInterface ≠ effectiveOuter c)
    (h : ∀ b ∈ arrivals, Enters c b) :
    ∀ k ∈ tracked (ruled c) arrivals, Outward c k ∨ Inward c k := by
  refine tracked_satisfies (fun b henters hpasses => ?_) h
  rcases opened_kinds hports henters hpasses with ⟨-, hk⟩ | ⟨-, hk⟩
  · exact .inl hk
  · exact .inr hk

/-- Without a direct connection every connection is addressed to somebody but the device. -/
theorem tracked_indirect (hports : c.innerInterface ≠ effectiveOuter c)
    (h : ∀ b ∈ arrivals, Enters c b ∧ ¬ Direct c b) :
    ∀ k ∈ tracked (ruled c) arrivals, k.original.dst.address ≠ host c.deviceIpv4 := by
  refine tracked_satisfies (P := fun b => Enters c b ∧ ¬ Direct c b) (fun b hb hpasses => ?_) h
  obtain ⟨henters, hindirect⟩ := hb
  rcases opened_kinds hports henters hpasses with ⟨-, hk⟩ | ⟨hiif, -⟩
  · exact hk.elsewhere
  · intro hdevice
    exact hindirect ⟨hiif, hdevice⟩

/-- What passes to the outer interface carries the outer address, answers on direct connections
apart. -/
theorem outward_source (hports : c.innerInterface ≠ effectiveOuter c)
    (hrun : ∀ b ∈ arrivals, Enters c b)
    (hanswer : ¬ AnswersDirect c (tracked (ruled c) arrivals) a)
    (hpasses : passes (ruled c) (tracked (ruled c) arrivals) a = true)
    (hout : outgoing (ruled c) (tracked (ruled c) arrivals) a = effectiveOuter c) :
    (departing (ruled c) (tracked (ruled c) arrivals) a).src.address = host c.outerIpv4 := by
  obtain ⟨hiif, hsrc, helsewhere⟩ := outward_flow hports hpasses hout
  have hkind : Outward c (entry (ruled c) (tracked (ruled c) arrivals) a).1 ∨
      Inward c (entry (ruled c) (tracked (ruled c) arrivals) a).1 := by
    refine entry_satisfies (tracked_kinds hports hrun) fun hfind => ?_
    rw [passes_new hfind] at hpasses
    rcases opened_kinds hports (.inl hiif) hpasses with ⟨-, hk⟩ | ⟨-, hk⟩
    · exact .inl hk
    · exact .inr hk
  unfold outgoing at hout
  unfold departing at helsewhere hout ⊢
  cases hd : (entry (ruled c) (tracked (ruled c) arrivals) a).2 with
  | original =>
    rw [hd] at helsewhere
    rcases hkind with hk | hk
    · exact hk.mapped
    · exact absurd hk.device helsewhere
  | reply =>
    rw [hd] at helsewhere hout
    rcases hkind with hk | hk
    · exact absurd hk.device helsewhere
    · rcases hk.addressed with houter | hdevice
      · exact houter
      · exact absurd ⟨hiif, _, by rw [find_of_entry_reply hd, ← hd], hdevice, hout⟩ hanswer

theorem complete_of_not_answers (hports : c.innerInterface ≠ effectiveOuter c)
    (hrun : ∀ b ∈ arrivals, Enters c b)
    (hanswer : ¬ AnswersDirect c (tracked (ruled c) arrivals) a) :
    Complete c (tracked (ruled c) arrivals) a where
  outward d hdeliver hout := by
    obtain ⟨hpasses, hoif, htuple⟩ := deliver_eq_some.mp hdeliver
    rw [← htuple]
    exact outward_source hports hrun hanswer hpasses (hoif.trans hout)
  closed := closed_always
  apart := apart_always
  unchanged := unchanged_always

/-- An answer on a direct connection goes out under the device's own address. -/
theorem answer_exposes (hports : c.innerInterface ≠ effectiveOuter c)
    (hrun : ∀ b ∈ arrivals, Enters c b)
    (hanswer : AnswersDirect c (tracked (ruled c) arrivals) a) :
    ∃ d, deliver (ruled c) (tracked (ruled c) arrivals) a = some d ∧
      d.oif = effectiveOuter c ∧ d.tuple.src.address = host c.deviceIpv4 := by
  obtain ⟨hiif, k, hfind, hdevice, hroute⟩ := hanswer
  obtain ⟨hmem, hreply⟩ := find_some hfind
  have hinward : Inward c k := by
    rcases tracked_kinds hports hrun k hmem with hk | hk
    · exact absurd hdevice hk.elsewhere
    · exact hk
  have hdeparting : departing (ruled c) (tracked (ruled c) arrivals) a = k.original.swap := by
    unfold departing
    rw [entry_known hfind]
    rfl
  have hout : outgoing (ruled c) (tracked (ruled c) arrivals) a = effectiveOuter c := by
    unfold outgoing
    rw [hdeparting]
    exact hroute
  have hsrc : a.tuple.src.address = host c.deviceIpv4 := by
    rw [← hreply]
    exact hinward.device
  have hpasses : passes (ruled c) (tracked (ruled c) arrivals) a = true :=
    passes_iff.mpr fun _ => .inl ⟨hiif, hout, hsrc⟩
  exact ⟨⟨effectiveOuter c, k.original.swap⟩, deliver_eq_some.mpr ⟨hpasses, hout, hdeparting⟩,
    rfl, hdevice⟩

end Runs

/-! ## Accepted configurations -/

theorem addresses_ne {c : NetworkConfig} (h : validate c = []) :
    host c.deviceIpv4 ≠ host c.outerIpv4 ∧ host c.outerGatewayIpv4 ≠ host c.deviceIpv4 ∧
      host c.outerGatewayIpv4 ≠ host c.outerIpv4 := by
  obtain ⟨hc, hsubnets⟩ := (validate_nil_iff c).mp h
  have hdevice := hsubnets.disjoint _ hsubnets.inner
  have houter := ((unicastIpv4_iff _).mp hc.outerIpv4).1
  have hgateway := ((unicastIpv4_iff _).mp hc.outerGatewayIpv4).1
  refine ⟨fun heq => ?_, fun heq => ?_, fun heq => ?_⟩
  · rw [heq] at hdevice
    exact hdevice (self_mem_block _ _)
  · rw [← heq] at hdevice
    exact hdevice hsubnets.outer
  · rw [heq] at hgateway
    exact hc.outer_ne (denotes_inj houter hgateway)

/-- When the inner port bears the name of the VLAN link, the two interfaces are one, and what the
upstream gateway sends to the outer address leaves through it again under the gateway's address. -/
theorem merged_exposes {c : NetworkConfig} (h : validate c = [])
    (hports : c.innerInterface = effectiveOuter c) (port : π) :
    ∃ a : Forwarded π, Enters c a ∧ ¬ Complete c [] a := by
  obtain ⟨-, hdevice, houter⟩ := addresses_ne h
  let a : Forwarded π := ⟨c.innerInterface,
    ⟨⟨host c.outerGatewayIpv4, port⟩, ⟨host c.outerIpv4, port⟩⟩, c.innerInterface, port⟩
  have hmapped : (opened (ruled c) a).reply.src = ⟨host c.deviceIpv4, port⟩ := by
    refine opened_dst_some ?_
    rw [ruled_prerouting, if_pos]
    exact ⟨hports, rfl⟩
  have hkept : (opened (ruled c) a).reply.dst = ⟨host c.outerGatewayIpv4, port⟩ := by
    refine opened_src_none ?_
    rw [ruled_postrouting, if_neg]
    rintro ⟨-, hsrc⟩
    exact hdevice hsrc
  have hdst : (departing (ruled c) [] a).dst.address = host c.deviceIpv4 :=
    congrArg Endpoint.address hmapped
  have hin := outgoing_device hdst
  have hpasses : passes (ruled c) [] a = true :=
    passes_iff.mpr fun _ => .inr ⟨hports, hin, hdst⟩
  refine ⟨a, .inl rfl, fun hcomplete => houter ?_⟩
  have hsrc := hcomplete.outward ⟨c.innerInterface, departing (ruled c) [] a⟩
    (deliver_eq_some.mpr ⟨hpasses, hin, rfl⟩) hports
  rw [← hsrc]
  exact (congrArg Endpoint.address hkept).symm

/-- After every sequence of packets the rule set does to a packet what it is for, unless the
packet answers on a connection that the outer side opened to the device itself. -/
theorem identity_translation {c : NetworkConfig} (h : validate c = []) :
    (c.innerInterface ≠ effectiveOuter c →
      ∀ arrivals : List (Forwarded π), (∀ b ∈ arrivals, Enters c b) →
        (∀ a, Complete c (tracked (ruled c) arrivals) a ↔
          ¬ AnswersDirect c (tracked (ruled c) arrivals) a) ∧
        ((∀ b ∈ arrivals, ¬ Direct c b) → ∀ a, Complete c (tracked (ruled c) arrivals) a)) ∧
    (c.innerInterface = effectiveOuter c →
      ∀ _ : π, ∃ a : Forwarded π, Enters c a ∧ ¬ Complete c [] a) := by
  refine ⟨fun hports arrivals hrun => ⟨fun a => ⟨fun hcomplete hanswer => ?_, fun hanswer => ?_⟩,
    fun hindirect a => ?_⟩, fun hports port => merged_exposes h hports port⟩
  · obtain ⟨d, hdeliver, hout, hsrc⟩ := answer_exposes hports hrun hanswer
    exact (addresses_ne h).1 (hsrc.symm.trans (hcomplete.outward d hdeliver hout))
  · exact complete_of_not_answers hports hrun hanswer
  · refine complete_of_not_answers hports hrun ?_
    rintro ⟨-, k, hfind, hdevice, -⟩
    exact tracked_indirect hports (fun b hb => ⟨hrun b hb, hindirect b hb⟩) k
      (find_some hfind).1 hdevice

/-- A packet of the upstream gateway to an address behind the outer interface. -/
def fromGateway (destination : String) : Forwarded Nat :=
  ⟨"mbx-outer", ⟨⟨host "192.168.50.1", 4000⟩, ⟨host destination, 80⟩⟩, "inner0", 0⟩

/-- The device's answer to it. -/
def deviceAnswer : Forwarded Nat :=
  ⟨"inner0", ⟨⟨host "10.0.0.5", 80⟩, ⟨host "192.168.50.1", 4000⟩⟩, "mbx-outer", 0⟩

theorem identity_translation_session :
    Complete exampleConfig (tracked (ruled exampleConfig) [fromGateway "192.168.50.99"])
        deviceAnswer ∧
      deliver (ruled exampleConfig) (tracked (ruled exampleConfig) [fromGateway "192.168.50.99"])
          deviceAnswer =
        some ⟨"mbx-outer", ⟨⟨host "192.168.50.99", 80⟩, ⟨host "192.168.50.1", 4000⟩⟩⟩ := by
  have hrun : ∀ b ∈ [fromGateway "192.168.50.99"], Enters exampleConfig b := by
    simp [Enters, fromGateway, exampleConfig, effectiveOuter]
  have hindirect : ∀ b ∈ [fromGateway "192.168.50.99"], ¬ Direct exampleConfig b := by
    intro b hb
    obtain rfl := List.mem_singleton.mp hb
    rintro ⟨-, hdevice⟩
    revert hdevice
    decide +kernel
  exact ⟨((identity_translation validate_exampleConfig).1 (by decide) _ hrun).2 hindirect _,
    by decide +kernel⟩

/-- The gateway addresses the device itself and is let in, and the answer leaves the outer
interface under the device's own address. -/
theorem inner_address_emitted :
    validate exampleConfig = [] ∧
      deliver (ruled exampleConfig) [] (fromGateway "10.0.0.5") =
        some ⟨exampleConfig.innerInterface, (fromGateway "10.0.0.5").tuple⟩ ∧
      deliver (ruled exampleConfig) (tracked (ruled exampleConfig) [fromGateway "10.0.0.5"])
          deviceAnswer =
        some ⟨effectiveOuter exampleConfig, deviceAnswer.tuple⟩ ∧
      ¬ Complete exampleConfig (tracked (ruled exampleConfig) [fromGateway "10.0.0.5"])
          deviceAnswer := by
  have hdeliver : deliver (ruled exampleConfig)
      (tracked (ruled exampleConfig) [fromGateway "10.0.0.5"]) deviceAnswer =
        some ⟨effectiveOuter exampleConfig, deviceAnswer.tuple⟩ := by
    decide +kernel
  refine ⟨by decide +kernel, by decide +kernel, hdeliver, fun hcomplete => ?_⟩
  have hsrc := hcomplete.outward _ hdeliver rfl
  revert hsrc
  decide +kernel

end Magicbox.Guarantees.IdentityTranslation
