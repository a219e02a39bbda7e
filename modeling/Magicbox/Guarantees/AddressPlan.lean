import Magicbox.Library.Blocks
import Magicbox.Source.KernelRequests
import Magicbox.Guarantees.AddressText

/-!
# The topology that `validate` accepts

`Topology` states the documented requirements on addresses and subnets without
masks: a subnet is an aligned block of addresses, a host is a member that is
neither its first nor its last, and the two subnets are disjoint sets.
`validate` decides it, and the route of an accepted configuration covers the
outer subnet.
-/

set_option autoImplicit false

namespace Magicbox.Guarantees.AddressPlan
open Library.Blocks Source.Config Source.Netns Source.Nftables Source.NetworkController
  Guarantees.AddressText

/-! ## What a configuration is to be -/

/-- The addresses that share their first bits. -/
def subnet (prefixLength address : Nat) : Set Nat := block (32 - prefixLength) address

/-- A member that is neither the network address nor the broadcast address. -/
structure Host (S : Set Nat) (address : Nat) : Prop where
  mem : address ∈ S
  not_network : ¬ IsLeast S address
  not_broadcast : ¬ IsGreatest S address

/-- Two hosts of one subnet. -/
structure Side (prefixLength : Nat) (S : Set Nat) (address gateway : Nat) : Prop where
  subnet : ∃ a < 2 ^ 32, S = subnet prefixLength a
  host : Host S address
  router : Host S gateway
  distinct : address ≠ gateway

/-- The addresses of a configuration and the subnets they are in. -/
structure Plan (c : NetworkConfig) (device innerGateway outer outerGateway : Nat)
    (inside outside : Set Nat) : Prop where
  deviceIpv4 : Denotes c.deviceIpv4 device ∧ Unicast device
  innerGatewayIpv4 : Denotes c.innerGatewayIpv4 innerGateway ∧ Unicast innerGateway
  outerIpv4 : Denotes c.outerIpv4 outer ∧ Unicast outer
  outerGatewayIpv4 : Denotes c.outerGatewayIpv4 outerGateway ∧ Unicast outerGateway
  innerSide : Side c.innerPrefix.toNat inside device innerGateway
  outerSide : Side c.outerPrefix.toNat outside outer outerGateway
  disjoint : ∀ a ∈ inside, a ∉ outside

structure Topology (c : NetworkConfig) : Prop where
  outerInterface : InterfaceName c.outerInterface
  innerInterface : InterfaceName c.innerInterface
  interfaces : c.outerInterface ≠ c.innerInterface
  innerPrefix : 1 ≤ c.innerPrefix.toNat ∧ c.innerPrefix.toNat ≤ 30
  outerPrefix : 1 ≤ c.outerPrefix.toNat ∧ c.outerPrefix.toNat ≤ 30
  outerMac : UnicastMac c.outerMac.toList
  vlanId : ∀ id, c.vlanId = some id → 1 ≤ id.toNat ∧ id.toNat ≤ 4094
  plan : ∃ device innerGateway outer outerGateway inside outside,
    Plan c device innerGateway outer outerGateway inside outside

/-- The computation yields this, and shifts only by amounts from 2 to 31. -/
def Shifts {α : Type} (m : Shifting α) (a : α) : Prop :=
  ∃ amounts, m [] = .ok (a, amounts) ∧ ∀ n ∈ amounts, 2 ≤ n.toNat ∧ n.toNat ≤ 31

/-- The addresses that a route is taken for. -/
def routed (r : Route) : Set Nat := subnet r.dst.2 r.dst.1.toNat

/-! ## The checks on single fields -/

/-- The checks on single fields, as statements. -/
structure Fields (c : NetworkConfig) : Prop where
  outerInterface : InterfaceName c.outerInterface
  innerInterface : InterfaceName c.innerInterface
  interfaces : c.outerInterface ≠ c.innerInterface
  deviceIpv4 : unicastIpv4 c.deviceIpv4 = true
  innerGatewayIpv4 : unicastIpv4 c.innerGatewayIpv4 = true
  outerIpv4 : unicastIpv4 c.outerIpv4 = true
  outerGatewayIpv4 : unicastIpv4 c.outerGatewayIpv4 = true
  innerPrefix : 1 ≤ c.innerPrefix.toNat ∧ c.innerPrefix.toNat ≤ 30
  outerPrefix : 1 ≤ c.outerPrefix.toNat ∧ c.outerPrefix.toNat ≤ 30
  inner_ne : c.deviceIpv4 ≠ c.innerGatewayIpv4
  outer_ne : c.outerIpv4 ≠ c.outerGatewayIpv4
  outerMac : UnicastMac c.outerMac.toList
  vlanId : ∀ id, c.vlanId = some id → 1 ≤ id.toNat ∧ id.toNat ≤ 4094

theorem ite_nil_iff {p : Prop} [Decidable p] {α : Type} {a : α} :
    (if p then [a] else []) = [] ↔ ¬ p := by
  split <;> simp [*]

theorem vlan_iff (id : UInt16) :
    ¬ (id < 1 || id > 4094) = true ↔ 1 ≤ id.toNat ∧ id.toNat ≤ 4094 := by
  have h1 : (1 : UInt16).toNat = 1 := rfl
  have h4094 : (4094 : UInt16).toNat = 4094 := rfl
  simp only [Bool.or_eq_true, decide_eq_true_eq, gt_iff_lt, UInt16.lt_iff_toNat_lt, h1, h4094]
  omega

theorem fieldErrors_iff (c : NetworkConfig) : fieldErrors c = [] ↔ Fields c := by
  unfold fieldErrors
  simp only [List.append_eq_nil_iff, ite_nil_iff, List.flatMap_eq_nil_iff, List.forall_mem_cons,
    prefixes_iff, Bool.not_eq_true', Bool.not_eq_false, beq_iff_eq, validInterface_iff,
    unicastMac_iff]
  constructor
  · rintro ⟨⟨⟨⟨⟨⟨⟨⟨ho, hi⟩, hne⟩, hd, hg, hou, hog, -⟩, hp⟩, hin⟩, hon⟩, hmac⟩, hv⟩
    refine ⟨ho, hi, hne, hd, hg, hou, hog, hp.1, hp.2, hin, hon, hmac, fun id hid => ?_⟩
    rw [hid] at hv
    exact (vlan_iff id).mp (ite_nil_iff.mp hv)
  · intro h
    refine ⟨⟨⟨⟨⟨⟨⟨⟨h.outerInterface, h.innerInterface⟩, h.interfaces⟩, h.deviceIpv4,
      h.innerGatewayIpv4, h.outerIpv4, h.outerGatewayIpv4, by simp⟩, h.innerPrefix,
      h.outerPrefix⟩, h.inner_ne⟩, h.outer_ne⟩, h.outerMac⟩, ?_⟩
    have hvlan := h.vlanId
    cases hid : c.vlanId with
    | none => rfl
    | some id => exact ite_nil_iff.mpr ((vlan_iff id).mpr (hvlan id hid))

/-! ## Masks -/

theorem netmask_eq (p : UInt32) : netmask p = mask 32 (32 - p.toNat) := rfl

section Masks
variable {p q : UInt32} {x y : BitVec 32}

theorem masked_eq_iff : x &&& netmask p = y &&& netmask p ↔
    y.toNat ∈ subnet p.toNat x.toNat := by
  rw [netmask_eq, and_mask_eq_iff, subnet, mem_block]
  exact eq_comm

theorem usable_iff : usable x (netmask p) = true ↔
    ¬ IsLeast (subnet p.toNat x.toNat) x.toNat ∧
      ¬ IsGreatest (subnet p.toNat x.toNat) x.toNat := by
  have hs : 32 - p.toNat ≤ 32 := Nat.sub_le _ _
  rw [subnet, isLeast_iff, isGreatest_iff, usable, netmask_eq]
  simp only [Bool.and_eq_true, bne_iff_ne, ne_eq, ← BitVec.toNat_inj, and_not_mask_toNat _ hs,
    not_mask_toNat hs]
  rfl

/-- Under the mask of the shorter prefix, addresses differ when their subnets are disjoint. -/
theorem common_iff (hp : p.toNat ≤ 32) (hq : q.toNat ≤ 32) :
    x &&& (if p < q then netmask p else netmask q) ≠
        y &&& (if p < q then netmask p else netmask q) ↔
      ∀ a ∈ subnet p.toNat x.toNat, a ∉ subnet q.toNat y.toNat := by
  have hmax : (if p < q then netmask p else netmask q) =
      mask 32 (max (32 - p.toNat) (32 - q.toNat)) := by
    split
    · rename_i h
      rw [UInt32.lt_iff_toNat_lt] at h
      rw [netmask_eq, Nat.max_eq_left (by omega)]
    · rename_i h
      rw [UInt32.lt_iff_toNat_lt] at h
      rw [netmask_eq, Nat.max_eq_right (by omega)]
  rw [hmax, ne_eq, and_mask_eq_iff, subnet, subnet, disjoint_iff]

end Masks

/-! ## The address plan -/

/-- The checks on the address plan, as statements. -/
structure Subnets (c : NetworkConfig) : Prop where
  innerHost : usable (host c.innerGatewayIpv4) (netmask c.innerPrefix) = true
  deviceHost : usable (host c.deviceIpv4) (netmask c.innerPrefix) = true
  outerHost : usable (host c.outerIpv4) (netmask c.outerPrefix) = true
  gatewayHost : usable (host c.outerGatewayIpv4) (netmask c.outerPrefix) = true
  inner : (host c.deviceIpv4).toNat ∈ subnet c.innerPrefix.toNat (host c.innerGatewayIpv4).toNat
  outer : (host c.outerGatewayIpv4).toNat ∈ subnet c.outerPrefix.toNat (host c.outerIpv4).toNat
  disjoint : ∀ a ∈ subnet c.innerPrefix.toNat (host c.innerGatewayIpv4).toNat,
    a ∉ subnet c.outerPrefix.toNat (host c.outerIpv4).toNat

theorem subnetErrors_iff {c : NetworkConfig} (hc : Fields c) :
    subnetErrors c (netmask c.innerPrefix) (netmask c.outerPrefix) = [] ↔ Subnets c := by
  have hp := hc.innerPrefix
  have hq := hc.outerPrefix
  unfold subnetErrors
  simp only [List.append_eq_nil_iff, ite_nil_iff, Bool.or_eq_true, Bool.not_eq_true',
    bne_iff_ne, beq_iff_eq, not_or, Bool.not_eq_false, not_not, ne_eq, masked_eq_iff]
  rw [← ne_eq, common_iff (by omega) (by omega)]
  constructor
  · rintro ⟨⟨⟨⟨⟨⟨hi, hd⟩, ho⟩, hg⟩, hinner⟩, houter⟩, hdisjoint⟩
    exact ⟨hi, hd, ho, hg, hinner, houter, hdisjoint⟩
  · rintro ⟨hi, hd, ho, hg, hinner, houter, hdisjoint⟩
    exact ⟨⟨⟨⟨⟨⟨hi, hd⟩, ho⟩, hg⟩, hinner⟩, houter⟩, hdisjoint⟩

/-- A usable address that shares its subnet with another one is a host of it. -/
theorem host_of_usable {p : UInt32} {x : BitVec 32} {a : Nat}
    (hmem : x.toNat ∈ subnet p.toNat a) (h : usable x (netmask p) = true) :
    Host (subnet p.toNat a) x.toNat := by
  obtain ⟨hnetwork, hbroadcast⟩ := usable_iff.mp h
  have hsame : subnet p.toNat x.toNat = subnet p.toNat a := block_eq hmem
  rw [hsame] at hnetwork hbroadcast
  exact ⟨hmem, hnetwork, hbroadcast⟩

theorem usable_of_host {p : UInt32} {x : BitVec 32} {a : Nat}
    (h : Host (subnet p.toNat a) x.toNat) : usable x (netmask p) = true := by
  have hsame : subnet p.toNat x.toNat = subnet p.toNat a := block_eq h.mem
  refine usable_iff.mpr ?_
  rw [hsame]
  exact ⟨h.not_network, h.not_broadcast⟩

theorem plan_iff {c : NetworkConfig} (hc : Fields c) :
    Subnets c ↔ ∃ device innerGateway outer outerGateway inside outside,
      Plan c device innerGateway outer outerGateway inside outside := by
  have hdevice := (unicastIpv4_iff _).mp hc.deviceIpv4
  have hinner := (unicastIpv4_iff _).mp hc.innerGatewayIpv4
  have houter := (unicastIpv4_iff _).mp hc.outerIpv4
  have hgateway := (unicastIpv4_iff _).mp hc.outerGatewayIpv4
  constructor
  · intro h
    refine ⟨_, _, _, _, _, _, hdevice, hinner, houter, hgateway,
      ⟨⟨_, (host c.innerGatewayIpv4).isLt, rfl⟩, host_of_usable h.inner h.deviceHost,
        host_of_usable (self_mem_block _ _) h.innerHost, fun heq => ?_⟩,
      ⟨⟨_, (host c.outerIpv4).isLt, rfl⟩, host_of_usable (self_mem_block _ _) h.outerHost,
        host_of_usable h.outer h.gatewayHost, fun heq => ?_⟩, h.disjoint⟩
    · exact hc.inner_ne (denotes_inj hdevice.1 (heq ▸ hinner.1))
    · exact hc.outer_ne (denotes_inj houter.1 (heq ▸ hgateway.1))
  · rintro ⟨device, innerGateway, outer, outerGateway, inside, outside, h⟩
    obtain ⟨⟨a, -, hinside⟩, hdeviceHost, hinnerHost, -⟩ := h.innerSide
    obtain ⟨⟨b, -, houtside⟩, houterHost, hgatewayHost, -⟩ := h.outerSide
    have hdisjoint := h.disjoint
    rw [denotes_host h.deviceIpv4.1, hinside] at hdeviceHost
    rw [denotes_host h.innerGatewayIpv4.1, hinside] at hinnerHost
    rw [denotes_host h.outerIpv4.1, houtside] at houterHost
    rw [denotes_host h.outerGatewayIpv4.1, houtside] at hgatewayHost
    have hinnerNet : subnet c.innerPrefix.toNat (host c.innerGatewayIpv4).toNat =
        subnet c.innerPrefix.toNat a := block_eq hinnerHost.mem
    have houterNet : subnet c.outerPrefix.toNat (host c.outerIpv4).toNat =
        subnet c.outerPrefix.toNat b := block_eq houterHost.mem
    refine ⟨usable_of_host hinnerHost, usable_of_host hdeviceHost, usable_of_host houterHost,
      usable_of_host hgatewayHost, ?_, ?_, ?_⟩
    · rw [hinnerNet]
      exact hdeviceHost.mem
    · rw [houterNet]
      exact hgatewayHost.mem
    · rw [hinnerNet, houterNet, ← hinside, ← houtside]
      exact hdisjoint

/-! ## The decision -/

theorem fields_of_topology {c : NetworkConfig} (h : Topology c) : Fields c := by
  obtain ⟨device, innerGateway, outer, outerGateway, inside, outside, hplan⟩ := h.plan
  have hunicast : ∀ {text : String} {address : Nat}, Denotes text address ∧ Unicast address →
      unicastIpv4 text = true := by
    rintro text address ⟨hdenotes, hgood⟩
    have haddress := denotes_host hdenotes
    rw [haddress] at hdenotes hgood
    exact (unicastIpv4_iff text).mpr ⟨hdenotes, hgood⟩
  refine ⟨h.outerInterface, h.innerInterface, h.interfaces, hunicast hplan.deviceIpv4,
    hunicast hplan.innerGatewayIpv4, hunicast hplan.outerIpv4, hunicast hplan.outerGatewayIpv4,
    h.innerPrefix, h.outerPrefix, fun heq => ?_, fun heq => ?_, h.outerMac, h.vlanId⟩
  · refine hplan.innerSide.distinct ?_
    rw [denotes_host hplan.deviceIpv4.1, denotes_host hplan.innerGatewayIpv4.1, heq]
  · refine hplan.outerSide.distinct ?_
    rw [denotes_host hplan.outerIpv4.1, denotes_host hplan.outerGatewayIpv4.1, heq]

theorem validate_nil_iff (c : NetworkConfig) :
    validate c = [] ↔ Fields c ∧ Subnets c := by
  constructor
  · intro h
    have hfields := fieldErrors_of_validate h
    have hc := (fieldErrors_iff c).mp hfields
    rw [validate_eq, if_pos hfields] at h
    exact ⟨hc, (subnetErrors_iff hc).mp h⟩
  · rintro ⟨hc, hsubnets⟩
    rw [validate_eq, if_pos ((fieldErrors_iff c).mpr hc)]
    exact (subnetErrors_iff hc).mpr hsubnets

theorem validate_iff_topology (c : NetworkConfig) : validate c = [] ↔ Topology c := by
  rw [validate_nil_iff]
  constructor
  · rintro ⟨hc, hsubnets⟩
    exact ⟨hc.outerInterface, hc.innerInterface, hc.interfaces, hc.innerPrefix, hc.outerPrefix,
      hc.outerMac, hc.vlanId, (plan_iff hc).mp hsubnets⟩
  · intro h
    have hc := fields_of_topology h
    exact ⟨hc, (plan_iff hc).mpr h.plan⟩

/-! ## Shifts and the route -/

theorem shift_bounds {p : UInt32} (h : 1 ≤ p.toNat ∧ p.toNat ≤ 30) :
    2 ≤ (32 - p).toNat ∧ (32 - p).toNat ≤ 31 := by
  have h32 : (32 : UInt32).toNat = 32 := rfl
  have hle : p ≤ 32 := by
    rw [UInt32.le_iff_toNat_le, h32]
    omega
  rw [UInt32.toNat_sub_of_le _ _ hle, h32]
  omega

/-- The masks of `validate` are shifts by what the prefixes leave of a word. -/
theorem shifts_checkConfig (c : NetworkConfig) : Shifts (checkConfig c) (validate c) := by
  by_cases h : fieldErrors c = []
  · have hc := (fieldErrors_iff c).mp h
    refine ⟨[32 - c.innerPrefix, 32 - c.outerPrefix], ?_, fun n hn => ?_⟩
    · rw [checkConfig_run, validate_eq, if_pos h, if_pos h]
      rfl
    · rcases List.mem_pair.mp hn with rfl | rfl
      · exact shift_bounds hc.innerPrefix
      · exact shift_bounds hc.outerPrefix
  · refine ⟨[], ?_, by simp⟩
    rw [checkConfig_run, validate_eq, if_neg h, if_neg h]

theorem ipv4_host {text : String} (h : unicastIpv4 text = true) : ipv4 text = .ok (host text) := by
  have hdenotes := ((unicastIpv4_iff text).mp h).1
  rw [ipv4, cStr_of_denotes hdenotes, inetPton_iff.mpr hdenotes]

/-- The message of a route can be built: the address is legible, and the shift is defined. -/
theorem routeTo_defined {c : NetworkConfig} (hc : Fields c) (gateway : Bool) :
    ∃ m, routeTo c gateway = .ok m ∧ Shifts m (routeEntry c gateway) ∧
      routeOf c gateway = .ok (routeEntry c gateway) := by
  have hp := hc.outerPrefix
  obtain ⟨m, hm⟩ := routeTo_made (ipv4_host hc.outerGatewayIpv4) (ipv4_host hc.outerIpv4) gateway
  have hrun := routeTo_run hm (by omega) []
  refine ⟨m, hm, ⟨_, hrun, fun n hn => ?_⟩, routeOf_routeEntry hm (by omega)⟩
  cases gateway with
  | true => cases hn
  | false =>
    rw [List.mem_singleton.mp hn]
    exact shift_bounds hp

/-- The destination of the route to the outer side is the outer subnet. -/
theorem routed_outer {c : NetworkConfig} (hc : Fields c) :
    routed (routeEntry c false) = subnet c.outerPrefix.toNat (host c.outerIpv4).toNat ∧
      IsLeast (routed (routeEntry c false)) (routeEntry c false).dst.1.toNat := by
  have hp := hc.outerPrefix
  have hmasked : (host c.outerIpv4 &&& netmask c.outerPrefix).toNat =
      (host c.outerIpv4).toNat / 2 ^ (32 - c.outerPrefix.toNat) *
        2 ^ (32 - c.outerPrefix.toNat) := and_mask_toNat _ _
  have hleast := isLeast_block (32 - c.outerPrefix.toNat) (host c.outerIpv4).toNat
  rw [← hmasked] at hleast
  have hlength : c.outerPrefix.toNat % 256 = c.outerPrefix.toNat := Nat.mod_eq_of_lt (by omega)
  have hrouted : block (32 - c.outerPrefix.toNat)
      (host c.outerIpv4 &&& netmask c.outerPrefix).toNat =
        block (32 - c.outerPrefix.toNat) (host c.outerIpv4).toNat := block_eq hleast.1
  simp only [routed, subnet, routeEntry, Bool.false_eq_true, if_false, hlength, hrouted]
  exact ⟨trivial, hleast⟩

/-- `validate` decides the topology. Its masks and the one of `route` come from shifts that
are defined, and the route's destination is the outer subnet. -/
theorem validate_decides (c : NetworkConfig) :
    (validate c = [] ↔ Topology c) ∧ Shifts (checkConfig c) (validate c) ∧
      (validate c = [] →
        (∀ gateway, ∃ m r, routeTo c gateway = .ok m ∧ Shifts m r ∧ routeOf c gateway = .ok r) ∧
        ∃ r, routeOf c false = .ok r ∧ IsLeast (routed r) r.dst.1.toNat ∧
          ∀ device innerGateway outer outerGateway inside outside,
            Plan c device innerGateway outer outerGateway inside outside →
              routed r = outside ∧ outerGateway ∈ routed r) := by
  refine ⟨validate_iff_topology c, shifts_checkConfig c, fun hvalid => ?_⟩
  have hc := ((validate_nil_iff c).mp hvalid).1
  obtain ⟨-, -, -, hr⟩ := routeTo_defined hc false
  obtain ⟨hrouted, hleast⟩ := routed_outer hc
  refine ⟨fun gateway => ?_, _, hr, hleast,
    fun device innerGateway outer outerGateway inside outside h => ?_⟩
  · obtain ⟨m, hm⟩ := routeTo_defined hc gateway
    exact ⟨m, _, hm⟩
  · obtain ⟨⟨a, -, houtside⟩, houter, hgateway, -⟩ := h.outerSide
    have hmem := houter.mem
    rw [denotes_host h.outerIpv4.1, houtside] at hmem
    have hsame : routed (routeEntry c false) = outside := by
      rw [hrouted, houtside]
      exact block_eq hmem
    exact ⟨hsame, hsame ▸ hgateway.mem⟩

end Magicbox.Guarantees.AddressPlan
