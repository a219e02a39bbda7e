import Magicbox.Guarantees.AddressPlan
import Magicbox.Guarantees.MacDecoding
import Magicbox.Source.HealthySteps

/-!
# An installation that goes through

On a kernel with two unaddressed ports and none of the reserved resources, every
request of install() is one that the kernel takes, in its turn: the links are
there when they are set up, no address, route or rule is there twice, and the
guard is there when the last batch replaces it.
-/

set_option autoImplicit false

namespace Magicbox.Guarantees.HealthyInstall
open Library.Crash Library.Completion Source Source.Config Source.Nftables Source.Netns
  Source.NetworkController AddressPlan AddressText MacDecoding

variable {c : NetworkConfig} {k k' : Kernel}

/-! ## Texts of a valid configuration -/

theorem legible_of_validate (h : validate c = []) : Legible c := by
  have hc := (fieldErrors_iff c).mp (fieldErrors_of_validate h)
  have hp := hc.outerPrefix
  refine ⟨ipv4_host hc.deviceIpv4, ipv4_host hc.innerGatewayIpv4, ipv4_host hc.outerIpv4,
    ipv4_host hc.outerGatewayIpv4, by omega, .inr ?_⟩
  obtain ⟨bytes, hspells, -⟩ := (unicastMac_spells c.outerMac).mp
    ((unicastMac_iff c.outerMac).mpr hc.outerMac)
  exact ⟨_, macBytes_spells hspells⟩

/-! ## Requests that touch what is there -/

/-- The link is there and has no address. -/
def Blank (k : Kernel) (name : String) : Prop := (k.links name).map (·.addrInfo) = some []

theorem Blank.present {name : String} (h : Blank k name) : k.present name = true := by
  unfold Blank at h
  unfold Kernel.present
  cases hlink : k.links name with
  | none => rw [hlink] at h; cases h
  | some link => rfl

/-- The same links with the same addresses, routes, rules and tables. -/
structure Alike (k k' : Kernel) : Prop where
  addresses : ∀ name, (k'.links name).map (·.addrInfo) = (k.links name).map (·.addrInfo)
  routes : k'.routes = k.routes
  rules : k'.rules = k.rules
  tables : k'.tables = k.tables

theorem Alike.refl (k : Kernel) : Alike k k := ⟨fun _ => rfl, rfl, rfl, rfl⟩

theorem Alike.trans {k₁ k₂ k₃ : Kernel} (h : Alike k₁ k₂) (h' : Alike k₂ k₃) : Alike k₁ k₃ :=
  ⟨fun name => (h'.addresses name).trans (h.addresses name), h'.routes.trans h.routes,
    h'.rules.trans h.rules, h'.tables.trans h.tables⟩

theorem Alike.blank (h : Alike k k') {name : String} (hblank : Blank k name) : Blank k' name :=
  (h.addresses name).trans hblank

theorem Alike.present (h : Alike k k') (name : String) : k'.present name = k.present name := by
  have hsome := congrArg Option.isSome (h.addresses name)
  simpa [Kernel.present] using hsome

/-- The request sets something on a link that is there, or on the host. -/
def Touches (k : Kernel) : Request → Prop
  | .setLink name _ _ => k.present name = true
  | .write file _ => Sysctl.Exists k file
  | _ => False

theorem Alike.touches (h : Alike k k') {r : Request} (ht : Touches k r) : Touches k' r := by
  cases r with
  | setLink name up mac => exact (h.present name).trans ht
  | write file value =>
    cases file with
    | disableIpv6 name | rpFilter name => exact (h.present name).trans ht
    | ipForward | rpFilterAll => trivial
  | _ => exact ht.elim

theorem alike_mapLink (k : Kernel) (name : String) {f : Link → Link}
    (hf : ∀ link, (f link).addrInfo = link.addrInfo) : Alike k (k.mapLink name f) := by
  refine ⟨fun other => ?_, by simp, by simp, by simp⟩
  rw [Kernel.links_mapLink]
  split
  · next heq =>
    rw [heq, Option.map_map]
    exact congrArg (Option.map · _) (funext hf)
  · rfl

theorem Touches.served {r : Request} (h : Touches k r) :
    (∃ k', k.serve r = .ok k') ∧ Alike k (k.after r) := by
  cases r with
  | setLink name up mac =>
    obtain ⟨link, hlink⟩ := Option.isSome_iff_exists.mp h
    refine ⟨?_, ?_⟩
    · simp only [Kernel.serve, Kernel.onLink, hlink]
      exact ⟨_, rfl⟩
    · rw [Kernel.after_setLink]
      exact alike_mapLink k name fun _ => rfl
  | write file value =>
    refine ⟨serve_write h value, ?_⟩
    cases file with
    | disableIpv6 name =>
      rw [Kernel.after_disableIpv6]
      exact alike_mapLink k name fun _ => rfl
    | rpFilter name =>
      rw [Kernel.after_rpFilter]
      exact alike_mapLink k name fun _ => rfl
    | ipForward => exact ⟨fun _ => rfl, rfl, rfl, rfl⟩
    | rpFilterAll => exact ⟨fun _ => rfl, rfl, rfl, rfl⟩
  | _ => exact h.elim

theorem serves_touching {rs : List Request} (h : ∀ r ∈ rs, Touches k r) :
    Serves k rs ∧ Alike k (applyAll (requests rs) k) := by
  induction rs generalizing k with
  | nil => exact ⟨trivial, Alike.refl k⟩
  | cons r rs ih =>
    obtain ⟨htaken, halike⟩ := (h r List.mem_cons_self).served
    obtain ⟨hrest, halike'⟩ := ih fun r' hr' => halike.touches (h r' (List.mem_cons_of_mem r hr'))
    exact ⟨⟨htaken, hrest⟩, halike.trans halike'⟩

/-! ## The requests of install -/

/-- What admission finds. -/
structure Free (c : NetworkConfig) (k : Kernel) : Prop where
  outer : Blank k c.outerInterface
  inner : Blank k c.innerInterface
  distinct : c.outerInterface ≠ c.innerInterface
  vlan : k.present vlanName = false
  routes : k.routes = []
  rules : k.rules = []

/-- Both sides can get their addresses. -/
structure Ready (c : NetworkConfig) (k : Kernel) : Prop where
  outer : Blank k (effectiveOuter c)
  inner : Blank k c.innerInterface
  distinct : effectiveOuter c ≠ c.innerInterface
  routes : k.routes = []
  rules : k.rules = []

theorem Ready.alike (h : Ready c k) (halike : Alike k k') : Ready c k' :=
  ⟨halike.blank h.outer, halike.blank h.inner, h.distinct, halike.routes.trans h.routes,
    halike.rules.trans h.rules⟩

theorem Ready.nft (h : Ready c k) (batch : Batch) : Ready c (k.after (.nft batch)) := by
  rw [Kernel.after_nft]
  exact ⟨h.outer, h.inner, h.distinct, h.routes, h.rules⟩

theorem Free.alike (h : Free c k) (halike : Alike k k') : Free c k' :=
  ⟨halike.blank h.outer, halike.blank h.inner, h.distinct, (halike.present _).trans h.vlan,
    halike.routes.trans h.routes, halike.rules.trans h.rules⟩

theorem Free.distinct_vlan (h : Free c k) : vlanName ≠ c.innerInterface := by
  intro heq
  have hinner := h.inner.present
  rw [← heq, h.vlan] at hinner
  cases hinner

theorem serves_vlan (h : Free c k) :
    Serves k (vlanRequests c) ∧ Ready c (applyAll (requests (vlanRequests c)) k) := by
  unfold vlanRequests
  split
  · next hvlan =>
    have heffective : effectiveOuter c = vlanName := by
      rw [effectiveOuter, if_pos hvlan]
      rfl
    obtain ⟨link, hlink⟩ := Option.isSome_iff_exists.mp h.outer.present
    let added := k.after (.addVlan c.outerInterface (c.vlanId.getD 0))
    have hadded : added = k.setLinks vlanName
        (some (Kernel.vlanLink c.outerInterface (c.vlanId.getD 0) link)) := by
      simp only [added, Kernel.after_addVlan, h.vlan, hlink]
      rfl
    have htaken : ∃ k', k.serve (.addVlan c.outerInterface (c.vlanId.getD 0)) = .ok k' := by
      simp only [Kernel.serve, h.vlan, hlink]
      exact ⟨_, rfl⟩
    have hblank : Blank added vlanName := by
      rw [hadded]
      simp [Blank, Kernel.vlanLink]
    have hready : Ready c added := by
      rw [heffective.symm] at hblank
      refine ⟨hblank, ?_, heffective ▸ h.distinct_vlan, ?_, ?_⟩
      · rw [hadded, Blank, Kernel.links_setLinks, if_neg h.distinct_vlan.symm]
        exact h.inner
      · rw [hadded]
        exact h.routes
      · rw [hadded]
        exact h.rules
    have htouch : ∀ r ∈ preparePortRequests vlanName ++ [.setLink (effectiveOuter c) true none],
        Touches added r := by
      intro r hr
      simp only [preparePortRequests, heffective, List.cons_append, List.nil_append, List.mem_cons,
        List.not_mem_nil, or_false] at hr
      rcases hr with rfl | rfl | rfl <;> exact hblank.present
    obtain ⟨hserves, halike⟩ := serves_touching htouch
    exact ⟨⟨htaken, hserves⟩, hready.alike halike⟩
  · next hvlan =>
    have heffective : effectiveOuter c = c.outerInterface := by
      rw [effectiveOuter, if_neg hvlan]
    exact ⟨trivial, heffective ▸ h.outer, h.inner, heffective ▸ h.distinct, h.routes, h.rules⟩

theorem serves_prepare (h : Free c k) :
    Serves k (prepareRequests c) ∧ Ready c (applyAll (requests (prepareRequests c)) k) := by
  have htouch : ∀ r ∈ preparePortRequests c.outerInterface ++
      preparePortRequests c.innerInterface ++ [.setLink c.outerInterface false none,
        .setLink c.outerInterface false (macAttribute c.outerMac),
        .setLink c.outerInterface true none], Touches k r := by
    intro r hr
    simp only [preparePortRequests, List.cons_append, List.nil_append, List.mem_cons,
      List.not_mem_nil, or_false] at hr
    rcases hr with rfl | rfl | rfl | rfl | rfl | rfl | rfl
    · exact h.outer.present
    · exact h.outer.present
    · exact h.inner.present
    · exact h.inner.present
    · exact h.outer.present
    · exact h.outer.present
    · exact h.outer.present
  obtain ⟨hserves, halike⟩ := serves_touching htouch
  obtain ⟨hvlan, hready⟩ := serves_vlan (h.alike halike)
  refine ⟨serves_append.mpr ⟨hserves, hvlan⟩, ?_⟩
  rw [prepareRequests, requests_append, applyAll_append]
  exact hready

/-- An address for a link that has none is taken, and is nobody else's business. -/
theorem Blank.address {name : String} (h : Blank k name) (a : Ifaddr) :
    (∃ k', k.serve (.addAddress name a) = .ok k') ∧
      (k.after (.addAddress name a)).present name = true ∧
      (∀ other, other ≠ name → (k.after (.addAddress name a)).links other = k.links other) := by
  obtain ⟨link, hlink⟩ := Option.isSome_iff_exists.mp h.present
  have hnone : link.addrInfo = [] := by
    rw [Blank, hlink] at h
    exact Option.some.inj h
  refine ⟨?_, ?_, fun other hne => ?_⟩
  · simp only [Kernel.serve, Kernel.onLink, hlink, hnone, List.not_mem_nil, if_false]
    exact ⟨_, rfl⟩
  · rw [Kernel.after_addAddress, Kernel.present_mapLink]
    exact h.present
  · rw [Kernel.after_addAddress, Kernel.links_mapLink, if_neg hne]

theorem served_addRoute {r : Route} (hpresent : k.present r.oif = true) (hnew : r ∉ k.routes) :
    (∃ k', k.serve (.addRoute r) = .ok k') ∧
      k.after (.addRoute r) = { k with routes := k.routes ++ [r] } := by
  have hserve : k.serve (.addRoute r) = .ok { k with routes := k.routes ++ [r] } := by
    simp [Kernel.serve, hpresent, hnew]
  exact ⟨⟨_, hserve⟩, by simp only [Kernel.after, hserve]⟩

theorem served_addRule {r : PolicyRule} (hnew : r ∉ k.rules) :
    ∃ k', k.serve (.addRule r) = .ok k' := by
  simp only [Kernel.serve, if_neg hnew]
  exact ⟨_, rfl⟩

theorem serves_connect (h : Ready c k) : Serves k (connectRequests c) := by
  obtain ⟨hset, halike⟩ := Touches.served (k := k)
    (r := .setLink c.innerInterface true none) h.inner.present
  obtain ⟨houter, hinner, hdistinct, hroutes, hrules⟩ := h.alike halike
  obtain ⟨hinside, -, hothers⟩ := hinner.address (ifaddr c.innerGatewayIpv4 c.innerPrefix)
  have houter' : Blank ((k.after (.setLink c.innerInterface true none)).after
      (.addAddress c.innerInterface (ifaddr c.innerGatewayIpv4 c.innerPrefix)))
      (effectiveOuter c) := by
    rw [Blank, hothers _ hdistinct]
    exact houter
  obtain ⟨houtside, hpresent, -⟩ := houter'.address (ifaddr c.outerIpv4 c.outerPrefix)
  have hfree : (((k.after (.setLink c.innerInterface true none)).after
      (.addAddress c.innerInterface (ifaddr c.innerGatewayIpv4 c.innerPrefix))).after
        (.addAddress (effectiveOuter c) (ifaddr c.outerIpv4 c.outerPrefix))).routes = [] ∧
      (((k.after (.setLink c.innerInterface true none)).after
        (.addAddress c.innerInterface (ifaddr c.innerGatewayIpv4 c.innerPrefix))).after
          (.addAddress (effectiveOuter c) (ifaddr c.outerIpv4 c.outerPrefix))).rules = [] := by
    rw [Kernel.after_addAddress, Kernel.after_addAddress]
    simp only [Kernel.mapLink_routes, Kernel.mapLink_rules, hroutes, hrules, and_self]
  refine ⟨hset, hinside, houtside, ?_⟩
  -- The addresses are there; what follows depends on routes and rules alone.
  generalize ((k.after (.setLink c.innerInterface true none)).after
    (.addAddress c.innerInterface (ifaddr c.innerGatewayIpv4 c.innerPrefix))).after
      (.addAddress (effectiveOuter c) (ifaddr c.outerIpv4 c.outerPrefix)) = addressed at *
  obtain ⟨hnoRoutes, hnoRules⟩ := hfree
  have hout : ∀ gateway, addressed.present (routeEntry c gateway).oif = true := fun gateway => by
    rw [routeEntry_oif]
    exact hpresent
  obtain ⟨hlink, hafter⟩ := served_addRoute (hout false) (by simp [hnoRoutes])
  refine ⟨hlink, ?_⟩
  rw [hafter, hnoRoutes]
  obtain ⟨hdefault, hafter'⟩ := served_addRoute
    (k := { addressed with routes := [] ++ [routeEntry c false] }) (hout true) (by
      simp [routeEntry])
  refine ⟨hdefault, ?_⟩
  rw [hafter']
  exact ⟨served_addRule (by simp [hnoRules]), ⟨_, rfl⟩, ⟨_, rfl⟩, trivial⟩

/-! ## The tables -/

/-- A table can always be defined, and is there then. -/
theorem define_run (t : Table) (tables : List Table) :
    ∃ tables', Command.run tables (.define t) = some tables' ∧
      hasTable t.family t.name tables' = true := by
  by_cases h : hasTable t.family t.name tables = true
  · refine ⟨_, if_pos h, ?_⟩
    unfold hasTable at h ⊢
    obtain ⟨old, hold, hnamed⟩ := List.any_eq_true.mp h
    rw [List.any_map]
    refine List.any_eq_true.mpr ⟨old, hold, ?_⟩
    simp only [Function.comp_apply, hnamed, if_true]
    exact hnamed
  · refine ⟨_, if_neg h, ?_⟩
    simp [hasTable, Table.named]

theorem served_nft {batch : Batch} {tables : List Table}
    (h : runBatch batch k.tables = some tables) :
    k.serve (.nft batch) = .ok { k with tables := tables } := by
  simp only [Kernel.serve, h]

theorem served_guard (c : NetworkConfig) (k : Kernel) :
    (∃ k', k.serve (.nft [.define (guardTable c)]) = .ok k') ∧
      hasTable .inet "magicbox" (k.after (.nft [.define (guardTable c)])).tables = true := by
  obtain ⟨tables, hrun, hthere⟩ := define_run (guardTable c) k.tables
  have hbatch : runBatch [.define (guardTable c)] k.tables = some tables := by
    simp only [runBatch, hrun, Option.bind_some]
  refine ⟨⟨_, served_nft hbatch⟩, ?_⟩
  simp only [Kernel.after, served_nft hbatch]
  exact hthere

theorem served_ruleset (c : NetworkConfig) (h : hasTable .inet "magicbox" k.tables = true) :
    ∃ k', k.serve (.nft [.deleteTable .inet "magicbox", .define (natTable c),
      .define (forwardTable c)]) = .ok k' := by
  have hdelete : Command.run k.tables (.deleteTable .inet "magicbox") =
      some (Nftables.dropTable .inet "magicbox" k.tables) := if_pos h
  obtain ⟨translated, hnat, -⟩ := define_run (natTable c)
    (Nftables.dropTable .inet "magicbox" k.tables)
  obtain ⟨tables, hforward, -⟩ := define_run (forwardTable c) translated
  have hbatch : runBatch [.deleteTable .inet "magicbox", .define (natTable c),
      .define (forwardTable c)] k.tables = some tables := by
    simp only [runBatch, hdelete, hnat, hforward, Option.bind_some]
  exact ⟨_, served_nft hbatch⟩

theorem connect_tables (c : NetworkConfig) (k : Kernel) :
    (applyAll (requests (connectRequests c)) k).tables = k.tables := by
  simp [connectRequests]

/-- On a free kernel install() is served from its first to its last request. -/
theorem serves_install (h : Free c k) : Serves k (installRequests c) := by
  obtain ⟨hprepare, hready⟩ := serves_prepare h
  obtain ⟨hguard, htable⟩ := served_guard c (applyAll (requests (prepareRequests c)) k)
  have hconnect := serves_connect (hready.nft [.define (guardTable c)])
  rw [installRequests, List.append_assoc, List.append_assoc]
  refine serves_append.mpr ⟨hprepare, serves_append.mpr ⟨⟨hguard, trivial⟩, ?_⟩⟩
  refine serves_append.mpr ⟨hconnect, served_ruleset c ?_, trivial⟩
  rw [connect_tables]
  exact htable

end Magicbox.Guarantees.HealthyInstall
