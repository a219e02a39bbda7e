import Magicbox.Source.KernelRequests

/-!
# The kernel between two steps

Relative to the kernel `K` that the controller found, every state it passes
through while it installs or removes a configuration `c` has the same shape.
Its own tables are at one of five stages, everything else it added is one of
the resources `c` names, and while there is no table of its own it has added
nothing at all. `install` and `restore` are walks through these shapes.
-/

set_option autoImplicit false

namespace Magicbox.Guarantees.KernelShape
open Library.Crash Source Source.Config Source.Nftables Source.Netns Source.NetworkController

/-- The tables this controller owns. -/
def reserved (t : Table) : Bool := t.name = "magicbox"

/-- Which of the controller's tables exist, and whether the inner one is the
bare guard or has the accept rules. -/
inductive Stage where
  | bare
  | guarded
  | translated
  | swapped
  | exposed
  deriving DecidableEq

def Stage.tables (c : NetworkConfig) : Stage → List Table
  | .bare => []
  | .guarded => [guardTable c]
  | .translated => [natTable c, forwardTable c]
  | .swapped => [natTable c, guardTable c]
  | .exposed => [forwardTable c]

def Stage.swap : Stage → Stage
  | .bare | .guarded | .exposed => .guarded
  | .translated | .swapped => .swapped

def Stage.dropTranslation : Stage → Stage
  | .translated => .exposed
  | .swapped => .guarded
  | .bare => .bare
  | .guarded => .guarded
  | .exposed => .exposed

/-- The address was on the interface before. -/
def Native (K : Kernel) (name : String) (a : Ifaddr) : Prop :=
  ∃ link, K.links name = some link ∧ a ∈ link.addrInfo

/-- None of the reserved resources exists. -/
structure Pristine (K : Kernel) : Prop where
  tables : K.tables.filter reserved = []
  vlan : K.links vlanName = none
  routes : K.routes = []
  rules : K.rules = []

/-- Nothing of the controller's is left of whatever it added to `K`. -/
structure Bare (K k : Kernel) : Prop where
  foreign : k.tables.filter (!reserved ·) = K.tables.filter (!reserved ·)
  tables : k.tables.filter reserved = []
  routes : k.routes = []
  rules : k.rules = []
  vlan : k.links vlanName = none
  addresses : ∀ name link a, k.links name = some link → a ∈ link.addrInfo → Native K name a

/-- The tables that were there before, and the controller's own ones. -/
structure Tabled (K : Kernel) (own : List Table) (k : Kernel) : Prop where
  foreign : k.tables.filter (!reserved ·) = K.tables.filter (!reserved ·)
  tables : k.tables.filter reserved = own

structure Shape (K : Kernel) (c : NetworkConfig) (s : Stage) (k : Kernel) : Prop where
  foreign : k.tables.filter (!reserved ·) = K.tables.filter (!reserved ·)
  tables : k.tables.filter reserved = s.tables c
  routes : ∀ r ∈ k.routes, ∃ gateway, r = routeEntry c gateway
  rules : ∀ r ∈ k.rules, r = ruleEntry c
  oif : k.routes ≠ [] → k.present (effectiveOuter c) = true
  addresses : ∀ name link a, k.links name = some link → a ∈ link.addrInfo →
    Native K name a ∨ (name = c.innerInterface ∧ a = ifaddr c.innerGatewayIpv4 c.innerPrefix) ∨
      (name = effectiveOuter c ∧ a = ifaddr c.outerIpv4 c.outerPrefix)
  vlan : k.present vlanName = true → c.vlanId.isSome = true
  covered : s = .bare → k.routes = [] ∧ k.rules = [] ∧
    ∀ name link a, k.links name = some link → a ∈ link.addrInfo → Native K name a

section Shape
variable {K k : Kernel} {c : NetworkConfig} {s : Stage}

theorem bare_of_pristine (h : Pristine K) : Bare K K :=
  ⟨rfl, h.tables, h.routes, h.rules, h.vlan, fun _ link _ hl ha => ⟨link, hl, ha⟩⟩

/-- A bare kernel has the shape of every configuration that is not installed. -/
theorem Shape.of_bare (h : Bare K k) (c : NetworkConfig) : Shape K c .bare k where
  foreign := h.foreign
  tables := h.tables
  routes := by simp [h.routes]
  rules := by simp [h.rules]
  oif := by simp [h.routes]
  addresses := fun name link a hl ha => .inl (h.addresses name link a hl ha)
  vlan := by simp [Kernel.present, h.vlan]
  covered := fun _ => ⟨h.routes, h.rules, h.addresses⟩

theorem Shape.to_bare (h : Shape K c .bare k) (hvlan : k.links vlanName = none) : Bare K k :=
  ⟨h.foreign, h.tables, (h.covered rfl).1, (h.covered rfl).2.1, hvlan, (h.covered rfl).2.2⟩

/-! ## Steps that leave the tables alone -/

/-- An update of one link that adds no address. -/
theorem Shape.mapLink (h : Shape K c s k) (name : String) {f : Link → Link}
    (hf : ∀ link, (f link).addrInfo ⊆ link.addrInfo) : Shape K c s (k.mapLink name f) := by
  have back : ∀ other link a, (k.mapLink name f).links other = some link → a ∈ link.addrInfo →
      ∃ link', k.links other = some link' ∧ a ∈ link'.addrInfo := by
    intro other link a hl ha
    rw [Kernel.links_mapLink] at hl
    split at hl
    · next heq =>
      obtain ⟨old, hold, rfl⟩ := Option.map_eq_some_iff.mp hl
      exact ⟨old, heq ▸ hold, hf old ha⟩
    · exact ⟨link, hl, ha⟩
  refine ⟨by simpa using h.foreign, by simpa using h.tables, by simpa using h.routes,
    by simpa using h.rules, by simpa using h.oif, ?_, by simpa using h.vlan, ?_⟩
  · intro other link a hl ha
    obtain ⟨old, hold, hmem⟩ := back other link a hl ha
    exact h.addresses other old a hold hmem
  · intro hs
    obtain ⟨hroutes, hrules, hnative⟩ := h.covered hs
    refine ⟨by simpa using hroutes, by simpa using hrules, ?_⟩
    intro other link a hl ha
    obtain ⟨old, hold, hmem⟩ := back other link a hl ha
    exact hnative other old a hold hmem

/-- The shape reads the links, routes, rules and tables only. -/
theorem Shape.congr {k' : Kernel} (h : Shape K c s k) (hlinks : k'.links = k.links)
    (hroutes : k'.routes = k.routes) (hrules : k'.rules = k.rules)
    (htables : k'.tables = k.tables) : Shape K c s k' := by
  have hpresent : ∀ name, k'.present name = k.present name := by simp [Kernel.present, hlinks]
  refine ⟨?_, ?_, ?_, ?_, ?_, ?_, ?_, ?_⟩
  · rw [htables]; exact h.foreign
  · rw [htables]; exact h.tables
  · rw [hroutes]; exact h.routes
  · rw [hrules]; exact h.rules
  · rw [hroutes, hpresent]; exact h.oif
  · rw [hlinks]; exact h.addresses
  · rw [hpresent]; exact h.vlan
  · rw [hroutes, hrules, hlinks]; exact h.covered

theorem Shape.addVlan (h : Shape K c s k) (hc : c.vlanId.isSome = true) (parent : String)
    (id : UInt16) : Shape K c s (k.after (.addVlan parent id)) := by
  rw [Kernel.after_addVlan]
  split
  · exact h
  · next hnone =>
    have fresh : ∀ name link a,
        (k.setLinks vlanName ((k.links parent).map (Kernel.vlanLink parent id))).links name =
          some link → a ∈ link.addrInfo → k.links name = some link := by
      intro name link a hl ha
      rw [Kernel.links_setLinks] at hl
      split at hl
      · obtain ⟨old, -, rfl⟩ := Option.map_eq_some_iff.mp hl
        simp [Kernel.vlanLink] at ha
      · exact hl
    refine ⟨h.foreign, h.tables, h.routes, h.rules, ?_, ?_, fun _ => hc, ?_⟩
    · intro hroutes
      have hout := h.oif hroutes
      unfold Kernel.present at hout ⊢
      rw [Kernel.links_setLinks]
      split
      · next heq => rw [heq] at hout; exact absurd hout hnone
      · exact hout
    · exact fun name link a hl ha => h.addresses name link a (fresh name link a hl ha) ha
    · intro hs
      obtain ⟨hroutes, hrules, hnative⟩ := h.covered hs
      exact ⟨hroutes, hrules,
        fun name link a hl ha => hnative name link a (fresh name link a hl ha) ha⟩

theorem Shape.deleteVlan (h : Shape K c s k) : Shape K c s (k.after .deleteVlan) := by
  rw [Kernel.after_deleteVlan]
  split
  · have back : ∀ name link, (k.dropLink vlanName).links name = some link →
        k.links name = some link := by
      intro name link hl
      change (k.setLinks vlanName none).links name = some link at hl
      rw [Kernel.links_setLinks] at hl
      split at hl
      · cases hl
      · exact hl
    have hsub : ∀ r ∈ (k.dropLink vlanName).routes, r ∈ k.routes ∧ r.oif ≠ vlanName := by
      intro r hr
      simpa [Kernel.dropLink] using hr
    refine ⟨h.foreign, h.tables, fun r hr => h.routes r (hsub r hr).1, h.rules, ?_, ?_, ?_, ?_⟩
    · intro hroutes
      obtain ⟨r, hr⟩ := List.exists_mem_of_ne_nil _ hroutes
      obtain ⟨hmem, hoif⟩ := hsub r hr
      obtain ⟨gateway, rfl⟩ := h.routes r hmem
      rw [routeEntry_oif] at hoif
      have hout := h.oif (List.ne_nil_of_mem hmem)
      unfold Kernel.present at hout ⊢
      change ((k.setLinks vlanName none).links (effectiveOuter c)).isSome = true
      rwa [Kernel.links_setLinks, if_neg hoif]
    · exact fun name link a hl ha => h.addresses name link a (back name link hl) ha
    · intro hpresent
      change ((k.setLinks vlanName none).links vlanName).isSome = true at hpresent
      simp at hpresent
    · intro hs
      obtain ⟨hroutes, hrules, hnative⟩ := h.covered hs
      refine ⟨?_, hrules, fun name link a hl ha => hnative name link a (back name link hl) ha⟩
      simp [Kernel.dropLink, hroutes]
  · exact h

theorem Shape.addAddress (h : Shape K c s k) (hs : s ≠ .bare) {name : String} {a : Ifaddr}
    (ours : (name = c.innerInterface ∧ a = ifaddr c.innerGatewayIpv4 c.innerPrefix) ∨
      (name = effectiveOuter c ∧ a = ifaddr c.outerIpv4 c.outerPrefix)) :
    Shape K c s (k.after (.addAddress name a)) := by
  rw [Kernel.after_addAddress]
  refine ⟨by simpa using h.foreign, by simpa using h.tables, by simpa using h.routes,
    by simpa using h.rules, by simpa using h.oif, ?_, by simpa using h.vlan, fun hb => absurd hb hs⟩
  intro other link b hl hb
  rw [Kernel.links_mapLink] at hl
  split at hl
  · next heq =>
    obtain ⟨old, hold, rfl⟩ := Option.map_eq_some_iff.mp hl
    subst heq
    split at hb
    · exact h.addresses other old b hold hb
    · rcases List.mem_append.mp hb with hmem | hnew
      · exact h.addresses other old b hold hmem
      · obtain rfl := List.mem_singleton.mp hnew
        exact .inr ours
  · exact h.addresses other link b hl hb

theorem Shape.addRoute (h : Shape K c s k) (hs : s ≠ .bare) (gateway : Bool) :
    Shape K c s (k.after (.addRoute (routeEntry c gateway))) := by
  rw [Kernel.after_addRoute]
  refine ⟨h.foreign, h.tables, ?_, h.rules, ?_, h.addresses, h.vlan, fun hb => absurd hb hs⟩
  · intro r hr
    dsimp only at hr
    split at hr
    · exact h.routes r hr
    · rcases List.mem_append.mp hr with hmem | hnew
      · exact h.routes r hmem
      · exact ⟨gateway, List.mem_singleton.mp hnew⟩
  · intro hroutes
    dsimp only at hroutes
    split at hroutes
    · exact h.oif hroutes
    · next hadd =>
      have hout : k.present (effectiveOuter c) = true ∧ routeEntry c gateway ∉ k.routes := by
        simpa using hadd
      exact hout.1

theorem Shape.addRule (h : Shape K c s k) (hs : s ≠ .bare) :
    Shape K c s (k.after (.addRule (ruleEntry c))) := by
  rw [Kernel.after_addRule]
  refine ⟨h.foreign, h.tables, h.routes, ?_, h.oif, h.addresses, h.vlan, fun hb => absurd hb hs⟩
  intro r hr
  dsimp only at hr
  split at hr
  · exact h.rules r hr
  · rcases List.mem_append.mp hr with hmem | hnew
    · exact h.rules r hmem
    · exact List.mem_singleton.mp hnew

theorem Shape.deleteRoute (h : Shape K c s k) (r : Route) :
    Shape K c s (k.after (.deleteRoute r)) := by
  rw [Kernel.after_deleteRoute]
  refine ⟨h.foreign, h.tables, fun q hq => h.routes q (List.mem_filter.mp hq).1, h.rules, ?_,
    h.addresses, h.vlan, ?_⟩
  · intro hroutes
    obtain ⟨q, hq⟩ := List.exists_mem_of_ne_nil _ hroutes
    exact h.oif (List.ne_nil_of_mem (List.mem_filter.mp hq).1)
  · intro hs
    obtain ⟨hroutes, hrules, hnative⟩ := h.covered hs
    exact ⟨by simp [hroutes], hrules, hnative⟩

theorem Shape.deleteRule (h : Shape K c s k) (r : PolicyRule) :
    Shape K c s (k.after (.deleteRule r)) := by
  rw [Kernel.after_deleteRule]
  refine ⟨h.foreign, h.tables, h.routes, fun q hq => h.rules q (List.mem_filter.mp hq).1, h.oif,
    h.addresses, h.vlan, ?_⟩
  intro hs
  obtain ⟨hroutes, hrules, hnative⟩ := h.covered hs
  exact ⟨hroutes, by simp [hrules], hnative⟩

/-! ## Steps on the tables -/

theorem filter_reserved_dropTable (family : Family) (tables : List Table) :
    (Nftables.dropTable family "magicbox" tables).filter reserved =
      Nftables.dropTable family "magicbox" (tables.filter reserved) := by
  unfold Nftables.dropTable
  rw [List.filter_filter, List.filter_filter]
  exact List.filter_congr fun t _ => Bool.and_comm _ _

theorem filter_foreign_dropTable (family : Family) (tables : List Table) :
    (Nftables.dropTable family "magicbox" tables).filter (!reserved ·) =
      tables.filter (!reserved ·) := by
  unfold Nftables.dropTable
  rw [List.filter_filter]
  refine List.filter_congr fun t _ => ?_
  by_cases hname : t.name = "magicbox" <;> simp [reserved, Table.named, hname]

theorem hasTable_filter_reserved (family : Family) (tables : List Table) :
    hasTable family "magicbox" (tables.filter reserved) = hasTable family "magicbox" tables := by
  unfold hasTable
  rw [List.any_filter]
  congr 1
  funext t
  by_cases hname : t.name = "magicbox" <;> simp [reserved, Table.named, hname]

theorem Stage.swap_tables (c : NetworkConfig) (s : Stage) :
    swapTables c (s.tables c) = s.swap.tables c := by
  cases s <;> rfl

theorem Stage.dropTranslation_tables (c : NetworkConfig) (s : Stage) :
    Nftables.dropTable .ip "magicbox" (s.tables c) = s.dropTranslation.tables c := by
  cases s <;> rfl

theorem Tabled.congr {own : List Table} {k' : Kernel} (h : Tabled K own k)
    (htables : k'.tables = k.tables) : Tabled K own k' :=
  ⟨htables ▸ h.foreign, htables ▸ h.tables⟩

theorem Tabled.hasTable {own : List Table} (h : Tabled K own k) (family : Family) :
    hasTable family "magicbox" k.tables = hasTable family "magicbox" own := by
  rw [← hasTable_filter_reserved, h.tables]

theorem Tabled.swapTables (h : Tabled K (s.tables c) k) :
    Tabled K (s.swap.tables c) (mapTables (NetworkController.swapTables c) k) := by
  refine ⟨?_, ?_⟩
  · have hguard : [guardTable c].filter (!reserved ·) = [] := rfl
    refine Eq.trans ?_ h.foreign
    change (NetworkController.swapTables c k.tables).filter (!reserved ·) = _
    unfold NetworkController.swapTables
    rw [List.filter_append, filter_foreign_dropTable, hguard, List.append_nil]
  · have hguard : [guardTable c].filter reserved = [guardTable c] := rfl
    change (NetworkController.swapTables c k.tables).filter reserved = _
    unfold NetworkController.swapTables
    rw [List.filter_append, filter_reserved_dropTable, h.tables, hguard]
    exact Stage.swap_tables c s

/-- A table of the controller's goes. -/
theorem Tabled.dropTable {own : List Table} (h : Tabled K own k) (family : Family) :
    Tabled K (Nftables.dropTable family "magicbox" own)
      (mapTables (Nftables.dropTable family "magicbox") k) := by
  refine ⟨(filter_foreign_dropTable _ _).trans h.foreign, ?_⟩
  change (Nftables.dropTable family "magicbox" k.tables).filter reserved = _
  rw [filter_reserved_dropTable, h.tables]

theorem Tabled.dropTranslation (h : Tabled K (s.tables c) k) :
    Tabled K (s.dropTranslation.tables c)
      (mapTables (Nftables.dropTable .ip "magicbox") k) :=
  Stage.dropTranslation_tables c s ▸ h.dropTable .ip

/-- install() puts its guard where there is none. -/
theorem Tabled.defineGuard (h : Tabled K [] k) :
    Tabled K (Stage.guarded.tables c) (k.after (.nft [.define (guardTable c)])) := by
  have habsent : Nftables.hasTable .inet "magicbox" k.tables = false := h.hasTable .inet
  have hbatch : runBatch [.define (guardTable c)] k.tables = some (k.tables ++ [guardTable c]) := by
    simp [runBatch, Command.run, guardTable, habsent]
  have hguard : [guardTable c].filter (!reserved ·) = [] := rfl
  rw [Kernel.after_nft, hbatch, Option.getD_some]
  refine ⟨?_, ?_⟩
  · rw [List.filter_append, hguard, List.append_nil]
    exact h.foreign
  · rw [List.filter_append, h.tables]
    rfl

/-- The last batch of install() exchanges the guard for the whole ruleset. -/
theorem Tabled.defineRuleset (h : Tabled K (Stage.guarded.tables c) k) :
    Tabled K (Stage.translated.tables c) (k.after (.nft
      [.deleteTable .inet "magicbox", .define (natTable c), .define (forwardTable c)])) := by
  have hinet : Nftables.hasTable .inet "magicbox" k.tables = true := h.hasTable .inet
  have hip : Nftables.hasTable .ip "magicbox" (Nftables.dropTable .inet "magicbox" k.tables) =
      false := by
    rw [← hasTable_filter_reserved, filter_reserved_dropTable, h.tables]
    rfl
  have hgone := hasTable_dropTable .inet "magicbox" k.tables
  have hinet' : Nftables.hasTable .inet "magicbox"
      (Nftables.dropTable .inet "magicbox" k.tables ++ [natTable c]) = false := by
    unfold Nftables.hasTable at hgone ⊢
    rw [List.any_append, hgone]
    rfl
  have hbatch : runBatch [.deleteTable .inet "magicbox", .define (natTable c),
      .define (forwardTable c)] k.tables =
      some (Nftables.dropTable .inet "magicbox" k.tables ++ [natTable c] ++ [forwardTable c]) := by
    simp only [runBatch, Command.run, hinet, if_true, Option.bind_some]
    have hnat : Nftables.hasTable (natTable c).family (natTable c).name
        (Nftables.dropTable .inet "magicbox" k.tables) = false := hip
    rw [hnat]
    simp only [Bool.false_eq_true, if_false, Option.bind_some]
    have hforward : Nftables.hasTable (forwardTable c).family (forwardTable c).name
        (Nftables.dropTable .inet "magicbox" k.tables ++ [natTable c]) = false := hinet'
    rw [hforward]
    simp
  rw [Kernel.after_nft, hbatch, Option.getD_some]
  refine ⟨?_, ?_⟩
  · have hours : [natTable c].filter (!reserved ·) = [] ∧
        [forwardTable c].filter (!reserved ·) = [] := ⟨rfl, rfl⟩
    rw [List.filter_append, List.filter_append, filter_foreign_dropTable, hours.1, hours.2,
      List.append_nil, List.append_nil]
    exact h.foreign
  · rw [List.filter_append, List.filter_append, filter_reserved_dropTable, h.tables]
    rfl

theorem Shape.tabled (h : Shape K c s k) : Tabled K (s.tables c) k := ⟨h.foreign, h.tables⟩

theorem Bare.tabled (h : Bare K k) : Tabled K [] k := ⟨h.foreign, h.tables⟩

/-- The tables change from one stage to another and nothing else changes. -/
theorem Shape.mapTables {t : Stage} (h : Shape K c s k) {f : List Table → List Table}
    (tabled : Tabled K (t.tables c) (mapTables f k))
    (covered : t = .bare → k.routes = [] ∧ k.rules = [] ∧
      ∀ name link a, k.links name = some link → a ∈ link.addrInfo → Native K name a) :
    Shape K c t (mapTables f k) :=
  ⟨tabled.foreign, tabled.tables, h.routes, h.rules, h.oif, h.addresses, h.vlan, covered⟩

theorem Shape.swapTables (h : Shape K c s k) :
    Shape K c s.swap (NetworkController.mapTables (NetworkController.swapTables c) k) := by
  refine h.mapTables h.tabled.swapTables fun hbare => ?_
  cases s <;> cases hbare

theorem Shape.dropTranslation (h : Shape K c s k) :
    Shape K c s.dropTranslation
      (NetworkController.mapTables (Nftables.dropTable .ip "magicbox") k) := by
  refine h.mapTables h.tabled.dropTranslation fun hbare => ?_
  cases s with
  | bare => exact h.covered rfl
  | guarded | translated | swapped | exposed => cases hbare

/-- The guard goes only once nothing is left to guard. -/
theorem Shape.dropGuard (h : Shape K c .guarded k)
    (clear : k.routes = [] ∧ k.rules = [] ∧
      ∀ name link a, k.links name = some link → a ∈ link.addrInfo → Native K name a) :
    Shape K c .bare (NetworkController.mapTables (Nftables.dropTable .inet "magicbox") k) :=
  h.mapTables (h.tabled.dropTable .inet) fun _ => clear

theorem Shape.defineGuard (h : Shape K c .bare k) :
    Shape K c .guarded (k.after (.nft [.define (guardTable c)])) := by
  have tabled : Tabled K (Stage.guarded.tables c) (k.after (.nft [.define (guardTable c)])) :=
    h.tabled.defineGuard
  rw [Kernel.after_nft] at tabled ⊢
  exact h.mapTables (f := fun _ => _) tabled fun hbare => by cases hbare

theorem Shape.defineRuleset (h : Shape K c .guarded k) :
    Shape K c .translated (k.after (.nft
      [.deleteTable .inet "magicbox", .define (natTable c), .define (forwardTable c)])) := by
  have tabled := h.tabled.defineRuleset
  rw [Kernel.after_nft] at tabled ⊢
  exact h.mapTables (f := fun _ => _) tabled fun hbare => by cases hbare

end Shape

/-! ## What a lookup may have hidden -/

/-- The tables are at their stage. So is everything else, unless `restore` has overlooked a link. -/
structure Sighted (seen : Prop) (K : Kernel) (c : NetworkConfig) (s : Stage) (k : Kernel) :
    Prop where
  tabled : Tabled K (s.tables c) k
  shape : seen → Shape K c s k

/-- No table of the controller's is left, and nothing else that was not overlooked. -/
structure Cleared (seen : Prop) (K k : Kernel) : Prop where
  tabled : Tabled K [] k
  bare : seen → Bare K k

section Sighted
variable {seen seen' : Prop} {K k k' : Kernel} {c : NetworkConfig} {s : Stage}

theorem Sighted.of_shape (h : Shape K c s k) : Sighted seen K c s k := ⟨h.tabled, fun _ => h⟩

/-- A step beside the tables. -/
theorem Sighted.imp (h : Sighted seen K c s k) (htables : k'.tables = k.tables)
    (shape : Shape K c s k → Shape K c s k') : Sighted seen K c s k' :=
  ⟨h.tabled.congr htables, fun hs => shape (h.shape hs)⟩

theorem Sighted.mono (h : Sighted seen K c s k) (hseen : seen' → seen) : Sighted seen' K c s k :=
  ⟨h.tabled, fun hs => h.shape (hseen hs)⟩

theorem Cleared.of_bare (h : Bare K k) : Cleared seen K k := ⟨h.tabled, fun _ => h⟩

theorem Cleared.mono (h : Cleared seen K k) (hseen : seen' → seen) : Cleared seen' K k :=
  ⟨h.tabled, fun hs => h.bare (hseen hs)⟩

theorem Cleared.sighted (h : Cleared seen K k) (c : NetworkConfig) : Sighted seen K c .bare k :=
  ⟨h.tabled, fun hs => Shape.of_bare (h.bare hs) c⟩

theorem Sighted.swapTables (h : Sighted seen K c s k) :
    Sighted seen K c s.swap (mapTables (NetworkController.swapTables c) k) :=
  ⟨h.tabled.swapTables, fun hs => (h.shape hs).swapTables⟩

theorem Sighted.dropTranslation (h : Sighted seen K c s k) :
    Sighted seen K c s.dropTranslation (mapTables (Nftables.dropTable .ip "magicbox") k) :=
  ⟨h.tabled.dropTranslation, fun hs => (h.shape hs).dropTranslation⟩

theorem Sighted.defineGuard (h : Sighted seen K c .bare k) :
    Sighted seen K c .guarded (k.after (.nft [.define (guardTable c)])) :=
  ⟨h.tabled.defineGuard, fun hs => (h.shape hs).defineGuard⟩

theorem Sighted.defineRuleset (h : Sighted seen K c .guarded k) :
    Sighted seen K c .translated (k.after (.nft
      [.deleteTable .inet "magicbox", .define (natTable c), .define (forwardTable c)])) :=
  ⟨h.tabled.defineRuleset, fun hs => (h.shape hs).defineRuleset⟩

end Sighted

end Magicbox.Guarantees.KernelShape
