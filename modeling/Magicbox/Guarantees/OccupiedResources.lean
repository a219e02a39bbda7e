import Magicbox.Guarantees.Admissions
import Magicbox.Guarantees.KernelShape

/-!
# Occupied resources

`apply` refuses a host on which a reserved resource exists or a port is not fit
for use, and what it finds on the host it takes over is still there after every
later call. There are two resources that it can overlook: a route in table 4242,
where the host prints the table as a string, and the link mbx-outer, where the
lookup of it fails.
-/

set_option autoImplicit false

namespace Magicbox.Guarantees.OccupiedResources
open Library.Crash Source Source.Json Source.Config Source.ConfigJson Source.Nftables Source.Netns
  Source.NetworkController Source.Worker Source.StatusChanges KernelShape Admissions

/-! ## Refusals -/

/-- A port that is missing, is the loopback, is enslaved or has an address. -/
def Unfit (k : Kernel) (name : String) : Prop :=
  name = "lo" ∨ k.links name = none ∨
    ∃ link, k.links name = some link ∧
      (link.master ≠ none ∨ link.addrInfo ≠ [] ∨ link.inet6 ≠ [])

/-- A reserved resource exists, or one of the chosen ports is not fit for use. -/
inductive Occupied (c : NetworkConfig) (k : Kernel) : Prop
  | table {t : Table} (h : t ∈ k.tables) (hname : t.name = "magicbox")
  | vlan (h : k.present vlanName = true)
  | route {r : Route} (h : r ∈ k.routes)
  | rule {r : PolicyRule} (h : r ∈ k.rules)
  | port {name : String} (hname : name = c.outerInterface ∨ name = c.innerInterface)
    (h : Unfit k name)

/-- A call that throws and has no effect. It may also be cut, but only where it waits for what a
listing or a file says. -/
structure Refused (before : World) (ending : Outcome Exn Unit × World) : Prop where
  thrown : (∃ e, ending.1 = .threw e) ∨ ending.1 = .crashed ∧ ending.2.supply.probes = []
  kernel : ending.2.kernel = before.kernel
  store : ending.2.store = before.store
  /-- Nothing was asked of the kernel, and nothing was written to the journal. -/
  log : ending.2.log = before.log
  state : ending.2.state_ = before.state_

/-- An inactive controller refuses an occupied host, whatever the environment
answers. `looks` says whether the lookup of the VLAN link goes through. -/
def Refuses (c : NetworkConfig) (w : World) (looks : Bool) : Prop :=
  w.enabled = true → HasStatus "inactive" w.state_ → Occupied c w.kernel →
    ∀ supply : Supply, supply.looks = looks → Refused w (apply c (supplied w supply))

/-- Nothing is occupied but what the checks do not see: table 4242, where the
host prints the table as a string, and the VLAN link, where the lookup of it fails. -/
structure Hidden (c : NetworkConfig) (k : Kernel) (looks : Bool) : Prop where
  valid : validate c = []
  vacant : Vacant k
  outer : ∃ link, Dedicated k c.outerInterface link
  inner : ∃ link, Dedicated k c.innerInterface link
  vlan : (looks && k.present vlanName) = false
  numericTables : k.numericTables = true → k.routes = []
  occupied : k.routes ≠ [] ∨ k.present vlanName = true

/-- A lookup that fails hides what any lookup hides. -/
theorem Hidden.unlooked {c : NetworkConfig} {k : Kernel} {looks : Bool} (h : Hidden c k looks) :
    Hidden c k false :=
  { h with vlan := rfl }

theorem unfit_iff {k : Kernel} {name : String} :
    Unfit k name ↔ ¬ ∃ link, Dedicated k name link := by
  constructor
  · rintro (hname | hmissing | ⟨link, hlink, hused⟩) ⟨found, hfound⟩
    · exact hfound.loopback hname
    · rw [hfound.present] at hmissing
      cases hmissing
    · obtain rfl := Option.some.inj (hlink.symm.trans hfound.present)
      simp [hfound.master, hfound.unaddressed, hfound.inet6] at hused
  · intro hnone
    by_contra hfit
    simp only [Unfit, not_or, not_exists, not_and] at hfit
    obtain ⟨hname, hpresent, hfree⟩ := hfit
    obtain ⟨link, hlink⟩ := Option.ne_none_iff_exists'.mp hpresent
    have huse := hfree link hlink
    simp only [not_not] at huse
    exact hnone ⟨link, hlink, hname, huse.1, huse.2.1, huse.2.2⟩

theorem vacant_foreign {k : Kernel} (h : Vacant k) {t : Table} (ht : t ∈ k.tables) :
    t.name ≠ "magicbox" := by
  intro hname
  have hnone := List.any_eq_false.mp (h.tables t.family) t ht
  simp [Table.named, hname] at hnone

/-- An occupied host that passes the checks is one that they do not see. -/
theorem hidden_of_admitted {c : NetworkConfig} {baseline : Value} {w : World}
    (adm : Admitted c baseline w) (h : Occupied c w.kernel) :
    Hidden c w.kernel w.supply.looks := by
  obtain ⟨outer, inner, houter, hinner, -⟩ := adm.captured
  have hidden : w.kernel.routes ≠ [] ∨ w.kernel.present vlanName = true →
      Hidden c w.kernel w.supply.looks := fun hoccupied =>
    ⟨adm.valid, adm.vacant, ⟨outer, houter⟩, ⟨inner, hinner⟩, adm.vlan, adm.routes, hoccupied⟩
  cases h with
  | table ht hname => exact absurd hname (vacant_foreign adm.vacant ht)
  | vlan hvlan => exact hidden (.inr hvlan)
  | route hr => exact hidden (.inl (List.ne_nil_of_mem hr))
  | rule hr =>
    rw [adm.vacant.rules] at hr
    cases hr
  | port hname hunfit =>
    rcases hname with rfl | rfl
    · exact absurd ⟨outer, houter⟩ (unfit_iff.mp hunfit)
    · exact absurd ⟨inner, hinner⟩ (unfit_iff.mp hunfit)

/-- With answers for the checks and for the two sysctls, what is hidden is taken over. -/
theorem apply_hidden {c : NetworkConfig} {w : World} {looks : Bool} (henabled : w.enabled = true)
    (hinactive : HasStatus "inactive" w.state_) (h : Hidden c w.kernel looks) :
    ∃ baseline,
      (apply c (reading w [looks] 13)).2.state_ = applying c baseline w.kernel w.state_ := by
  obtain ⟨outer, houter⟩ := h.outer
  obtain ⟨inner, hinner⟩ := h.inner
  have hcheck : checkAdmission c (reading w [looks] 13) = (.returned _, reading w [] 2) :=
    checkAdmission_reading henabled hinactive h.valid h.vacant h.vlan h.numericTables houter hinner
  refine ⟨.array [capturedInfo c.outerInterface outer, capturedInfo c.innerInterface inner], ?_⟩
  rw [apply, bind_returned hcheck]
  rfl

/-- An occupied host is refused unless nothing is occupied but what the checks do not see. -/
theorem refuses_iff (c : NetworkConfig) (w : World) (looks : Bool) :
    Refuses c w looks ↔
      ¬ (w.enabled = true ∧ HasStatus "inactive" w.state_ ∧ Hidden c w.kernel looks) := by
  constructor
  · rintro hrefuses ⟨henabled, hinactive, hhidden⟩
    have hoccupied : Occupied c w.kernel := by
      rcases hhidden.occupied with hroutes | hvlan
      · obtain ⟨r, hr⟩ := List.exists_mem_of_ne_nil _ hroutes
        exact .route hr
      · exact .vlan hvlan
    obtain ⟨baseline, hstate⟩ := apply_hidden henabled hinactive hhidden
    have hsame :=
      (hrefuses henabled hinactive hoccupied (reading w [looks] 13).supply rfl).state
    have happlying : HasStatus "applying" w.state_ := by
      rw [← hsame]
      exact (congrArg (·.get "status") hstate).trans (Value.get_set_self _ _ _)
    exact absurd (happlying.unique hinactive) (by decide)
  · intro hvisible henabled hinactive hoccupied supply hlooks
    have hlook := looking_checkAdmission c (supplied w supply)
    have hwaits := waits_checkAdmission c (supplied w supply)
    rw [apply, bind_run]
    rcases hcheck : checkAdmission c (supplied w supply) with ⟨baseline | e | _, w'⟩ <;>
      rw [hcheck] at hlook hwaits
    · have adm := (checkAdmission_returned hcheck).2
      have hhidden : Hidden c (supplied w supply).kernel supply.looks :=
        hidden_of_admitted adm hoccupied
      exact absurd ⟨henabled, hinactive, hlooks ▸ hhidden⟩ hvisible
    · exact ⟨.inl ⟨e, rfl⟩, hlook.kernel, hlook.store, hlook.sameLog, hlook.state_⟩
    · exact ⟨.inr ⟨rfl, hwaits rfl⟩, hlook.kernel, hlook.store, hlook.sameLog, hlook.state_⟩

/-! ## What is left alone -/

/-- Links other than the VLAN link and tables that are not the controller's stay. -/
structure Spares (k k' : Kernel) : Prop where
  links : ∀ name, name ≠ vlanName → k.present name = true → k'.present name = true
  tables : ∀ t ∈ k.tables, t.name ≠ "magicbox" → t ∈ k'.tables

theorem Spares.refl (k : Kernel) : Spares k k := ⟨fun _ _ h => h, fun _ h _ => h⟩

theorem Spares.trans (j k l : Kernel) (h : Spares j k) (h' : Spares k l) : Spares j l :=
  ⟨fun name hn hp => h'.links name hn (h.links name hn hp),
    fun t ht hn => h'.tables t (h.tables t ht hn) hn⟩

/-- A batch about the controller's tables only. -/
def Own : Request → Prop
  | .nft batch => ∀ command ∈ batch, match command with
    | .deleteTable _ name => name = "magicbox"
    | .define t => t.name = "magicbox"
  | _ => True

theorem spares_mapLink (k : Kernel) (name : String) (f : Link → Link) :
    Spares k (k.mapLink name f) :=
  ⟨fun other _ hp => by simpa using hp, fun t ht _ => by simpa using ht⟩

theorem runBatch_foreign {t : Table} (hname : t.name ≠ "magicbox") {batch : Batch}
    (hown : Own (.nft batch)) {tables tables' : List Table} (ht : t ∈ tables)
    (hrun : runBatch batch tables = some tables') : t ∈ tables' := by
  induction batch generalizing tables with
  | nil => exact Option.some.inj hrun ▸ ht
  | cons command rest ih =>
    obtain ⟨next, hnext, hrun⟩ := Option.bind_eq_some_iff.mp hrun
    have hfirst := hown command List.mem_cons_self
    refine ih (fun other hmem => hown other (List.mem_cons_of_mem _ hmem)) ?_ hrun
    cases command with
    | deleteTable family name =>
      simp only at hfirst
      simp only [Command.run] at hnext
      split at hnext
      · obtain rfl := Option.some.inj hnext
        exact List.mem_filter.mpr ⟨ht, by simp [Table.named, hfirst, hname]⟩
      · cases hnext
    | define new =>
      simp only at hfirst
      simp only [Command.run] at hnext
      split at hnext
      · obtain rfl := Option.some.inj hnext
        exact List.mem_map.mpr ⟨t, ht, by simp [Table.named, hfirst, hname]⟩
      · obtain rfl := Option.some.inj hnext
        exact List.mem_append_left _ ht

theorem spares_after {r : Request} (hown : Own r) (k : Kernel) : Spares k (k.after r) := by
  cases r with
  | setLink name up mac =>
    rw [Kernel.after_setLink]
    exact spares_mapLink k name _
  | addVlan parent id =>
    rw [Kernel.after_addVlan]
    split
    · exact .refl k
    · refine ⟨fun name hn hp => ?_, fun t ht _ => ht⟩
      simpa [Kernel.present, hn] using hp
  | deleteVlan =>
    rw [Kernel.after_deleteVlan]
    split
    · refine ⟨fun name hn hp => ?_, fun t ht _ => ht⟩
      simpa [Kernel.present, Kernel.dropLink, hn] using hp
    · exact .refl k
  | addAddress name a =>
    rw [Kernel.after_addAddress]
    exact spares_mapLink k name _
  | deleteAddress name a =>
    rw [Kernel.after_deleteAddress]
    exact spares_mapLink k name _
  | addRoute r =>
    rw [Kernel.after_addRoute]
    exact ⟨fun _ _ h => h, fun _ h _ => h⟩
  | deleteRoute r =>
    rw [Kernel.after_deleteRoute]
    exact ⟨fun _ _ h => h, fun _ h _ => h⟩
  | addRule r =>
    rw [Kernel.after_addRule]
    exact ⟨fun _ _ h => h, fun _ h _ => h⟩
  | deleteRule r =>
    rw [Kernel.after_deleteRule]
    exact ⟨fun _ _ h => h, fun _ h _ => h⟩
  | deleteMarkedConnections => exact .refl k
  | write file value =>
    cases file with
    | disableIpv6 name =>
      rw [Kernel.after_disableIpv6]
      exact spares_mapLink k name _
    | rpFilter name =>
      rw [Kernel.after_rpFilter]
      exact spares_mapLink k name _
    | ipForward => exact ⟨fun _ _ h => h, fun _ h _ => h⟩
    | rpFilterAll => exact ⟨fun _ _ h => h, fun _ h _ => h⟩
  | nft batch =>
    rw [Kernel.after_nft]
    refine ⟨fun _ _ h => h, fun t ht hname => ?_⟩
    cases hrun : runBatch batch k.tables with
    | none => exact ht
    | some tables => exact runBatch_foreign hname hown ht hrun

/-! ## Every step spares what is not the controller's -/

section Sparing
variable {α β : Type}

/-- A run that leaves foreign links and tables, wherever it stops. -/
def Sparing (m : Controller α) : Prop := Within (fun w w' => Spares w.kernel w'.kernel) m

theorem sparing_bind {m : Controller α} {f : α → Controller β} (hm : Sparing m)
    (hf : ∀ a, Sparing (f a)) : Sparing (m >>= f) :=
  Within.bind (fun w₁ w₂ w₃ h h' => Spares.trans w₁.kernel w₂.kernel w₃.kernel h h') hm hf

theorem sparing_of_looking {m : Controller α} (h : Within Looking m) : Sparing m := by
  intro w
  rw [(h w).kernel]
  exact .refl _

theorem sparing_of_performs {us : List (Kernel → Kernel)} {m : Controller α}
    (h : Performs World.kernel us m) (spares : ∀ u ∈ us, ∀ k, Spares k (u k)) : Sparing m :=
  fun w => h.within Spares.refl Spares.trans spares w

theorem sparing_requests {rs : List Request} {m : Controller α}
    (h : Performs World.kernel (requests rs) m) (hown : ∀ r ∈ rs, Own r) : Sparing m := by
  refine sparing_of_performs h fun u hu k => ?_
  obtain ⟨r, hr, rfl⟩ := List.mem_map.mp hu
  exact spares_after (hown r hr) k

theorem sparing_mapTables {f : List Table → List Table}
    (hf : ∀ tables, ∀ t ∈ tables, t.name ≠ "magicbox" → t ∈ f tables) (k : Kernel) :
    Spares k (mapTables f k) :=
  ⟨fun _ _ hp => hp, hf k.tables⟩

theorem mem_dropTable (family : Family) (tables : List Table) (t : Table) (ht : t ∈ tables)
    (hname : t.name ≠ "magicbox") : t ∈ Nftables.dropTable family "magicbox" tables :=
  List.mem_filter.mpr ⟨ht, by simp [Table.named, hname]⟩

theorem own_installRequests (c : NetworkConfig) : ∀ r ∈ installRequests c, Own r := by
  have hvlan : ∀ r ∈ vlanRequests c, Own r := by
    unfold vlanRequests
    split <;> simp [preparePortRequests, Own]
  simp only [installRequests, prepareRequests, preparePortRequests, connectRequests,
    List.forall_mem_append]
  refine ⟨⟨⟨⟨?_, hvlan⟩, ?_⟩, ?_⟩, ?_⟩ <;> simp [Own, guardTable, natTable, forwardTable]

theorem sparing_install (c : NetworkConfig) : Sparing (install c) :=
  sparing_requests (performs_install c) (own_installRequests c)

theorem sparing_swapGuard (c : NetworkConfig) : Sparing (swapGuard c) := by
  refine sparing_of_performs (performs_swapGuard c) fun u hu k => ?_
  rcases List.mem_pair.mp hu with rfl | rfl
  · exact sparing_mapTables (fun tables t ht hname =>
      List.mem_append_left _ (mem_dropTable .inet tables t ht hname)) k
  · exact .refl k

theorem sparing_dropTable (family : Family) : Sparing (dropTable family) := by
  refine sparing_of_performs (performs_dropTable family) fun u hu k => ?_
  obtain rfl := List.mem_singleton.mp hu
  exact sparing_mapTables (mem_dropTable family) k

/-- Attempting a step spares what its action spares. -/
theorem sparing_attemptStep (step : Step) (errors : String) {action : Controller Unit}
    (h : Sparing action) : Sparing (attemptStep step errors action) := by
  intro w
  rw [(attemptStep_run step errors action w).1]
  exact h (noted (.attempted step) w)

theorem sparing_resetSysctl (file : Sysctl) (name : String) : Sparing (resetSysctl file name) := by
  refine sparing_bind (sparing_of_looking (looking_read _)) fun _ => ?_
  refine sparing_bind (sparing_of_looking (looking_liftExcept _)) fun value => ?_
  exact sparing_requests (performs_writeFile file value) (by simp [Own])

theorem sparing_lookUp (name : String) : Sparing (lookUp name) := by
  intro w
  obtain ⟨found, w', hrun, looked⟩ := lookUp_run name w
  rw [hrun, looked.kernel]
  exact .refl _

theorem sparing_vlanDelete : Sparing vlanDelete := fun w =>
  vlanDelete_keeps (I := Spares w.kernel)
    (fun k hk => hk.trans _ _ _ (spares_after (r := .deleteVlan) trivial k)) w (.refl _)

theorem sparing_restoring (c : NetworkConfig) : Attempts Sparing c := by
  intro step action h errors
  refine sparing_attemptStep step errors ?_
  cases h with
  | swapGuard => exact sparing_swapGuard c
  | dropRule => exact sparing_requests (performs_rule c false) (by simp [Own])
  | dropGatewayRoute | dropLinkRoute =>
    exact sparing_requests (performs_route c _ false) (by simp [Own])
  | dropOuterAddress | dropInnerAddress =>
    exact sparing_requests (performs_address _ _ _ false) (by simp [Own])
  | dropVlan => exact sparing_vlanDelete
  | dropTranslation => exact sparing_dropTable .ip
  | resetForward | resetRpFilterAll => exact sparing_resetSysctl _ _
  | resetPort info =>
    exact sparing_requests (performs_resetPort info) (by simp [resetRequests, Own])

theorem composes_sparing : Composes Sparing :=
  ⟨fun _ => sparing_of_looking (looking_pure _), fun _ => sparing_of_looking (looking_read _),
    sparing_bind⟩

theorem sparing_rollBack (c : NetworkConfig) : Sparing (rollBack c) :=
  walk_rollBack composes_sparing (sparing_lookUp _) (sparing_restoring c) fun _ =>
    sparing_attemptStep _ _ (sparing_dropTable _)

theorem lenient_sparing : Lenient fun w w' => Spares w.kernel w'.kernel where
  trans := fun w₁ w₂ w₃ => Spares.trans w₁.kernel w₂.kernel w₃.kernel
  bookkeeping := fun h => h.kernel ▸ .refl _

theorem sparing_restore : Sparing restore := lenient_sparing.restore sparing_rollBack

theorem sparing_apply (c : NetworkConfig) : Sparing (apply c) :=
  lenient_sparing.apply (sparing_install c) sparing_rollBack

end Sparing

/-! ## Whole runs -/

/-- Everything the kernel `K` had is still there. -/
structure Spared (K k : Kernel) : Prop where
  tables : ∀ t ∈ K.tables, t ∈ k.tables
  links : ∀ name, K.present name = true → k.present name = true
  routes : ∀ r ∈ K.routes, r ∈ k.routes
  rules : ∀ r ∈ K.rules, r ∈ k.rules

/-- An admission whose checks saw the host, as far as they see it, and what became of it. -/
structure Entered (k : Kernel) (x : NetworkConfig × Kernel) : Prop where
  admitted : Occupied x.1 x.2 → Hidden x.1 x.2 false
  spares : Spares x.2 k

/-- On a host with nothing reserved, all there is is spared. -/
theorem Entered.spared {k : Kernel} {x : NetworkConfig × Kernel} (h : Entered k x)
    (hvisible : ¬ Hidden x.1 x.2 false) : Spared x.2 k := by
  have hfree : ¬ Occupied x.1 x.2 := fun hoccupied => hvisible (h.admitted hoccupied)
  refine ⟨fun t ht => ?_, fun name hname => ?_, fun r hr => ?_, fun r hr => ?_⟩
  · exact h.spares.tables t ht fun hname => hfree (.table ht hname)
  · refine h.spares.links name (fun heq => ?_) hname
    exact hfree (.vlan (heq ▸ hname))
  · exact absurd (.route hr) hfree
  · exact absurd (.rule hr) hfree

/-- Every admission of the log was entered. -/
def Sparingly (w : World) : Prop := ∀ x ∈ admissions w, Entered w.kernel x

theorem Sparingly.next {w w' : World} (h : Sparingly w) (spares : Spares w.kernel w'.kernel)
    (same : admissions w' = admissions w) : Sparingly w' := by
  intro x hx
  obtain ⟨hadmitted, hspares⟩ := h x (same ▸ hx)
  exact ⟨hadmitted, hspares.trans _ _ _ spares⟩

theorem Sparingly.quiet {w w' : World} (h : Sparingly w) (kernel : w'.kernel = w.kernel)
    (log : w'.log = w.log) : Sparingly w' := by
  refine h.next (kernel ▸ .refl _) ?_
  unfold admissions
  rw [log]

/-- What `apply` enters in the log. -/
theorem apply_enters {c : NetworkConfig} {w w' : World} {o : Outcome Exn Unit}
    (run : apply c w = (o, w')) : admissions w' = admissions w ∨
      admissions w' = admissions w ++ [(c, w.kernel)] ∧
        (Occupied c w.kernel → Hidden c w.kernel false) := by
  have founds := apply_founds run
  have entered : ∀ {baseline}, Admitted c baseline w → admissions w' = admissions w ∨
      admissions w' = admissions w ++ [(c, w.kernel)] ∧
        (Occupied c w.kernel → Hidden c w.kernel false) := by
    intro baseline adm
    cases founds with
    | refused same _ _ => exact .inl same
    | founded _ admitted _ _ => exact .inr ⟨admitted, fun h => (hidden_of_admitted adm h).unlooked⟩
  have hrun := apply_run c w
  rw [run] at hrun
  cases hrun with
  | rejected look _ =>
    refine .inl ?_
    unfold admissions
    rw [look.sameLog]
  | unjournaled _ adm _ _ => exact entered adm
  | pending _ adm _ _ => exact entered adm
  | cut _ adm _ _ => exact entered adm
  | undone _ adm _ _ _ => exact entered adm

theorem apply_sparingly (c : NetworkConfig) {w : World} (h : Sparingly w) :
    Sparingly (apply c w).2 := by
  have spares := sparing_apply c w
  rcases apply_enters (Prod.eta (apply c w)).symm with same | ⟨admitted, hhidden⟩
  · exact h.next spares same
  · intro x hx
    rw [admitted] at hx
    rcases List.mem_append.mp hx with hold | hnew
    · exact ⟨(h x hold).admitted, (h x hold).spares.trans _ _ _ spares⟩
    · obtain rfl := List.mem_singleton.mp hnew
      exact ⟨hhidden, spares⟩

theorem sparingly_kept : Kept (fun _ => True) Sparingly Sparingly where
  host := fun _ h => h
  suppliedHost := fun _ _ _ h => h
  supplied := fun _ _ _ h => h
  looked := fun _ _ look h => h.quiet look.kernel look.sameLog
  advanced := fun _ _ _ h => h
  loading := fun _ _ h => h
  initial := fun _ h => h
  restore := fun w _ h => Ends.all (h.next (sparing_restore w)
    (admissions_of_restates (restates_restore w)))
  apply := fun c _ h => Ends.all (apply_sparingly c h)
  confirmed := fun w _ h => Ends.all (h.next
    (lenient_sparing.putState (withState w (w.state_.set "status" (.string "confirmed"))))
    (admissions_of_restates (restates_confirmed rfl)))

/-- The example host with a route of its own in table 4242, which it prints as a string. -/
def routedNode : Node where
  world := {
    kernel := { exampleKernel with
                  routes := [routeEntry untaggedConfig false], numericTables := false }
    store := ⟨fun _ => none⟩ }
  alive := false

/-- The first write to a sysctl fails, and all else works. -/
def unwritable : Supply := { answering with kernel := .refused "write failed" :: answering.kernel }

def routedCalls : List (Call × Supply) :=
  [(.construct true, answering), (.apply untaggedConfig, unwritable)]

end Magicbox.Guarantees.OccupiedResources
