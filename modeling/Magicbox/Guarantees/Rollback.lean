import Magicbox.Guarantees.Baseline

/-!
# A rollback gives the kernel back

From the write-ahead on, the journal holds what is needed to undo everything
install() can have done. However far install() got, and however many
rollbacks were cut or failed on the way, the first rollback that returns leaves
the kernel exactly as `apply` found it.
-/

set_option autoImplicit false

namespace Magicbox.Guarantees.Rollback
open Library.Crash Source Source.Json Source.Config Source.ConfigJson Source.Nftables Source.Netns
  Source.NetworkController Source.Worker KernelShape Withdrawal KernelRuns Baseline

/-! ## What the controller leaves alone -/

/-- The links a configuration is about. -/
def Ours (c : NetworkConfig) (name : String) : Prop :=
  name = c.outerInterface ∨ name = c.innerInterface ∨ name = vlanName

/-- What no request changes on a link. -/
def fixed (link : Link) : Option String × Option (String × UInt16) × List String :=
  (link.master, link.vlan, link.inet6)

/-- Relative to `K` only the configured ports and the VLAN link can differ, and
the ports are still there with what no request changes. -/
structure Confined (c : NetworkConfig) (K k : Kernel) : Prop where
  others : ∀ name, ¬ Ours c name → k.links name = K.links name
  ports : ∀ name, name ≠ vlanName → (k.links name).map fixed = (K.links name).map fixed
  numericTables : k.numericTables = K.numericTables

/-- A request that is about the configured links, or about none. -/
def Concerns (c : NetworkConfig) : Request → Prop
  | .setLink name _ _ | .addAddress name _ | .deleteAddress name _ => Ours c name
  | .write (.disableIpv6 name) _ | .write (.rpFilter name) _ => Ours c name
  | .write .ipForward _ | .write .rpFilterAll _ => True
  | .addVlan _ _ | .deleteVlan | .addRoute _ | .deleteRoute _ | .addRule _ | .deleteRule _ => True
  | .deleteMarkedConnections | .nft _ => True

section Confined
variable {c : NetworkConfig} {K k : Kernel}

theorem Confined.refl (c : NetworkConfig) (K : Kernel) : Confined c K K :=
  ⟨fun _ _ => rfl, fun _ _ => rfl, rfl⟩

theorem Confined.congr (h : Confined c K k) {k' : Kernel} (hlinks : k'.links = k.links)
    (hnumeric : k'.numericTables = k.numericTables) : Confined c K k' :=
  ⟨fun name hn => hlinks ▸ h.others name hn, fun name hn => hlinks ▸ h.ports name hn,
    hnumeric.trans h.numericTables⟩

theorem Confined.mapLink (h : Confined c K k) {name : String} (hname : Ours c name)
    {f : Link → Link} (hf : ∀ link, fixed (f link) = fixed link) :
    Confined c K (k.mapLink name f) := by
  refine ⟨fun other hn => ?_, fun other hn => ?_, by simpa using h.numericTables⟩
  · have hne : other ≠ name := fun heq => hn (heq ▸ hname)
    rw [Kernel.links_mapLink, if_neg hne]
    exact h.others other hn
  · rw [Kernel.links_mapLink]
    split
    · next heq =>
      subst heq
      rw [Option.map_map, show fixed ∘ f = fixed from funext hf]
      exact h.ports other hn
    · exact h.ports other hn

theorem Confined.setVlan (h : Confined c K k) (link : Option Link) :
    Confined c K (k.setLinks vlanName link) := by
  refine ⟨fun other hn => ?_, fun other hn => ?_, h.numericTables⟩
  · have hne : other ≠ vlanName := fun heq => hn (.inr (.inr heq))
    rw [Kernel.links_setLinks, if_neg hne]
    exact h.others other hn
  · rw [Kernel.links_setLinks, if_neg hn]
    exact h.ports other hn

theorem Confined.after (h : Confined c K k) {r : Request} (hr : Concerns c r) :
    Confined c K (k.after r) := by
  cases r with
  | setLink name up mac =>
    rw [Kernel.after_setLink]
    exact h.mapLink hr fun _ => rfl
  | addVlan parent id =>
    rw [Kernel.after_addVlan]
    split
    · exact h
    · exact h.setVlan _
  | deleteVlan =>
    rw [Kernel.after_deleteVlan]
    split
    · exact (h.setVlan none).congr rfl rfl
    · exact h
  | addAddress name a =>
    rw [Kernel.after_addAddress]
    refine h.mapLink hr fun link => ?_
    split <;> rfl
  | deleteAddress name a =>
    rw [Kernel.after_deleteAddress]
    exact h.mapLink hr fun _ => rfl
  | addRoute r => exact h.congr (by simp) (by simp)
  | deleteRoute r => exact h.congr (by simp) (by simp)
  | addRule r => exact h.congr (by simp) (by simp)
  | deleteRule r => exact h.congr (by simp) (by simp)
  | deleteMarkedConnections => exact h
  | write file value =>
    cases file with
    | disableIpv6 name =>
      rw [Kernel.after_disableIpv6]
      exact h.mapLink hr fun _ => rfl
    | rpFilter name =>
      rw [Kernel.after_rpFilter]
      exact h.mapLink hr fun _ => rfl
    | ipForward => exact h.congr rfl rfl
    | rpFilterAll => exact h.congr rfl rfl
  | nft batch => exact h.congr (by simp) (by simp)

theorem confined_performs {α : Type} {rs : List Request} {m : Controller α}
    (h : Performs World.kernel (requests rs) m) (hrs : ∀ r ∈ rs, Concerns c r) (w : World)
    (hw : Confined c K w.kernel) : Confined c K (m w).2.kernel := by
  refine h.keeps (I := Confined c K) (fun u hu k hk => ?_) w hw
  obtain ⟨r, hr, rfl⟩ := List.mem_map.mp hu
  exact hk.after (hrs r hr)

theorem concerns_effectiveOuter (c : NetworkConfig) : Ours c (effectiveOuter c) := by
  unfold effectiveOuter
  split
  · exact .inr (.inr rfl)
  · exact .inl rfl

theorem concerns_install (c : NetworkConfig) : ∀ r ∈ installRequests c, Concerns c r := by
  have outer : Ours c c.outerInterface := .inl rfl
  have inner : Ours c c.innerInterface := .inr (.inl rfl)
  have vlan : Ours c vlanName := .inr (.inr rfl)
  have effective := concerns_effectiveOuter c
  have vlanLinks : ∀ r ∈ vlanRequests c, Concerns c r := by
    intro r hr
    unfold vlanRequests preparePortRequests at hr
    split at hr
    · simp only [List.cons_append, List.nil_append, List.mem_cons, List.not_mem_nil,
        or_false] at hr
      rcases hr with rfl | rfl | rfl | rfl
      · trivial
      · exact vlan
      · exact vlan
      · exact effective
    · cases hr
  intro r hr
  simp only [installRequests, prepareRequests, connectRequests, preparePortRequests,
    List.mem_append, List.mem_cons, List.not_mem_nil, or_false] at hr
  rcases hr with (((((((rfl | rfl) | rfl | rfl) | rfl | rfl | rfl) | hr) | rfl) |
    rfl | rfl | rfl | rfl | rfl | rfl | rfl | rfl) | rfl)
  all_goals first | exact vlanLinks r hr | exact outer | exact inner | exact effective | trivial

end Confined

/-! ## What the steps give back -/

/-- What holds during a rollback whatever fails: it stays on its own links and
still has its capture. -/
def Undoing (K : Kernel) (c : NetworkConfig) (w : World) : Prop :=
  Confined c K w.kernel ∧ Captured K c w.state_

/-- The port has its address, state and sysctls back. -/
def Reset (K : Kernel) (name : String) (k : Kernel) : Prop :=
  ∀ link, K.links name = some link → ∃ now, k.links name = some now ∧
    now.address = link.address ∧ now.up = link.up ∧ now.disableIpv6 = link.disableIpv6 ∧
    now.rpFilter = link.rpFilter

def Forwarding (K k : Kernel) : Prop := k.ipForward = K.ipForward

def Filtering (K k : Kernel) : Prop := Forwarding K k ∧ k.rpFilterAll = K.rpFilterAll

/-- The ports of the configuration have six-byte hardware addresses. -/
def Ethernet (c : NetworkConfig) (K : Kernel) : Prop :=
  ∀ name link, name = c.outerInterface ∨ name = c.innerInterface → K.links name = some link →
    link.address.length = 6

section Steps
variable {K : Kernel} {c : NetworkConfig}

/-- One attempted step that stays on its links and turns `A` into `B`. -/
theorem attempt_undoing {A B : Kernel → Prop} {step : Step} {errors : String}
    {action : Controller Unit} (quiet : Within Quiet action)
    (confined : ∀ w, Confined c K w.kernel → Confined c K (action w).2.kernel)
    (gain : ∀ w, Undoing K c w → A w.kernel → (action w).1 = .returned () →
      B (action w).2.kernel) :
    Triple (fun w => Undoing K c w ∧ (NoError errors → A w.kernel))
      (attemptStep step errors action)
      (Effort NoError (Undoing K c) fun w => B w.kernel) := by
  refine attemptStep_effort (fun _ => ⟨id, id⟩) (fun w hw => ?_)
    fun w hw ho => gain w hw.1 hw.2 ho
  exact ⟨confined w hw.1, (quiet w).state_ ▸ hw.2⟩

/-- The steps that take away need nothing from the capture. -/
theorem attempt_confined {step : Step} {errors : String} {action : Controller Unit}
    (quiet : Within Quiet action)
    (confined : ∀ w, Confined c K w.kernel → Confined c K (action w).2.kernel) :
    Triple (fun w => Undoing K c w ∧ (NoError errors → True)) (attemptStep step errors action)
      (Effort NoError (Undoing K c) fun _ => True) :=
  attempt_undoing (A := fun _ => True) (B := fun _ => True) quiet confined fun _ _ _ _ => trivial

theorem confined_mapTables {action : Controller Unit} {us : List (Kernel → Kernel)}
    (h : Performs World.kernel us action)
    (hus : ∀ u ∈ us, ∀ k, (u k).links = k.links ∧ (u k).numericTables = k.numericTables)
    (w : World) (hw : Confined c K w.kernel) : Confined c K (action w).2.kernel :=
  h.keeps (I := Confined c K) (fun u hu k hk => hk.congr (hus u hu k).1 (hus u hu k).2) w hw

theorem swapGuard_confined (errors : String) :
    Triple (fun w => Undoing K c w ∧ (NoError errors → True))
      (attemptStep .swapGuard errors (swapGuard c))
      (Effort NoError (Undoing K c) fun _ => True) := by
  refine attempt_confined (quiet_swapGuard c) (confined_mapTables (performs_swapGuard c) ?_)
  intro u hu k
  rcases List.mem_pair.mp hu with rfl | rfl <;> exact ⟨rfl, rfl⟩

theorem dropOuter_confined (errors : String) :
    Triple (fun w => Undoing K c w ∧ (NoError errors → True)) (dropOuter c errors)
      (Effort NoError (Undoing K c) fun _ => True) := by
  intro w hw
  obtain ⟨found, w', look, looked⟩ := lookUp_run (effectiveOuter c) w
  have hw' : Undoing K c w' := ⟨looked.kernel ▸ hw.1.1, looked.state_ ▸ hw.1.2⟩
  unfold dropOuter
  rw [bind_returned look]
  have route : ∀ gateway step errors,
      Triple (fun w => Undoing K c w ∧ (NoError errors → True))
        (attemptStep step errors (route c gateway false))
        (Effort NoError (Undoing K c) fun _ => True) := fun gateway step errors =>
    attempt_confined (quiet_route _ _ _)
      (confined_performs (performs_route c gateway false) (by simp [Concerns]))
  split
  · refine Triple.effortBind (route true _ _) (fun errors => ?_) w' ⟨hw', hw.2⟩
    refine Triple.effortBind (route false _ _) fun errors => ?_
    refine attempt_confined (quiet_address _ _ _ _)
      (confined_performs (performs_address _ _ _ _) ?_)
    simpa [Concerns] using concerns_effectiveOuter c
  · exact Triple.effortPure errors w' ⟨hw', hw.2⟩

theorem vlanDelete_confined (w : World) (hw : Confined c K w.kernel) :
    Confined c K (vlanDelete w).2.kernel :=
  vlanDelete_keeps (I := Confined c K) (fun _ hk => hk.after (r := .deleteVlan) trivial) w hw

theorem dropVlan_confined (errors : String) :
    Triple (fun w => Undoing K c w ∧ (NoError errors → True)) (dropVlan c errors)
      (Effort NoError (Undoing K c) fun _ => True) := by
  unfold dropVlan
  split
  · exact attempt_confined quiet_vlanDelete vlanDelete_confined
  · exact Triple.effortPure errors

/-- A sysctl whose saved value is known is written back. -/
theorem resetSysctl_undoing {A B : Kernel → Prop} {name value : String}
    (file : Sysctl) (step : Step) (hfile : Concerns c (.write file value))
    (hvalue : ∀ v, Captured K c v → v.get name = .string value)
    (gain : ∀ k, A k → B (k.after (.write file value))) (errors : String) :
    Triple (fun w => Undoing K c w ∧ (NoError errors → A w.kernel))
      (attemptStep step errors (resetSysctl file name))
      (Effort NoError (Undoing K c) fun w => B w.kernel) := by
  have hperf := performs_writeFile file value
  refine attemptStep_effort (fun _ => ⟨id, id⟩) (fun w hw => ?_) fun w hw ho => ?_
  · rw [resetSysctl_run (hvalue _ hw.2)]
    refine ⟨confined_performs hperf ?_ w hw.1, (quiet_writeFile file value w).state_ ▸ hw.2⟩
    simpa using hfile
  · rw [resetSysctl_run (hvalue _ hw.1.2)] at ho ⊢
    rw [hperf.view_returned ho]
    exact gain w.kernel hw.2

/-- A port whose entry was captured is given back. What is known of the other
port and of the host is not disturbed. -/
theorem resetPort_undoing {A : Kernel → Prop} {name : String} {link : Link}
    (hname : Ours c name) (hvlan : name ≠ vlanName) (h : Dedicated K name link)
    (hmac : link.address.length = 6)
    (kept : ∀ k f, A k → A (Kernel.mapLink k name f)) (errors : String) :
    Triple (fun w => Undoing K c w ∧ (NoError errors → A w.kernel))
      (attemptStep (.resetPort (capturedInfo name link)) errors
        (resetPort (capturedInfo name link)))
      (Effort NoError (Undoing K c) fun w => A w.kernel ∧ Reset K name w.kernel) := by
  have hperf := performs_resetPort (capturedInfo name link)
  rw [resetRequests_capturedInfo h hmac] at hperf
  refine attempt_undoing (B := fun k => A k ∧ Reset K name k) (quiet_resetPort _)
    (confined_performs hperf ?_) fun w hw hA ho => ?_
  · simpa [Concerns] using hname
  · rw [hperf.view_returned ho]
    simp only [requests_cons, requests_nil, applyAll_cons, applyAll_nil, Kernel.after_setLink,
      Kernel.after_disableIpv6, Kernel.after_rpFilter]
    refine ⟨kept _ _ (kept _ _ (kept _ _ (kept _ _ (kept _ _ hA)))), fun link' hlink' => ?_⟩
    obtain rfl : link = link' := Option.some.inj (h.present.symm.trans hlink')
    have hports := hw.1.ports name hvlan
    rw [h.present] at hports
    obtain ⟨now, hnow, -⟩ := Option.map_eq_some_iff.mp hports
    simp [hnow]

theorem Reset.mapLink {k : Kernel} {name other : String} (h : Reset K name k)
    (hne : name ≠ other) (f : Link → Link) : Reset K name (k.mapLink other f) := by
  intro link hlink
  obtain ⟨now, hnow, hsame⟩ := h link hlink
  exact ⟨now, by rw [Kernel.links_mapLink, if_neg hne, hnow], hsame⟩

/-- Everything a rollback writes back. -/
structure Restored (K : Kernel) (c : NetworkConfig) (k : Kernel) : Prop where
  sysctls : Filtering K k
  outer : Reset K c.outerInterface k
  inner : Reset K c.innerInterface k

theorem resetPorts_undoing (hvlan : K.links vlanName = none) (hmac : Ethernet c K)
    (errors : String) {w : World} (hw : Undoing K c w)
    (hA : NoError errors → Filtering K w.kernel) :
    Effort NoError (Undoing K c) (fun w => Restored K c w.kernel)
      (resetPorts errors (w.state_.get "baseline").elements w).1
      (resetPorts errors (w.state_.get "baseline").elements w).2 := by
  obtain ⟨outer, inner, houter, hinner, hbaseline⟩ := hw.2.baseline
  have hdistinct := interfaces_ne hw.2.valid
  have present : ∀ {name link}, Dedicated K name link → name ≠ vlanName := by
    rintro name link h rfl
    rw [h.present] at hvlan
    cases hvlan
  have outerPort := fun errors => resetPort_undoing (K := K) (c := c) (A := Filtering K) (.inl rfl)
    (present houter) houter (hmac _ _ (.inl rfl) houter.present)
    (fun k f h => by simpa [Filtering, Forwarding] using h) errors
  have innerPort := fun errors => resetPort_undoing (K := K) (c := c)
    (A := fun k => Filtering K k ∧ Reset K c.outerInterface k) (.inr (.inl rfl))
    (present hinner) hinner (hmac _ _ (.inr rfl) hinner.present)
    (fun k f h => ⟨by simpa [Filtering, Forwarding] using h.1, h.2.mapLink hdistinct f⟩) errors
  rw [hbaseline]
  refine Triple.effortBind (outerPort errors) (fun errors => ?_) w ⟨hw, hA⟩
  refine Triple.effortBind (innerPort errors) fun errors => ?_
  intro w hw
  exact Triple.effortPure errors w ⟨hw.1, fun he => ⟨(hw.2 he).1.1, (hw.2 he).1.2, (hw.2 he).2⟩⟩

/-- A rollback of a captured configuration in which nothing failed has written everything back. -/
theorem rollBack_restores (hvlan : K.links vlanName = none) (hmac : Ethernet c K) :
    Triple (Undoing K c) (rollBack c)
      (Effort NoError (Undoing K c) fun w => Restored K c w.kernel) := by
  have inner : Ours c c.innerInterface := .inr (.inl rfl)
  refine Triple.effortBind (A := fun w => Restored K c w.kernel) ?_ fun errors => ?_
  · unfold undoInstall withdraw
    refine (Triple.effortBind (swapGuard_confined "") fun errors => ?_).imp
      (fun w hw => ⟨hw, fun _ => trivial⟩) fun _ _ h => h
    refine Triple.effortBind (attempt_confined (quiet_rule _ _)
      (confined_performs (performs_rule c false) (by simp [Concerns]))) fun errors => ?_
    refine Triple.effortBind (dropOuter_confined errors) fun errors => ?_
    refine Triple.effortBind (attempt_confined (quiet_address _ _ _ _)
      (confined_performs (performs_address _ _ _ _) (by simpa [Concerns] using inner)))
        fun errors => ?_
    refine Triple.effortBind (dropVlan_confined errors) fun errors => ?_
    refine Triple.effortBind (attempt_confined (quiet_dropTable .ip)
      (confined_mapTables (performs_dropTable .ip) ?_)) fun errors => ?_
    · intro u hu k
      obtain rfl := List.mem_singleton.mp hu
      exact ⟨rfl, rfl⟩
    refine Triple.effortBind (resetSysctl_undoing (A := fun _ => True) (B := Forwarding K)
      .ipForward .resetForward trivial (fun v h => h.ipForward) (fun k _ => rfl) errors) fun errors => ?_
    refine Triple.effortBind (resetSysctl_undoing (A := Forwarding K) (B := Filtering K)
      .rpFilterAll .resetRpFilterAll trivial (fun v h => h.rpFilterAll) (fun k h => ⟨h, rfl⟩) errors)
        fun errors => ?_
    intro w hw
    exact resetPorts_undoing hvlan hmac errors hw.1 hw.2
  · unfold dropGuard
    split
    · refine attempt_undoing (A := Restored K c) (B := Restored K c) (quiet_dropTable .inet)
        (confined_mapTables (performs_dropTable .inet) ?_) fun w hw hA ho => ?_
      · intro u hu k
        obtain rfl := List.mem_singleton.mp hu
        exact ⟨rfl, rfl⟩
      · rw [(performs_dropTable .inet).view_returned ho]
        exact ⟨hA.sysctls, hA.outer, hA.inner⟩
    · exact Triple.effortPure errors

theorem Reset.link_eq {k : Kernel} {name : String} {link : Link} (h : Reset K name k)
    (hport : Dedicated K name link)
    (hfixed : (k.links name).map fixed = (K.links name).map fixed)
    (haddresses : ∀ now a, k.links name = some now → a ∈ now.addrInfo → Native K name a) :
    k.links name = K.links name := by
  obtain ⟨now, hnow, haddress, hup, hipv6, hfilter⟩ := h link hport.present
  rw [hnow, hport.present] at hfixed
  have hfields := Option.some.inj hfixed
  simp only [fixed, Prod.mk.injEq] at hfields
  obtain ⟨hmaster, hvlan, hinet6⟩ := hfields
  have hnil : now.addrInfo = [] := by
    refine List.eq_nil_iff_forall_not_mem.mpr fun a ha => ?_
    obtain ⟨old, hold, hmem⟩ := haddresses now a hnow ha
    obtain rfl : link = old := Option.some.inj (hport.present.symm.trans hold)
    rw [hport.unaddressed] at hmem
    cases hmem
  rw [hnow, hport.present]
  cases now
  cases link
  simp only at haddress hup hipv6 hfilter hmaster hvlan hinet6 hnil
  have hport' := hport.unaddressed
  simp only at hport'
  subst haddress hup hipv6 hfilter hmaster hvlan hinet6 hnil hport'
  rfl

/-- Taken away, given back and nothing else touched: the kernel is the one captured. -/
theorem kernel_restored {k : Kernel} {v : Value} (hK : Pristine K) (capture : Captured K c v)
    (bare : Bare K k) (confined : Confined c K k) (restored : Restored K c k) : k = K := by
  obtain ⟨outer, inner, houter, hinner, -⟩ := capture.baseline
  have present : ∀ {name link}, Dedicated K name link → name ≠ vlanName := by
    rintro name link h rfl
    have := hK.vlan
    rw [h.present] at this
    cases this
  have hlinks : k.links = K.links := by
    funext name
    by_cases hvlan : name = vlanName
    · rw [hvlan, bare.vlan, hK.vlan]
    by_cases ho : name = c.outerInterface
    · subst ho
      exact restored.outer.link_eq houter (confined.ports _ hvlan) (bare.addresses _)
    by_cases hi : name = c.innerInterface
    · subst hi
      exact restored.inner.link_eq hinner (confined.ports _ hvlan) (bare.addresses _)
    exact confined.others name fun h => h.elim ho fun h => h.elim hi hvlan
  have htables : k.tables = K.tables := by
    have hours : ∀ tables : List Table, tables.filter reserved = [] →
        tables.filter (!reserved ·) = tables := by
      intro tables hnone
      refine List.filter_eq_self.mpr fun t ht => ?_
      have := List.filter_eq_nil_iff.mp hnone t ht
      simpa using this
    rw [← hours k.tables bare.tables, bare.foreign, hours K.tables hK.tables]
  cases k
  cases K
  simp only [Kernel.mk.injEq]
  exact ⟨hlinks, bare.routes.trans hK.routes.symm, bare.rules.trans hK.rules.symm, htables,
    restored.sysctls.1, restored.sysctls.2, confined.numericTables⟩

end Steps

end Magicbox.Guarantees.Rollback
