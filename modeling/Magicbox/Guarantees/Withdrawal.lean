import Magicbox.Guarantees.KernelShape
import Magicbox.Source.ControllerRuns

/-!
# What the restoration steps take away

A restoration step either keeps the stage of the tables and takes resources
away, or moves the tables to their next stage. So what one step has removed
stays removed, and a rollback in which nothing failed has removed everything.
-/

set_option autoImplicit false

namespace Magicbox.Guarantees.Withdrawal
open Library.Crash Source Source.Json Source.Config Source.Nftables Source.Netns
  Source.NetworkController KernelShape

/-- No resource of the controller appears. -/
structure Shrinks (k k' : Kernel) : Prop where
  routes : k'.routes ⊆ k.routes
  rules : k'.rules ⊆ k.rules
  vlan : k.links vlanName = none → k'.links vlanName = none
  addresses : ∀ name link a, k'.links name = some link → a ∈ link.addrInfo →
    ∃ old, k.links name = some old ∧ a ∈ old.addrInfo

theorem Shrinks.refl (k : Kernel) : Shrinks k k :=
  ⟨fun _ h => h, fun _ h => h, fun h => h, fun _ link _ hl ha => ⟨link, hl, ha⟩⟩

theorem Shrinks.trans (j k l : Kernel) (h : Shrinks j k) (h' : Shrinks k l) : Shrinks j l := by
  refine ⟨fun _ hr => h.routes (h'.routes hr), fun _ hr => h.rules (h'.rules hr),
    fun hv => h'.vlan (h.vlan hv), ?_⟩
  intro name link a hl ha
  obtain ⟨mid, hmid, hmem⟩ := h'.addresses name link a hl ha
  exact h.addresses name mid a hmid hmem

/-- A step that keeps the stage, whatever kernel the controller started from,
and adds nothing. -/
structure Tidies (c : NetworkConfig) (k k' : Kernel) : Prop where
  tables : k'.tables = k.tables
  shape : ∀ K s, Shape K c s k → Shape K c s k'
  shrinks : Shrinks k k'

section Tidies
variable {c : NetworkConfig}

theorem Tidies.refl (c : NetworkConfig) (k : Kernel) : Tidies c k k :=
  ⟨rfl, fun _ _ h => h, Shrinks.refl k⟩

theorem Tidies.trans (j k l : Kernel) (h : Tidies c j k) (h' : Tidies c k l) : Tidies c j l :=
  ⟨h'.tables.trans h.tables, fun K s hs => h'.shape K s (h.shape K s hs),
    Shrinks.trans _ _ _ h.shrinks h'.shrinks⟩

theorem tidies_mapLink (k : Kernel) (name : String) {f : Link → Link}
    (hf : ∀ link, (f link).addrInfo ⊆ link.addrInfo) : Tidies c k (k.mapLink name f) := by
  refine ⟨by simp, fun K s h => h.mapLink name hf, by simp, by simp, ?_, ?_⟩
  · intro hv
    rw [Kernel.links_mapLink]
    split
    · next heq => rw [← heq, hv]; rfl
    · exact hv
  · intro other link a hl ha
    rw [Kernel.links_mapLink] at hl
    split at hl
    · next heq =>
      obtain ⟨old, hold, rfl⟩ := Option.map_eq_some_iff.mp hl
      exact ⟨old, heq ▸ hold, hf old ha⟩
    · exact ⟨link, hl, ha⟩

theorem tidies_setLink (k : Kernel) (name : String) (up : Bool) (mac : Option (List UInt8)) :
    Tidies c k (k.after (.setLink name up mac)) := by
  rw [Kernel.after_setLink]
  exact tidies_mapLink k name fun _ _ h => h

theorem tidies_write (k : Kernel) (file : Sysctl) (value : String) :
    Tidies c k (k.after (.write file value)) := by
  cases file with
  | disableIpv6 name =>
    rw [Kernel.after_disableIpv6]
    exact tidies_mapLink k name fun _ _ h => h
  | rpFilter name =>
    rw [Kernel.after_rpFilter]
    exact tidies_mapLink k name fun _ _ h => h
  | ipForward =>
    rw [Kernel.after_ipForward]
    exact ⟨rfl, fun K s h => h.congr rfl rfl rfl rfl, fun _ h => h, fun _ h => h, fun h => h,
      fun _ link _ hl ha => ⟨link, hl, ha⟩⟩
  | rpFilterAll =>
    rw [Kernel.after_rpFilterAll]
    exact ⟨rfl, fun K s h => h.congr rfl rfl rfl rfl, fun _ h => h, fun _ h => h, fun h => h,
      fun _ link _ hl ha => ⟨link, hl, ha⟩⟩

theorem tidies_deleteAddress (k : Kernel) (name : String) (a : Ifaddr) :
    Tidies c k (k.after (.deleteAddress name a)) := by
  rw [Kernel.after_deleteAddress]
  exact tidies_mapLink k name fun _ _ h => (List.mem_filter.mp h).1

theorem tidies_deleteRoute (k : Kernel) (r : Route) : Tidies c k (k.after (.deleteRoute r)) := by
  refine ⟨by simp, fun K s h => h.deleteRoute r, ?_⟩
  rw [Kernel.after_deleteRoute]
  exact ⟨fun _ h => (List.mem_filter.mp h).1, fun _ h => h, fun h => h,
    fun _ link _ hl ha => ⟨link, hl, ha⟩⟩

theorem tidies_deleteRule (k : Kernel) (r : PolicyRule) : Tidies c k (k.after (.deleteRule r)) := by
  refine ⟨by simp, fun K s h => h.deleteRule r, ?_⟩
  rw [Kernel.after_deleteRule]
  exact ⟨fun _ h => h, fun _ h => (List.mem_filter.mp h).1, fun h => h,
    fun _ link _ hl ha => ⟨link, hl, ha⟩⟩

theorem tidies_deleteVlan (k : Kernel) : Tidies c k (k.after .deleteVlan) := by
  refine ⟨?_, fun K s h => h.deleteVlan, ?_⟩
  · rw [Kernel.after_deleteVlan]
    split <;> rfl
  rw [Kernel.after_deleteVlan]
  split
  · refine ⟨fun _ h => (List.mem_filter.mp h).1, fun _ h => h, ?_, ?_⟩
    · intro _
      change (k.setLinks vlanName none).links vlanName = none
      simp
    · intro name link a hl ha
      change (k.setLinks vlanName none).links name = some link at hl
      rw [Kernel.links_setLinks] at hl
      split at hl
      · cases hl
      · exact ⟨link, hl, ha⟩
  · exact Shrinks.refl k

/-- What is gone stays gone. -/
def Closed (A : Kernel → Prop) : Prop := ∀ k k', Shrinks k k' → A k → A k'

theorem Closed.and {A B : Kernel → Prop} (hA : Closed A) (hB : Closed B) :
    Closed fun k => A k ∧ B k :=
  fun k k' h hk => ⟨hA k k' h hk.1, hB k k' h hk.2⟩

def NoRule (r : PolicyRule) (k : Kernel) : Prop := r ∉ k.rules

def NoRoute (r : Route) (k : Kernel) : Prop := r ∉ k.routes

def NoAddress (name : String) (a : Ifaddr) (k : Kernel) : Prop :=
  ∀ link, k.links name = some link → a ∉ link.addrInfo

def NoVlan (k : Kernel) : Prop := k.links vlanName = none

theorem closed_noRule (r : PolicyRule) : Closed (NoRule r) :=
  fun _ _ h hk hr => hk (h.rules hr)

theorem closed_noRoute (r : Route) : Closed (NoRoute r) :=
  fun _ _ h hk hr => hk (h.routes hr)

theorem closed_noVlan : Closed NoVlan := fun _ _ h hk => h.vlan hk

theorem closed_noAddress (name : String) (a : Ifaddr) : Closed (NoAddress name a) := by
  intro k k' h hk link hl ha
  obtain ⟨old, hold, hmem⟩ := h.addresses name link a hl ha
  exact hk old hold hmem

end Tidies

/-! ## Chains of restoration steps -/

/-- The kernel has our shape, at a stage in `Q`. -/
def AtStage (seen : Prop) (K : Kernel) (c : NetworkConfig) (Q : Stage → Prop) (k : Kernel) : Prop :=
  ∃ s, Q s ∧ Sighted seen K c s k

/-- The kernel has our shape, unless a link was overlooked behind the first `n` acts. -/
def InStage (n : Nat) (K : Kernel) (c : NetworkConfig) (Q : Stage → Prop) (w : World) : Prop :=
  n ≤ w.log.length ∧ AtStage (Sees n w) K c Q w.kernel

/-- Nothing of the controller's is left, unless a link was overlooked. -/
def Clean (n : Nat) (K : Kernel) (w : World) : Prop :=
  n ≤ w.log.length ∧ Cleared (Sees n w) K w.kernel

section Chain
variable {n : Nat} {K : Kernel} {c : NetworkConfig} {P Q : Stage → Prop} {A B : Kernel → Prop}

theorem Tidies.sighted {seen : Prop} {s : Stage} {k k' : Kernel} (tidies : Tidies c k k')
    (h : Sighted seen K c s k) : Sighted seen K c s k' :=
  h.imp tidies.tables (tidies.shape K s)

theorem AtStage.tidies {seen : Prop} {k k' : Kernel} (h : AtStage seen K c Q k)
    (tidies : Tidies c k k') : AtStage seen K c Q k' := by
  obtain ⟨s, hs, hshape⟩ := h
  exact ⟨s, hs, tidies.sighted hshape⟩

theorem AtStage.imp {seen : Prop} {k : Kernel} (h : AtStage seen K c P k)
    (hstage : ∀ s, P s → Q s) : AtStage seen K c Q k := by
  obtain ⟨s, hs, hshape⟩ := h
  exact ⟨s, hstage s hs, hshape⟩

theorem AtStage.mono {seen seen' : Prop} {k : Kernel} (h : AtStage seen K c Q k)
    (hseen : seen' → seen) : AtStage seen' K c Q k := by
  obtain ⟨s, hs, hshape⟩ := h
  exact ⟨s, hs, hshape.mono hseen⟩

/-- From what the kernel is like behind a step, with what was seen before it. -/
theorem InStage.after {w w' : World} (h : n ≤ w.log.length) (grows : Grows w w')
    (hkernel : AtStage (Sees n w) K c Q w'.kernel) : InStage n K c Q w' :=
  ⟨grows.le h, hkernel.mono fun hs => hs.grows grows⟩

theorem InStage.imp {w : World} (h : InStage n K c P w) (hstage : ∀ s, P s → Q s) :
    InStage n K c Q w :=
  ⟨h.1, h.2.imp hstage⟩

theorem InStage.same {w w' : World} (h : InStage n K c Q w) (hkernel : w'.kernel = w.kernel)
    (grows : Grows w w') : InStage n K c Q w' :=
  .after h.1 grows (hkernel ▸ h.2)

theorem Clean.same {w w' : World} (h : Clean n K w) (hkernel : w'.kernel = w.kernel)
    (grows : Grows w w') : Clean n K w' :=
  ⟨grows.le h.1, hkernel ▸ h.2.mono fun hs => hs.grows grows⟩

theorem Clean.inStage {w : World} (h : Clean n K w) (c : NetworkConfig) (hQ : Q .bare) :
    InStage n K c Q w :=
  ⟨h.1, .bare, hQ, h.2.sighted c⟩

/-- What the updates of a part keep of the shape, the part keeps. -/
theorem inStage_performs {us : List (Kernel → Kernel)} {action : Controller Unit}
    (h : Performs World.kernel us action) (quiet : Within Quiet action)
    (keep : ∀ u ∈ us, ∀ seen k, AtStage seen K c Q k → AtStage seen K c Q (u k)) :
    Triple (InStage n K c Q) action fun _ w => InStage n K c Q w := by
  rintro w ⟨hn, hstage⟩
  exact .after hn (quiet w).grows (h.keeps (fun u hu k => keep u hu _ k) w hstage)

def NoError (errors : String) : Prop := errors = ""

theorem noteError_dirty (errors : String) (e : Exn) : ¬ NoError (noteError errors e) := by
  unfold NoError noteError
  intro h
  have hlen := congrArg String.length h
  have hsep : "; ".length = 2 := by decide
  have hnil : "".length = 0 := by decide
  rw [String.length_append, String.length_append, hsep, hnil] at hlen
  omega

/-- What the steps have achieved, as long as nothing failed. -/
def Achieved (n : Nat) (K : Kernel) (c : NetworkConfig) (P : Stage → Prop) (A : Kernel → Prop)
    (w : World) : Prop :=
  InStage n K c P w ∧ (Sees n w → A w.kernel)

theorem Achieved.same {w w' : World} (h : Achieved n K c P A w) (hkernel : w'.kernel = w.kernel)
    (grows : Grows w w') : Achieved n K c P A w' :=
  ⟨h.1.same hkernel grows, fun hs => hkernel ▸ h.2 (hs.grows grows)⟩

/-- What is known before a step with collected errors `errors`: the stage is in
`Q`, and if nothing failed yet it is in `P` and `A` holds. -/
def Before (n : Nat) (K : Kernel) (c : NetworkConfig) (Q P : Stage → Prop) (A : Kernel → Prop)
    (errors : String) (w : World) : Prop :=
  InStage n K c Q w ∧ (NoError errors → Achieved n K c P A w)

/-- What is known after it. -/
def After (n : Nat) (K : Kernel) (c : NetworkConfig) (Q P : Stage → Prop) (A : Kernel → Prop) :
    Outcome Exn String → World → Prop :=
  Effort NoError (InStage n K c Q) (Achieved n K c P A)

/-- A restoration step, noted and attempted. -/
theorem attemptStep_effort {I A A' : World → Prop} {step : Step} {errors : String}
    {action : Controller Unit}
    (ghost : ∀ w, (I w → I (noted (.attempted step) w)) ∧ (A w → A (noted (.attempted step) w)))
    (safe : Triple I action fun _ w => I w)
    (gain : Triple (fun w => I w ∧ A w) action fun o w => o = .returned () → A' w) :
    Triple (fun w => I w ∧ (NoError errors → A w)) (attemptStep step errors action)
      (Effort NoError I A') := by
  intro w hw
  have hnoted : I (noted (.attempted step) w) ∧
      (NoError errors → A (noted (.attempted step) w)) :=
    ⟨(ghost w).1 hw.1, fun he => (ghost w).2 (hw.2 he)⟩
  exact Triple.attempt noteError_dirty safe gain _ hnoted

theorem ghost_step (step : Step) (w : World) :
    (InStage n K c Q w → InStage n K c Q (noted (.attempted step) w)) ∧
      (Achieved n K c P A w → Achieved n K c P A (noted (.attempted step) w)) :=
  ⟨fun h => h.same rfl ⟨_, rfl⟩, fun h => h.same rfl ⟨_, rfl⟩⟩

theorem attempt_tidy (closed : Closed A) {step : Step} {errors : String}
    {action : Controller Unit} (quiet : Within Quiet action)
    (tidy : ∀ w, Tidies c w.kernel (action w).2.kernel)
    (gain : ∀ w, n ≤ w.log.length → (action w).1 = .returned () → Sees n (action w).2 →
      B (action w).2.kernel) :
    Triple (Before n K c Q P A errors) (attemptStep step errors action)
      (After n K c Q P fun k => A k ∧ B k) := by
  have kept : ∀ {R : Stage → Prop} w, InStage n K c R w → InStage n K c R (action w).2 :=
    fun w h => .after h.1 (quiet w).grows (h.2.tidies (tidy w))
  refine attemptStep_effort (ghost_step step) kept ?_
  intro w hw ho
  refine ⟨kept w hw.2.1, fun hs => ⟨closed _ _ (tidy w).shrinks ?_, gain w hw.1.1 ho hs⟩⟩
  exact hw.2.2 (hs.grows (quiet w).grows)

theorem tidy_of_performs {us : List (Kernel → Kernel)} {action : Controller Unit}
    (h : Performs World.kernel us action) (step : ∀ u ∈ us, ∀ k, Tidies c k (u k)) (w : World) :
    Tidies c w.kernel (action w).2.kernel :=
  h.within (R := Tidies c) (Tidies.refl c) Tidies.trans step w

theorem attempt_dropRule (closed : Closed A) (errors : String) :
    Triple (Before n K c Q P A errors) (attemptStep .dropRule errors (rule c false))
      (After n K c Q P fun k => A k ∧ NoRule (ruleEntry c) k) := by
  have hperf := performs_rule c false
  refine attempt_tidy closed (quiet_rule c false) (tidy_of_performs hperf ?_) fun w _ ho _ => ?_
  · simpa [requests] using fun k => tidies_deleteRule k (ruleEntry c)
  · rw [hperf.view_returned ho]
    simp [NoRule]

theorem attempt_dropRoute (closed : Closed A) (step : Step) (gateway : Bool) (errors : String) :
    Triple (Before n K c Q P A errors) (attemptStep step errors (route c gateway false))
      (After n K c Q P fun k => A k ∧ NoRoute (routeEntry c gateway) k) := by
  have hperf := performs_route c gateway false
  refine attempt_tidy closed (quiet_route c gateway false) (tidy_of_performs hperf ?_)
    fun w _ ho _ => ?_
  · simpa [requests] using fun k => tidies_deleteRoute k (routeEntry c gateway)
  · rw [hperf.view_returned ho]
    simp [NoRoute]

theorem attempt_dropAddress (closed : Closed A) (step : Step) (name ip : String)
    (prefixLength : UInt32) (errors : String) :
    Triple (Before n K c Q P A errors)
      (attemptStep step errors (address name ip prefixLength false))
      (After n K c Q P fun k => A k ∧ NoAddress name (ifaddr ip prefixLength) k) := by
  have hperf := performs_address name ip prefixLength false
  refine attempt_tidy closed (quiet_address name ip prefixLength false)
    (tidy_of_performs hperf ?_) fun w _ ho _ => ?_
  · simpa [requests] using fun k => tidies_deleteAddress k name (ifaddr ip prefixLength)
  · rw [hperf.view_returned ho]
    intro link hl
    simp only [requests_cons, requests_nil, applyAll_cons, applyAll_nil, Bool.false_eq_true,
      if_false, Kernel.after_deleteAddress, Kernel.links_mapLink, if_true] at hl
    obtain ⟨old, -, rfl⟩ := Option.map_eq_some_iff.mp hl
    simp

/-- What the steps on the outer side take away. -/
def OuterGone (c : NetworkConfig) (k : Kernel) : Prop :=
  (NoRoute (routeEntry c true) k ∧ NoRoute (routeEntry c false) k) ∧
    NoAddress (effectiveOuter c) (ifaddr c.outerIpv4 c.outerPrefix) k

theorem closed_outerGone (c : NetworkConfig) : Closed (OuterGone c) :=
  ((closed_noRoute _).and (closed_noRoute _)).and (closed_noAddress _ _)

/-- When the outer link is gone its routes and its address are gone with it, so
the steps that are skipped had nothing to do. -/
theorem dropOuter_spec (closed : Closed A) (errors : String) :
    Triple (Before n K c Q P A errors) (dropOuter c errors)
      (After n K c Q P fun k => A k ∧ OuterGone c k) := by
  intro w hw
  obtain ⟨found, w', look, looked⟩ := lookUp_run (effectiveOuter c) w
  have hw' : Before n K c Q P A errors w' := ⟨hw.1.same looked.kernel looked.grows,
    fun he => (hw.2 he).same looked.kernel looked.grows⟩
  unfold dropOuter
  rw [bind_returned look]
  cases found with
  | true =>
    rw [if_pos rfl]
    refine Triple.imp (Triple.effortBind (attempt_dropRoute closed _ true errors) fun errors' =>
      Triple.effortBind (attempt_dropRoute (closed.and (closed_noRoute _)) _ false errors')
        fun errors'' => attempt_dropAddress ((closed.and (closed_noRoute _)).and (closed_noRoute _))
          _ _ _ _ errors'') (fun w hw => hw) ?_ w' hw'
    refine Effort.imp fun w _ h => ⟨h.1, fun hs => ?_⟩
    exact ⟨(h.2 hs).1.1.1, ⟨(h.2 hs).1.1.2, (h.2 hs).1.2⟩, (h.2 hs).2⟩
  | false =>
    rw [if_neg Bool.false_ne_true]
    have gone : Sees n w' → OuterGone c w'.kernel := by
      intro hsees
      obtain ⟨s, -, hsighted⟩ := hw'.1.2
      have hshape := hsighted.shape hsees
      have hp : w'.kernel.present (effectiveOuter c) = false := by
        rw [looked.kernel]
        exact (looked.tells hw.1.1 hsees).symm
      have hroutes : w'.kernel.routes = [] := by
        by_contra hne
        rw [hshape.oif hne] at hp
        cases hp
      have hlink : w'.kernel.links (effectiveOuter c) = none := by
        simpa [Kernel.present] using hp
      refine ⟨⟨by simp [NoRoute, hroutes], by simp [NoRoute, hroutes]⟩, fun link hl => ?_⟩
      rw [hlink] at hl
      cases hl
    exact Triple.effortPure errors w' ⟨hw'.1, fun he =>
      ⟨(hw'.2 he).1, fun hs => ⟨(hw'.2 he).2 hs, gone hs⟩⟩⟩

theorem dropVlan_spec (closed : Closed A) (errors : String) :
    Triple (Before n K c Q P A errors) (dropVlan c errors)
      (After n K c Q P fun k => A k ∧ NoVlan k) := by
  unfold dropVlan
  split
  · have tidy : ∀ w, Tidies c w.kernel (vlanDelete w).2.kernel := fun w =>
      vlanDelete_keeps (I := Tidies c w.kernel)
        (fun k hk => Tidies.trans _ _ _ hk (tidies_deleteVlan k)) w (Tidies.refl c _)
    refine attempt_tidy closed quiet_vlanDelete tidy fun w hn ho hs => ?_
    rw [vlanDelete_returned ho hn hs, Kernel.after_deleteVlan]
    unfold NoVlan
    split
    · change (w.kernel.setLinks vlanName none).links vlanName = none
      simp
    · next hp => simpa [Kernel.present] using hp
  · next hc =>
    rintro w ⟨hQ, hA⟩
    refine Triple.effortPure errors w ⟨hQ, fun he =>
      ⟨(hA he).1, fun hsees => ⟨(hA he).2 hsees, ?_⟩⟩⟩
    obtain ⟨-, s, -, hsighted⟩ := hQ
    unfold NoVlan
    by_contra hne
    exact hc ((hsighted.shape hsees).vlan (Option.isSome_iff_ne_none.mpr hne))

/-- Deleting the translation table is the one step here that moves the stage on. -/
theorem attempt_dropTranslation (closed : Closed A) (hQ : ∀ s, Q s → Q s.dropTranslation)
    (errors : String) :
    Triple (Before n K c Q (fun s => s = .guarded ∨ s = .swapped) A errors)
      (attemptStep .dropTranslation errors (dropTable .ip))
      (After n K c Q (fun s => s = .guarded) A) := by
  have hperf := performs_dropTable .ip
  have quiet := quiet_dropTable .ip
  refine attemptStep_effort (ghost_step .dropTranslation) (inStage_performs hperf quiet ?_) ?_
  · rintro u hu seen k ⟨s, hs, hsighted⟩
    obtain rfl := List.mem_singleton.mp hu
    exact ⟨s.dropTranslation, hQ s hs, hsighted.dropTranslation⟩
  · rintro w ⟨-, ⟨hn, s, hs, hsighted⟩, hA⟩ ho
    have hkernel : (dropTable .ip w).2.kernel = _ := hperf.view_returned ho
    have grows := (quiet w).grows
    have hguarded : s.dropTranslation = .guarded := by
      rcases hs with rfl | rfl <;> rfl
    refine ⟨.after hn grows (hkernel ▸ ⟨_, hguarded, hsighted.dropTranslation⟩), fun hsees => ?_⟩
    rw [hkernel]
    exact closed w.kernel _ ⟨fun _ h => h, fun _ h => h, fun h => h,
      fun _ link _ hl ha => ⟨link, hl, ha⟩⟩ (hA (hsees.grows grows))

theorem attempt_resetSysctl (closed : Closed A) (step : Step) (file : Sysctl)
    (name errors : String) :
    Triple (Before n K c Q P A errors) (attemptStep step errors (resetSysctl file name))
      (After n K c Q P A) := by
  have tidy : ∀ w, Tidies c w.kernel (resetSysctl file name w).2.kernel := fun w =>
    resetSysctl_keeps (I := Tidies c w.kernel) name
      (fun value k hk => Tidies.trans _ _ _ hk (tidies_write k file value)) w (Tidies.refl c _)
  refine (attempt_tidy closed (B := fun _ => True) (quiet_resetSysctl file name) tidy
    fun _ _ _ _ => trivial).imp (fun w hw => hw) ?_
  exact Effort.imp fun w _ h => ⟨h.1, fun hs => (h.2 hs).1⟩

theorem attempt_resetPort (closed : Closed A) (info : Value) (errors : String) :
    Triple (Before n K c Q P A errors) (attemptStep (.resetPort info) errors (resetPort info))
      (After n K c Q P A) := by
  have tidy : ∀ u ∈ requests (resetRequests info), ∀ k, Tidies c k (u k) := by
    simp only [resetRequests, requests_cons, requests_nil, List.mem_cons, List.not_mem_nil,
      or_false]
    rintro u (rfl | rfl | rfl | rfl | rfl) k
    · exact tidies_setLink _ _ _ _
    · exact tidies_setLink _ _ _ _
    · exact tidies_write _ _ _
    · exact tidies_write _ _ _
    · exact tidies_setLink _ _ _ _
  refine (attempt_tidy closed (B := fun _ => True) (quiet_resetPort info)
    (tidy_of_performs (performs_resetPort info) tidy) fun _ _ _ _ => trivial).imp
    (fun w hw => hw) ?_
  exact Effort.imp fun w _ h => ⟨h.1, fun hs => (h.2 hs).1⟩

theorem resetPorts_spec (closed : Closed A) (infos : List Value) (errors : String) :
    Triple (Before n K c Q P A errors) (resetPorts errors infos) (After n K c Q P A) := by
  induction infos generalizing errors with
  | nil => exact Triple.effortPure errors
  | cons info rest ih => exact Triple.effortBind (attempt_resetPort closed info errors) ih

/-- Everything a configuration adds besides its tables. -/
structure Gone (c : NetworkConfig) (k : Kernel) : Prop where
  rule : NoRule (ruleEntry c) k
  outer : OuterGone c k
  inner : NoAddress c.innerInterface (ifaddr c.innerGatewayIpv4 c.innerPrefix) k
  vlan : NoVlan k

/-- The steps between the guard's return and its removal keep the stage inside
every set that is closed under the loss of the translation. When none of them
fails, only the guard is left. -/
theorem withdraw_spec (hQ : ∀ s, Q s → Q s.dropTranslation) (errors : String) :
    Triple (Before n K c Q (fun s => s = .guarded ∨ s = .swapped) (fun _ => True) errors)
      (withdraw c errors) (After n K c Q (fun s => s = .guarded) (Gone c)) := by
  have hrule := closed_noRule (ruleEntry c)
  have hnil : Closed fun _ => True := fun _ _ _ _ => trivial
  have h₁ := hnil.and hrule
  have h₂ := h₁.and (closed_outerGone c)
  have h₃ := h₂.and
    (closed_noAddress c.innerInterface (ifaddr c.innerGatewayIpv4 c.innerPrefix))
  have h₄ := h₃.and closed_noVlan
  suffices hchain : Triple (Before n K c Q (fun s => s = .guarded ∨ s = .swapped) (fun _ => True)
      errors) (withdraw c errors) (After n K c Q (fun s => s = .guarded) fun k =>
        (((True ∧ NoRule (ruleEntry c) k) ∧ OuterGone c k) ∧
          NoAddress c.innerInterface (ifaddr c.innerGatewayIpv4 c.innerPrefix) k) ∧ NoVlan k) from
    hchain.imp (fun w hw => hw) (Effort.imp fun w _ h => ⟨h.1, fun hs =>
      ⟨(h.2 hs).1.1.1.2, (h.2 hs).1.1.2, (h.2 hs).1.2, (h.2 hs).2⟩⟩)
  refine Triple.effortBind (attempt_dropRule hnil errors) fun errors => ?_
  refine Triple.effortBind (dropOuter_spec h₁ errors) fun errors => ?_
  refine Triple.effortBind (attempt_dropAddress h₂ _ _ _ _ errors) fun errors => ?_
  refine Triple.effortBind (dropVlan_spec h₃ errors) fun errors => ?_
  refine Triple.effortBind (attempt_dropTranslation h₄ hQ errors) fun errors => ?_
  refine Triple.effortBind (attempt_resetSysctl h₄ _ _ _ errors) fun errors => ?_
  refine Triple.effortBind (attempt_resetSysctl h₄ _ _ _ errors) fun errors => ?_
  intro w hw
  exact resetPorts_spec h₄ _ errors w hw

/-! ## The guard's return and its removal -/

theorem attempt_swapGuard (hQ : ∀ s, Q s → Q s.swap) (errors : String) :
    Triple (InStage n K c Q) (attemptStep .swapGuard errors (swapGuard c))
      (After n K c Q (fun s => s = .guarded ∨ s = .swapped) fun _ => True) := by
  have hperf := performs_swapGuard c
  have keeps : Triple (InStage n K c Q) (swapGuard c) fun _ w => InStage n K c Q w := by
    refine inStage_performs hperf (quiet_swapGuard c) ?_
    rintro u hu seen k ⟨s, hs, hsighted⟩
    rcases List.mem_pair.mp hu with rfl | rfl
    · exact ⟨s.swap, hQ s hs, hsighted.swapTables⟩
    · exact ⟨s, hs, hsighted⟩
  refine (attemptStep_effort (A := fun _ => True) (fun w => ⟨(ghost_step (P := Q)
    (A := fun _ => True) .swapGuard w).1, id⟩) keeps ?_).imp (fun w hw => ⟨hw, fun _ => trivial⟩)
    (fun o w hw => hw)
  rintro w ⟨⟨hn, s, hs, hsighted⟩, -⟩ ho
  have hkernel : (swapGuard c w).2.kernel = _ := hperf.view_returned ho
  have hswapped : s.swap = .guarded ∨ s.swap = .swapped := by
    cases s <;> simp [Stage.swap]
  exact ⟨.after hn (quiet_swapGuard c w).grows
    (hkernel ▸ ⟨s.swap, hswapped, hsighted.swapTables⟩), fun _ => trivial⟩

theorem undoInstall_spec (hswap : ∀ s, Q s → Q s.swap) (hdrop : ∀ s, Q s → Q s.dropTranslation) :
    Triple (InStage n K c Q) (undoInstall c)
      (After n K c Q (fun s => s = .guarded) (Gone c)) :=
  Triple.effortBind (attempt_swapGuard hswap "") fun errors => withdraw_spec hdrop errors

/-- With everything else gone the kernel has only what it had before. -/
theorem Gone.clear {k : Kernel} {s : Stage} (h : Gone c k) (hshape : Shape K c s k) :
    k.routes = [] ∧ k.rules = [] ∧
      ∀ name link a, k.links name = some link → a ∈ link.addrInfo → Native K name a := by
  refine ⟨List.eq_nil_iff_forall_not_mem.mpr fun r hr => ?_,
    List.eq_nil_iff_forall_not_mem.mpr fun r hr => ?_, fun name link a hl ha => ?_⟩
  · obtain ⟨gateway, rfl⟩ := hshape.routes r hr
    cases gateway
    · exact h.outer.1.2 hr
    · exact h.outer.1.1 hr
  · exact h.rule (hshape.rules r hr ▸ hr)
  · rcases hshape.addresses name link a hl ha with hnative | ⟨rfl, rfl⟩ | ⟨rfl, rfl⟩
    · exact hnative
    · exact absurd ha (h.inner link hl)
    · exact absurd ha (h.outer.2 link hl)

theorem Bare.dropGuard {k : Kernel} (h : Bare K k) :
    Bare K (mapTables (Nftables.dropTable .inet "magicbox") k) := by
  have tabled := h.tabled.dropTable .inet
  exact ⟨tabled.foreign, tabled.tables, h.routes, h.rules, h.vlan, h.addresses⟩

/-- The removal of the guard, where the guard is all that is left or where it is gone. -/
theorem Cleared.dropGuard {seen : Prop} {k : Kernel}
    (h : (Sighted seen K c .guarded k ∧ (seen → Gone c k)) ∨ Cleared seen K k) :
    Cleared seen K (mapTables (Nftables.dropTable .inet "magicbox") k) := by
  rcases h with ⟨hsighted, hgone⟩ | hcleared
  · refine ⟨hsighted.tabled.dropTable .inet, fun hs => ?_⟩
    exact ((hsighted.shape hs).dropGuard ((hgone hs).clear (hsighted.shape hs))).to_bare
      (hgone hs).vlan
  · exact ⟨hcleared.tabled.dropTable .inet, fun hs => Bare.dropGuard (hcleared.bare hs)⟩

theorem dropGuard_spec (hguarded : Q .guarded) (hbare : Q .bare) (errors : String) :
    Triple (Before n K c Q (fun s => s = .guarded) (Gone c) errors) (dropGuard errors)
      (Effort NoError (InStage n K c Q) (Clean n K)) := by
  rintro w ⟨hQ, hA⟩
  unfold dropGuard
  by_cases he : errors = ""
  · obtain ⟨⟨hn, s, rfl, hsighted⟩, hgone⟩ := hA he
    have hempty : errors.isEmpty = true := String.isEmpty_iff.mpr he
    rw [hempty, if_pos rfl]
    -- Wherever the removal stops, the guard is untouched or everything is gone.
    let ends : World → Prop := fun v =>
      (Sighted (Sees n w) K c .guarded v.kernel ∧ (Sees n w → Gone c v.kernel)) ∨
        Cleared (Sees n w) K v.kernel
    have hperf := performs_dropTable .inet
    have safe : Triple ends (dropTable .inet) fun _ v => ends v := by
      refine hperf.keeps (I := fun k => (Sighted (Sees n w) K c .guarded k ∧
        (Sees n w → Gone c k)) ∨ Cleared (Sees n w) K k) ?_
      intro u hu k hk
      obtain rfl := List.mem_singleton.mp hu
      exact .inr (Cleared.dropGuard hk)
    have gain : Triple (fun v => ends v ∧ ends v) (dropTable .inet) fun o v =>
        o = .returned () → Cleared (Sees n w) K v.kernel := by
      rintro v ⟨-, hv⟩ ho
      rw [hperf.view_returned ho]
      exact Cleared.dropGuard hv
    have hend : Effort NoError ends (fun v => Cleared (Sees n w) K v.kernel)
        (attemptStep .dropGuard errors (dropTable .inet) w).1
        (attemptStep .dropGuard errors (dropTable .inet) w).2 :=
      attemptStep_effort (fun v => ⟨id, id⟩) safe gain w
        ⟨.inl ⟨hsighted, hgone⟩, fun _ => .inl ⟨hsighted, hgone⟩⟩
    have grows := (quiet_attemptStep .dropGuard errors (quiet_dropTable .inet) w).grows
    refine ⟨.after hn grows ?_, fun errors' ho hclean => ⟨grows.le hn, ?_⟩, hend.2.2⟩
    · rcases hend.1 with ⟨hs, -⟩ | hcleared
      · exact ⟨.guarded, hguarded, hs⟩
      · exact ⟨.bare, hbare, hcleared.sighted c⟩
    · exact (hend.2.1 errors' ho hclean).mono fun hs => hs.grows grows
  · have hne : errors.isEmpty = false := isEmpty_eq_false he
    rw [hne, if_neg Bool.false_ne_true]
    exact Triple.effortPure errors w ⟨hQ, fun h => absurd h he⟩

end Chain

/-- A rollback keeps our shape wherever it stops. One in which nothing failed
leaves the kernel bare. -/
theorem rollBack_spec (n : Nat) (K : Kernel) (c : NetworkConfig) :
    Triple (InStage n K c fun _ => True) (rollBack c)
      (Effort NoError (InStage n K c fun _ => True) (Clean n K)) :=
  Triple.effortBind (undoInstall_spec (fun _ h => h) fun _ h => h) fun errors =>
    dropGuard_spec trivial trivial errors

/-- The shape of a configuration, at whatever stage. -/
def Shaped (K : Kernel) (c : NetworkConfig) (k : Kernel) : Prop := ∃ s, Shape K c s k

/-- The same without reservation, for a rollback that overlooks no link. -/
theorem rollBack_shaped {K : Kernel} {c : NetworkConfig} {w : World} (h : Shaped K c w.kernel)
    (hsees : Sees w.log.length (rollBack c w).2) :
    Shaped K c (rollBack c w).2.kernel ∧
      ((rollBack c w).1 = .returned "" → Bare K (rollBack c w).2.kernel) := by
  obtain ⟨s, hs⟩ := h
  have hspec := rollBack_spec w.log.length K c w ⟨Nat.le_refl _, s, trivial, .of_shape hs⟩
  obtain ⟨-, s', -, hsighted⟩ := hspec.1
  exact ⟨⟨s', hsighted.shape hsees⟩, fun ho => (hspec.2.1 _ ho rfl).2.bare hsees⟩

end Magicbox.Guarantees.Withdrawal
