import Magicbox.Guarantees.FirstRestore

/-!
# The status tells the kernel

On a host that had none of the reserved resources, the status that a run leaves
in memory and in the journal determines the kernel: inactive is the kernel that
was found, and awaiting or confirmed is that kernel with one configuration
installed on it, whatever was rolled back, cut or restarted before. A restart
that reconciles a confirmed configuration therefore ends where it began. It takes
that no rollback overlooks a link, and ports that stay without IPv6 when they are
raised again.
-/

set_option autoImplicit false

namespace Magicbox.Guarantees.SettledKernel
open Library.Crash Source Source.Json Source.Config Source.ConfigJson Source.Nftables Source.Netns
  Source.NetworkController Source.Worker Source.StatusChanges KernelShape Withdrawal KernelRuns
  Baseline Rollback FirstRestore

/-- The kernel `K` with a configuration in force. -/
def inForce (c : NetworkConfig) (K : Kernel) : Kernel := applyAll (requests (installRequests c)) K

/-- Nothing is installed. -/
def Idle (v : Value) : Prop := v.isNull = true ∨ HasStatus "inactive" v

/-- The whole of a configuration is installed. -/
def Installed (v : Value) : Prop := HasStatus "awaiting_confirmation" v ∨ HasStatus "confirmed" v

/-- `v` accounts for a kernel that is `K` with some or all of `c` on it. -/
structure Busy (K : Kernel) (c : NetworkConfig) (v : Value) (k : Kernel) : Prop
    extends Remembers K c v where
  ethernet : Ethernet c K
  stage : Shaped K c k
  confined : Confined c K k
  settled : Installed v → k = inForce c K

def Tells (K : Kernel) (v : Value) (k : Kernel) : Prop := Idle v ∧ k = K ∨ ∃ c, Busy K c v k

/-- What the host holds. -/
structure Hosted (K : Kernel) (w : World) : Prop where
  journals : Journals w.supply
  stored : Tells K (journal w) w.kernel

/-- And with it what the memory of a running process holds. -/
structure Running (K : Kernel) (w : World) : Prop extends Hosted K w where
  memory : Tells K w.state_ w.kernel

section Values
variable {K k : Kernel} {c : NetworkConfig} {v : Value}

theorem Busy.not_idle (h : Busy K c v k) : ¬ Idle v := by
  intro hidle
  rcases hidle with hnull | hs
  · rw [h.toRemembers.toCaptured.present] at hnull
    cases hnull
  · exact h.status hs

theorem Tells.idle (h : Tells K v k) (hidle : Idle v) : k = K := by
  rcases h with ⟨-, hk⟩ | ⟨c, hbusy⟩
  · exact hk
  · exact absurd hidle hbusy.not_idle

theorem Tells.installed (h : Tells K v k) (hv : Installed v) :
    ∃ c, v.get "config" = configJson c ∧ k = inForce c K := by
  rcases h with ⟨hidle, -⟩ | ⟨c, hbusy⟩
  · rcases hidle with hnull | hs
    · rcases hv with hv | hv <;> rw [hv.present] at hnull <;> cases hnull
    · rcases hv with hv | hv <;> exact absurd (hs.unique hv) (by decide)
  · exact ⟨c, hbusy.config, hbusy.settled hv⟩

/-- A status under which nothing is promised about the kernel. -/
theorem Busy.unsettled (h : Captured K c v) (ethernet : Ethernet c K)
    (stage : Shaped K c k) (confined : Confined c K k) {s : String}
    (hs : s = "applying" ∨ s = "rolling_back" ∨ s = "rollback_failed") :
    Busy K c (v.set "status" (.string s)) k := by
  refine ⟨h.setStatus ?_, ethernet, stage, confined, fun hv => ?_⟩
  · rcases hs with rfl | rfl | rfl <;> decide
  · unfold Installed at hv
    rw [hasStatus_set, hasStatus_set] at hv
    rcases hs with rfl | rfl | rfl <;> rcases hv with hv | hv <;> exact absurd hv (by decide)

/-- A status under which all of `c` is in force. -/
theorem Busy.inForce (h : Captured K c v) (ethernet : Ethernet c K)
    (stage : Shaped K c k) (confined : Confined c K k)
    (hk : k = SettledKernel.inForce c K) {s : String} (hs : s ≠ "inactive") :
    Busy K c (v.set "status" (.string s)) k :=
  ⟨h.setStatus hs, ethernet, stage, confined, fun _ => hk⟩

end Values

section Steps
variable {K : Kernel} {c : NetworkConfig} {w w' : World} {o : Outcome Exn Unit}

theorem Hosted.quiet (h : Journals w.supply) (quiet : Quiet w w')
    (stored : Tells K (journal w) w'.kernel) : Hosted K w' := by
  have hstore : journal w' = journal w := congrArg (Store.get · "network") quiet.store
  exact ⟨h.quiet quiet, hstore ▸ stored⟩

/-- A journal write goes through or is cut before it. -/
theorem Running.put (h : Running K w) (put : putState w = (o, w')) :
    Ends (Running K) (Hosted K) (o, w') := by
  have effect := putState_effect put
  obtain ⟨hjournals, hend⟩ := Journals.put h.journals (putState_cases put)
  have hmemory : Tells K w'.state_ w'.kernel := by
    rw [effect.state_, effect.kernel]
    exact h.memory
  have hhosted : Hosted K w' := by
    rcases hend with ⟨-, hstored⟩ | ⟨-, rfl⟩
    · refine ⟨hjournals, ?_⟩
      rw [hstored, effect.kernel]
      exact h.memory
    · exact h.toHosted
  exact ⟨hhosted, fun _ => ⟨hhosted, hmemory⟩⟩

/-- The steps of a rollback leave some of `c`, or none when nothing failed. -/
theorem rollBack_tells (hK : Pristine K) (ethernet : Ethernet c K)
    (hcaptured : Captured K c w.state_) (stage : Shaped K c w.kernel)
    (confined : Confined c K w.kernel) {o : Outcome Exn String}
    (hsees : Sees w.log.length w') (run : rollBack c w = (o, w')) :
    Shaped K c w'.kernel ∧ Confined c K w'.kernel ∧
      (o = .returned "" → w'.kernel = K) := by
  have hbare := rollBack_shaped (c := c) stage (by rwa [run])
  have hback := rollBack_restores hK.vlan ethernet w ⟨confined, hcaptured⟩
  rw [run] at hbare hback
  refine ⟨hbare.1, hback.1.1, fun ho => ?_⟩
  exact kernel_restored hK hback.1.2 (hbare.2 ho) hback.1.1 (hback.2.1 _ ho rfl)

/-- A rollback that can read its configuration has one to undo. -/
theorem Running.busy (h : Running K w) (hs : w.state_.get "status" ≠ .string "inactive")
    (hc : configFromJson (w.state_.get "config") = .ok c) : Busy K c w.state_ w.kernel := by
  rcases h.memory with ⟨hidle, -⟩ | ⟨c', hbusy⟩
  · rcases hidle with hnull | hinactive
    · cases hv : w.state_ <;> rw [hv] at hnull hc <;> cases hnull
      cases hc
    · exact absurd hinactive hs
  · obtain rfl : c' = c := Except.ok.inj (hbusy.toRemembers.toCaptured.readable.symm.trans hc)
    exact hbusy

theorem Running.entering (h : Running K w) (hbusy : Busy K c w.state_ w.kernel) :
    Running K (NetworkController.entering c w) :=
  ⟨⟨h.journals, h.stored⟩, .inr ⟨c, Busy.unsettled hbusy.toRemembers.toCaptured
    hbusy.ethernet hbusy.stage hbusy.confined (.inr (.inl rfl))⟩⟩

/-- The steps of a rollback, and what it makes of their errors. -/
theorem Running.rolledBack (hK : Pristine K) {w₁ w₂ : World} {o : Outcome Exn String}
    (h : Running K w) (hbusy : Busy K c w.state_ w.kernel)
    (put : putState (NetworkController.entering c w) = (.returned (), w₁))
    (roll : rollBack c w₁ = (o, w₂)) (hsees : Sees w.log.length w') (grows : Grows w₂ w') :
    Hosted K w₂ ∧ ∀ errors, o = .returned errors → Running K (closing errors w₂) := by
  have effect := putState_effect put
  have quiet := quiet_eq (quiet_rollBack c) roll
  have hw₁ : Running K w₁ := ((h.entering hbusy).put put).2 (by simp)
  have hcaptured : Captured K c w₁.state_ :=
    effect.state_ ▸ (hbusy.toRemembers.toCaptured.entering (w := w)).toCaptured
  have hstarts : w.log.length ≤ w₁.log.length :=
    effect.grows.le (by simp [NetworkController.entering])
  obtain ⟨hstage, hconfined, hclean⟩ := rollBack_tells hK hbusy.ethernet hcaptured
    (effect.kernel ▸ hbusy.stage) (effect.kernel ▸ hbusy.confined) (hsees.between hstarts grows)
    roll
  have hjournal : journal w₁ = w.state_.set "status" (.string "rolling_back") := effect.done rfl
  have hhosted : Hosted K w₂ := by
    refine Hosted.quiet hw₁.journals quiet (.inr ⟨c, ?_⟩)
    rw [hjournal]
    exact Busy.unsettled hbusy.toRemembers.toCaptured hbusy.ethernet hstage hconfined
      (.inr (.inl rfl))
  refine ⟨hhosted, fun errors ho => ⟨⟨hhosted.journals, hhosted.stored⟩, ?_⟩⟩
  by_cases he : errors = ""
  · subst he
    refine .inl ⟨.inr ?_, hclean ho⟩
    exact (hasStatus_set_of_ne "error" (by decide) _).mpr (Value.get_set_self _ _ _)
  · have hclosing : Remembers K c (closing errors w₂).state_ :=
      Captured.closing (quiet.state_ ▸ hcaptured) he
    refine .inr ⟨c, hclosing, hbusy.ethernet, hstage, hconfined, fun hv => ?_⟩
    rcases settled_closing errors w₂ with hs | hs <;> rcases hv with hv | hv <;>
      exact absurd (hs.unique hv) (by decide)

/-- A rollback keeps the status in step with the kernel, returned, failed or cut. -/
theorem restore_running (hK : Pristine K) (h : Running K w)
    (busy : w.state_.get "status" ≠ .string "inactive") (hsees : Sees w.log.length w')
    (run : restore w = (o, w')) :
    Ends (Running K) (Hosted K) (o, w') := by
  have closes : ∀ {errors w₂ o₃ w₃}, putState (closing errors w₂) = (o₃, w₃) → Grows w₂ w₃ :=
    fun put => Grows.trans _ _ _ ⟨[], by simp [closing]⟩ (putState_effect put).grows
  have hrun := restore_run w
  rw [run] at hrun
  cases hrun with
  | unreadable _ => exact ⟨h.toHosted, fun _ => h⟩
  | unjournaled hc put _ => exact (h.entering (h.busy busy hc)).put put
  | cut hc put roll =>
    have hrolled := h.rolledBack hK (h.busy busy hc) put roll hsees (Grows.refl _)
    exact ⟨hrolled.1, fun ho => absurd rfl ho⟩
  | unrecorded hc put roll put' _ =>
    have hrolled := h.rolledBack hK (h.busy busy hc) put roll hsees (closes put')
    exact (hrolled.2 _ rfl).put put'
  | @restored _ _ _ w₃ hc put roll put' =>
    have notes : Grows w₃ (noted (.restored w₃.kernel) w₃) := ⟨_, rfl⟩
    have hrolled := h.rolledBack hK (h.busy busy hc) put roll hsees
      (Grows.trans _ _ _ (closes put') notes)
    have hend : Running K w₃ := ((hrolled.2 _ rfl).put put').2 (by simp)
    have hnoted : Running K (noted (.restored w₃.kernel) w₃) :=
      ⟨⟨hend.journals, hend.stored⟩, hend.memory⟩
    exact ⟨hnoted.toHosted, fun _ => hnoted⟩
  | failed hc put roll _ put' =>
    have hrolled := h.rolledBack hK (h.busy busy hc) put roll hsees (closes put')
    have hend := ((hrolled.2 _ rfl).put put').2 (by simp)
    exact ⟨hend.toHosted, fun _ => hend⟩

/-- Installation on the kernel that was found, cut or not. -/
theorem activate_running (hK : Pristine K) (ethernet : Ethernet c K) (h : Running K w)
    (hmemory : Remembers K c w.state_) (hjournal : journal w = w.state_)
    (applying : HasStatus "applying" w.state_) (hkernel : w.kernel = K)
    (run : activate c w = (o, w')) :
    Ends (fun w => Running K w ∧ ¬ HasStatus "inactive" w.state_) (Hosted K) (o, w') := by
  have installed : ∀ {o₁ w₁}, install c w = (o₁, w₁) →
      Running K w₁ ∧ Captured K c w₁.state_ ∧ Shaped K c w₁.kernel ∧
        Confined c K w₁.kernel ∧ (o₁ = .returned () → w₁.kernel = inForce c K) := by
    intro o₁ w₁ inst
    have quiet := quiet_eq (quiet_install c) inst
    have hshaped : Shaped K c (install c w).2.kernel := install_shaped (by
      rw [hkernel]
      exact bare_of_pristine hK)
    have hconfined : Confined c K (install c w).2.kernel :=
      confined_performs (performs_install c) (concerns_install c) w (by
        rw [hkernel]
        exact Confined.refl c K)
    have hforce : (install c w).1 = .returned () → (install c w).2.kernel = inForce c K := by
      intro ho
      rw [(performs_install c).view_returned ho, hkernel]
      rfl
    rw [inst] at hshaped hconfined hforce
    have hbusy : Busy K c w.state_ w₁.kernel := by
      refine ⟨hmemory, ethernet, hshaped, hconfined, fun hv => ?_⟩
      rcases hv with hv | hv <;> exact absurd (applying.unique hv) (by decide)
    have hhosted : Hosted K w₁ := Hosted.quiet h.journals quiet (.inr ⟨c, hjournal ▸ hbusy⟩)
    exact ⟨⟨hhosted, .inr ⟨c, quiet.state_ ▸ hbusy⟩⟩, quiet.state_ ▸ hmemory.toCaptured,
      hbusy.stage, hconfined, hforce⟩
  have hrun := activate_run c w
  rw [run] at hrun
  cases hrun with
  | uninstalled inst _ =>
    have hinstalled := (installed inst).1
    have hstate := (quiet_eq (quiet_install c) inst).state_
    exact ⟨hinstalled.toHosted, fun _ => ⟨hinstalled, hstate ▸ hmemory.status⟩⟩
  | @unclocked w₁ inst _ =>
    have hhosted := (installed inst).1.toHosted
    exact ⟨⟨hhosted.journals, hhosted.stored⟩, fun ho => absurd rfl ho⟩
  | @put w₁ elapsed rest _ _ inst _ put =>
    obtain ⟨hrunning, hcaptured, hstage, hconfined, hforce⟩ := installed inst
    have hawaiting : Running K (awaiting elapsed rest w₁) :=
      ⟨⟨hrunning.journals, hrunning.stored⟩, .inr ⟨c, Busy.inForce hcaptured ethernet hstage
        hconfined (hforce rfl) (by decide)⟩⟩
    have hend := hawaiting.put put
    refine ⟨hend.1, fun ho => ⟨hend.2 ho, fun hs => ?_⟩⟩
    rw [(putState_effect put).state_] at hs
    exact absurd ((hasStatus_set _ _ _).mp hs) (by decide)

/-- A write-ahead that went through is on the log. -/
theorem writeAhead_logged {baseline : Value} (run : writeAhead c baseline w = (.returned (), w')) :
    ∃ kernel, .admitted c kernel ∈ w'.log := by
  have hrun := writeAhead_run c baseline w
  rw [run] at hrun
  cases hrun with
  | unread _ _ ho => exact absurd rfl ho
  | @put w₁ _ _ _ put =>
    obtain ⟨acts, hlog, -⟩ := (putState_effect put).log
    refine ⟨w₁.kernel, ?_⟩
    rw [hlog]
    exact List.mem_append_left _ (List.mem_append_right _ List.mem_cons_self)

/-- One that did not has changed nothing that matters. -/
theorem writeAhead_refused_running {baseline : Value} (h : Running K w)
    (inactive : HasStatus "inactive" w.state_) (run : writeAhead c baseline w = (o, w'))
    (ho : o ≠ .returned ()) : Ends (Running K) (Hosted K) (o, w') := by
  have hrun := writeAhead_run c baseline w
  rw [run] at hrun
  cases hrun with
  | @unread _ w₁ draft look hdraft _ =>
    have hhosted : Hosted K w₁ := Hosted.quiet h.journals look.toQuiet (look.kernel ▸ h.stored)
    have hidle : HasStatus "inactive" draft := by
      have hdrafted : HasStatus "inactive" (drafted c baseline w.state_) := by
        unfold drafted
        rw [hasStatus_set_of_ne _ (by decide), hasStatus_set_of_ne _ (by decide)]
        exact inactive
      rcases hdraft with rfl | rfl
      · exact hdrafted
      · exact (hasStatus_set_of_ne _ (by decide) _).mpr hdrafted
    have hkernel : w₁.kernel = K := look.kernel.trans (h.memory.idle (.inr inactive))
    have hrunning : Running K (withState w₁ draft) :=
      ⟨⟨hhosted.journals, hhosted.stored⟩, .inl ⟨.inr hidle, hkernel⟩⟩
    exact ⟨hrunning.toHosted, fun _ => hrunning⟩
  | @put w₁ _ _ look put =>
    have hhosted : Hosted K w₁ := Hosted.quiet h.journals look.toQuiet (look.kernel ▸ h.stored)
    have hput := Journals.put (w := admitting c baseline w₁) hhosted.journals (putState_cases put)
    obtain ⟨hcrash, rfl⟩ := hput.2.resolve_left fun hret => ho hret.1
    exact ⟨⟨hhosted.journals, hhosted.stored⟩, fun hne => absurd hcrash hne⟩

theorem apply_running (hK : Pristine K) (h : Running K w) (run : apply c w = (o, w'))
    (ethernet : ∀ kernel, .admitted c kernel ∈ w'.log → Ethernet c K)
    (hsees : Sees w.log.length w') :
    Ends (Running K) (Hosted K) (o, w') := by
  have looked : ∀ {w₁}, Looking w w₁ → Running K w₁ := by
    intro w₁ look
    refine ⟨Hosted.quiet h.journals look.toQuiet (look.kernel ▸ h.stored), ?_⟩
    rw [look.state_, look.kernel]
    exact h.memory
  -- The installation behind a write-ahead that went through.
  have active : ∀ {baseline w₁ w₂ o₁ w₃}, Looking w w₁ → Admitted c baseline w →
      writeAhead c baseline w₁ = (.returned (), w₂) → activate c w₂ = (o₁, w₃) → Grows w₃ w' →
      Ends (fun w => Running K w ∧ ¬ HasStatus "inactive" w.state_) (Hosted K) (o₁, w₃) := by
    intro baseline w₁ w₂ o₁ w₃ look adm ahead act grows
    -- Admission needs an inactive status, under which nothing is installed.
    have hfound : w.kernel = K := h.memory.idle (.inr adm.inactive)
    have hethernet : Ethernet c K := by
      obtain ⟨kernel, hmem⟩ := writeAhead_logged ahead
      obtain ⟨acts, hacts⟩ := grows_eq (grows_activate c) act
      obtain ⟨acts', hacts'⟩ := grows
      refine ethernet kernel ?_
      rw [hacts', hacts]
      exact List.mem_append_left _ (List.mem_append_left _ hmem)
    obtain ⟨-, hkernel, hjournals, hmemory, hjournal⟩ :=
      FirstRestore.writeAhead_starts h.journals adm look ahead
    rw [hfound] at hkernel hmemory
    have happlying := (writeAhead_returned ahead).1
    have hbusy : Busy K c w₂.state_ w₂.kernel := by
      refine ⟨hmemory, hethernet, ⟨.bare, ?_⟩, ?_, fun hv => ?_⟩
      · exact hkernel ▸ Shape.of_bare (bare_of_pristine hK) c
      · exact hkernel ▸ Confined.refl c K
      · rcases hv with hv | hv <;> exact absurd (happlying.unique hv) (by decide)
    exact activate_running hK hethernet
      ⟨⟨hjournals, .inr ⟨c, hjournal ▸ hbusy⟩⟩, .inr ⟨c, hbusy⟩⟩ hmemory hjournal happlying
      hkernel act
  have hrun := apply_run c w
  rw [run] at hrun
  cases hrun with
  | rejected look _ =>
    have hend := looked look
    exact ⟨hend.toHosted, fun _ => hend⟩
  | unjournaled look adm ahead ho =>
    have hinactive := adm.inactive
    rw [← look.state_] at hinactive
    exact writeAhead_refused_running (looked look) hinactive ahead ho
  | pending look adm ahead act =>
    have hend := active look adm ahead act (Grows.refl _)
    exact ⟨hend.1, fun ho => (hend.2 ho).1⟩
  | cut look adm ahead act =>
    have hend := active look adm ahead act (Grows.refl _)
    exact ⟨hend.1, fun ho => (hend.2 ho).1⟩
  | @undone baseline w₁ w₂ e w₃ o₁ _ look adm ahead act undo =>
    have hactive := (active look adm ahead act (grows_eq grows_restore undo)).2 (by simp)
    have hbefore : w.log.length ≤ w₃.log.length :=
      (grows_eq (grows_activate c) act).le ((grows_eq (grows_writeAhead c baseline) ahead).le
        (look.grows.le (Nat.le_refl _)))
    have hend := restore_running hK hactive.1 hactive.2 (hsees.later hbefore) undo
    refine ⟨hend.1, fun ho => hend.2 fun hcrash => ho ?_⟩
    have hcut : o₁ = .crashed := hcrash
    rw [hcut]

end Steps

/-! ## Runs -/

/-- Ports that a rollback gives back as they were. Where one is up it is without
IPv6, or raising it again would have the kernel configure an address. -/
structure Returnable (c : NetworkConfig) (K : Kernel) : Prop where
  ethernet : Ethernet c K
  silent : ∀ name link, name = c.outerInterface ∨ name = c.innerInterface →
    K.links name = some link → link.up = true → link.disableIpv6 ≠ "0"

/-- What is assumed of the acts of a run: its rollbacks overlook no link, and the
ports it admits are returnable. -/
structure Benign (K : Kernel) (act : Act) : Prop where
  seen : act.overlooks = false
  ports : ∀ c kernel, act = .admitted c kernel → Returnable c K

theorem sees_of_benign {K : Kernel} {w : World} (h : Assumed (Benign K) w) (n : Nat) : Sees n w :=
  fun act hact => (h act (List.mem_of_mem_drop hact)).seen

/-- Every call of every run keeps the status in step with the kernel. -/
theorem kept_running {K : Kernel} (hK : Pristine K) :
    Kept Journals (fun w => Assumed (Benign K) w → Running K w)
      (fun w => Assumed (Benign K) w → Hosted K w) where
  host := fun w h hlog => (h hlog).toHosted
  suppliedHost := fun w supply hS h hlog => ⟨hS, (h hlog).stored⟩
  supplied := fun w supply hS h hlog => ⟨⟨hS, (h hlog).stored⟩, (h hlog).memory⟩
  looked := by
    intro w w' look h hlog
    have hw := h (hlog.quiet look.toQuiet)
    refine ⟨Hosted.quiet hw.journals look.toQuiet (look.kernel ▸ hw.stored), ?_⟩
    rw [look.state_, look.kernel]
    exact hw.memory
  advanced := fun elapsed rest w h hlog =>
    ⟨⟨(h hlog).journals, (h hlog).stored⟩, (h hlog).memory⟩
  loading := fun enabled w h hlog => ⟨⟨(h hlog).journals, (h hlog).stored⟩, (h hlog).stored⟩
  initial := by
    intro w h hlog
    refine ⟨⟨(h hlog).journals, (h hlog).stored⟩, ?_⟩
    change Tells K (NetworkController.initial w.state_) w.kernel
    unfold NetworkController.initial
    split
    · next hnull => exact .inl ⟨.inr (Value.get_set_self _ _ _), (h hlog).memory.idle (.inl hnull)⟩
    · exact (h hlog).memory
  restore := by
    intro w busy h
    rcases hrun : restore w with ⟨o, w'⟩
    have grows := grows_eq grows_restore hrun
    have hend := fun hlog : Assumed (Benign K) w' =>
      restore_running hK (h (hlog.grows grows)) busy (sees_of_benign hlog _) hrun
    exact ⟨fun hlog => (hend hlog).1, fun ho hlog => (hend hlog).2 ho⟩
  apply := by
    intro c w h
    rcases hrun : apply c w with ⟨o, w'⟩
    have grows := grows_eq (grows_apply c) hrun
    have hend := fun hlog : Assumed (Benign K) w' =>
      apply_running hK (h (hlog.grows grows)) hrun
        (fun kernel hmem => ((hlog _ hmem).ports c kernel rfl).ethernet) (sees_of_benign hlog _)
    exact ⟨fun hlog => (hend hlog).1, fun ho hlog => (hend hlog).2 ho⟩
  confirmed := by
    intro w pending h
    rcases hput : putState (withState w (w.state_.set "status" (.string "confirmed"))) with ⟨o, w'⟩
    have hend : Assumed (Benign K) w' → Ends (Running K) (Hosted K) (o, w') := by
      intro hlog
      have hbefore : Assumed (Benign K) w := fun a ha =>
        hlog.put (putState_effect hput) a ha
      have hw := h hbefore
      rcases hw.memory with ⟨hidle, -⟩ | ⟨c, hbusy⟩
      · rcases hidle with hnull | hs
        · rw [HasStatus.present pending] at hnull
          cases hnull
        · exact absurd (HasStatus.unique pending hs) (by decide)
      · have hconfirmed : Running K (withState w (w.state_.set "status" (.string "confirmed"))) :=
          ⟨⟨hw.journals, hw.stored⟩, .inr ⟨c, Busy.inForce hbusy.toRemembers.toCaptured
            hbusy.ethernet hbusy.stage hbusy.confined (hbusy.settled (.inl pending)) (by decide)⟩⟩
        exact hconfirmed.put hput
    exact ⟨fun hlog => (hend hlog).1, fun ho hlog => (hend hlog).2 ho⟩

/-- A host before the first start of the daemon. -/
def host (K : Kernel) (store : Store) : Node := ⟨{ kernel := K, store := store }, false⟩

theorem returnable_exampleKernel (c : NetworkConfig) : Returnable c exampleKernel := by
  refine ⟨ethernet_exampleKernel c, fun name link _ hlink hup => ?_⟩
  change exampleKernel.links name = some link at hlink
  simp only [exampleKernel] at hlink
  split at hlink
  · cases hlink
    cases hup
  · cases hlink

/-- On the example host a run is benign that overlooks nothing. -/
theorem benign_example {w : World} (h : ∀ act ∈ w.log, act.overlooks = false) :
    Assumed (Benign exampleKernel) w :=
  fun act hact => ⟨h act hact, fun c _ _ => returnable_exampleKernel c⟩

/-- A confirmed configuration, a start that is cut while it claims the namespace, and one that
reconciles. -/
def restarts : List (Call × Supply) :=
  [(.construct true, answering), (.apply exampleConfig, answering), (.confirm, answering),
    (.construct true, {}), (.construct true, answering)]

theorem benign_restarts :
    Assumed (Benign exampleKernel) ((host exampleKernel ⟨fun _ => none⟩).run restarts).world :=
  benign_example (by decide +kernel)

end Magicbox.Guarantees.SettledKernel
