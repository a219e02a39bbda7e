import Magicbox.Guarantees.HealthyRollback
import Magicbox.Guarantees.SettledKernel
import Magicbox.Guarantees.JournalInvariant

/-!
# The way back

Whatever failed, and wherever the daemon was killed, the host is one healthy call
away from a settled state, as long as no rollback overlooked a link. A rollback
gives the kernel back that was found, a start brings a confirmed configuration
into force again and undoes any other, and `apply` succeeds exactly where nothing
is in the way.
-/

set_option autoImplicit false

namespace Magicbox.Guarantees.Recovery
open Library.Crash Library.Completion Source Source.Json Source.ConfigJson
open Source.Config hiding host
open Source.Nftables Source.Netns Source.NetworkController Source.Worker Source.StatusChanges
  Baseline Rollback HealthyInstall HealthyRollback KernelShape KernelRuns SettledKernel

variable {K : Kernel} {c : NetworkConfig} {w w' : World}

/-! ## restore -/

/-- The kernel was given back, and journal and memory say so. -/
structure GivenBack (K : Kernel) (w w' : World) : Prop where
  inactive : HasStatus "inactive" w'.state_
  kernel : w'.kernel = K
  enabled : w'.enabled = w.enabled
  journal : journal w' = w'.state_

theorem restore_givenBack (hK : Pristine K) (h : Busy K c w.state_ w.kernel)
    (looks : w.supply.looksUp) (run : restore w = (.returned (), w')) : GivenBack K w w' := by
  have hinactive := restore_returned_inactive run
  have hrun := restore_run w
  rw [run] at hrun
  cases hrun with
  | unjournaled _ _ ho => exact absurd rfl ho
  | unrecorded _ _ _ _ ho => exact absurd rfl ho
  | @restored c' w₁ w₂ w₃ hc put roll put' =>
    obtain rfl : c = c' := Except.ok.inj (h.toRemembers.toCaptured.readable.symm.trans hc)
    have effect := putState_effect put
    have effect' := putState_effect put'
    have quiet := quiet_eq (quiet_rollBack c) roll
    have hcaptured : Captured K c w₁.state_ :=
      effect.state_ ▸ (h.toRemembers.toCaptured.entering (w := w)).toCaptured
    have hlooks : w₁.supply.looksUp := by
      intro ok hok
      rw [effect.lookups] at hok
      exact looks ok hok
    obtain ⟨-, -, hclean⟩ := rollBack_tells hK h.ethernet hcaptured (effect.kernel ▸ h.stage)
      (effect.kernel ▸ h.confined) (quiet.sees hlooks) roll
    refine ⟨hinactive, ?_, ?_, ?_⟩
    · exact (effect'.kernel.trans (hclean rfl) : w₃.kernel = K)
    · exact (effect'.enabled.trans (quiet.enabled.trans effect.enabled) :)
    · exact ((effect'.done rfl).trans effect'.state_.symm :)

theorem succeeds_restore (hK : Pristine K) (h : Busy K c w.state_ w.kernel) :
    Succeeds 27 restore w fun _ w' => GivenBack K w w' := by
  have hcaptured := h.toRemembers.toCaptured
  have hreturned : Succeeds 27 restore w fun _ _ => True := by
    intro n hs
    unfold restore member
    rw [bind_returned (read_run _ w), hcaptured.readable, bind_returned (liftExcept_ok c w)]
    change ∃ a t, (putState >>= _) (entering c w) = (.returned a, t) ∧ _
    refine (Completes.bind succeeds_putState fun _ w₁ h₁ => ?_ :
      Succeeds (1 + (25 + (1 + 0))) _ (entering c w) _) n hs
    have hundoing : Undoing K c w₁ := by
      refine ⟨?_, ?_⟩
      · rw [h₁.1.kernel]
        exact h.confined
      · rw [h₁.1.state_]
        exact (hcaptured.entering (w := w)).toCaptured
    refine (succeeds_rollBack hK h.ethernet (legible_of_validate hcaptured.valid) hundoing).bind
      fun errors w₂ he => ?_
    subst he
    intro n hs
    change ∃ a t, (putState >>= _) (closing "" w₂) = (.returned a, t) ∧ _
    refine (succeeds_putState.bind fun _ w₃ _ => ?_ : Succeeds (1 + 0) _ (closing "" w₂) _) n hs
    exact Completes.update (fun _ hs => hs) trivial
  intro n hs
  obtain ⟨_, w', run, hleft, -⟩ := hreturned n hs
  exact ⟨(), w', run, hleft, restore_givenBack hK h hs.found run⟩

/-! ## apply -/

/-- The ports of a configuration can be taken. -/
structure Admissible (K : Kernel) (c : NetworkConfig) : Prop where
  valid : validate c = []
  outer : ∃ link, Dedicated K c.outerInterface link
  inner : ∃ link, Dedicated K c.innerInterface link

theorem vacant_of_pristine (hK : Pristine K) : Vacant K := by
  refine ⟨fun family => List.any_eq_false.mpr fun t ht => ?_, hK.rules⟩
  have hforeign := List.filter_eq_nil_iff.mp hK.tables t ht
  simp only [reserved, decide_eq_true_eq] at hforeign
  simp [Table.named, hforeign]

theorem unlinked_of_pristine (hK : Pristine K) : K.present vlanName = false := by
  rw [Kernel.present, hK.vlan]
  rfl

theorem blank_of_dedicated {name : String} {link : Link} (h : Dedicated K name link) :
    Blank K name := by
  rw [Blank, h.present, Option.map_some, h.unaddressed]

theorem free_of_admissible (hK : Pristine K) (h : Admissible K c) : Free c K := by
  obtain ⟨outer, houter⟩ := h.outer
  obtain ⟨inner, hinner⟩ := h.inner
  exact ⟨blank_of_dedicated houter, blank_of_dedicated hinner, interfaces_ne h.valid,
    unlinked_of_pristine hK, hK.routes, hK.rules⟩

theorem installRequests_length (c : NetworkConfig) : (installRequests c).length ≤ 21 := by
  simp only [installRequests, prepareRequests, preparePortRequests, connectRequests,
    List.length_append, List.length_cons, List.length_nil]
  unfold vlanRequests preparePortRequests
  split <;> simp

theorem succeeds_install (hK : Pristine K) (h : Admissible K c) (hkernel : w.kernel = K) :
    Succeeds 21 (install c) w fun _ w' => Quiet w w' ∧ w'.kernel = inForce c K := by
  have hserves : Serves w.kernel (installRequests c) := by
    rw [hkernel]
    exact serves_install (free_of_admissible hK h)
  refine Completes.spend budget_supplied (installRequests_length c) ?_
  refine (carries_install (legible_of_validate h.valid) w hserves).imp fun _ w' h => ⟨h.1, ?_⟩
  rw [h.2, hkernel]
  rfl

/-- What a successful `apply` leaves: the whole minute is still to come. -/
structure Activated (K : Kernel) (c : NetworkConfig) (w : World) : Prop where
  enabled : w.enabled = true
  awaiting : HasStatus "awaiting_confirmation" w.state_
  config : w.state_.get "config" = configJson c
  kernel : w.kernel = inForce c K
  deadline_ : w.deadline_ = w.clock + confirmationWindow
  journal : journal w = w.state_

theorem succeeds_activate (hK : Pristine K) (h : Admissible K c) (hkernel : w.kernel = K)
    (henabled : w.enabled = true) (hconfig : w.state_.get "config" = configJson c) :
    Succeeds 23 (activate c) w fun _ w' => Activated K c w' := by
  change Succeeds (21 + (0 + (1 + (0 + 1)))) (activate c) w _
  refine (succeeds_install hK h hkernel).bind fun _ w₁ h₁ => ?_
  intro n hs
  change ∃ a t, (steadyNow >>= _)
    (withState w₁ (w₁.state_.set "status" (.string "awaiting_confirmation"))) =
      (.returned a, t) ∧ _
  refine (succeeds_steadyNow.bind fun now w₂ h₂ => ?_ : Succeeds (1 + (0 + 1)) _
    (withState w₁ (w₁.state_.set "status" (.string "awaiting_confirmation"))) _) n hs
  obtain ⟨elapsed, rest, -, -, rfl, rfl⟩ := h₂
  intro n hs
  change ∃ a t, putState (awaiting elapsed rest w₁) = (.returned a, t) ∧ _
  refine (succeeds_putState.imp fun _ w₃ h₃ => ?_ :
    Succeeds 1 putState (awaiting elapsed rest w₁) fun _ w' => Activated K c w') n hs
  obtain ⟨effect, hjournal⟩ := h₃
  refine ⟨?_, ?_, ?_, ?_, ?_, ?_⟩
  · exact (effect.enabled.trans (h₁.1.enabled.trans henabled) :)
  · rw [effect.state_]
    exact Value.get_set_self _ _ _
  · rw [effect.state_]
    change (w₁.state_.set "status" (.string "awaiting_confirmation")).get "config" = configJson c
    rw [Value.get_set_of_ne _ (by decide), h₁.1.state_, hconfig]
  · exact (effect.kernel.trans h₁.2 :)
  · rw [effect.deadline_, effect.clock]
    rfl
  · rw [hjournal, effect.state_]

theorem writeAhead_kept {baseline : Value} (run : writeAhead c baseline w = (.returned (), w')) :
    w'.kernel = w.kernel ∧ w'.enabled = w.enabled := by
  have hrun := writeAhead_run c baseline w
  rw [run] at hrun
  cases hrun with
  | unread _ _ ho => exact absurd rfl ho
  | @put w₁ _ _ look put =>
    have effect := putState_effect put
    exact ⟨(effect.kernel.trans look.kernel :), (effect.enabled.trans look.enabled :)⟩

theorem succeeds_apply (hK : Pristine K) (h : Admissible K c) (hkernel : w.kernel = K)
    (henabled : w.enabled = true) (hinactive : HasStatus "inactive" w.state_) :
    Succeeds 37 (apply c) w fun _ w' => Activated K c w' := by
  obtain ⟨outer, houter⟩ := h.outer
  obtain ⟨inner, hinner⟩ := h.inner
  change Succeeds (11 + (3 + 23)) (apply c) w _
  refine (succeeds_checkAdmission henabled hinactive h.valid (hkernel ▸ vacant_of_pristine hK)
    (hkernel ▸ unlinked_of_pristine hK) (hkernel ▸ hK.routes) (hkernel ▸ houter)
    (hkernel ▸ hinner)).bind fun baseline w₁ look => ?_
  refine ((succeeds_writeAhead baseline).reached fun _ w₂ run =>
    (⟨writeAhead_kept run, (writeAhead_returned run).2.1⟩ :
      (w₂.kernel = w₁.kernel ∧ w₂.enabled = w₁.enabled) ∧
        w₂.state_.get "config" = configJson c)).bind fun _ w₂ h₂ => ?_
  obtain ⟨⟨⟨hkernel₂, henabled₂⟩, hconfig⟩, -⟩ := h₂
  exact Completes.recover (succeeds_activate hK h
    (hkernel₂.trans (look.kernel.trans hkernel)) (henabled₂.trans (look.enabled.trans henabled))
    hconfig)

/-! ## confirm -/

theorem succeeds_confirm (h : Activated K c w) :
    Succeeds 2 confirm w fun _ w' => HasStatus "confirmed" w'.state_ ∧
      w'.state_.get "config" = configJson c ∧ w'.kernel = inForce c K ∧ w'.enabled = true ∧
      journal w' = w'.state_ := by
  have hawaiting : (w.state_.get "status").eqString "awaiting_confirmation" = true :=
    Value.eqString_iff.mpr h.awaiting
  have htick : Succeeds 1 tick w fun _ w' => ∃ elapsed rest, w' = advanced elapsed rest w := by
    intro n hs
    unfold tick status
    rw [bind_returned (read_run _ w), bind_returned (read_run _ w), h.enabled, hawaiting]
    refine (succeeds_steadyNow.bind fun now w₁ h₁ => ?_ : Succeeds (1 + (0 + 0)) _ w _) n hs
    obtain ⟨elapsed, rest, -, hsoon, rfl, rfl⟩ := h₁
    refine Completes.bind (Completes.read (Q := fun deadline w' =>
      deadline = w.deadline_ ∧ w' = advanced elapsed rest w) ⟨rfl, rfl⟩) fun deadline w₂ h₂ => ?_
    obtain ⟨rfl, rfl⟩ := h₂
    have hearly : ¬ w.deadline_ ≤ w.clock + elapsed := by
      rw [h.deadline_]
      omega
    rw [if_neg hearly]
    exact Completes.pure ⟨elapsed, rest, rfl⟩
  intro n hs
  unfold confirm
  rw [bind_returned (read_run _ w), h.enabled, if_neg (by simp)]
  refine (htick.bind fun _ w₁ h₁ => ?_ : Succeeds (1 + 1) _ w _) n hs
  obtain ⟨elapsed, rest, rfl⟩ := h₁
  intro n hs
  unfold status
  rw [bind_returned (read_run _ _),
    show (advanced elapsed rest w).state_ = w.state_ from rfl, hawaiting, if_neg (by simp)]
  change ∃ a t, putState (withState (advanced elapsed rest w)
    (w.state_.set "status" (.string "confirmed"))) = (.returned a, t) ∧ _
  refine (succeeds_putState.imp fun _ w₂ h₂ => ?_ : Succeeds 1 putState
    (withState (advanced elapsed rest w) (w.state_.set "status" (.string "confirmed"))) _) n hs
  obtain ⟨effect, hjournal⟩ := h₂
  refine ⟨?_, ?_, ?_, ?_, ?_⟩
  · rw [effect.state_]
    exact Value.get_set_self _ _ _
  · rw [effect.state_]
    change (w.state_.set "status" (.string "confirmed")).get "config" = configJson c
    rw [Value.get_set_of_ne _ (by decide), h.config]
  · exact (effect.kernel.trans h.kernel :)
  · exact (effect.enabled.trans h.enabled :)
  · rw [hjournal, effect.state_]

/-! ## A start -/

/-- What a start makes of a journal: a confirmed configuration is in force, any other is undone. -/
structure Reconciled (K : Kernel) (v : Value) (w : World) : Prop where
  enabled : w.enabled = true
  confirmed : HasStatus "confirmed" v → HasStatus "confirmed" w.state_ ∧ journal w = w.state_ ∧
    w.state_.get "config" = v.get "config" ∧
    ∃ c, v.get "config" = configJson c ∧ w.kernel = inForce c K
  undone : ¬ HasStatus "confirmed" v → HasStatus "inactive" w.state_ ∧ w.kernel = K

theorem admissible_of_captured {v : Value} (h : Captured K c v) : Admissible K c := by
  obtain ⟨outer, inner, houter, hinner, -⟩ := h.baseline
  exact ⟨h.valid, ⟨outer, houter⟩, ⟨inner, hinner⟩⟩

theorem succeeds_recoverJournal (hK : Pristine K) (h : Busy K c w.state_ w.kernel)
    (henabled : w.enabled = true) :
    Succeeds 66 recoverJournal w fun _ w' => Reconciled K w.state_ w' := by
  have hcaptured := h.toRemembers.toCaptured
  intro n hs
  unfold recoverJournal status member
  rw [bind_returned (read_run _ w), bind_returned (read_run _ w)]
  refine ((succeeds_restore hK h).bind fun _ w₁ h₁ => ?_ : Succeeds (27 + 39) _ w _) n hs
  by_cases hconfirmed : HasStatus "confirmed" w.state_
  · have hagain : Succeeds (0 + (37 + 2)) (do
        let c ← liftExcept (configFromJson (w.state_.get "config"))
        apply c
        confirm) w₁ fun _ w' => Reconciled K w.state_ w' := by
      refine Completes.bind (Completes.liftExcept (Q := fun c' w' => c' = c ∧ w' = w₁)
        hcaptured.readable ⟨rfl, rfl⟩) fun c' w₂ h₂ => ?_
      obtain ⟨rfl, rfl⟩ := h₂
      refine (succeeds_apply hK (admissible_of_captured hcaptured) h₁.kernel
        (h₁.enabled.trans henabled) h₁.inactive).bind fun _ w₃ h₃ => ?_
      refine (succeeds_confirm h₃).imp fun _ w₄ h₄ => ?_
      obtain ⟨hstatus, hconfig, hkernel, hon, hjournal⟩ := h₄
      exact ⟨hon, fun _ => ⟨hstatus, hjournal, hconfig.trans hcaptured.config.symm,
        _, hcaptured.config, hkernel⟩, fun hnot => absurd hconfirmed hnot⟩
    rw [show (w.state_.get "status").eqString "confirmed" = true from
      Value.eqString_iff.mpr hconfirmed, if_pos rfl]
    exact hagain
  · have hother : (w.state_.get "status").eqString "confirmed" = false :=
      Bool.eq_false_iff.mpr fun he => hconfirmed (Value.eqString_iff.mp he)
    rw [hother, if_neg (by simp)]
    refine Completes.spend budget_supplied (Nat.zero_le 39) (Completes.pure ?_)
    exact ⟨h₁.enabled.trans henabled, fun hyes => absurd hyes hconfirmed,
      fun _ => ⟨h₁.inactive, h₁.kernel⟩⟩

theorem isObject_of_get {v x : Value} {name : String} (h : v.get name = x) (hx : x ≠ .null) :
    v.isObject = true := by
  cases v with
  | object members => rfl
  | null | boolean _ | int _ | uint _ | real _ | string _ | array _ => exact absurd h.symm hx

theorem succeeds_acquireLock : Succeeds 3 acquireLock w fun _ w' => Looking w w' := by
  change Succeeds (1 + (1 + 1)) acquireLock w _
  refine (succeeds_probe (f := fun _ => .ok ()) rfl).bind fun _ w₁ h₁ => ?_
  refine (succeeds_probe (f := fun _ => .ok ()) rfl).bind fun _ w₂ h₂ => ?_
  refine (succeeds_probe (f := fun _ => .ok ()) rfl).imp fun _ w₃ h₃ => ?_
  exact Looking.trans _ _ _ h₁.1 (Looking.trans _ _ _ h₂.1 h₃.1)

/-- A start on a journal that tells what the kernel holds. -/
theorem succeeds_construct (hK : Pristine K) (h : Tells K (journal w) w.kernel) :
    Succeeds 69 (construct true) w fun _ w' => Reconciled K (journal w) w' := by
  intro n hs
  unfold construct
  rw [bind_returned (update_run _ w)]
  change ∃ a t, (acquireLock >>= _) (loading true w) = (.returned a, t) ∧ _
  refine (succeeds_acquireLock.bind fun _ w₁ look => ?_ :
    Succeeds (3 + 66) _ (loading true w) _) n hs
  have hstate : w₁.state_ = journal w := look.state_
  have hkernel : w₁.kernel = w.kernel := look.kernel
  have henabled : w₁.enabled = true := look.enabled
  intro n hs
  rw [bind_returned (initialise_run w₁), bind_returned (read_run _ _),
    show (withState w₁ (initial w₁.state_)).state_ = initial w₁.state_ from rfl, hstate]
  rcases h with ⟨hidle, hfound⟩ | ⟨c, hbusy⟩
  · have hinactive : HasStatus "inactive" (initial (journal w)) := by
      unfold initial
      split
      · exact Value.get_set_self _ _ _
      · next hpresent => exact hidle.resolve_left hpresent
    have hother : ¬ HasStatus "confirmed" (journal w) := by
      intro hconfirmed
      rcases hidle with hnull | hs
      · rw [hconfirmed.present] at hnull
        cases hnull
      · exact absurd (hconfirmed.unique hs) (by decide)
    rw [Value.index_of_isObject (isObject_of_get hinactive (by simp)),
      bind_returned (liftExcept_ok _ _), Value.eqString_iff.mpr hinactive, if_neg (by simp)]
    refine (Completes.spend budget_supplied (Nat.zero_le 66) (Completes.pure ?_) :
      Succeeds 66 (pure ()) (withState w₁ (initial (journal w))) fun _ w' =>
        Reconciled K (journal w) w') n hs
    exact ⟨henabled, fun hyes => absurd hyes hother, fun _ => ⟨hinactive, hkernel.trans hfound⟩⟩
  · have hsame : initial (journal w) = journal w := hbusy.toRemembers.initial
    have hbusy' : ((journal w).get "status").eqString "inactive" = false :=
      Bool.eq_false_iff.mpr fun he => hbusy.status (Value.eqString_iff.mp he)
    have hconfig : configJson c ≠ .null := fun hnull => by
      have hobject := configJson_isObject c
      rw [hnull] at hobject
      cases hobject
    rw [hsame, Value.index_of_isObject (isObject_of_get hbusy.config hconfig),
      bind_returned (liftExcept_ok _ _), hbusy', if_pos (by simp)]
    have hthere : Busy K c (withState w₁ (journal w)).state_ (withState w₁ (journal w)).kernel := by
      change Busy K c (journal w) w₁.kernel
      rw [hkernel]
      exact hbusy
    exact succeeds_recoverJournal hK hthere henabled n hs

/-! ## Every reachable state -/

section Runs
variable {store : Store} {calls : List (Call × Supply)}

theorem fresh_host (hfresh : store.get "network" = .null) : Admissions.Fresh (host K store) := by
  refine ⟨rfl, rfl, rfl, ?_⟩
  have hjournal : journal (host K store).world = .null := hfresh
  rw [hjournal]
  rfl

/-- What every run leaves. -/
theorem run_running (hfresh : store.get "network" = .null) (hK : Pristine K)
    (durable : Durable calls)
    (benign : Assumed (Benign K) ((host K store).run calls).world) :
    Hosted K ((host K store).run calls).world ∧
      (((host K store).run calls).alive = true → Running K ((host K store).run calls).world) := by
  have start : Hosted K (host K store).world :=
    ⟨fun answer hmem => absurd hmem (by simp [host]),
      .inl ⟨.inl (fresh_host hfresh).unwritten, rfl⟩⟩
  have hend := (kept_running hK).run (n := host K store)
    ⟨fun _ => start, fun halive => by cases halive⟩ durable
  exact ⟨hend.1 benign, fun halive => hend.2 halive benign⟩

/-- An installation that is cut on the way. -/
def cutInstall : List (Call × Supply) :=
  [(.construct true, answering),
    (.apply exampleConfig, { answering with kernel := List.replicate 10 .done })]

theorem durable_cutInstall : Durable cutInstall := by
  intro event hevent
  simp only [cutInstall, List.mem_cons, List.not_mem_nil, or_false] at hevent
  rcases hevent with rfl | rfl <;> simp [Journals, answering]

/-- An environment that answers everything, and in time. -/
def plenty : Supply where
  clock := List.replicate 69 1000000000
  probes := List.replicate 69 .done
  kernel := List.replicate 69 .done
  puts := List.replicate 69 .done

theorem healthy_plenty {n : Nat} (h : n ≤ 69) : Healthy n plenty := by
  refine ⟨?_, ?_, ?_, ?_, ?_, ?_, ?_, ?_, fun ok hmem => by cases hmem⟩
  · exact h
  · intro elapsed hmem
    rw [List.eq_of_mem_replicate hmem]
    decide
  · exact h
  · exact fun answer hmem => List.eq_of_mem_replicate hmem
  · exact h
  · exact fun answer hmem => List.eq_of_mem_replicate hmem
  · exact h
  · exact fun answer hmem => List.eq_of_mem_replicate hmem

end Runs

end Magicbox.Guarantees.Recovery
