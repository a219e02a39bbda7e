import Magicbox.Source.StatusChanges
import Magicbox.Source.KernelRequests

/-!
# Which steps a rollback attempts

restore() attempts each of its steps once it has its first journal write behind
it, whatever fails on the way. When that write fails it attempts none.
-/

set_option autoImplicit false

namespace Magicbox.Source.RestorationSteps
open Library.Crash Json Config ConfigJson Nftables Netns NetworkController StatusChanges

/-- The steps of restore() in order, up to the removal of the guard. The steps
on the outer side are skipped when its link is not found. -/
def restorationSteps (c : NetworkConfig) (outerFound : Bool) (baseline : List Value) :
    List Step :=
  [.swapGuard, .dropRule] ++
    (if outerFound then [.dropGatewayRoute, .dropLinkRoute, .dropOuterAddress] else []) ++
    [.dropInnerAddress] ++ (if c.vlanId.isSome then [.dropVlan] else []) ++
    [.dropTranslation, .resetForward, .resetRpFilterAll] ++ baseline.map .resetPort

/-- The log grew, and the steps are among what it grew by. -/
def Attempted (steps : List Step) (w w' : World) : Prop :=
  ∃ acts, w'.log = w.log ++ acts ∧ ∀ step ∈ steps, .attempted step ∈ acts

/-- `found` is whether the outer link was there, unless the lookup of it failed. -/
def Informed (c : NetworkConfig) (found : Bool) (w w' : World) : Prop :=
  found = w.kernel.present (effectiveOuter c) ∨
    ∃ acts, w'.log = w.log ++ acts ∧ .lookedUp (effectiveOuter c) false true ∈ acts

section Attempted
variable {steps later : List Step} {w₁ w₂ w₃ : World}

theorem Informed.after {c : NetworkConfig} {found : Bool} (h : Informed c found w₁ w₂)
    (grows : Grows w₂ w₃) : Informed c found w₁ w₃ := by
  refine h.imp_right fun ⟨acts, hlog, hact⟩ => ?_
  obtain ⟨acts', hlog'⟩ := grows
  exact ⟨acts ++ acts', by rw [hlog', hlog, List.append_assoc], List.mem_append_left _ hact⟩

theorem Informed.before {c : NetworkConfig} {found : Bool} (h : Informed c found w₂ w₃)
    (grows : Grows w₁ w₂)
    (hpresent : w₂.kernel.present (effectiveOuter c) = w₁.kernel.present (effectiveOuter c)) :
    Informed c found w₁ w₃ := by
  refine h.imp (fun hfound => hfound.trans hpresent) fun ⟨acts', hlog', hact⟩ => ?_
  obtain ⟨acts, hlog⟩ := grows
  exact ⟨acts ++ acts', by rw [hlog', hlog, List.append_assoc], List.mem_append_right _ hact⟩

theorem Attempted.of_grows (h : Grows w₁ w₂) : Attempted [] w₁ w₂ := by
  obtain ⟨acts, hlog⟩ := h
  exact ⟨acts, hlog, by simp⟩

theorem Attempted.grows (h : Attempted steps w₁ w₂) : Grows w₁ w₂ := by
  obtain ⟨acts, hlog, -⟩ := h
  exact ⟨acts, hlog⟩

theorem Attempted.trans (h : Attempted steps w₁ w₂) (h' : Attempted later w₂ w₃) :
    Attempted (steps ++ later) w₁ w₃ := by
  obtain ⟨acts, hlog, hsteps⟩ := h
  obtain ⟨acts', hlog', hlater⟩ := h'
  refine ⟨acts ++ acts', by rw [hlog', hlog, List.append_assoc], fun step hstep => ?_⟩
  rcases List.mem_append.mp hstep with hs | hs
  · exact List.mem_append_left _ (hsteps step hs)
  · exact List.mem_append_right _ (hlater step hs)

/-- An attempt is noted before its action runs. -/
theorem attempted_attemptStep {step : Step} {errors : String} {action : Controller Unit}
    (h : Within Quiet action) (w : World) :
    Attempted [step] w (attemptStep step errors action w).2 := by
  obtain ⟨acts, hlog⟩ := (h (noted (.attempted step) w)).grows
  refine ⟨.attempted step :: acts, ?_, by simp⟩
  rw [(attemptStep_run step errors action w).1, hlog]
  exact List.append_assoc _ _ _

theorem attempted_eq {step : Step} {errors : String} {action : Controller Unit}
    (h : Within Quiet action) {w w' : World} {o : Outcome Exn String}
    (run : attemptStep step errors action w = (o, w')) : Attempted [step] w w' := by
  have hattempted : Attempted [step] w (attemptStep step errors action w).2 :=
    attempted_attemptStep h w
  rwa [run] at hattempted

/-- A step that adds and removes no link. -/
theorem links_attemptStep {step : Step} {errors : String} {action : Controller Unit}
    {us : List (Kernel → Kernel)} (h : Performs World.kernel us action)
    (hus : ∀ u ∈ us, ∀ k, (u k).links = k.links) {w w' : World} {o : Outcome Exn String}
    (run : attemptStep step errors action w = (o, w')) : w'.kernel.links = w.kernel.links := by
  have hend : w' = (action (noted (.attempted step) w)).2 := by
    rw [← (attemptStep_run step errors action w).1, run]
  rw [hend]
  exact h.keeps (I := fun k => k.links = w.kernel.links)
    (fun u hu k hk => (hus u hu k).trans hk) (noted (.attempted step) w) rfl

end Attempted

section Steps
variable {c : NetworkConfig} {errors after : String} {w w' : World}

theorem dropOuter_attempts (run : dropOuter c errors w = (.returned after, w')) :
    ∃ found, Informed c found w w' ∧
      Attempted (if found then [.dropGatewayRoute, .dropLinkRoute, .dropOuterAddress] else [])
        w w' := by
  obtain ⟨found, w₀, look, looked⟩ := lookUp_run (effectiveOuter c) w
  unfold dropOuter at run
  rw [bind_returned look] at run
  have hlooked : Attempted [] w w₀ := .of_grows looked.grows
  cases found with
  | true =>
    obtain ⟨e₁, w₁, run₁, run⟩ := bind_eq_returned run
    obtain ⟨e₂, w₂, run₂, run₃⟩ := bind_eq_returned run
    exact ⟨true, .inl looked.sound.symm, ((hlooked.trans
      (attempted_eq (quiet_route _ _ _) run₁)).trans
      (attempted_eq (quiet_route _ _ _) run₂)).trans (attempted_eq (quiet_address _ _ _ _) run₃)⟩
  | false =>
    cases run
    refine ⟨false, ?_, hlooked⟩
    cases hp : w.kernel.present (effectiveOuter c) with
    | false => exact .inl hp.symm
    | true => exact .inr ⟨_, looked.told, by simp [hp]⟩

theorem dropVlan_attempts (run : dropVlan c errors w = (.returned after, w')) :
    Attempted (if c.vlanId.isSome then [.dropVlan] else []) w w' := by
  unfold dropVlan at run
  split at run
  · next hc =>
    rw [if_pos hc]
    exact attempted_eq quiet_vlanDelete run
  · next hc =>
    rw [if_neg hc]
    cases run
    exact .of_grows (Grows.refl _)

theorem resetPorts_attempts {infos : List Value}
    (run : resetPorts errors infos w = (.returned after, w')) :
    Attempted (infos.map .resetPort) w w' := by
  induction infos generalizing errors w with
  | nil =>
    cases run
    exact .of_grows (Grows.refl _)
  | cons info rest ih =>
    obtain ⟨e₁, w₁, run₁, run⟩ := bind_eq_returned run
    exact (attempted_eq (quiet_resetPort info) run₁).trans (ih run)

/-- A rollback that is not cut attempts every step. -/
theorem undoInstall_attempts (run : undoInstall c w = (.returned after, w')) :
    ∃ found, Informed c found w w' ∧
      Attempted (restorationSteps c found (w.state_.get "baseline").elements) w w' := by
  obtain ⟨e₁, w₁, swap, run⟩ := bind_eq_returned run
  obtain ⟨e₂, w₂, rule, run⟩ := bind_eq_returned run
  obtain ⟨e₃, w₃, outer, run⟩ := bind_eq_returned run
  obtain ⟨e₄, w₄, inner, run⟩ := bind_eq_returned run
  obtain ⟨e₅, w₅, vlan, run⟩ := bind_eq_returned run
  obtain ⟨e₆, w₆, translation, run⟩ := bind_eq_returned run
  obtain ⟨e₇, w₇, forward, run⟩ := bind_eq_returned run
  obtain ⟨e₈, w₈, filter, run⟩ := bind_eq_returned run
  obtain ⟨baseline, w₉, hread, run⟩ := bind_eq_returned run
  cases hread
  have hlinks : w₂.kernel.links = w.kernel.links := by
    have h₁ := links_attemptStep (performs_swapGuard c) (fun u hu k => by
      rcases List.mem_pair.mp hu with rfl | rfl <;> rfl) swap
    have h₂ := links_attemptStep (performs_rule c false) (by simp) rule
    exact h₂.trans h₁
  have hpresent : w₂.kernel.present (effectiveOuter c) = w.kernel.present (effectiveOuter c) := by
    rw [Kernel.present, Kernel.present, hlinks]
  have hstate : w₈.state_ = w.state_ := by
    have quiet : ∀ {step errors o u u'} {action : Controller Unit}, Within Quiet action →
        attemptStep step errors action u = (o, u') → u'.state_ = u.state_ := fun h run =>
      (quiet_eq (quiet_attemptStep _ _ h) run).state_
    rw [quiet (quiet_resetSysctl _ _) filter, quiet (quiet_resetSysctl _ _) forward,
      quiet (quiet_dropTable _) translation, (quiet_eq (quiet_dropVlan c _) vlan).state_,
      quiet (quiet_address _ _ _ _) inner, (quiet_eq (quiet_dropOuter c _) outer).state_,
      quiet (quiet_rule _ _) rule, quiet (quiet_swapGuard c) swap]
  change resetPorts e₈ (w₈.state_.get "baseline").elements w₈ = _ at run
  rw [hstate] at run
  obtain ⟨found, informed, houter⟩ := dropOuter_attempts outer
  have hfirst := (attempted_eq (quiet_swapGuard c) swap).trans (attempted_eq (quiet_rule _ _) rule)
  have hlast := (((((attempted_eq (quiet_address _ _ _ _) inner).trans
    (dropVlan_attempts vlan)).trans (attempted_eq (quiet_dropTable _) translation)).trans
    (attempted_eq (quiet_resetSysctl _ _) forward)).trans
    (attempted_eq (quiet_resetSysctl _ _) filter)).trans (resetPorts_attempts run)
  refine ⟨found, (informed.after hlast.grows).before hfirst.grows hpresent, ?_⟩
  simpa [restorationSteps] using (hfirst.trans houter).trans hlast

/-- With nothing noted the guard's removal was attempted too. -/
theorem rollBack_attempts (run : rollBack c w = (.returned after, w')) :
    ∃ found, Informed c found w w' ∧
      Attempted (restorationSteps c found (w.state_.get "baseline").elements ++
        if after = "" then [.dropGuard] else []) w w' := by
  obtain ⟨e₁, w₁, undo, run⟩ := bind_eq_returned run
  obtain ⟨found, informed, hsteps⟩ := undoInstall_attempts undo
  have hguard : Attempted (if after = "" then [.dropGuard] else []) w₁ w' := by
    unfold dropGuard at run
    split at run
    · have hguard := attempted_eq (quiet_dropTable .inet) run
      split
      · exact hguard
      · exact .of_grows hguard.grows
    · next he =>
      cases run
      rw [if_neg fun h => he (String.isEmpty_iff.mpr h)]
      exact .of_grows (Grows.refl _)
  exact ⟨found, informed.after hguard.grows, hsteps.trans hguard⟩

/-! ## restore -/

/-- The first journal write the supply answers is one that fails. -/
def firstWriteFails (supply : Supply) : Bool :=
  match supply.puts.head? with
  | some (.refused _) | some (.lost _) => true
  | some .done | none => false

/-- What a rollback that was not cut leaves: every step attempted and a status
that says so, or no step attempted and `rolling_back` in memory. -/
theorem restore_attempts {o : Outcome Exn Unit} (run : restore w = (o, w')) (ho : o ≠ .crashed)
    (hc : configFromJson (w.state_.get "config") = .ok c) :
    firstWriteFails w.supply = false ∧
      (∃ found, Informed c found w w' ∧
        Attempted (restorationSteps c found (w.state_.get "baseline").elements) w w') ∧
      (HasStatus "inactive" w'.state_ → Attempted [.dropGuard] w w') ∨
    firstWriteFails w.supply = true ∧ HasStatus "rolling_back" w'.state_ ∧
      ∃ acts, w'.log = w.log ++ acts ∧ ∀ step, .attempted step ∉ acts := by
  have hrun := restore_run w
  rw [run] at hrun
  have same : ∀ {c'}, configFromJson (w.state_.get "config") = .ok c' → c' = c := fun hc' =>
    Except.ok.inj (hc'.symm.trans hc)
  have written : ∀ {c' w₁}, putState (entering c' w) = (.returned (), w₁) →
      firstWriteFails w.supply = false := by
    intro c' w₁ put
    cases putState_cases put with
    | done h =>
      have hputs : w.supply.puts = .done :: _ := h
      simp [firstWriteFails, hputs]
  -- From the first write on: the steps, and the final write.
  have steps : ∀ {w₁ errors w₂ o₃ w₃}, putState (entering c w) = (.returned (), w₁) →
      rollBack c w₁ = (.returned errors, w₂) → putState (closing errors w₂) = (o₃, w₃) →
      (∃ found, Informed c found w w₃ ∧
        Attempted (restorationSteps c found (w.state_.get "baseline").elements) w w₃) ∧
      (HasStatus "inactive" w₃.state_ → Attempted [.dropGuard] w w₃) := by
    intro w₁ errors w₂ o₃ w₃ put roll put'
    have effect := putState_effect put
    have effect' := putState_effect put'
    have hentry : Attempted [] w w₁ := by
      obtain ⟨acts, hlog, -⟩ := effect.log
      exact ⟨.restoring c w.kernel w.supply :: acts, by rw [hlog]; exact List.append_assoc _ _ _,
        by simp⟩
    have hexit : Attempted [] w₂ w₃ := by
      obtain ⟨acts, hlog, -⟩ := effect'.log
      exact ⟨acts, hlog, by simp⟩
    obtain ⟨found, informed, hmid⟩ := rollBack_attempts roll
    have hbaseline : w₁.state_.get "baseline" = w.state_.get "baseline" := by
      rw [effect.state_]
      exact Value.get_set_of_ne _ (by decide) _
    have hkernel : w₁.kernel = w.kernel := effect.kernel
    rw [hbaseline] at hmid
    have hinformed : Informed c found w w₃ :=
      (informed.after hexit.grows).before hentry.grows (by rw [hkernel])
    obtain ⟨acts, hlog, hall⟩ := (hentry.trans hmid).trans hexit
    refine ⟨⟨found, hinformed, acts, hlog, fun step hstep => hall step ?_⟩, fun hinactive =>
      ⟨acts, hlog, fun step hstep => hall step ?_⟩⟩
    · simp [hstep]
    · have he : errors = "" := by
        by_contra hne
        rw [effect'.state_] at hinactive
        have hfailed : HasStatus "rollback_failed" (closing errors w₂).state_ := by
          change HasStatus _ ((w₂.state_.set "status"
            (.string (if errors.isEmpty then "inactive" else "rollback_failed"))).set "error" _)
          rw [hasStatus_set_of_ne "error" (by decide), hasStatus_set, isEmpty_eq_false hne]
          rfl
        exact absurd (hinactive.unique hfailed) (by decide)
      simp only [he, if_pos, List.nil_append, List.append_nil]
      exact List.mem_append_right _ hstep
  cases hrun with
  | unreadable he =>
    rw [hc] at he
    cases he
  | unjournaled hc' put hne =>
    obtain rfl := same hc'
    right
    cases putState_cases put with
    | cut _ => exact absurd rfl ho
    | done _ => exact absurd rfl hne
    | @refused what rest h | @lost what rest h =>
      have hputs : w.supply.puts = _ := h
      refine ⟨by simp [firstWriteFails, hputs], Value.get_set_self _ _ _, _,
        List.append_assoc _ _ _, by simp⟩
  | cut _ _ _ => exact absurd rfl ho
  | unrecorded hc' put roll put' _ | failed hc' put roll _ put' =>
    obtain rfl := same hc'
    exact .inl ⟨written put, steps put roll put'⟩
  | @restored _ _ _ w₃ hc' put roll put' =>
    obtain rfl := same hc'
    have grow : ∀ {steps}, Attempted steps w w₃ →
        Attempted steps w (noted (.restored w₃.kernel) w₃) :=
      fun h => by simpa using h.trans (.of_grows ⟨[.restored w₃.kernel], rfl⟩)
    obtain ⟨⟨found, informed, hall⟩, hguard⟩ := steps put roll put'
    exact .inl ⟨written put, ⟨found, informed.after ⟨_, rfl⟩, grow hall⟩,
      fun hs => grow (hguard hs)⟩

end Steps

end Magicbox.Source.RestorationSteps
