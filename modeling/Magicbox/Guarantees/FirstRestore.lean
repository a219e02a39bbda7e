import Magicbox.Guarantees.Rollback
import Magicbox.Source.StatusChanges

/-!
# The first rollback that returns

What holds between an accepted `apply` and the first rollback that returns:
the kernel has the shape of that configuration on its own links, and the
journal, like the memory of a running process, remembers what `apply` captured.
No call leaves this state except by a rollback that returns, and that rollback
leaves the captured kernel, unless a lookup failed and it took a link for gone.
-/

set_option autoImplicit false

namespace Magicbox.Guarantees.FirstRestore
open Library.Crash Source Source.Json Source.Config Source.ConfigJson Source.Nftables Source.Netns
  Source.NetworkController Source.Worker Source.StatusChanges KernelShape Withdrawal KernelRuns
  Baseline Rollback

/-- The kernel that the first rollback to return left behind. -/
def firstRestored (acts : List Act) : Option Kernel :=
  acts.findSome? fun
    | .restored kernel => some kernel
    | .admitted _ _ | .restoring _ _ _ | .attempted _ | .lookedUp _ _ _ | .requested _ _
    | .journaled _ _ => none

/-- A journal write that succeeded. -/
def written : Act → Bool
  | .journaled _ .done => true
  | .journaled _ (.refused _) | .journaled _ (.lost _) => false
  | .admitted _ _ | .restoring _ _ _ | .attempted _ | .lookedUp _ _ _ | .restored _
  | .requested _ _ => false

/-- The log grew without a rollback that returned. -/
def Unrestored (w w' : World) : Prop :=
  ∃ acts, w'.log = w.log ++ acts ∧ firstRestored acts = none

theorem firstRestored_append (acts acts' : List Act) :
    firstRestored (acts ++ acts') = (firstRestored acts).or (firstRestored acts') :=
  List.findSome?_append

theorem Unrestored.trans {w₁ w₂ w₃ : World} (h : Unrestored w₁ w₂) (h' : Unrestored w₂ w₃) :
    Unrestored w₁ w₃ := by
  obtain ⟨acts, hlog, hnone⟩ := h
  obtain ⟨acts', hlog', hnone'⟩ := h'
  refine ⟨acts ++ acts', by rw [hlog', hlog, List.append_assoc], ?_⟩
  rw [firstRestored_append, hnone, hnone']
  rfl

theorem Unrestored.grows {w w' : World} (h : Unrestored w w') : Grows w w' := by
  obtain ⟨acts, hlog, -⟩ := h
  exact ⟨acts, hlog⟩

theorem Unrestored.quiet {w w' : World} (quiet : Quiet w w') : Unrestored w w' := by
  obtain ⟨acts, hlog, hside⟩ := quiet.log
  refine ⟨acts, hlog, List.findSome?_eq_none_iff.mpr fun a ha => ?_⟩
  have := hside a ha
  cases a <;> first | rfl | cases this

theorem Unrestored.put {w w' : World} {o : Outcome Exn Unit} (put : PutEffect o w w') :
    Unrestored w w' := by
  obtain ⟨acts, hlog, hjournaled⟩ := put.log
  refine ⟨acts, hlog, List.findSome?_eq_none_iff.mpr fun a ha => ?_⟩
  obtain ⟨answer, rfl⟩ := hjournaled a ha
  rfl

theorem Unrestored.entering (c : NetworkConfig) (w : World) : Unrestored w (entering c w) :=
  ⟨_, rfl, rfl⟩

theorem Unrestored.closing (errors : String) (w : World) : Unrestored w (closing errors w) :=
  ⟨[], by simp [NetworkController.closing], rfl⟩

/-! ## Between the write-ahead and the first rollback that returns -/

/-- What the host holds. -/
structure Underway (K : Kernel) (c : NetworkConfig) (w : World) : Prop where
  journals : Journals w.supply
  stage : Shaped K c w.kernel
  confined : Confined c K w.kernel
  remembers : Remembers K c (journal w)

/-- And with it what the memory of a running process holds. -/
structure Active (K : Kernel) (c : NetworkConfig) (w : World) : Prop extends Underway K c w where
  memory : Remembers K c w.state_

/-- Since the log `base`, and unless a link was overlooked: the first rollback
that returned left `K`, or none has returned and `P` holds. -/
def Since (base : List Act) (K : Kernel) (P : World → Prop) (w : World) : Prop :=
  ∃ acts, w.log = base ++ acts ∧ (Sees base.length w →
    firstRestored acts = some K ∨ firstRestored acts = none ∧ P w)

section Since
variable {base : List Act} {K : Kernel} {c : NetworkConfig} {P Q : World → Prop}

theorem Since.same {w w' : World} (h : Since base K P w) (hlog : w'.log = w.log)
    (himp : P w → Q w') : Since base K Q w' := by
  obtain ⟨acts, hacts, hfirst⟩ := h
  refine ⟨acts, hlog.trans hacts, fun hsees => ?_⟩
  have hsees' : Sees base.length w := hsees.grows ⟨[], by rw [hlog, List.append_nil]⟩
  exact (hfirst hsees').imp_right fun hp => ⟨hp.1, himp hp.2⟩

theorem Since.imp {w : World} (h : Since base K P w) (himp : P w → Q w) : Since base K Q w :=
  h.same rfl himp

/-- A step that never returns from a rollback, and one whose rollback returned with `K`. -/
theorem Since.step {w w' : World} (h : Since base K P w) (grows : Grows w w')
    (hP : Sees w.log.length w' → P w → (Unrestored w w' ∧ Q w') ∨
      ∃ acts, w'.log = w.log ++ acts ∧ firstRestored acts = some K) :
    Since base K Q w' := by
  obtain ⟨acts, hlog, hfirst⟩ := h
  obtain ⟨acts', hlog'⟩ := grows
  have hall : w'.log = base ++ (acts ++ acts') := by rw [hlog', hlog, List.append_assoc]
  have same : ∀ {acts''}, w'.log = w.log ++ acts'' → acts' = acts'' := fun h =>
    List.append_cancel_left (hlog'.symm.trans h)
  refine ⟨acts ++ acts', hall, fun hsees => ?_⟩
  rw [firstRestored_append]
  rcases hfirst (hsees.grows ⟨acts', hlog'⟩) with hsome | ⟨hnone, hp⟩
  · rw [hsome]
    exact .inl rfl
  · have hsees' : Sees w.log.length w' := hsees.later (by rw [hlog, List.length_append]; omega)
    rw [hnone]
    rcases hP hsees' hp with ⟨⟨acts'', hlog'', hnone'⟩, hq⟩ | ⟨acts'', hlog'', hsome⟩
    · obtain rfl := same hlog''
      exact .inr ⟨hnone', hq⟩
    · obtain rfl := same hlog''
      exact .inl hsome

end Since

section Steps
variable {K : Kernel} {c : NetworkConfig}

/-- Nothing returned from a rollback, and the account goes on. -/
def Continues (K : Kernel) (c : NetworkConfig) {α : Type} (w : World) (o : Outcome Exn α)
    (w' : World) : Prop :=
  Unrestored w w' ∧ Underway K c w' ∧ (o ≠ .crashed → Active K c w')

theorem Active.continues {α : Type} {w w' : World} (o : Outcome Exn α) (h : Active K c w')
    (unrestored : Unrestored w w') : Continues K c w o w' :=
  ⟨unrestored, h.toUnderway, fun _ => h⟩

/-- The first journal write of a rollback. -/
theorem Active.entered {w w₁ : World} {o : Outcome Exn Unit} (h : Active K c w)
    (put : putState (entering c w) = (o, w₁)) :
    Unrestored w w₁ ∧ Underway K c w₁ ∧ (o = .returned () ∨ o = .crashed) ∧
      (o = .returned () → Undoing K c w₁ ∧ journal w₁ = w₁.state_) := by
  have effect := putState_effect put
  have hentering := h.memory.toCaptured.entering (w := w)
  obtain ⟨hjournals, hend⟩ := Journals.put (w := entering c w) h.journals (putState_cases put)
  have hmemory : Remembers K c w₁.state_ := effect.state_ ▸ hentering
  have hjournal : Remembers K c (journal w₁) := by
    rcases effect.store with hs | hs
    · rw [hs]
      exact h.remembers
    · rw [hs]
      exact hentering
  refine ⟨(Unrestored.entering c w).trans (.put effect),
    ⟨hjournals, effect.kernel ▸ h.stage, effect.kernel ▸ h.confined, hjournal⟩, ?_, fun ho => ?_⟩
  · exact hend.imp And.left And.left
  · exact ⟨⟨effect.kernel ▸ h.confined, hmemory.toCaptured⟩,
      (effect.done ho).trans effect.state_.symm⟩

/-- Its restoration steps, which give the kernel back where none of them fails. -/
theorem Active.rolledBack (hK : Pristine K) (hmac : Ethernet c K) {w w₁ w₂ w' : World}
    {o : Outcome Exn String} (h : Active K c w)
    (put : putState (entering c w) = (.returned (), w₁)) (roll : rollBack c w₁ = (o, w₂))
    (hsees : Sees w.log.length w') (grows : Grows w₂ w') :
    Unrestored w w₂ ∧ Underway K c w₂ ∧ Captured K c w₂.state_ ∧
      (o = .returned "" → w₂.kernel = K) := by
  obtain ⟨hlog, hunder, -, hstart⟩ := h.entered put
  obtain ⟨hundoing, hjournal⟩ := hstart rfl
  have quiet := quiet_eq (quiet_rollBack c) roll
  have hsees₂ : Sees w₁.log.length (rollBack c w₁).2 := by
    rw [roll]
    exact hsees.between (hlog.grows.le (Nat.le_refl _)) grows
  have hbare := rollBack_shaped hunder.stage hsees₂
  have hback := rollBack_restores hK.vlan hmac w₁ hundoing
  rw [roll] at hbare hback
  have hstore : journal w₂ = journal w₁ := congrArg (Store.get · "network") quiet.store
  refine ⟨hlog.trans (.quiet quiet), ⟨hunder.journals.quiet quiet, hbare.1, hback.1.1,
    hstore ▸ hunder.remembers⟩, hback.1.2, fun ho => ?_⟩
  exact kernel_restored hK hback.1.2 (hbare.2 ho) hback.1.1 (hback.2.1 _ ho rfl)

/-- A rollback of what is accounted for goes on accounting for it, or returns
and has given the kernel back. -/
theorem restore_continues (hK : Pristine K) (hmac : Ethernet c K) {w w' : World}
    {o : Outcome Exn Unit} (h : Active K c w) (hsees : Sees w.log.length w')
    (run : restore w = (o, w')) :
    Continues K c w o w' ∨ ∃ acts, w'.log = w.log ++ acts ∧ firstRestored acts = some K := by
  have same : ∀ {c'}, configFromJson (w.state_.get "config") = .ok c' → c' = c :=
    fun hc => Except.ok.inj (hc.symm.trans h.memory.readable)
  have hrun := restore_run w
  rw [run] at hrun
  cases hrun with
  | unreadable hc =>
    rw [h.memory.readable] at hc
    cases hc
  | unjournaled hc put ho =>
    obtain rfl := same hc
    obtain ⟨hlog, hunder, hend, -⟩ := h.entered put
    exact .inl ⟨hlog, hunder, fun hne => absurd (hend.resolve_left ho) hne⟩
  | cut hc put roll =>
    obtain rfl := same hc
    obtain ⟨hlog, hunder, -, -⟩ := h.rolledBack hK hmac put roll hsees (Grows.refl _)
    exact .inl ⟨hlog, hunder, fun hne => absurd rfl hne⟩
  | @unrecorded _ _ errors w₂ _ _ hc put roll put' ho =>
    obtain rfl := same hc
    have ends := (Unrestored.closing errors w₂).trans (.put (putState_effect put'))
    obtain ⟨hlog, hunder, -, -⟩ := h.rolledBack hK hmac put roll hsees ends.grows
    obtain ⟨hjournals, hend⟩ := Journals.put (w := closing errors w₂) hunder.journals
      (putState_cases put')
    obtain ⟨hcrash, rfl⟩ := hend.resolve_left fun hret => ho hret.1
    exact .inl ⟨hlog.trans (.closing errors w₂), ⟨hjournals, hunder.stage, hunder.confined,
      hunder.remembers⟩, fun hne => absurd hcrash hne⟩
  | @restored _ _ w₂ w₃ hc put roll put' =>
    obtain rfl := same hc
    have effect := putState_effect put'
    have ends := (Unrestored.closing "" w₂).trans (.put effect)
    obtain ⟨hlog, -, -, hkernel⟩ := h.rolledBack hK hmac put roll hsees
      (Grows.trans _ _ _ ends.grows ⟨[.restored w₃.kernel], rfl⟩)
    obtain ⟨acts, hacts, hnone⟩ := hlog.trans ends
    refine .inr ⟨acts ++ [.restored w₃.kernel], ?_, ?_⟩
    · change w₃.log ++ _ = _
      rw [hacts, List.append_assoc]
    · rw [firstRestored_append, hnone]
      change some w₃.kernel = some K
      rw [effect.kernel]
      exact congrArg some (hkernel rfl)
  | @failed _ _ errors w₂ w₃ hc put roll he put' =>
    obtain rfl := same hc
    have effect := putState_effect put'
    have ends := (Unrestored.closing errors w₂).trans (.put effect)
    obtain ⟨hlog, hunder, hcaptured, -⟩ := h.rolledBack hK hmac put roll hsees ends.grows
    have hclosing : Remembers K _ (closing errors w₂).state_ := hcaptured.closing he
    obtain ⟨hjournals, -⟩ := Journals.put (w := closing errors w₂) hunder.journals
      (putState_cases put')
    refine .inl (Active.continues _ ⟨⟨hjournals, effect.kernel ▸ hunder.stage,
      effect.kernel ▸ hunder.confined, ?_⟩, effect.state_ ▸ hclosing⟩ (hlog.trans ends))
    rw [effect.done rfl]
    exact hclosing

/-- Installation and the start of the confirmation window, cut or not. -/
theorem activate_continues (hK : Pristine K) {w w' : World} {o : Outcome Exn Unit}
    (hkernel : w.kernel = K) (hjournals : Journals w.supply) (hmemory : Remembers K c w.state_)
    (hjournal : journal w = w.state_) (run : activate c w = (o, w')) : Continues K c w o w' := by
  have installed : ∀ {o₁ w₁}, install c w = (o₁, w₁) → Unrestored w w₁ ∧ Active K c w₁ := by
    intro o₁ w₁ inst
    have quiet := quiet_eq (quiet_install c) inst
    have hshaped : Shaped K c (install c w).2.kernel := install_shaped (by
      rw [hkernel]
      exact bare_of_pristine hK)
    have hconfined : Confined c K (install c w).2.kernel :=
      confined_performs (performs_install c) (concerns_install c) w (by
        rw [hkernel]
        exact Confined.refl c K)
    rw [inst] at hshaped hconfined
    have hstore : journal w₁ = journal w := congrArg (Store.get · "network") quiet.store
    have hstate : Remembers K c w₁.state_ := quiet.state_ ▸ hmemory
    refine ⟨.quiet quiet, ⟨⟨hjournals.quiet quiet, hshaped, hconfined, ?_⟩, hstate⟩⟩
    rw [hstore, hjournal]
    exact hmemory
  have hrun := activate_run c w
  rw [run] at hrun
  cases hrun with
  | uninstalled inst _ =>
    obtain ⟨hlog, hactive⟩ := installed inst
    exact hactive.continues _ hlog
  | @unclocked w₁ inst _ =>
    obtain ⟨hlog, hactive⟩ := installed inst
    exact ⟨hlog, ⟨hactive.journals, hactive.stage, hactive.confined, hactive.remembers⟩,
      fun hne => absurd rfl hne⟩
  | @put w₁ elapsed rest _ _ inst _ put =>
    obtain ⟨hlog, hactive⟩ := installed inst
    have effect := putState_effect put
    have hawaiting : Remembers K c (awaiting elapsed rest w₁).state_ :=
      hactive.memory.toCaptured.setStatus (by decide)
    obtain ⟨hdone, -⟩ := Journals.put (w := awaiting elapsed rest w₁) hactive.journals
      (putState_cases put)
    obtain ⟨acts, hacts, hnone⟩ := Unrestored.put effect
    refine Active.continues _ ⟨⟨hdone, effect.kernel ▸ hactive.stage,
      effect.kernel ▸ hactive.confined, ?_⟩, effect.state_ ▸ hawaiting⟩
      (hlog.trans ⟨acts, hacts, hnone⟩)
    rcases effect.store with hs | hs
    · rw [hs]
      exact hactive.remembers
    · rw [hs]
      exact hawaiting

/-- A second `apply` finds a status that is not inactive. -/
theorem apply_continues {w w' : World} {o : Outcome Exn Unit} (c' : NetworkConfig)
    (h : Active K c w) (run : apply c' w = (o, w')) : Continues K c w o w' := by
  have hrun := apply_run c' w
  rw [run] at hrun
  have busy : ∀ {baseline}, ¬ Admitted c' baseline w := fun adm => h.memory.status adm.inactive
  cases hrun with
  | rejected look _ =>
    have hstore : journal w' = journal w := congrArg (Store.get · "network") look.store
    exact Active.continues _ ⟨⟨h.journals.quiet look.toQuiet, look.kernel ▸ h.stage,
      look.kernel ▸ h.confined, hstore ▸ h.remembers⟩, look.state_ ▸ h.memory⟩
      (.quiet look.toQuiet)
  | unjournaled _ adm _ _ => exact absurd adm busy
  | pending _ adm _ _ => exact absurd adm busy
  | cut _ adm _ _ => exact absurd adm busy
  | undone _ adm _ _ _ => exact absurd adm busy

/-- A write-ahead that returned has captured the kernel it found. -/
theorem writeAhead_starts {baseline : Value} {w w₁ w₂ : World} (hjournals : Journals w.supply)
    (adm : Admitted c baseline w) (look : Looking w w₁)
    (run : writeAhead c baseline w₁ = (.returned (), w₂)) :
    Unrestored w w₂ ∧ w₂.kernel = w.kernel ∧ Journals w₂.supply ∧
      Remembers w.kernel c w₂.state_ ∧ journal w₂ = w₂.state_ := by
  obtain ⟨hkernel, hremembers, hjournal⟩ := writeAhead_remembers adm look run
  have hrun := writeAhead_run c baseline w₁
  rw [run] at hrun
  cases hrun with
  | unread _ _ ho => exact absurd rfl ho
  | @put u _ _ look' put =>
    have hput : Journals u.supply := (hjournals.quiet look.toQuiet).quiet look'.toQuiet
    have hadmitted : Unrestored u (admitting c baseline u) := ⟨_, rfl, rfl⟩
    exact ⟨((Unrestored.quiet look.toQuiet).trans (.quiet look'.toQuiet)).trans
      (hadmitted.trans (.put (putState_effect put))), hkernel,
      (Journals.put (w := admitting c baseline u) hput (putState_cases put)).1, hremembers,
      hjournal⟩

/-- A write-ahead that did not return has written nothing. -/
theorem writeAhead_refused {baseline : Value} {w w' : World} {o : Outcome Exn Unit}
    (hjournals : Journals w.supply) (run : writeAhead c baseline w = (o, w'))
    (ho : o ≠ .returned ()) : (w'.log.drop w.log.length).any written = false := by
  have hrun := writeAhead_run c baseline w
  rw [run] at hrun
  cases hrun with
  | @unread _ w₁ _ look _ _ =>
    change (w₁.log.drop _).any written = false
    rw [look.sameLog]
    simp
  | @put w₁ _ _ look put =>
    have hquiet : Journals w₁.supply := hjournals.quiet look.toQuiet
    have hput := Journals.put (w := admitting c baseline w₁) hquiet (putState_cases put)
    obtain ⟨-, rfl⟩ := hput.2.resolve_left fun hret => ho hret.1
    change ((w₁.log ++ [Act.admitted c w₁.kernel]).drop _).any written = false
    rw [look.sameLog]
    simp [written]

/-- One operation of a running process. -/
theorem Since.operation {α : Type} {base : List Act} {w w' : World} {o : Outcome Exn α}
    (h : Since base K (Active K c) w) (grows : Grows w w')
    (hrun : Sees w.log.length w' → Active K c w → Continues K c w o w' ∨
      ∃ acts, w'.log = w.log ++ acts ∧ firstRestored acts = some K) :
    Ends (Since base K (Active K c)) (Since base K (Underway K c)) (o, w') := by
  refine ⟨h.step grows fun hsees hactive => ?_, fun ho => h.step grows fun hsees hactive => ?_⟩
  · exact (hrun hsees hactive).imp_left fun hc => ⟨hc.1, hc.2.1⟩
  · exact (hrun hsees hactive).imp_left fun hc => ⟨hc.1, hc.2.2 ho⟩

/-- An `apply` that got past its write-ahead starts the account. -/
theorem apply_starts {w w' : World} {o : Outcome Exn Unit} (hK : Pristine w.kernel)
    (hmac : Ethernet c w.kernel) (hjournals : Journals w.supply) (run : apply c w = (o, w'))
    (accepted : (w'.log.drop w.log.length).any written = true) :
    Since w.log w.kernel (Underway w.kernel c) w' ∧
      (o ≠ .crashed → Since w.log w.kernel (Active w.kernel c) w') := by
  have hrun := apply_run c w
  rw [run] at hrun
  have installing : ∀ {baseline w₁ w₂ o₁ w₃}, Looking w w₁ → Admitted c baseline w →
      writeAhead c baseline w₁ = (.returned (), w₂) → activate c w₂ = (o₁, w₃) →
      Continues w.kernel c w o₁ w₃ := by
    intro baseline w₁ w₂ o₁ w₃ look adm ahead act
    obtain ⟨hlog, hkernel, hdone, hmemory, hjournal⟩ := writeAhead_starts hjournals adm look ahead
    obtain ⟨hlog', hrest⟩ := activate_continues hK hkernel hdone hmemory hjournal act
    exact ⟨hlog.trans hlog', hrest⟩
  have finish : ∀ {o₁ : Outcome Exn Unit} {w₁}, Continues w.kernel c w o₁ w₁ →
      Since w.log w.kernel (Underway w.kernel c) w₁ ∧
        (o₁ ≠ .crashed → Since w.log w.kernel (Active w.kernel c) w₁) := by
    rintro o₁ w₁ ⟨⟨acts, hlog, hnone⟩, hunder, hactive⟩
    exact ⟨⟨acts, hlog, fun _ => .inr ⟨hnone, hunder⟩⟩,
      fun ho => ⟨acts, hlog, fun _ => .inr ⟨hnone, hactive ho⟩⟩⟩
  cases hrun with
  | rejected look _ =>
    rw [look.sameLog] at accepted
    simp at accepted
  | unjournaled look _ ahead ho =>
    rw [← look.sameLog, writeAhead_refused (hjournals.quiet look.toQuiet) ahead ho] at accepted
    cases accepted
  | pending look adm ahead act => exact finish (installing look adm ahead act)
  | cut look adm ahead act => exact finish (installing look adm ahead act)
  | @undone _ _ _ _ _ o₁ _ look adm ahead act undo =>
    have hactive := (finish (installing look adm ahead act)).2 (by simp)
    have hend := hactive.operation (grows_eq grows_restore undo) fun hsees hu =>
      restore_continues hK hmac hu hsees undo
    refine ⟨hend.1, fun ho => hend.2 fun hcrash => ho ?_⟩
    have hcut : o₁ = .crashed := hcrash
    rw [hcut]

end Steps

/-! ## Runs -/

section Runs
variable {base : List Act} {K : Kernel} {c : NetworkConfig}

/-- Every call of every run keeps the account, until a rollback returns. -/
theorem kept_since (base : List Act) (hK : Pristine K) (hmac : Ethernet c K) :
    Kept Journals (Since base K (Active K c)) (Since base K (Underway K c)) where
  host := fun w h => h.imp Active.toUnderway
  suppliedHost := fun w supply hS h =>
    h.same rfl fun hu => ⟨hS, hu.stage, hu.confined, hu.remembers⟩
  supplied := fun w supply hS h =>
    h.same rfl fun hu => ⟨⟨hS, hu.stage, hu.confined, hu.remembers⟩, hu.memory⟩
  looked := by
    intro w w' look h
    have hstore : journal w' = journal w := congrArg (Store.get · "network") look.store
    exact h.same look.sameLog fun hu => ⟨⟨hu.journals.quiet look.toQuiet, look.kernel ▸ hu.stage,
      look.kernel ▸ hu.confined, hstore ▸ hu.remembers⟩, look.state_ ▸ hu.memory⟩
  advanced := fun elapsed rest w h =>
    h.same rfl fun hu => ⟨⟨hu.journals, hu.stage, hu.confined, hu.remembers⟩, hu.memory⟩
  loading := fun enabled w h =>
    h.same rfl fun hu => ⟨⟨hu.journals, hu.stage, hu.confined, hu.remembers⟩, hu.remembers⟩
  initial := by
    refine fun w h => h.same rfl fun hu =>
      ⟨⟨hu.journals, hu.stage, hu.confined, hu.remembers⟩, ?_⟩
    change Remembers K c (NetworkController.initial w.state_)
    rw [hu.memory.initial]
    exact hu.memory
  restore := by
    intro w _ h
    rcases hrun : restore w with ⟨o, w'⟩
    exact h.operation (grows_eq grows_restore hrun) fun hsees hu =>
      restore_continues hK hmac hu hsees hrun
  apply := by
    intro c' w h
    rcases hrun : apply c' w with ⟨o, w'⟩
    exact h.operation (grows_eq (grows_apply c') hrun) fun _ hu =>
      .inl (apply_continues c' hu hrun)
  confirmed := by
    intro w _ h
    rcases hput : putState (withState w (w.state_.set "status" (.string "confirmed"))) with ⟨o, w'⟩
    have effect := putState_effect hput
    refine h.operation effect.grows fun _ hu => .inl ?_
    have hconfirmed : Remembers K c (w.state_.set "status" (.string "confirmed")) :=
      hu.memory.toCaptured.setStatus (by decide)
    obtain ⟨hjournals, -⟩ := Journals.put
      (w := withState w (w.state_.set "status" (.string "confirmed"))) hu.journals
      (putState_cases hput)
    refine Active.continues o ⟨⟨hjournals, effect.kernel ▸ hu.stage, effect.kernel ▸ hu.confined,
      ?_⟩, effect.state_ ▸ hconfirmed⟩ ?_
    · rcases effect.store with hs | hs
      · rw [hs]
        exact hu.remembers
      · rw [hs]
        exact hconfirmed
    · obtain ⟨acts, hlog, hnone⟩ := Unrestored.put effect
      exact ⟨acts, hlog, hnone⟩

end Runs

/-- Take a node whose kernel has none of the reserved resources and a
configuration whose ports are Ethernet links, and let `apply` get past its
write-ahead. Then in every run that goes on from there and overlooks no link,
whatever failed or was cut in it, the first rollback that returns leaves the
kernel of before the `apply`. -/
theorem first_restore_gives_back {n : Node} {c : NetworkConfig} {supply : Supply}
    {calls : List (Call × Supply)} (hK : Pristine n.world.kernel)
    (hmac : Ethernet c n.world.kernel) (durable : Durable ((.apply c, supply) :: calls))
    (accepted : ((n.step (.apply c, supply)).world.log.drop n.world.log.length).any written = true)
    (hsees : Sees n.world.log.length (n.run ((.apply c, supply) :: calls)).world)
    {kernel : Kernel} (first : firstRestored ((n.run ((.apply c, supply) :: calls)).world.log.drop
      n.world.log.length) = some kernel) : kernel = n.world.kernel := by
  have hsupply : Journals supply := durable _ List.mem_cons_self
  have halive : n.alive = true := by
    by_contra hdead
    simp [Node.step, Call.starts, hdead] at accepted
  rcases hrun : apply c (supplied n.world supply) with ⟨o, w⟩
  have hstep : n.step (.apply c, supply) = ⟨w, Call.survives (.apply c) o⟩ := by
    simp [Node.step, halive, Call.body, hrun]
  rw [hstep] at accepted
  have starts := apply_starts (w := supplied n.world supply) hK hmac hsupply hrun accepted
  have kept := kept_since (c := c) n.world.log hK hmac
  have hend := kept.run (n := n.step (.apply c, supply)) (by
    rw [hstep]
    refine ⟨starts.1, fun hon => starts.2 fun hcrash => ?_⟩
    rw [hcrash] at hon
    cases hon) (fun event hevent => durable event (List.mem_cons_of_mem _ hevent))
  obtain ⟨acts, hlog, hfirst⟩ := hend.1
  have hdrop : (n.run ((.apply c, supply) :: calls)).world.log.drop n.world.log.length = acts := by
    change ((n.step (.apply c, supply)).run calls).world.log.drop _ = acts
    rw [hlog, List.drop_left]
  rw [hdrop] at first
  rcases hfirst hsees with hsome | ⟨hnone, -⟩
  · exact Option.some.inj (first.symm.trans hsome)
  · rw [hnone] at first
    cases first

theorem ethernet_exampleKernel (c : NetworkConfig) : Ethernet c exampleKernel := by
  intro name link _ hlink
  change exampleKernel.links name = some link at hlink
  simp only [exampleKernel] at hlink
  split at hlink
  · cases hlink
    rfl
  · cases hlink

/-- The kernel loses the process in the middle of install(). -/
def cutInstall : Supply := { answering with kernel := List.replicate 17 .done }

/-- A rollback that fails at its third step. -/
def failingRollback : Supply :=
  { answering with kernel := [.done, .done, .refused "Netlink: Device or resource busy"] ++
      List.replicate 60 .done }

/-- An installation that is cut, a recovery that fails, and the recovery after it. -/
theorem first_restore_gives_back_example :
    ∃ kernel, firstRestored (((exampleNode.step (.construct true, answering)).run
      [(.apply exampleConfig, cutInstall), (.construct true, failingRollback),
        (.construct true, answering)]).world.log) = some kernel ∧ kernel = exampleKernel := by
  have hsome : (firstRestored (((exampleNode.step (.construct true, answering)).run
      [(.apply exampleConfig, cutInstall), (.construct true, failingRollback),
        (.construct true, answering)]).world.log)).isSome = true := by decide +kernel
  obtain ⟨kernel, hkernel⟩ := Option.isSome_iff_exists.mp hsome
  refine ⟨kernel, hkernel, first_restore_gives_back
    (n := exampleNode.step (.construct true, answering)) ⟨rfl, by decide +kernel, rfl, rfl⟩
    (ethernet_exampleKernel exampleConfig) ?_
    (by decide +kernel) (by unfold Sees; decide +kernel) hkernel⟩
  intro event hevent
  simp only [List.mem_cons, List.not_mem_nil, or_false] at hevent
  rcases hevent with rfl | rfl | rfl <;>
    simp [Journals, cutInstall, failingRollback, answering]

/-- The lookup by which vlan(c, false) decides whether there is a link to delete fails. -/
def missingVlan : Supply := { answering with lookups := [true, false] }

/-- A rollback that takes the VLAN link for gone returns, and has left it where it was. -/
theorem overlooked_stays :
    ¬ ∀ (n : Node) (c : NetworkConfig) (supply : Supply) (calls : List (Call × Supply)),
      Pristine n.world.kernel → Ethernet c n.world.kernel →
      Durable ((.apply c, supply) :: calls) →
      ((n.step (.apply c, supply)).world.log.drop n.world.log.length).any written = true →
      ∀ kernel, firstRestored ((n.run ((.apply c, supply) :: calls)).world.log.drop
        n.world.log.length) = some kernel → kernel = n.world.kernel := by
  intro hclaim
  let n := exampleNode.step (.construct true, answering)
  have hleft : (firstRestored ((n.run [(.apply exampleConfig, answering),
      (.rollback, missingVlan)]).world.log.drop n.world.log.length)).map (·.present vlanName) =
        some true := by decide +kernel
  obtain ⟨kernel, hkernel, hpresent⟩ := Option.map_eq_some_iff.mp hleft
  have hsame := hclaim n exampleConfig answering [(.rollback, missingVlan)]
    ⟨rfl, by decide +kernel, rfl, rfl⟩ (ethernet_exampleKernel exampleConfig) ?_
    (by decide +kernel) kernel hkernel
  · rw [hsame] at hpresent
    have habsent : n.world.kernel.present vlanName = false := by decide +kernel
    rw [habsent] at hpresent
    cases hpresent
  · intro event hevent
    simp only [List.mem_cons, List.not_mem_nil, or_false] at hevent
    rcases hevent with rfl | rfl <;> simp [Journals, missingVlan, answering]

end Magicbox.Guarantees.FirstRestore
