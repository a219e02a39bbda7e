import Magicbox.Guarantees.Admissions
import Magicbox.Source.RestorationSteps

/-!
# The journal invariant

While the journal can be written, a state that is not inactive, in memory or in
the journal, holds what the most recent admitted `apply` captured, and nothing
but an `apply` that starts from inactive replaces it.
-/

set_option autoImplicit false

namespace Magicbox.Guarantees.JournalInvariant
open Library.Crash Source Source.Json Source.Config Source.ConfigJson Source.Netns
  Source.NetworkController Source.Worker Source.StatusChanges Source.RestorationSteps Baseline
  Admissions

/-- Between calls the journal holds what memory holds, or both rest. -/
def Level (w : World) : Prop :=
  journal w = w.state_ ∨ Resting (journal w) ∧ Resting w.state_

section Level
variable {c : NetworkConfig} {w w' : World} {o : Outcome Exn Unit}

theorem Level.same (h : Level w) (hstate : w'.state_ = w.state_)
    (hjournal : journal w' = journal w) : Level w' := by
  unfold Level
  rw [hstate, hjournal]
  exact h

/-- A memory that is inactive lies over a journal that rests. -/
theorem Level.rests (h : Level w) (hinactive : Resting w.state_) : Resting (journal w) := by
  rcases h with hsame | ⟨hrests, -⟩
  · exact hsame ▸ hinactive
  · exact hrests

theorem put_levels (w₁ : World) (h : Journals w₁.supply) (put : putState w₁ = (o, w')) :
    Journals w'.supply ∧ (o ≠ .crashed → Level w') := by
  obtain ⟨hrest, hend⟩ := h.put (putState_cases put)
  refine ⟨hrest, fun ho => .inl ?_⟩
  rcases hend with ⟨-, hjournal⟩ | ⟨hcut, -⟩
  · exact hjournal.trans (putState_effect put).state_.symm
  · exact absurd hcut ho

theorem restore_levels (h : Journals w.supply)
    (hlevel : (¬ ∃ c, configFromJson (w.state_.get "config") = .ok c) → Level w)
    (run : restore w = (o, w')) : Journals w'.supply ∧ (o ≠ .crashed → Level w') := by
  have hrun := restore_run w
  rw [run] at hrun
  have steps : ∀ {c w₁ o₂ w₂}, putState (entering c w) = (.returned (), w₁) →
      rollBack c w₁ = (o₂, w₂) → Journals w₂.supply := by
    intro c w₁ o₂ w₂ put roll
    have hentry := (put_levels (entering c w) h put).1
    exact hentry.quiet (quiet_eq (quiet_rollBack c) roll)
  have closes : ∀ {c w₁ errors w₂ o₃ w₃}, putState (entering c w) = (.returned (), w₁) →
      rollBack c w₁ = (.returned errors, w₂) → putState (closing errors w₂) = (o₃, w₃) →
      Journals w₃.supply ∧ (o₃ ≠ .crashed → Level w₃) := by
    intro c w₁ errors w₂ o₃ w₃ put roll put'
    have hmid : Journals w₂.supply := steps put roll
    exact put_levels (closing errors w₂) hmid put'
  cases hrun with
  | unreadable he =>
    refine ⟨h, fun _ => hlevel ?_⟩
    rintro ⟨c, hc⟩
    cases hc.symm.trans he
  | @unjournaled c _ _ _ put _ => exact put_levels (entering c w) h put
  | cut _ put roll => exact ⟨steps put roll, fun ho => absurd rfl ho⟩
  | unrecorded _ put roll put' _ => exact closes put roll put'
  | failed _ put roll _ put' =>
    obtain ⟨hrest, hend⟩ := closes put roll put'
    exact ⟨hrest, fun _ => hend (by simp)⟩
  | @restored _ _ _ w₃ _ put roll put' =>
    obtain ⟨hrest, hend⟩ := closes put roll put'
    have hlast : Level w₃ := hend (by simp)
    exact ⟨hrest, fun _ => hlast.same rfl rfl⟩

theorem activate_levels (h : Journals w.supply) (run : activate c w = (.returned (), w')) :
    Level w' := by
  have hrun := activate_run c w
  rw [run] at hrun
  cases hrun with
  | uninstalled _ ho => exact absurd rfl ho
  | @put w₁ elapsed rest _ _ inst _ put =>
    have hinst : Journals w₁.supply := h.quiet (quiet_eq (quiet_install c) inst)
    exact (put_levels (awaiting elapsed rest w₁) hinst put).2 (by simp)

theorem apply_levels (h : Journals w.supply) (hlevel : Level w) (run : apply c w = (o, w')) :
    Journals w'.supply ∧ (o ≠ .crashed → Level w') := by
  have hrun := apply_run c w
  rw [run] at hrun
  have ahead : ∀ {baseline w₁ w₂}, Looking w w₁ →
      writeAhead c baseline w₁ = (.returned (), w₂) → Journals w₂.supply := fun look run =>
    (writeAhead_returned run).2.2 (h.quiet look.toQuiet)
  cases hrun with
  | rejected look _ =>
    exact ⟨h.quiet look.toQuiet, fun _ => hlevel.same look.state_ (journal_of_looking look)⟩
  | @unjournaled baseline w₁ _ _ look adm run₁ ho =>
    have hlook : Journals w₁.supply := h.quiet look.toQuiet
    have hahead := writeAhead_run c baseline w₁
    rw [run₁] at hahead
    cases hahead with
    | @unread _ w₂ _ look' _ _ =>
      have hrest : Journals w₂.supply := hlook.quiet look'.toQuiet
      refine ⟨hrest, fun hcrash => .inr ?_⟩
      obtain ⟨e, rfl⟩ : ∃ e, o = .threw e := by
        cases o with
        | returned => exact absurd rfl ho
        | threw e => exact ⟨e, rfl⟩
        | crashed => exact absurd rfl hcrash
      have hjournal : journal w₂ = journal w :=
        (journal_of_looking look').trans (journal_of_looking look)
      refine ⟨?_, .inr ?_⟩
      · have hrests := hlevel.rests (.inr adm.inactive)
        rw [← hjournal] at hrests
        exact hrests
      · rcases (writeAhead_threw run₁).2 with hstatus | ⟨-, hputs⟩
        · exact hstatus.trans (look.state_ ▸ adm.inactive)
        · exact absurd hlook hputs
    | @put w₂ _ _ look' put =>
      have hput : Journals w₂.supply := hlook.quiet look'.toQuiet
      exact put_levels (admitting c baseline w₂) hput put
  | pending look _ run₁ run₂ =>
    exact ⟨activate_journals run₂ (ahead look run₁),
      fun _ => activate_levels (ahead look run₁) run₂⟩
  | cut look _ run₁ run₂ =>
    exact ⟨activate_journals run₂ (ahead look run₁), fun ho => absurd rfl ho⟩
  | @undone _ _ _ _ w₃ o₁ _ look adm run₁ run₂ run₃ =>
    have hactive : Journals w₃.supply := activate_journals run₂ (ahead look run₁)
    have hcaptured := (writeAhead_remembers adm look run₁).2.1.toCaptured.agree
      (restates_eq (restates_activate c) run₂).memory
    obtain ⟨hrest, hend⟩ := restore_levels hactive
      (fun hnone => absurd ⟨c, hcaptured.readable⟩ hnone) run₃
    refine ⟨hrest, fun ho => hend fun hcut => ho ?_⟩
    rw [hcut]

end Level

/-! ## Runs whose journal writes succeed -/

/-- Memory and journal hold the capture of the most recent admission. -/
structure Current (w : World) : Prop where
  journals : Journals w.supply
  backed : Backed (fun x => lastAdmitted w.log = some x) w

theorem lastAdmitted_of_admissions {w w' : World} (h : admissions w' = admissions w) :
    lastAdmitted w'.log = lastAdmitted w.log :=
  congrArg List.getLast? h

theorem Current.of_admissions {w w' : World} (journals : Journals w'.supply)
    (backed : Backed (fun x => lastAdmitted w.log = some x) w')
    (same : admissions w' = admissions w) : Current w' := by
  refine ⟨journals, ?_⟩
  rwa [lastAdmitted_of_admissions same]

theorem lastAdmitted_founded {c : NetworkConfig} {w w' : World}
    (h : admissions w' = admissions w ++ [(c, w.kernel)]) :
    lastAdmitted w'.log = some (c, w.kernel) := by
  change (admissions w').getLast? = _
  rw [h, List.getLast?_append_of_ne_nil _ (by simp)]
  rfl

theorem apply_current {c : NetworkConfig} {w w' : World} {o : Outcome Exn Unit} (h : Current w)
    (hlevel : Level w) (run : apply c w = (o, w')) : Current w' := by
  have hjournals := (apply_levels h.journals hlevel run).1
  cases apply_founds run with
  | refused same journaled memory =>
    refine .of_admissions hjournals ⟨?_, journaled ▸ h.backed.journaled⟩ same
    rcases memory with hsame | ⟨-, hinactive⟩
    · exact hsame ▸ h.backed.memory
    · exact .inl (.inr hinactive)
  | founded before admitted memory journaled =>
    have hnew := lastAdmitted_founded admitted
    refine ⟨hjournals, .inr ⟨c, w.kernel, hnew, memory⟩, ?_⟩
    rcases journaled with hsame | hcaptured
    · exact .inl (hsame ▸ hlevel.rests (.inr before))
    · exact .inr ⟨c, w.kernel, hnew, hcaptured⟩

theorem restore_current {w : World} (busy : w.state_.get "status" ≠ .string "inactive")
    (h : Current w ∧ Level w) :
    Ends (fun w => Current w ∧ Level w) Current (restore w) := by
  obtain ⟨hcurrent, hlevel⟩ := h
  rcases hrun : restore w with ⟨o, w'⟩
  obtain ⟨hjournals, hend⟩ := restore_levels hcurrent.journals (fun _ => hlevel) hrun
  have hafter : Current w' := .of_admissions hjournals (restore_backed hcurrent.backed busy hrun)
    (admissions_of_restates (restates_eq restates_restore hrun))
  exact ⟨hafter, fun ho => ⟨hafter, hend ho⟩⟩

theorem confirmed_current {w : World} (pending : HasStatus "awaiting_confirmation" w.state_)
    (h : Current w) : Ends (fun w => Current w ∧ Level w) Current
      (putState (withState w (w.state_.set "status" (.string "confirmed")))) := by
  rcases put : putState (withState w (w.state_.set "status" (.string "confirmed"))) with ⟨o, w'⟩
  have restates := restates_confirmed put
  obtain ⟨hjournals, hend⟩ := put_levels
    (withState w (w.state_.set "status" (.string "confirmed"))) h.journals put
  have hafter : Current w' := .of_admissions hjournals
    (h.backed.restates (not_resting pending (by decide)) restates)
    (admissions_of_restates restates)
  exact ⟨hafter, fun ho => ⟨hafter, hend ho⟩⟩

theorem current_kept : Kept Journals (fun w => Current w ∧ Level w) Current where
  host := fun _ h => h.1
  suppliedHost := fun _ _ hS h => ⟨hS, h.backed.memory, h.backed.journaled⟩
  supplied := fun _ _ hS h => ⟨⟨hS, h.1.backed.memory, h.1.backed.journaled⟩, h.2⟩
  looked := fun w w' look h => by
    have hsame : admissions w' = admissions w := by
      unfold admissions
      rw [look.sameLog]
    exact ⟨.of_admissions (h.1.journals.quiet look.toQuiet) (h.1.backed.looked look) hsame,
      h.2.same look.state_ (journal_of_looking look)⟩
  advanced := fun _ _ _ h => ⟨⟨h.1.journals, h.1.backed.memory, h.1.backed.journaled⟩, h.2⟩
  loading := fun _ _ h => ⟨⟨h.journals, h.backed.journaled, h.backed.journaled⟩, .inl rfl⟩
  initial := fun w h => by
    refine ⟨⟨h.1.journals, h.1.backed.memory.initial, h.1.backed.journaled⟩, ?_⟩
    by_cases hrests : Resting w.state_
    · exact .inr ⟨h.2.rests hrests, resting_initial hrests⟩
    · have hsame : initial w.state_ = w.state_ := if_neg fun hn => hrests (.inl hn)
      exact h.2.same hsame rfl
  restore := fun _ busy h => restore_current busy h
  apply := fun c w h => by
    rcases hrun : apply c w with ⟨o, w'⟩
    have hcurrent := apply_current h.1 h.2 hrun
    exact ⟨hcurrent, fun ho => ⟨hcurrent, (apply_levels h.1.journals h.2 hrun).2 ho⟩⟩
  confirmed := fun _ pending h => confirmed_current pending h.1

section Current
variable {fresh : Node} {calls : List (Call × Supply)}

theorem current (h : Fresh fresh) (hdurable : Durable calls) :
    Backed (fun x => lastAdmitted (fresh.run calls).world.log = some x) (fresh.run calls).world ∧
      ((fresh.run calls).alive = true → Level (fresh.run calls).world) := by
  have hstart : Current fresh.world := ⟨by simp [Journals, h.unsupplied], h.backed _⟩
  have hrun := current_kept.run ⟨hstart, fun halive => by rw [h.stopped] at halive; cases halive⟩
    hdurable
  exact ⟨hrun.1.backed, fun halive => (hrun.2 halive).2⟩

end Current

/-! ## A running controller has a state -/

theorem initial_present (v : Value) : (initial v).isNull = false := by
  unfold initial
  split
  · exact HasStatus.present (Value.get_set_self _ _ _)
  · next hnull => simpa using hnull

theorem construct_present {enabled : Bool} {w w' : World}
    (run : construct enabled w = (.returned (), w')) : w'.state_.isNull = false := by
  have hrun := construct_run enabled w
  rw [run] at hrun
  cases hrun with
  | lockedOut _ ho => exact absurd rfl ho
  | idle _ _ => exact initial_present _
  | unrestored _ _ _ _ ho => exact absurd rfl ho
  | restored _ _ _ run₁ _ => exact HasStatus.present (restore_returned_inactive run₁)
  | unapplied _ _ _ _ _ _ ho => exact absurd rfl ho
  | @reapplied w₁ w₂ c w₃ _ _ look on hs run₁ hc again confirm =>
    have hconfirm := confirm_run w₃
    rw [confirm] at hconfirm
    cases hconfirm with
    | unticked _ ho => exact absurd rfl ho
    | put _ _ _ put =>
      rw [(putState_effect put).state_]
      exact HasStatus.present (Value.get_set_self _ _ _)

theorem present_of_moves {P : NetworkConfig × Kernel → Prop} {w w' : World} {call : Call}
    (moves : Moves w call w') (founded : Founded P w.state_) (h : w.state_.isNull = false) :
    w'.state_.isNull = false := by
  cases moves with
  | stays status _ agree =>
    by_cases hinactive : HasStatus "inactive" w.state_
    · exact HasStatus.present (status.trans hinactive)
    · rcases founded with (hnull | hrests) | ⟨c, K, -, hcaptured⟩
      · rw [h] at hnull
        cases hnull
      · exact absurd hrests hinactive
      · exact (hcaptured.agree (agree hinactive)).present
  | rollsBack status _ _ => rcases status with hs | hs | hs <;> exact HasStatus.present hs
  | prepares _ _ status _ => exact HasStatus.present status
  | installs _ _ status _ _ _ => exact HasStatus.present status
  | confirms _ _ _ _ status _ _ => exact HasStatus.present status

theorem present {fresh : Node} (hfresh : Fresh fresh) (calls : List (Call × Supply)) :
    (fresh.run calls).alive = true → (fresh.run calls).world.state_.isNull = false := by
  refine Library.Runs.historyInvariant (J := fun (_ : List (Call × Supply)) (n : Node) =>
    n.alive = true → n.world.state_.isNull = false) ?_ ?_ calls
  · intro halive
    rw [hfresh.stopped] at halive
    cases halive
  · intro past event ih halive
    rw [Library.Runs.run_snoc] at halive ⊢
    cases hcall : event.1.starts with
    | true =>
      obtain ⟨call, supply⟩ := event
      cases call with
      | construct enabled =>
        rw [Node.step_construct] at halive ⊢
        rcases hrun : construct enabled (supplied (Library.Runs.run Node.step fresh past).world
          supply) with ⟨o, w'⟩
        rw [hrun] at halive
        cases o with
        | returned => exact construct_present hrun
        | threw | crashed => cases halive
      | _ => cases hcall
    | false =>
      exact present_of_moves (step_moves hcall halive) (grounded hfresh past).memory
        (ih (alive_of_step hcall halive))

/-! ## Who replaces a capture -/

/-- Nothing of what `v` says beyond status and error text is lost, in memory or
in the journal, and no `apply` was admitted. -/
structure Preserves (v : Value) (w w' : World) : Prop where
  memory : Agree v w'.state_
  journaled : Agree (journal w) (journal w')
  latest : lastAdmitted w'.log = lastAdmitted w.log

theorem Preserves.same {w w' : World} (hstate : w'.state_ = w.state_)
    (hjournal : journal w' = journal w) (hlog : admissions w' = admissions w) :
    Preserves w.state_ w w' :=
  ⟨hstate ▸ Agree.refl _, hjournal ▸ Agree.refl _, lastAdmitted_of_admissions hlog⟩

theorem Preserves.trans {v : Value} {w₁ w₂ w₃ : World} (h : Preserves v w₁ w₂)
    (h' : Preserves w₂.state_ w₂ w₃) : Preserves v w₁ w₃ :=
  ⟨h.memory.trans h'.memory, h.journaled.trans h'.journaled, h'.latest.trans h.latest⟩

/-- Restating over a journal that agrees with memory. -/
theorem Preserves.restates {v : Value} {w w' : World} (hmemory : Agree v w.state_)
    (hjournal : Agree (journal w) w.state_) (restates : Restates w w') : Preserves v w w' := by
  refine ⟨hmemory.trans restates.memory, ?_,
    lastAdmitted_of_admissions (admissions_of_restates restates)⟩
  rcases restates.wrote.journal with hsame | hagree
  · exact hsame ▸ Agree.refl _
  · exact hjournal.trans hagree

section Body
variable {w w' : World} {o : Outcome Exn Unit}

theorem not_pending (hinactive : HasStatus "inactive" w.state_) :
    ¬ HasStatus "awaiting_confirmation" w.state_ :=
  fun h => absurd (hinactive.unique h) (by decide)

theorem tick_inactive (hinactive : HasStatus "inactive" w.state_) (run : tick w = (o, w')) :
    w' = w := by
  have hrun := tick_run w
  rw [run] at hrun
  cases hrun with
  | idle _ => rfl
  | unclocked h _ | early h _ _ | expired h _ _ _ => exact absurd h.2 (not_pending hinactive)

/-- From an inactive state only `apply` writes anything. -/
theorem body_inactive {call : Call} (hcall : call.starts = false) (happly : ∀ c, call ≠ .apply c)
    (hinactive : HasStatus "inactive" w.state_) (run : call.body w = (o, w')) :
    journal w' = journal w := by
  cases call with
  | construct _ => cases hcall
  | apply c => exact absurd rfl (happly c)
  | confirm =>
    have hrun := confirm_run w
    rw [show confirm w = (o, w') from run] at hrun
    cases hrun with
    | disabled _ => rfl
    | unticked tick _ | nothing tick _ => exact congrArg journal (tick_inactive hinactive tick)
    | put _ tick h _ =>
      rw [tick_inactive hinactive tick] at h
      exact absurd h (not_pending hinactive)
  | rollback =>
    have hrun := rollback_run w
    rw [show rollback w = (o, w') from run] at hrun
    cases hrun with
    | disabled _ | inactive _ => rfl
    | run _ busy _ => exact absurd hinactive busy
  | tick => exact congrArg journal (tick_inactive hinactive run)
  | shutdown =>
    have hrun := shutdown_run w
    rw [show Worker.shutdown w = (o, w') from run] at hrun
    cases hrun with
    | idle _ => rfl
    | unclocked h _ | rolled h _ _ => exact absurd h (not_pending hinactive)
  | state => rcases stateCall_leaves run with rfl | ⟨elapsed, rest, rfl⟩ <;> rfl

/-- No call of a running controller replaces what memory holds, except an
`apply` that finds it inactive. -/
theorem body_preserves (call : Call) (hcall : call.starts = false)
    (hexcept : ∀ c, call = .apply c → ¬ HasStatus "inactive" w.state_)
    (hlevel : Level w) (hpresent : w.state_.isNull = false) (run : call.body w = (o, w')) :
    Preserves w.state_ w w' := by
  by_cases happly : ∃ c, call = .apply c
  · obtain ⟨c, rfl⟩ := happly
    cases apply_founds (w := w) (c := c) run with
    | refused same journaled memory =>
      exact .same (memory.resolve_right fun h => hexcept c rfl h.1) journaled same
    | founded before _ _ _ => exact absurd before (hexcept c rfl)
  · have hother : ∀ c, call ≠ .apply c := fun c hc => happly ⟨c, hc⟩
    have restates := restates_eq (body_restates hcall hother) run
    rcases hlevel with hsame | ⟨-, hrests⟩
    · exact .restates (Agree.refl _) (hsame ▸ Agree.refl _) restates
    · have hinactive : HasStatus "inactive" w.state_ :=
        hrests.resolve_left (by rw [hpresent]; simp)
      exact ⟨restates.memory, body_inactive hcall hother hinactive run ▸ Agree.refl _,
        lastAdmitted_of_admissions (admissions_of_restates restates)⟩

end Body

theorem apply_present {c : NetworkConfig} {w w' : World} (hinactive : HasStatus "inactive" w.state_)
    (founds : Founds c w w') : w'.state_.isNull = false := by
  cases founds with
  | refused _ _ memory =>
    rcases memory with hsame | ⟨-, hafter⟩
    · exact HasStatus.present (hsame ▸ hinactive)
    · exact HasStatus.present hafter
  | founded _ _ memory _ => exact memory.present

/-- A construction that ran `apply`, and preserved everything before and after it. -/
def ThroughApply (w w' : World) : Prop :=
  ∃ c w₁ w₂, w₂ = (apply c w₁).2 ∧ HasStatus "inactive" w₁.state_ ∧
    Preserves (journal w) w w₁ ∧ Preserves w₂.state_ w₂ w'

theorem agree_initial (v : Value) : Agree v (initial v) := by
  unfold initial
  split
  · exact (Agree.refl _).set (by decide) _
  · exact Agree.refl _

theorem construct_starts {enabled : Bool} {w w₁ : World} (look : Looking (loading enabled w) w₁) :
    Preserves (journal w) w (withState w₁ (initial w₁.state_)) := by
  have hstate : w₁.state_ = journal w := look.state_
  have hjournal : journal w₁ = journal w := congrArg (Store.get · "network") look.store
  refine ⟨?_, ?_, ?_⟩
  · change Agree (journal w) (initial w₁.state_)
    rw [hstate]
    exact agree_initial _
  · change Agree (journal w) (journal w₁)
    rw [hjournal]
    exact Agree.refl _
  · change lastAdmitted w₁.log = lastAdmitted w.log
    rw [look.sameLog]
    rfl

theorem construct_restores {enabled : Bool} {w w₁ w₂ : World} {o : Outcome Exn Unit}
    (look : Looking (loading enabled w) w₁)
    (run : restore (withState w₁ (initial w₁.state_)) = (o, w₂)) :
    Preserves (journal w) w w₂ := by
  have hstart := construct_starts look
  have hlevel : Agree (journal (withState w₁ (initial w₁.state_))) (initial w₁.state_) := by
    have hstate : w₁.state_ = w.store.get "network" := look.state_
    change Agree (w₁.store.get "network") (initial w₁.state_)
    rw [hstate, look.store]
    exact agree_initial _
  exact hstart.trans (.restates (Agree.refl _) hlevel (restates_eq restates_restore run))

theorem construct_preserves {enabled : Bool} {w w' : World} {o : Outcome Exn Unit}
    (hjournals : Journals w.supply) (run : construct enabled w = (o, w')) :
    Preserves (journal w) w w' ∨ ThroughApply w w' := by
  have hrun := construct_run enabled w
  rw [run] at hrun
  cases hrun with
  | lockedOut look _ =>
    refine .inl ⟨?_, ?_, ?_⟩
    · exact (show w'.state_ = journal w from look.state_) ▸ Agree.refl _
    · exact (construct_starts look).journaled
    · exact (construct_starts look).latest
  | malformed look _ | idle look _ => exact .inl (construct_starts look)
  | unrestored look _ _ run₁ _ | restored look _ _ run₁ _ =>
    exact .inl (construct_restores look run₁)
  | @unapplied _ w₂ c _ _ look _ _ run₁ _ again _ =>
    refine .inr ⟨c, w₂, w', by rw [again], restore_returned_inactive run₁,
      construct_restores look run₁, .same rfl rfl rfl⟩
  | @reapplied w₁ w₂ c w₃ _ _ look _ _ run₁ _ again confirm =>
    have hinactive := restore_returned_inactive run₁
    have hstart : Journals w₁.supply := by
      have hloading : Journals (loading enabled w).supply := hjournals
      exact hloading.quiet look.toQuiet
    obtain ⟨hrest, hend⟩ := restore_levels (w := withState w₁ (initial w₁.state_)) hstart
      (fun hnone => absurd (restore_returned run₁) hnone) run₁
    have hlevel := (apply_levels hrest (hend (by simp)) again).2 (by simp)
    refine .inr ⟨c, w₂, w₃, by rw [again], hinactive, construct_restores look run₁, ?_⟩
    exact body_preserves .confirm rfl (fun c hc => by cases hc) hlevel
      (apply_present hinactive (apply_founds again)) confirm

/-- What one more call of a run does to the captures. -/
structure Keeps (n : Node) (event : Call × Supply) : Prop where
  running : event.1.starts = false →
    (∀ c, event.1 = .apply c → ¬ HasStatus "inactive" n.world.state_) →
    Preserves n.world.state_ n.world (n.step event).world
  applying : ∀ c, event.1 = .apply c → HasStatus "inactive" n.world.state_ →
    journal (n.step event).world = journal n.world ∧
        lastAdmitted (n.step event).world.log = lastAdmitted n.world.log ∨
      lastAdmitted (n.step event).world.log = some (c, n.world.kernel)
  starting : event.1.starts = true →
    Preserves (journal n.world) n.world (n.step event).world ∨
      ThroughApply (supplied n.world event.2) (n.step event).world

/-- What a restart needs of a state. -/
structure Recoverable (n : Node) : Prop where
  captured : ∀ v, v = n.world.state_ ∨ v = journal n.world → ¬ Resting v →
    ∃ c K, lastAdmitted n.world.log = some (c, K) ∧ Captured K c v ∧
      configFromJson (v.get "config") = .ok c
  present : n.alive = true → n.world.state_.isNull = false
  restores : ¬ Resting n.world.state_ → ∀ w o w', w.state_ = n.world.state_ →
    restore w = (o, w') → o ≠ .crashed → firstWriteFails w.supply = false →
    Attempted [.swapGuard] w w'

section Run
variable {fresh : Node} {calls : List (Call × Supply)}

theorem recoverable (hfresh : Fresh fresh) (hdurable : Durable calls) :
    Recoverable (fresh.run calls) := by
  obtain ⟨hbacked, -⟩ := current hfresh hdurable
  have founds : ∀ v, v = (fresh.run calls).world.state_ ∨ v = journal (fresh.run calls).world →
      Founded (fun x => lastAdmitted (fresh.run calls).world.log = some x) v := by
    rintro v (rfl | rfl)
    · exact hbacked.memory
    · exact hbacked.journaled
  refine ⟨fun v hv busy => ?_, present hfresh calls, ?_⟩
  · obtain ⟨c, K, hlast, hcaptured⟩ := (founds v hv).resolve_left busy
    exact ⟨c, K, hlast, hcaptured, hcaptured.readable⟩
  · intro busy w o w' hstate run ho hwrite
    obtain ⟨c, K, -, hcaptured⟩ := hbacked.memory.resolve_left busy
    have hreadable : configFromJson (w.state_.get "config") = .ok c := by
      rw [hstate]
      exact hcaptured.readable
    rcases restore_attempts run ho hreadable with ⟨-, hattempted, -⟩ | ⟨hfails, -, -⟩
    · obtain ⟨found, -, acts, hlog, hsteps⟩ := hattempted
      refine ⟨acts, hlog, fun step hstep => hsteps step ?_⟩
      rw [List.mem_singleton.mp hstep]
      simp [restorationSteps]
    · rw [hwrite] at hfails
      cases hfails

theorem keeps (hfresh : Fresh fresh) (hdurable : Durable calls) {event : Call × Supply}
    (hjournals : Journals event.2) : Keeps (fresh.run calls) event := by
  obtain ⟨-, hlevel⟩ := current hfresh hdurable
  refine ⟨fun hcall hexcept => ?_, fun c hc hinactive => ?_, fun hstarts => ?_⟩
  · cases halive : (fresh.run calls).alive with
    | false =>
      rw [step_dead hcall halive]
      exact .same rfl rfl rfl
    | true =>
      rw [step_live halive]
      have hpreserves :=
        body_preserves event.1 (w := supplied (fresh.run calls).world event.2) hcall
        hexcept ((hlevel halive).same rfl rfl) (present hfresh calls halive) rfl
      exact ⟨hpreserves.memory, hpreserves.journaled, hpreserves.latest⟩
  · obtain ⟨call, supply⟩ := event
    cases hc
    cases halive : (fresh.run calls).alive with
    | false =>
      rw [step_dead rfl halive]
      exact .inl ⟨rfl, rfl⟩
    | true =>
      rw [step_live halive]
      cases apply_founds (w := supplied (fresh.run calls).world supply) (c := c) rfl with
      | refused same journaled _ => exact .inl ⟨journaled, lastAdmitted_of_admissions same⟩
      | founded _ admitted _ _ => exact .inr (lastAdmitted_founded admitted)
  · obtain ⟨call, supply⟩ := event
    cases call with
    | construct enabled =>
      rw [Node.step_construct]
      rcases construct_preserves (w := supplied (fresh.run calls).world supply) hjournals rfl with
        hpreserves | hthrough
      · exact .inl ⟨hpreserves.memory, hpreserves.journaled, hpreserves.latest⟩
      · exact .inr hthrough
    | _ => cases hstarts

end Run

/-- Start from a host on which the daemon never ran and take any calls whose
journal writes succeed, cut anywhere and restarted at will. A state that is not
inactive, in memory or in the journal, names a configuration that is accepted
and holds what the most recent admitted `apply` captured from the kernel it
found; a rollback from it makes its first attempt once its journal write is
made. One more call replaces none of this unless it is an `apply` that finds
memory inactive, or the construction that makes such a call.

`Durable` leaves out the writes that are refused and those whose reply is lost.
With them `Admissions.grounded` is what remains: memory and journal hold what some
admission of the run captured, not always the most recent one. -/
theorem journal_invariant {fresh : Node} (hfresh : Fresh fresh) {calls : List (Call × Supply)}
    (hdurable : Durable calls) :
    Recoverable (fresh.run calls) ∧
      ∀ event : Call × Supply, Journals event.2 → Keeps (fresh.run calls) event :=
  ⟨recoverable hfresh hdurable, fun _ hjournals => keeps hfresh hdurable hjournals⟩

/-- A pending configuration: memory holds the capture, and a tick keeps it. -/
theorem journal_invariant_example :
    (∃ c K, lastAdmitted (exampleNode.run [(.construct true, answering),
        (.apply exampleConfig, answering)]).world.log = some (c, K) ∧
      Captured K c (exampleNode.run [(.construct true, answering),
        (.apply exampleConfig, answering)]).world.state_) ∧
    lastAdmitted ((exampleNode.run [(.construct true, answering),
        (.apply exampleConfig, answering)]).step (.tick, answering)).world.log =
      lastAdmitted (exampleNode.run [(.construct true, answering),
        (.apply exampleConfig, answering)]).world.log := by
  have hpending : HasStatus "awaiting_confirmation" (exampleNode.run [(.construct true, answering),
      (.apply exampleConfig, answering)]).world.state_ :=
    Value.eqString_iff.mp (by decide +kernel)
  obtain ⟨hrecoverable, hkeeps⟩ := @journal_invariant exampleNode exampleNode_fresh
    [(.construct true, answering), (.apply exampleConfig, answering)]
    (by simp [Durable, Journals, answering])
  refine ⟨?_, ?_⟩
  · obtain ⟨c, K, hlast, hcaptured, -⟩ :=
      hrecoverable.captured _ (.inl rfl) (not_resting hpending (by decide))
    exact ⟨c, K, hlast, hcaptured⟩
  · exact ((hkeeps (.tick, answering) (by simp [Journals, answering])).running rfl
      fun c hc => by cases hc).latest

end Magicbox.Guarantees.JournalInvariant
