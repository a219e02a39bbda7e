import Magicbox.Source.JournalWrites
import Magicbox.Source.Worker

/-!
# How a call changes the status

One list for all calls of a running controller: the status stays, a rollback
replaces it, `apply` installs from inactive, `confirm` confirms what is pending
in time. Nothing else happens to it, and the deadline changes only where a
configuration is installed.
-/

set_option autoImplicit false

namespace Magicbox.Source.StatusChanges
open Library.Crash Json Config ConfigJson Nftables Netns NetworkController Worker

/-- Every journal write of every call succeeds. -/
def Durable (calls : List (Call × Supply)) : Prop := ∀ event ∈ calls, Journals event.2

def HasStatus (s : String) (v : Value) : Prop := v.get "status" = .string s

theorem HasStatus.unique {s t : String} {v : Value} (h : HasStatus s v) (h' : HasStatus t v) :
    s = t := by
  have := h.symm.trans h'
  simpa using this

theorem HasStatus.present {s : String} {v : Value} (h : HasStatus s v) : v.isNull = false := by
  cases v with
  | null => cases h
  | _ => rfl

@[simp] theorem hasStatus_set (s t : String) (v : Value) :
    HasStatus s (v.set "status" (.string t)) ↔ t = s := by
  unfold HasStatus
  rw [Value.get_set_self]
  simp

theorem hasStatus_set_of_ne {s : String} {v : Value} (name : String) (hname : name ≠ "status")
    (x : Value) :
    HasStatus s (v.set name x) ↔ HasStatus s v := by
  unfold HasStatus
  rw [Value.get_set_of_ne _ hname]

/-- A rollback that had its journal writes ends in one of these. -/
def Settled (v : Value) : Prop := HasStatus "inactive" v ∨ HasStatus "rollback_failed" v

def RollingBack (v : Value) : Prop := HasStatus "rolling_back" v ∨ Settled v

theorem RollingBack.not {v : Value} (h : RollingBack v) {s : String}
    (hs : s = "awaiting_confirmation" ∨ s = "confirmed") : ¬ HasStatus s v := by
  intro h'
  rcases h with h | h | h <;> rcases hs with rfl | rfl <;> exact absurd (h.unique h') (by decide)

theorem settled_closing (errors : String) (w : World) : Settled (closing errors w).state_ := by
  change Settled ((w.state_.set "status"
    (.string (if errors.isEmpty then "inactive" else "rollback_failed"))).set "error" _)
  unfold Settled
  rw [hasStatus_set_of_ne "error" (by decide), hasStatus_set_of_ne "error" (by decide),
    hasStatus_set, hasStatus_set]
  split
  · exact .inl rfl
  · exact .inr rfl

/-! ## restore -/

/-- What a rollback that could read its configuration leaves. -/
structure RolledBack (o : Outcome Exn Unit) (w w' : World) : Prop where
  readable : ∃ c, configFromJson (w.state_.get "config") = .ok c
  status : RollingBack w'.state_
  settled : o ≠ .crashed → Journals w.supply → Settled w'.state_
  deadline_ : w'.deadline_ = w.deadline_
  enabled : w'.enabled = w.enabled

/-- A rollback that cannot read its configuration does nothing. -/
theorem restore_changes {w w' : World} {o : Outcome Exn Unit} (run : restore w = (o, w')) :
    (∃ e, configFromJson (w.state_.get "config") = .error e ∧ o = .threw e ∧ w' = w) ∨
      RolledBack o w w' := by
  have hrun := restore_run w
  rw [run] at hrun
  have steps : ∀ {c w₁ o₂ w₂}, putState (entering c w) = (.returned (), w₁) →
      rollBack c w₁ = (o₂, w₂) → HasStatus "rolling_back" w₂.state_ ∧
        (Journals w.supply → Journals w₂.supply) ∧ w₂.deadline_ = w.deadline_ ∧
        w₂.enabled = w.enabled := by
    intro c w₁ o₂ w₂ put roll
    have effect := putState_effect put
    have quiet := quiet_eq (quiet_rollBack c) roll
    refine ⟨?_, fun h => ?_, quiet.deadline_.trans effect.deadline_,
      quiet.enabled.trans effect.enabled⟩
    · rw [quiet.state_, effect.state_]
      exact Value.get_set_self _ _ _
    · exact (Journals.put (w := entering c w) h (putState_cases put)).1.quiet quiet
  cases hrun with
  | unreadable h => exact .inl ⟨_, h, rfl, rfl⟩
  | @unjournaled c _ _ h put ho =>
    have effect := putState_effect put
    refine .inr ⟨⟨_, h⟩, .inl ?_, fun hcrash hdone => ?_, effect.deadline_, effect.enabled⟩
    · rw [effect.state_]
      exact Value.get_set_self _ _ _
    · rcases (Journals.put (w := entering c w) hdone (putState_cases put)).2 with
        ⟨hret, -⟩ | ⟨hcut, -⟩
      · exact absurd hret ho
      · exact absurd hcut hcrash
  | cut h put roll =>
    obtain ⟨hs, -, hdeadline, henabled⟩ := steps put roll
    exact .inr ⟨⟨_, h⟩, .inl hs, fun hcrash => absurd rfl hcrash, hdeadline, henabled⟩
  | @unrecorded _ _ errors w₂ _ _ h put roll put' _ | @failed _ _ errors w₂ _ h put roll _ put' =>
    obtain ⟨-, -, hdeadline, henabled⟩ := steps put roll
    have effect := putState_effect put'
    have hsettled : Settled w'.state_ := effect.state_ ▸ settled_closing errors w₂
    exact .inr ⟨⟨_, h⟩, .inr hsettled, fun _ _ => hsettled, effect.deadline_.trans hdeadline,
      effect.enabled.trans henabled⟩
  | @restored _ _ w₂ w₃ h put roll put' =>
    obtain ⟨-, -, hdeadline, henabled⟩ := steps put roll
    have effect := putState_effect put'
    have hsettled : Settled w₃.state_ := effect.state_ ▸ settled_closing "" w₂
    exact .inr ⟨⟨_, h⟩, .inr hsettled, fun _ _ => hsettled, effect.deadline_.trans hdeadline,
      effect.enabled.trans henabled⟩

theorem restore_returned_inactive {w w' : World} (run : restore w = (.returned (), w')) :
    HasStatus "inactive" w'.state_ := by
  have hrun := restore_run w
  rw [run] at hrun
  cases hrun with
  | unjournaled _ _ ho => exact absurd rfl ho
  | unrecorded _ _ _ _ ho => exact absurd rfl ho
  | @restored _ _ w₂ w₃ _ _ _ put' =>
    have hstate : w₃.state_ = (closing "" w₂).state_ := (putState_effect put').state_
    change HasStatus "inactive" w₃.state_
    rw [hstate]
    exact (hasStatus_set_of_ne "error" (by decide) _).mpr (Value.get_set_self _ _ _)

/-! ## The list -/

inductive Moves (w : World) (call : Call) (w' : World) : Prop
  | stays (status : w'.state_.get "status" = w.state_.get "status")
    (deadline_ : w'.deadline_ = w.deadline_)
    (agree : ¬ HasStatus "inactive" w.state_ → Agree w.state_ w'.state_)
  | rollsBack (status : RollingBack w'.state_) (settled : Journals w.supply → Settled w'.state_)
    (readable : ∃ c, configFromJson (w'.state_.get "config") = .ok c)
  | prepares {c} (hcall : call = .apply c) (before : HasStatus "inactive" w.state_)
    (status : HasStatus "applying" w'.state_) (unwritten : ¬ Journals w.supply)
  | installs {c} (hcall : call = .apply c) (before : HasStatus "inactive" w.state_)
    (status : HasStatus "awaiting_confirmation" w'.state_)
    (deadline_ : w'.deadline_ = w'.clock + confirmationWindow)
    (config : w'.state_.get "config" = configJson c) (valid : validate c = [])
  | confirms {elapsed rest} (hcall : call = .confirm)
    (before : HasStatus "awaiting_confirmation" w.state_)
    (clock : w.supply.clock = elapsed :: rest) (inTime : w.clock + elapsed < w.deadline_)
    (status : HasStatus "confirmed" w'.state_) (deadline_ : w'.deadline_ = w.deadline_)
    (agree : Agree w.state_ w'.state_)

section Moves
variable {w w' : World} {call : Call}

theorem Moves.same (hstate : w'.state_ = w.state_) (hdeadline : w'.deadline_ = w.deadline_) :
    Moves w call w' :=
  .stays (by rw [hstate]) hdeadline fun _ => hstate ▸ Agree.refl _

/-- A rollback called from `w₁`, which is `w` up to clock and supply. -/
theorem restore_moves {w₁ : World} {o : Outcome Exn Unit} (run : restore w₁ = (o, w'))
    (ho : o ≠ .crashed) (hstate : w₁.state_ = w.state_) (hdeadline : w₁.deadline_ = w.deadline_)
    (hputs : w₁.supply.puts = w.supply.puts) : Moves w call w' := by
  rcases restore_changes run with ⟨e, -, -, rfl⟩ | rolled
  · exact .same hstate hdeadline
  · obtain ⟨c, hc⟩ := rolled.readable
    refine .rollsBack rolled.status (fun h => rolled.settled ho ?_) ⟨c, ?_⟩
    · unfold Journals at h ⊢
      rwa [hputs]
    · rw [(restates_eq restates_restore run).memory "config" (by decide)]
      exact hc

theorem tick_moves {o : Outcome Exn Unit} (run : tick w = (o, w')) (ho : o ≠ .crashed) :
    Moves w call w' := by
  have hrun := tick_run w
  rw [run] at hrun
  cases hrun with
  | idle _ => exact .same rfl rfl
  | unclocked _ _ => exact absurd rfl ho
  | early _ _ _ => exact .same rfl rfl
  | expired _ _ _ run => exact restore_moves run ho rfl rfl rfl

theorem rollback_moves {w₁ : World} {o : Outcome Exn Unit} (run : rollback w₁ = (o, w'))
    (ho : o ≠ .crashed) (hstate : w₁.state_ = w.state_) (hdeadline : w₁.deadline_ = w.deadline_)
    (hputs : w₁.supply.puts = w.supply.puts) : Moves w call w' := by
  have hrun := rollback_run w₁
  rw [run] at hrun
  cases hrun with
  | disabled _ => exact .same hstate hdeadline
  | inactive _ => exact .same hstate hdeadline
  | run _ _ run => exact restore_moves run ho hstate hdeadline hputs

theorem state_moves {o : Outcome Exn Value} (run : state w = (o, w')) : Moves w call w' := by
  have hrun := state_run w
  rw [run] at hrun
  cases hrun with
  | plain _ _ => exact .same rfl rfl
  | unclocked _ _ => exact .same rfl rfl
  | timed _ _ _ => exact .same rfl rfl

theorem shutdown_moves {o : Outcome Exn Unit} (run : Worker.shutdown w = (o, w'))
    (ho : o ≠ .crashed) : Moves w call w' := by
  have hrun := shutdown_run w
  rw [run] at hrun
  cases hrun with
  | idle _ => exact .same rfl rfl
  | unclocked _ _ => exact absurd rfl ho
  | rolled _ _ run => exact rollback_moves run ho rfl rfl rfl

theorem confirm_moves {o : Outcome Exn Unit} (run : confirm w = (o, w')) (ho : o ≠ .crashed) :
    Moves w .confirm w' := by
  have hrun := confirm_run w
  rw [run] at hrun
  cases hrun with
  | disabled _ => exact .same rfl rfl
  | unticked tick _ => exact tick_moves tick ho
  | nothing tick _ => exact tick_moves tick (by simp)
  | put enabled tick pending put =>
    have effect := putState_effect put
    have htick := tick_run w
    rw [tick] at htick
    cases htick with
    | idle h => exact absurd ⟨enabled, pending⟩ h
    | early h clock inTime =>
      refine .confirms rfl h.2 clock inTime ?_ effect.deadline_ ?_
      · rw [effect.state_]
        exact Value.get_set_self _ _ _
      · rw [effect.state_]
        exact (Agree.refl _).set (by decide) _
    | expired _ _ _ run =>
      rcases restore_changes run with ⟨e, -, ho, -⟩ | rolled
      · cases ho
      · exact absurd pending (rolled.status.not (.inl rfl))

/-- What a write-ahead that went through leaves in memory. -/
theorem writeAhead_returned {c : NetworkConfig} {baseline : Value}
    (run : writeAhead c baseline w = (.returned (), w')) :
    HasStatus "applying" w'.state_ ∧ w'.state_.get "config" = configJson c ∧
      (Journals w.supply → Journals w'.supply) := by
  have hrun := writeAhead_run c baseline w
  rw [run] at hrun
  cases hrun with
  | unread _ _ ho => exact absurd rfl ho
  | @put w₁ _ _ look put =>
    rw [(putState_effect put).state_]
    refine ⟨Value.get_set_self _ _ _, ?_, fun h => ?_⟩
    · change (applying c baseline w₁.kernel w₁.state_).get "config" = configJson c
      rw [applying, Value.get_set_of_ne _ (by decide), Value.get_set_of_ne _ (by decide),
        Value.get_set_of_ne _ (by decide), drafted, Value.get_set_of_ne _ (by decide),
        Value.get_set_self]
    · have hw₁ : Journals w₁.supply := h.quiet look.toQuiet
      exact (Journals.put (w := admitting c baseline w₁) hw₁ (putState_cases put)).1

/-- What a write-ahead that threw leaves: the status of before, or a write that failed. -/
theorem writeAhead_threw {c : NetworkConfig} {baseline : Value} {e : Exn}
    (run : writeAhead c baseline w = (.threw e, w')) :
    w'.deadline_ = w.deadline_ ∧ (w'.state_.get "status" = w.state_.get "status" ∨
      HasStatus "applying" w'.state_ ∧ ¬ Journals w.supply) := by
  have hrun := writeAhead_run c baseline w
  rw [run] at hrun
  cases hrun with
  | @unread _ w₁ draft look hdraft _ =>
    refine ⟨look.deadline_, .inl ?_⟩
    change draft.get "status" = w.state_.get "status"
    rcases hdraft with rfl | rfl
    · rw [drafted, Value.get_set_of_ne _ (by decide), Value.get_set_of_ne _ (by decide)]
    · rw [Value.get_set_of_ne _ (by decide), drafted, Value.get_set_of_ne _ (by decide),
        Value.get_set_of_ne _ (by decide)]
  | @put w₁ _ _ look put =>
    have effect := putState_effect put
    refine ⟨effect.deadline_.trans look.deadline_, .inr ⟨?_, fun h => ?_⟩⟩
    · rw [effect.state_]
      exact Value.get_set_self _ _ _
    · have hw₁ : Journals w₁.supply := h.quiet look.toQuiet
      rcases (Journals.put (w := admitting c baseline w₁) hw₁ (putState_cases put)).2 with
        ⟨ho, -⟩ | ⟨ho, -⟩ <;> cases ho

theorem activate_journals {c : NetworkConfig} {o : Outcome Exn Unit}
    (run : activate c w = (o, w')) (h : Journals w.supply) : Journals w'.supply := by
  have hrun := activate_run c w
  rw [run] at hrun
  cases hrun with
  | uninstalled inst _ => exact h.quiet (quiet_eq (quiet_install c) inst)
  | @unclocked w₁ inst _ =>
    have hw₁ : Journals w₁.supply := h.quiet (quiet_eq (quiet_install c) inst)
    exact hw₁
  | @put w₁ elapsed rest _ _ inst _ put =>
    have hw₁ : Journals w₁.supply := h.quiet (quiet_eq (quiet_install c) inst)
    exact (Journals.put (w := awaiting elapsed rest w₁) hw₁ (putState_cases put)).1

theorem activate_returned {c : NetworkConfig} (run : activate c w = (.returned (), w')) :
    HasStatus "awaiting_confirmation" w'.state_ ∧
      w'.deadline_ = w'.clock + confirmationWindow := by
  have hrun := activate_run c w
  rw [run] at hrun
  cases hrun with
  | uninstalled _ ho => exact absurd rfl ho
  | put _ _ put =>
    have effect := putState_effect put
    rw [effect.state_, effect.deadline_, effect.clock]
    exact ⟨Value.get_set_self _ _ _, rfl⟩

theorem apply_moves {c : NetworkConfig} {o : Outcome Exn Unit} (run : apply c w = (o, w'))
    (ho : o ≠ .crashed) : Moves w (.apply c) w' := by
  have hrun := apply_run c w
  rw [run] at hrun
  have config : ∀ {baseline w₁ w₂ o₁ w₃}, writeAhead c baseline w₁ = (.returned (), w₂) →
      activate c w₂ = (o₁, w₃) → w₃.state_.get "config" = configJson c := by
    intro baseline w₁ w₂ o₁ w₃ ahead act
    rw [(restates_eq (restates_activate c) act).memory "config" (by decide)]
    exact (writeAhead_returned ahead).2.1
  cases hrun with
  | rejected look _ => exact .same look.state_ look.deadline_
  | @unjournaled _ w₁ _ _ look adm ahead hne =>
    cases o with
    | returned => exact absurd rfl hne
    | crashed => exact absurd rfl ho
    | threw e =>
      obtain ⟨hdeadline, hstatus⟩ := writeAhead_threw ahead
      rcases hstatus with hstatus | ⟨hstatus, hputs⟩
      · rw [look.state_] at hstatus
        exact .stays hstatus (hdeadline.trans look.deadline_)
          fun hinactive => absurd adm.inactive hinactive
      · exact .prepares rfl adm.inactive hstatus fun h => hputs (h.quiet look.toQuiet)
  | pending look adm ahead act =>
    obtain ⟨hstatus, hdeadline⟩ := activate_returned act
    exact .installs rfl adm.inactive hstatus hdeadline (config ahead act) adm.valid
  | cut _ _ _ _ => exact absurd rfl ho
  | @undone _ _ _ _ _ o₁ _ look adm ahead act undo =>
    have hread : configFromJson (w'.state_.get "config") = .ok c := by
      rw [(restates_eq restates_restore undo).memory "config" (by decide), config ahead act]
      exact configFromJson_configJson adm.valid
    rcases restore_changes undo with ⟨e, he, -, rfl⟩ | rolled
    · rw [hread] at he
      cases he
    · refine .rollsBack rolled.status (fun h => rolled.settled (fun hcut => ho ?_) ?_) ⟨c, hread⟩
      · rw [hcut]
      · exact activate_journals act ((writeAhead_returned ahead).2.2 (h.quiet look.toQuiet))

/-- The list holds of every call of a running controller that is not cut. -/
theorem body_moves (hcall : call.starts = false) {o : Outcome Exn Unit}
    (run : call.body w = (o, w')) (ho : o ≠ .crashed) : Moves w call w' := by
  cases call with
  | construct _ => cases hcall
  | apply c => exact apply_moves run ho
  | confirm => exact confirm_moves run ho
  | rollback => exact rollback_moves run ho rfl rfl rfl
  | tick => exact tick_moves run ho
  | shutdown => exact shutdown_moves run ho
  | state =>
    rcases hstate : NetworkController.state w with ⟨v | e | _, w₁⟩
    · rw [show Call.body .state w = (.returned (), w₁) from bind_returned hstate] at run
      cases run
      exact state_moves hstate
    · rw [show Call.body .state w = (.threw e, w₁) from bind_threw hstate] at run
      cases run
      exact state_moves hstate
    · rw [show Call.body .state w = (.crashed, w₁) from bind_crashed hstate] at run
      cases run
      exact absurd rfl ho

end Moves

theorem apply_enabled {c : NetworkConfig} {w w' : World} {o : Outcome Exn Unit}
    (run : apply c w = (o, w')) : w'.enabled = w.enabled := by
  have hrun := apply_run c w
  rw [run] at hrun
  have ahead : ∀ {baseline w₁ o₁ w₂}, writeAhead c baseline w₁ = (o₁, w₂) →
      w₂.enabled = w₁.enabled := by
    intro baseline w₁ o₁ w₂ ahead
    have hahead := writeAhead_run c baseline w₁
    rw [ahead] at hahead
    cases hahead with
    | unread look _ _ => exact look.enabled
    | put look put => exact (putState_effect put).enabled.trans look.enabled
  have act : ∀ {w₁ o₁ w₂}, activate c w₁ = (o₁, w₂) → w₂.enabled = w₁.enabled := fun run₁ =>
    (restates_eq (restates_activate c) run₁).enabled
  cases hrun with
  | rejected look _ => exact look.enabled
  | unjournaled look _ run₁ _ => exact (ahead run₁).trans look.enabled
  | pending look _ run₁ run₂ | cut look _ run₁ run₂ =>
    exact (act run₂).trans ((ahead run₁).trans look.enabled)
  | undone look _ run₁ run₂ run₃ =>
    exact (restates_eq restates_restore run₃).enabled.trans
      ((act run₂).trans ((ahead run₁).trans look.enabled))

theorem restates_shutdown : Within Restates Worker.shutdown := by
  refine restates_bind restates_state fun _ => ?_
  split
  · exact restates_rollback
  · exact restates_of_looking (looking_pure _)

/-- Every call of a running controller but `apply` restates. -/
theorem body_restates {call : Call} (hcall : call.starts = false)
    (happly : ∀ c, call ≠ .apply c) : Within Restates call.body := by
  cases call with
  | construct _ => cases hcall
  | apply c => exact absurd rfl (happly c)
  | confirm => exact restates_confirm
  | rollback => exact restates_rollback
  | tick => exact restates_tick
  | shutdown => exact restates_shutdown
  | state => exact restates_bind restates_state fun _ => restates_of_looking (looking_pure _)

theorem body_enabled {call : Call} (hcall : call.starts = false) {w w' : World}
    {o : Outcome Exn Unit} (run : call.body w = (o, w')) : w'.enabled = w.enabled := by
  by_cases happly : ∃ c, call = .apply c
  · obtain ⟨c, rfl⟩ := happly
    exact apply_enabled run
  · exact (restates_eq (body_restates hcall fun c hc => happly ⟨c, hc⟩) run).enabled

/-! ## Who confirms -/

/-- Neither memory nor journal turns confirmed. -/
def Unconfirming (w w' : World) : Prop :=
  (HasStatus "confirmed" w'.state_ → HasStatus "confirmed" w.state_) ∧
    (HasStatus "confirmed" (journal w') → HasStatus "confirmed" (journal w))

theorem Unconfirming.trans {w₁ w₂ w₃ : World} (h : Unconfirming w₁ w₂) (h' : Unconfirming w₂ w₃) :
    Unconfirming w₁ w₃ :=
  ⟨h.1 ∘ h'.1, h.2 ∘ h'.2⟩

theorem Unconfirming.quiet {w w' : World} (quiet : Quiet w w') : Unconfirming w w' := by
  have hstore : journal w' = journal w := congrArg (Store.get · "network") quiet.store
  unfold Unconfirming
  rw [quiet.state_, hstore]
  exact ⟨id, id⟩

/-- A write of a state that is not confirmed. -/
theorem Unconfirming.put {w w₁ w' : World} {o : Outcome Exn Unit} (put : putState w₁ = (o, w'))
    (hstate : ¬ HasStatus "confirmed" w₁.state_) (hjournal : journal w₁ = journal w) :
    Unconfirming w w' := by
  have effect := putState_effect put
  refine ⟨fun h => absurd (effect.state_ ▸ h) hstate, fun h => ?_⟩
  rcases effect.store with hs | hs
  · rwa [← hjournal, ← hs]
  · rw [hs] at h
    exact absurd h hstate

theorem not_confirmed_of {s : String} {v : Value} (h : HasStatus s v) (hs : s ≠ "confirmed") :
    ¬ HasStatus "confirmed" v :=
  fun h' => hs (h.unique h')

theorem restore_unconfirming {w w' : World} {o : Outcome Exn Unit} (run : restore w = (o, w')) :
    Unconfirming w w' := by
  have hrun := restore_run w
  rw [run] at hrun
  have entry : ∀ {c o₁ w₁}, putState (entering c w) = (o₁, w₁) → Unconfirming w w₁ := fun put =>
    .put put (not_confirmed_of (Value.get_set_self _ _ _) (by decide)) rfl
  have closes : ∀ {errors o₂ w₂ w₃}, putState (closing errors w₂) = (o₂, w₃) →
      Unconfirming w₂ w₃ := fun put =>
    .put put (RollingBack.not (.inr (settled_closing _ _)) (.inr rfl)) rfl
  have steps : ∀ {c o₂ w₁ w₂}, rollBack c w₁ = (o₂, w₂) → Unconfirming w₁ w₂ := fun roll =>
    .quiet (quiet_eq (quiet_rollBack _) roll)
  cases hrun with
  | unreadable _ => exact ⟨id, id⟩
  | unjournaled _ put _ => exact entry put
  | cut _ put roll => exact (entry put).trans (steps roll)
  | unrecorded _ put roll put' _ | failed _ put roll _ put' =>
    exact ((entry put).trans (steps roll)).trans (closes put')
  | restored _ put roll put' =>
    have hend := ((entry put).trans (steps roll)).trans (closes put')
    exact hend

theorem writeAhead_unconfirming {c : NetworkConfig} {baseline : Value} {w w' : World}
    {o : Outcome Exn Unit} (run : writeAhead c baseline w = (o, w')) : Unconfirming w w' := by
  have hrun := writeAhead_run c baseline w
  rw [run] at hrun
  cases hrun with
  | @unread _ w₁ draft look hdraft _ =>
    have hstatus : draft.get "status" = w.state_.get "status" := by
      rcases hdraft with rfl | rfl
      · rw [drafted, Value.get_set_of_ne _ (by decide), Value.get_set_of_ne _ (by decide)]
      · rw [Value.get_set_of_ne _ (by decide), drafted, Value.get_set_of_ne _ (by decide),
          Value.get_set_of_ne _ (by decide)]
    refine ⟨fun h => hstatus.symm.trans h, fun h => ?_⟩
    exact (Unconfirming.quiet look.toQuiet).2 h
  | put look put =>
    exact (Unconfirming.quiet look.toQuiet).trans
      (.put put (not_confirmed_of (Value.get_set_self _ _ _) (by decide)) rfl)

theorem activate_unconfirming {c : NetworkConfig} {w w' : World} {o : Outcome Exn Unit}
    (run : activate c w = (o, w')) : Unconfirming w w' := by
  have hrun := activate_run c w
  rw [run] at hrun
  have installed : ∀ {o₁ w₁}, install c w = (o₁, w₁) → Unconfirming w w₁ := fun inst =>
    .quiet (quiet_eq (quiet_install c) inst)
  have pending : ∀ v : Value,
      ¬ HasStatus "confirmed" (v.set "status" (.string "awaiting_confirmation")) := fun v =>
    not_confirmed_of (Value.get_set_self _ _ _) (by decide)
  cases hrun with
  | uninstalled inst _ => exact installed inst
  | unclocked inst _ => exact ⟨fun h => absurd h (pending _), (installed inst).2⟩
  | put inst _ put => exact (installed inst).trans (.put put (pending _) rfl)

theorem apply_unconfirming {c : NetworkConfig} {w w' : World} {o : Outcome Exn Unit}
    (run : apply c w = (o, w')) : Unconfirming w w' := by
  have hrun := apply_run c w
  rw [run] at hrun
  have looks : ∀ {w₁}, Looking w w₁ → Unconfirming w w₁ := fun look => .quiet look.toQuiet
  cases hrun with
  | rejected look _ => exact looks look
  | unjournaled look _ ahead _ => exact (looks look).trans (writeAhead_unconfirming ahead)
  | pending look _ ahead act | cut look _ ahead act =>
    exact ((looks look).trans (writeAhead_unconfirming ahead)).trans (activate_unconfirming act)
  | undone look _ ahead act undo =>
    exact (((looks look).trans (writeAhead_unconfirming ahead)).trans
      (activate_unconfirming act)).trans (restore_unconfirming undo)

theorem tick_unconfirming {w w' : World} {o : Outcome Exn Unit} (run : tick w = (o, w')) :
    Unconfirming w w' := by
  have hrun := tick_run w
  rw [run] at hrun
  cases hrun with
  | idle _ | unclocked _ _ | early _ _ _ => exact ⟨id, id⟩
  | expired _ _ _ run =>
    have hend := restore_unconfirming run
    exact hend

theorem rollback_unconfirming {w w' : World} {o : Outcome Exn Unit} (run : rollback w = (o, w')) :
    Unconfirming w w' := by
  have hrun := rollback_run w
  rw [run] at hrun
  cases hrun with
  | disabled _ | inactive _ => exact ⟨id, id⟩
  | run _ _ run => exact restore_unconfirming run

/-- A `confirm` of a pending configuration whose clock reading comes before the deadline. -/
def InTime (supply : Supply) (w : World) : Prop :=
  HasStatus "awaiting_confirmation" w.state_ ∧
    ∃ elapsed rest, supply.clock = elapsed :: rest ∧ w.clock + elapsed < w.deadline_

theorem confirm_unconfirming {w w' : World} {o : Outcome Exn Unit} (run : confirm w = (o, w')) :
    Unconfirming w w' ∨ InTime w.supply w := by
  have hrun := confirm_run w
  rw [run] at hrun
  cases hrun with
  | disabled _ => exact .inl ⟨id, id⟩
  | unticked tick _ | nothing tick _ => exact .inl (tick_unconfirming tick)
  | put enabled tick pending put =>
    have htick := tick_run w
    rw [tick] at htick
    cases htick with
    | idle h => exact absurd ⟨enabled, pending⟩ h
    | early h clock inTime => exact .inr ⟨h.2, _, _, clock, inTime⟩
    | expired _ _ _ run =>
      rcases restore_changes run with ⟨e, -, ho, -⟩ | rolled
      · cases ho
      · exact absurd pending (rolled.status.not (.inl rfl))

/-- A call of `state` reads the clock at most. -/
theorem stateCall_leaves {w w' : World} {o : Outcome Exn Unit}
    (run : Call.body .state w = (o, w')) :
    w' = w ∨ ∃ elapsed rest, w' = advanced elapsed rest w := by
  have hbody : (Call.body .state w).2 = (NetworkController.state w).2 := by
    simp only [Call.body]
    rw [bind_run]
    rcases NetworkController.state w with ⟨v | e | _, w₁⟩ <;> rfl
  rw [run] at hbody
  change w' = (NetworkController.state w).2 at hbody
  have hstate := state_run w
  rw [hbody]
  generalize NetworkController.state w = ending at hstate ⊢
  obtain ⟨o', w₁⟩ := ending
  cases hstate with
  | plain _ _ | unclocked _ _ => exact .inl rfl
  | timed _ _ _ => exact .inr ⟨_, _, rfl⟩

/-- Only a `confirm` in time turns anything confirmed, wherever the call is cut. -/
theorem body_unconfirming {call : Call} (hcall : call.starts = false) {w w' : World}
    {o : Outcome Exn Unit} (run : call.body w = (o, w')) :
    Unconfirming w w' ∨ call = .confirm ∧ InTime w.supply w := by
  cases call with
  | construct _ => cases hcall
  | apply c => exact .inl (apply_unconfirming run)
  | confirm => exact (confirm_unconfirming run).imp_right fun h => ⟨rfl, h⟩
  | rollback => exact .inl (rollback_unconfirming run)
  | tick => exact .inl (tick_unconfirming run)
  | shutdown =>
    have hrun := shutdown_run w
    rw [show Worker.shutdown w = (o, w') from run] at hrun
    cases hrun with
    | idle _ | unclocked _ _ => exact .inl ⟨id, id⟩
    | rolled _ _ run =>
      have hend := rollback_unconfirming run
      exact .inl hend
  | state =>
    rcases stateCall_leaves run with rfl | ⟨elapsed, rest, rfl⟩ <;> exact .inl ⟨id, id⟩

/-! ## One step -/

section Step
variable {n : Node} {event : Call × Supply}

theorem step_moves (hcall : event.1.starts = false) (h : (n.step event).alive = true) :
    Moves (supplied n.world event.2) event.1 (n.step event).world := by
  have halive := alive_of_step hcall h
  rw [step_live halive] at h ⊢
  rcases hrun : event.1.body (supplied n.world event.2) with ⟨o, w'⟩
  rw [hrun] at h
  refine body_moves hcall hrun fun hcut => ?_
  subst hcut
  cases event.1 <;> cases h

theorem step_enabled (hcall : event.1.starts = false) :
    (n.step event).world.enabled = n.world.enabled := by
  cases hn : n.alive with
  | false => rw [step_dead hcall hn]
  | true =>
    rw [step_live hn]
    have henabled := body_enabled (w := supplied n.world event.2) hcall rfl
    exact henabled

theorem step_unconfirming (hcall : event.1.starts = false) :
    Unconfirming n.world (n.step event).world ∨
      event.1 = .confirm ∧ InTime event.2 n.world ∧ n.alive = true := by
  cases hn : n.alive with
  | false =>
    rw [step_dead hcall hn]
    exact .inl ⟨id, id⟩
  | true =>
    rw [step_live hn]
    rcases body_unconfirming (w := supplied n.world event.2) hcall rfl with h | ⟨hconfirm, h⟩
    · exact .inl h
    · exact .inr ⟨hconfirm, h, rfl⟩

end Step

end Magicbox.Source.StatusChanges
