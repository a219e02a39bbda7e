import Magicbox.Source.RestorationSteps

/-!
# What a call records

The log tells whether a call asked the kernel for anything, and whether it began
a rollback and with which answers ahead. An `apply` that throws either did
neither, or did both.
-/

set_option autoImplicit false

namespace Magicbox.Source.CallRecords
open Library.Crash Json Config ConfigJson Nftables Netns NetworkController StatusChanges
  RestorationSteps

def isRequest : Act → Bool
  | .requested _ _ => true
  | .admitted _ _ | .restoring _ _ _ | .attempted _ | .lookedUp _ _ _ | .restored _
  | .journaled _ _ => false

/-- The kernel requests so far. -/
def asked (w : World) : List Act := w.log.filter isRequest

/-- A rollback that has read its configuration: which one, and the answers it is about to use. -/
def beginning : Act → Option (NetworkConfig × Kernel × Supply)
  | .restoring c kernel supply => some (c, kernel, supply)
  | .admitted _ _ | .attempted _ | .lookedUp _ _ _ | .restored _ | .requested _ _
  | .journaled _ _ => none

/-- The rollbacks begun so far. -/
def rollbacks (w : World) : List (NetworkConfig × Kernel × Supply) := w.log.filterMap beginning

section Records
variable {w w' : World} {o : Outcome Exn Unit}

theorem rollbacks_quiet (quiet : Quiet w w') : rollbacks w' = rollbacks w := by
  obtain ⟨acts, hlog, hside⟩ := quiet.log
  have hnone : acts.filterMap beginning = [] := by
    refine List.filterMap_eq_nil_iff.mpr fun a ha => ?_
    have := hside a ha
    cases a <;> first | rfl | cases this
  rw [rollbacks, hlog, List.filterMap_append, hnone, List.append_nil]
  rfl

theorem asked_grows (h : Grows w w') : ∃ more, asked w' = asked w ++ more := by
  obtain ⟨acts, hlog⟩ := h
  exact ⟨acts.filter isRequest, by rw [asked, hlog, List.filter_append]; rfl⟩

theorem asked_looking (look : Looking w w') : asked w' = asked w := by
  rw [asked, look.sameLog]
  rfl

/-- A journal write records neither. -/
theorem records_put (put : putState w = (o, w')) :
    rollbacks w' = rollbacks w ∧ asked w' = asked w := by
  obtain ⟨acts, hlog, hall⟩ := (putState_effect put).log
  have hbegun : acts.filterMap beginning = [] := by
    refine List.filterMap_eq_nil_iff.mpr fun a ha => ?_
    obtain ⟨answer, rfl⟩ := hall a ha
    rfl
  have hasked : acts.filter isRequest = [] := by
    refine List.filter_eq_nil_iff.mpr fun a ha => ?_
    obtain ⟨answer, rfl⟩ := hall a ha
    simp [isRequest]
  rw [rollbacks, asked, hlog, List.filterMap_append, List.filter_append, hbegun, hasked,
    List.append_nil, List.append_nil]
  exact ⟨rfl, rfl⟩

end Records

/-! ## A rollback -/

section Restore
variable {c : NetworkConfig} {w w' : World} {o : Outcome Exn Unit}

theorem rollbacks_entering (c : NetworkConfig) (w : World) :
    rollbacks (entering c w) = rollbacks w ++ [(c, w.kernel, w.supply)] := by
  change (w.log ++ [Act.restoring c w.kernel w.supply]).filterMap beginning = _
  rw [List.filterMap_append]
  rfl

/-- A rollback begins once. -/
theorem rollbacks_restore (run : restore w = (o, w'))
    (hc : configFromJson (w.state_.get "config") = .ok c) :
    rollbacks w' = rollbacks w ++ [(c, w.kernel, w.supply)] := by
  have hrun := restore_run w
  rw [run] at hrun
  have same : ∀ {c'}, configFromJson (w.state_.get "config") = .ok c' → c' = c := fun hc' =>
    Except.ok.inj (hc'.symm.trans hc)
  have entered : ∀ {o₁ w₁}, putState (entering c w) = (o₁, w₁) →
      rollbacks w₁ = rollbacks w ++ [(c, w.kernel, w.supply)] := fun put => by
    rw [(records_put put).1, rollbacks_entering]
  have rolled : ∀ {w₁ o₂ w₂}, putState (entering c w) = (.returned (), w₁) →
      rollBack c w₁ = (o₂, w₂) →
      rollbacks w₂ = rollbacks w ++ [(c, w.kernel, w.supply)] := fun put roll => by
    rw [rollbacks_quiet (quiet_eq (quiet_rollBack c) roll), entered put]
  have closed : ∀ {w₁ errors w₂ o₃ w₃}, putState (entering c w) = (.returned (), w₁) →
      rollBack c w₁ = (.returned errors, w₂) → putState (closing errors w₂) = (o₃, w₃) →
      rollbacks w₃ = rollbacks w ++ [(c, w.kernel, w.supply)] := by
    intro w₁ errors w₂ o₃ w₃ put roll put'
    have hbefore := rolled put roll
    have hclosing : rollbacks (closing errors w₂) = rollbacks w₂ := rfl
    rw [(records_put put').1, hclosing, hbefore]
  cases hrun with
  | unreadable he => cases hc.symm.trans he
  | unjournaled hc' put _ =>
    obtain rfl := same hc'
    exact entered put
  | cut hc' put roll =>
    obtain rfl := same hc'
    exact rolled put roll
  | unrecorded hc' put roll put' _ | failed hc' put roll _ put' =>
    obtain rfl := same hc'
    exact closed put roll put'
  | @restored _ _ _ w₃ hc' put roll put' =>
    obtain rfl := same hc'
    rw [← closed put roll put']
    change (w₃.log ++ [Act.restored w₃.kernel]).filterMap beginning = _
    rw [List.filterMap_append]
    exact List.append_nil _

theorem restore_grows (run : restore w = (o, w'))
    (hc : configFromJson (w.state_.get "config") = .ok c) : Grows (entering c w) w' := by
  unfold restore member at run
  rw [bind_returned (read_run _ w), hc, bind_returned (liftExcept_ok c w)] at run
  have hrest : ∀ errors, Within Grows (if errors.isEmpty then noteRestored
      else raise (.runtimeError errors)) := fun errors => by
    split
    · exact lenient_grows.note _
    · exact lenient_grows.looking (looking_raise _)
  have hbody := lenient_grows.bind lenient_grows.putState fun _ => lenient_grows.bind
    (grows_of_quiet (quiet_rollBack c)) fun errors => lenient_grows.bind
      (lenient_grows.assign "status"
        (.string (if errors.isEmpty then "inactive" else "rollback_failed"))) fun _ =>
      lenient_grows.bind (lenient_grows.assign "error" (.string errors)) fun _ =>
        lenient_grows.bind lenient_grows.putState fun _ => hrest errors
  exact grows_eq hbody (w := entering c w) run

/-- What was logged since the last rollback began. -/
def sinceRollback (w : World) : List Act :=
  (w.log.reverse.takeWhile fun a => (beginning a).isNone).reverse

theorem sinceRollback_eq {earlier acts : List Act} {x : Act} (hx : (beginning x).isSome)
    (hlog : w.log = earlier ++ x :: acts) (hnone : acts.filterMap beginning = []) :
    sinceRollback w = acts := by
  have hall : ∀ a ∈ acts.reverse, (beginning a).isNone = true := fun a ha => by
    rw [List.filterMap_eq_nil_iff.mp hnone a (List.mem_reverse.mp ha)]
    rfl
  have hx' : (beginning x).isNone = false := by
    rwa [← Option.not_isSome, Bool.not_eq_false']
  rw [sinceRollback, hlog, List.reverse_append, List.reverse_cons, List.append_assoc,
    List.takeWhile_append_of_pos hall]
  simp [hx']

/-- The acts of a rollback are what it logged after its beginning. -/
theorem sinceRollback_restore (run : restore w = (o, w'))
    (hc : configFromJson (w.state_.get "config") = .ok c) :
    w'.log = w.log ++ .restoring c w.kernel w.supply :: sinceRollback w' := by
  obtain ⟨acts, hlog⟩ := restore_grows run hc
  have hlog' : w'.log = w.log ++ .restoring c w.kernel w.supply :: acts := by
    rw [hlog]
    exact List.append_assoc _ _ _
  have hnone : acts.filterMap beginning = [] := by
    have hbegun := rollbacks_restore run hc
    rw [rollbacks, hlog', List.filterMap_append, List.filterMap_cons] at hbegun
    simpa [beginning, rollbacks] using hbegun
  rw [sinceRollback_eq rfl hlog' hnone]
  exact hlog'

/-- A rollback that was not cut and whose first journal write did not fail reports how it ended. -/
theorem restore_settles (run : restore w = (o, w')) (ho : o ≠ .crashed)
    (hc : configFromJson (w.state_.get "config") = .ok c)
    (hwrite : firstWriteFails w.supply = false) : Settled w'.state_ := by
  have hrun := restore_run w
  rw [run] at hrun
  cases hrun with
  | unreadable he => cases hc.symm.trans he
  | unjournaled hc' put hne =>
    have hfails : firstWriteFails w.supply = true ∨ o = .crashed := by
      cases putState_cases put with
      | cut _ => exact .inr rfl
      | done _ => exact absurd rfl hne
      | @refused what rest h | @lost what rest h =>
        have hputs : w.supply.puts = _ := h
        exact .inl (by simp [firstWriteFails, hputs])
    rcases hfails with hfails | hcut
    · rw [hwrite] at hfails
      cases hfails
    · exact absurd hcut ho
  | cut _ _ _ => exact absurd rfl ho
  | unrecorded _ _ _ put' _ | failed _ _ _ _ put' =>
    rw [(putState_effect put').state_]
    exact settled_closing _ _
  | @restored _ _ _ w₃ _ _ _ put' =>
    change Settled w₃.state_
    rw [(putState_effect put').state_]
    exact settled_closing _ _

end Restore

/-! ## An installation -/

/-- A run that is not cut asks the kernel for something. -/
def Asks {α : Type} (m : Controller α) : Prop :=
  ∀ w, (m w).1 ≠ .crashed → ∃ a more, asked (m w).2 = asked w ++ a :: more

section Asks
variable {α β : Type}

theorem asks_bind {m : Controller α} {f : α → Controller β} (hm : Asks m)
    (hf : ∀ a, Within Quiet (f a)) : Asks (m >>= f) := by
  intro w ho
  have hfirst := hm w
  rw [bind_run] at ho ⊢
  rcases hrun : m w with ⟨a | e | _, w₁⟩ <;> rw [hrun] at hfirst ho
  · obtain ⟨a₁, more, hasked⟩ := hfirst (by simp)
    obtain ⟨later, hlater⟩ := asked_grows (hf a w₁).grows
    refine ⟨a₁, more ++ later, ?_⟩
    rw [hlater, hasked, List.append_assoc, List.cons_append]
  · exact hfirst (by simp)
  · exact absurd rfl ho

theorem asks_request (r : Request) : Asks (request r) := by
  intro w ho
  have hadd : ∀ answer, (w.log ++ [Act.requested r answer]).filter isRequest =
      asked w ++ [Act.requested r answer] := fun answer => by
    rw [List.filter_append]
    rfl
  unfold request at ho ⊢
  rcases hsupply : w.supply.kernel with _ | ⟨answer, rest⟩ <;> rw [hsupply] at ho
  · exact absurd rfl ho
  · cases answer with
    | done =>
      dsimp only
      cases w.kernel.serve r <;> exact ⟨_, [], hadd .done⟩
    | refused what => exact ⟨_, [], hadd (.refused what)⟩
    | lost what => exact ⟨_, [], hadd (.lost what)⟩

theorem asks_writeFile (file : Sysctl) (value : String) : Asks (writeFile file value) := by
  refine asks_bind (asks_request _) fun answer => ?_
  cases answer
  · exact quiet_of_looking (looking_pure _)
  · exact quiet_of_looking (looking_raise _)

theorem asks_prepareLinks (c : NetworkConfig) : Asks (prepareLinks c) := by
  refine asks_bind (asks_bind (asks_writeFile _ _) fun _ => quiet_writeFile _ _) fun _ => ?_
  refine quiet_bind (quiet_preparePort _) fun _ => quiet_bind (quiet_linkState _ _ _) fun _ => ?_
  refine quiet_bind (quiet_linkState _ _ _) fun _ => quiet_bind (quiet_linkState _ _ _) fun _ => ?_
  exact quiet_installVlan c

/-- The first step of an installation is a request. -/
theorem asks_install (c : NetworkConfig) : Asks (install c) :=
  asks_bind (asks_prepareLinks c) fun _ => quiet_bind (quiet_nft _) fun _ =>
    quiet_bind (quiet_connect c) fun _ => quiet_nft _

end Asks

/-! ## apply -/

section Apply
variable {c : NetworkConfig} {w w' : World}

/-- A write-ahead records neither. -/
theorem records_writeAhead {baseline : Value} {o : Outcome Exn Unit}
    (run : writeAhead c baseline w = (o, w')) :
    rollbacks w' = rollbacks w ∧ asked w' = asked w := by
  have hrun := writeAhead_run c baseline w
  rw [run] at hrun
  cases hrun with
  | @unread _ w₁ _ look _ _ =>
    have hquiet := rollbacks_quiet look.toQuiet
    have hlook := asked_looking look
    exact ⟨hquiet, hlook⟩
  | @put w₁ _ _ look put =>
    obtain ⟨hbegun, hasked⟩ := records_put put
    refine ⟨hbegun.trans ?_, hasked.trans ?_⟩
    · change (w₁.log ++ [Act.admitted c w₁.kernel]).filterMap beginning = _
      rw [List.filterMap_append, look.sameLog]
      exact List.append_nil _
    · change (w₁.log ++ [Act.admitted c w₁.kernel]).filter isRequest = _
      rw [List.filter_append, look.sameLog]
      exact List.append_nil _

/-- An activation that throws has asked the kernel, and begun no rollback. -/
theorem records_activate {e : Exn} (run : activate c w = (.threw e, w')) :
    rollbacks w' = rollbacks w ∧ ∃ a more, asked w' = asked w ++ a :: more := by
  have hrun := activate_run c w
  rw [run] at hrun
  have installed : ∀ {o w₁}, install c w = (o, w₁) → o ≠ .crashed →
      rollbacks w₁ = rollbacks w ∧ ∃ a more, asked w₁ = asked w ++ a :: more := by
    intro o w₁ inst ho
    refine ⟨rollbacks_quiet (quiet_eq (quiet_install c) inst), ?_⟩
    have hasks := asks_install c w
    rw [inst] at hasks
    exact hasks ho
  cases hrun with
  | uninstalled inst _ => exact installed inst (by simp)
  | @put w₁ elapsed rest _ _ inst _ put =>
    obtain ⟨hbegun, hasked⟩ := records_put put
    obtain ⟨hbegun', a, more, hasked'⟩ := installed inst (by simp)
    exact ⟨hbegun.trans hbegun', a, more, hasked.trans hasked'⟩

/-- A rollback inside `apply` can read the configuration. -/
theorem activate_readable {baseline : Value} {w₁ w₂ w₃ : World} {o : Outcome Exn Unit}
    (checks : checkAdmission c w = (.returned baseline, w₁))
    (ahead : writeAhead c baseline w₁ = (.returned (), w₂)) (act : activate c w₂ = (o, w₃)) :
    configFromJson (w₃.state_.get "config") = .ok c := by
  rw [(restates_eq (restates_activate c) act).memory "config" (by decide),
    (writeAhead_returned ahead).2.1]
  exact configFromJson_configJson (checkAdmission_returned checks).2.valid

/-- How an `apply` can throw: before it asked the kernel for anything, or at
the end of a rollback. -/
inductive ApplyThrew (c : NetworkConfig) (w w' : World) : Prop
  | rejected (look : Looking w w')
  | unjournaled {baseline w₁ e} (checks : checkAdmission c w = (.returned baseline, w₁))
    (ahead : writeAhead c baseline w₁ = (.threw e, w'))
  | undone {w₃ o} (readable : configFromJson (w₃.state_.get "config") = .ok c)
    (undo : restore w₃ = (o, w')) (ends : o ≠ .crashed)
    (begun : rollbacks w' = rollbacks w ++ [(c, w₃.kernel, w₃.supply)])
    (asks : asked w' ≠ asked w)

theorem apply_threw {e : Exn} (run : apply c w = (.threw e, w')) : ApplyThrew c w w' := by
  unfold apply at run
  rcases hcheck : checkAdmission c w with ⟨baseline | e₁ | _, w₁⟩
  · rw [bind_returned hcheck] at run
    rcases hahead : writeAhead c baseline w₁ with ⟨_ | e₂ | _, w₂⟩
    · rw [bind_returned hahead] at run
      unfold recover at run
      rcases hact : activate c w₂ with ⟨_ | e₃ | _, w₃⟩ <;> rw [hact] at run
      · cases run
      · have hbefore := records_writeAhead hahead
        obtain ⟨hbegun, a, more, hasked⟩ := records_activate hact
        have look := looking_eq (looking_checkAdmission c) hcheck
        have hreadable := activate_readable hcheck hahead hact
        have hundone : ∀ {o}, restore w₃ = (o, w') → o ≠ .crashed → ApplyThrew c w w' := by
          intro o undo ho
          refine .undone hreadable undo ho ?_ ?_
          · rw [rollbacks_restore undo hreadable, hbegun, hbefore.1,
              rollbacks_quiet look.toQuiet]
          · obtain ⟨later, hlater⟩ := asked_grows (grows_eq grows_restore undo)
            rw [hlater, hasked, hbefore.2, asked_looking look, List.append_assoc]
            simp
        dsimp only at run
        unfold undo at run
        rw [bind_run] at run
        unfold recover at run
        rcases hundo : restore w₃ with ⟨_ | e₄ | _, w₄⟩ <;> rw [hundo] at run <;> cases run
        · exact hundone hundo (by simp)
        · exact hundone hundo (by simp)
      · cases run
    · rw [bind_threw hahead] at run
      cases run
      exact .unjournaled hcheck hahead
    · rw [bind_crashed hahead] at run
      cases run
  · rw [bind_threw hcheck] at run
    cases run
    exact .rejected (looking_eq (looking_checkAdmission c) hcheck)
  · rw [bind_crashed hcheck] at run
    cases run

end Apply

end Magicbox.Source.CallRecords
