import Magicbox.Guarantees.Admissions
import Magicbox.Guarantees.ConfirmationWindow
import Magicbox.Source.CallRecords

/-!
# Rollbacks that are abandoned

The timer, the end of the worker's loop and a failed `apply` all rely on
restore(). It writes `rolling_back` over the status before it attempts anything,
so a failure of that one write leaves a configuration that is neither rolled
back nor pending any more, and no later tick looks at it again.
-/

set_option autoImplicit false

namespace Magicbox.Guarantees.AbandonedRollback
open Library.Crash Source Source.Json Source.Config Source.ConfigJson Source.Nftables
  Source.Netns Source.NetworkController Source.Worker Source.StatusChanges Source.RestorationSteps
  Source.CallRecords Admissions ConfirmationWindow

/-- Since the last rollback began, in the kernel `k`, each of its steps was
attempted; the removal of the guard too where it ended inactive. The steps on the
outer side are its steps if the outer link was there, unless the lookup of it
failed. -/
def EveryStep (k : Kernel) (w : World) : Prop :=
  ∃ c found, configFromJson (w.state_.get "config") = .ok c ∧
    (found = k.present (effectiveOuter c) ∨
      .lookedUp (effectiveOuter c) false true ∈ sinceRollback w) ∧
    (∀ step ∈ restorationSteps c found (w.state_.get "baseline").elements,
      .attempted step ∈ sinceRollback w) ∧
    (HasStatus "inactive" w.state_ → .attempted .dropGuard ∈ sinceRollback w)

/-- Nothing is left to attempt, or the next tick will attempt it. -/
def Retryable (k : Kernel) (w : World) : Prop :=
  EveryStep k w ∨ HasStatus "awaiting_confirmation" w.state_

section Restore
variable {c : NetworkConfig} {w w' : World} {o : Outcome Exn Unit}

theorem attempted_since {steps : List Step} (run : restore w = (o, w'))
    (hc : configFromJson (w.state_.get "config") = .ok c) (h : Attempted steps w w') :
    ∀ step ∈ steps, .attempted step ∈ sinceRollback w' := by
  obtain ⟨acts, hlog, hsteps⟩ := h
  intro step hstep
  have hacts : acts = .restoring c w.kernel w.supply :: sinceRollback w' :=
    List.append_cancel_left (hlog.symm.trans (sinceRollback_restore run hc))
  have hmem := hsteps step hstep
  rw [hacts] at hmem
  simpa using hmem

theorem informed_since {found : Bool} (run : restore w = (o, w'))
    (hc : configFromJson (w.state_.get "config") = .ok c) (h : Informed c found w w') :
    found = w.kernel.present (effectiveOuter c) ∨
      .lookedUp (effectiveOuter c) false true ∈ sinceRollback w' := by
  refine h.imp_right fun ⟨acts, hlog, hact⟩ => ?_
  have hacts : acts = .restoring c w.kernel w.supply :: sinceRollback w' :=
    List.append_cancel_left (hlog.symm.trans (sinceRollback_restore run hc))
  rw [hacts] at hact
  simpa using hact

/-- One write decides whether a rollback is made or abandoned. -/
theorem restore_retryable (run : restore w = (o, w')) (ho : o ≠ .crashed)
    (hc : configFromJson (w.state_.get "config") = .ok c) :
    Retryable w.kernel w' ↔ firstWriteFails w.supply = false := by
  have agree := (restates_eq restates_restore run).memory
  have hconfig : configFromJson (w'.state_.get "config") = .ok c := by
    rw [agree "config" (by decide)]
    exact hc
  constructor
  · intro hretry
    rcases restore_attempts run ho hc with ⟨hwrite, -, -⟩ | ⟨-, hstatus, acts, hlog, hnone⟩
    · exact hwrite
    · rcases hretry with ⟨c', found, hc', -, hsteps, -⟩ | hpending
      · have hacts : acts = .restoring c w.kernel w.supply :: sinceRollback w' :=
          List.append_cancel_left (hlog.symm.trans (sinceRollback_restore run hc))
        refine absurd ?_ (hnone .swapGuard)
        rw [hacts]
        exact List.mem_cons_of_mem _ (hsteps .swapGuard (by simp [restorationSteps]))
      · exact absurd (hstatus.unique hpending) (by decide)
  · intro hwrite
    rcases restore_attempts run ho hc with ⟨-, ⟨found, informed, hsteps⟩, hguard⟩ |
      ⟨hfails, -, -⟩
    · refine .inl ⟨c, found, hconfig, informed_since run hc informed, ?_, fun hinactive => ?_⟩
      · rw [agree "baseline" (by decide)]
        exact attempted_since run hc hsteps
      · exact attempted_since run hc (hguard hinactive) _ List.mem_cons_self
    · rw [hwrite] at hfails
      cases hfails

end Restore

/-! ## The three rollbacks -/

section Calls
variable {w w' : World} {o : Outcome Exn Unit}

theorem pending_readable (h : Grounded w) (hpending : HasStatus "awaiting_confirmation" w.state_) :
    ∃ c, configFromJson (w.state_.get "config") = .ok c := by
  obtain ⟨c, K, -, hcaptured⟩ := h.memory.resolve_left (not_resting hpending (by decide))
  exact ⟨c, hcaptured.readable⟩

theorem tick_retryable (h : Grounded w) (run : tick w = (o, w')) (ho : o ≠ .crashed)
    (hpending : HasStatus "awaiting_confirmation" w.state_) (hexpired : Expired w.supply w) :
    Retryable w.kernel w' ↔ (w.enabled = true → firstWriteFails w.supply = false) := by
  obtain ⟨c, hc⟩ := pending_readable h hpending
  obtain ⟨elapsed, rest, hclock, hdue⟩ := hexpired
  have hrun := tick_run w
  rw [run] at hrun
  cases hrun with
  | idle hidle =>
    exact ⟨fun _ hon => absurd ⟨hon, hpending⟩ hidle, fun _ => .inr hpending⟩
  | unclocked _ _ => exact absurd rfl ho
  | early _ clock before =>
    rw [hclock] at clock
    cases clock
    omega
  | @expired elapsed' rest' _ _ hp _ _ run₁ =>
    have hrestore : Retryable w.kernel w' ↔ firstWriteFails w.supply = false :=
      restore_retryable (w := advanced elapsed' rest' w) run₁ ho hc
    rw [hrestore]
    exact ⟨fun hwrite _ => hwrite, fun hwrite => hwrite hp.1⟩

theorem shutdown_retryable (h : Grounded w) (run : Worker.shutdown w = (o, w')) (ho : o ≠ .crashed)
    (hpending : HasStatus "awaiting_confirmation" w.state_) :
    Retryable w.kernel w' ↔ (w.enabled = true → firstWriteFails w.supply = false) := by
  obtain ⟨c, hc⟩ := pending_readable h hpending
  have hrun := shutdown_run w
  rw [run] at hrun
  cases hrun with
  | idle hidle => exact absurd hpending hidle
  | unclocked _ _ => exact absurd rfl ho
  | @rolled elapsed rest _ _ _ _ run₁ =>
    have hroll := rollback_run (advanced elapsed rest w)
    rw [run₁] at hroll
    cases hroll with
    | disabled hoff =>
      have hdisabled : ¬ w.enabled = true := fun hon => by
        rw [show w.enabled = false from hoff] at hon
        cases hon
      exact ⟨fun _ hon => absurd hon hdisabled, fun _ => .inr hpending⟩
    | inactive hinactive => exact absurd (HasStatus.unique hinactive hpending) (by decide)
    | run hon _ run₂ =>
      have hrestore : Retryable w.kernel w' ↔ firstWriteFails w.supply = false :=
        restore_retryable (w := advanced elapsed rest w) run₂ ho hc
      rw [hrestore]
      exact ⟨fun hwrite _ => hwrite, fun hwrite => hwrite hon⟩

theorem apply_retryable {c c' : NetworkConfig} {k : Kernel} {s : Supply} {e : Exn}
    (run : apply c w = (.threw e, w')) (begun : rollbacks w' = rollbacks w ++ [(c', k, s)]) :
    Retryable k w' ↔ firstWriteFails s = false := by
  have stays : rollbacks w' ≠ rollbacks w := fun hsame => by
    rw [begun] at hsame
    simp at hsame
  cases apply_threw run with
  | rejected look => exact absurd (rollbacks_quiet look.toQuiet) stays
  | unjournaled checks ahead =>
    refine absurd ((records_writeAhead ahead).1.trans ?_) stays
    exact rollbacks_quiet (looking_eq (looking_checkAdmission c) checks).toQuiet
  | @undone w₃ _ readable undo ends begun' _ =>
    have hlast := List.append_cancel_left (begun.symm.trans begun')
    cases hlast
    exact restore_retryable undo ends readable

end Calls

/-- New answers ground no less than the ones before. -/
theorem grounded_supplied {fresh : Node} (hfresh : Fresh fresh) (calls : List (Call × Supply))
    (supply : Supply) : Grounded (supplied (fresh.run calls).world supply) := by
  obtain ⟨memory, journaled⟩ := grounded hfresh calls
  exact ⟨memory, journaled⟩

/-- Whichever journal writes fail: a rollback that the deadline, the end of the
worker or a failed `apply` asks for has every step attempted, or its
configuration is still pending, exactly if the first journal write of restore()
does not fail. A controller that may not change the network never gets there. -/
theorem rollback_unless_unwritten {fresh : Node} (hfresh : Fresh fresh)
    (calls : List (Call × Supply)) (supply : Supply) :
    (∀ o w', HasStatus "awaiting_confirmation" (fresh.run calls).world.state_ →
      Expired supply (fresh.run calls).world →
      tick (supplied (fresh.run calls).world supply) = (o, w') → o ≠ .crashed →
      (Retryable (fresh.run calls).world.kernel w' ↔
        ((fresh.run calls).world.enabled = true → firstWriteFails supply = false))) ∧
    (∀ o w', HasStatus "awaiting_confirmation" (fresh.run calls).world.state_ →
      Worker.shutdown (supplied (fresh.run calls).world supply) = (o, w') → o ≠ .crashed →
      (Retryable (fresh.run calls).world.kernel w' ↔
        ((fresh.run calls).world.enabled = true → firstWriteFails supply = false))) ∧
    ∀ c c' k s e w', apply c (supplied (fresh.run calls).world supply) = (.threw e, w') →
      rollbacks w' = rollbacks (fresh.run calls).world ++ [(c', k, s)] →
      (Retryable k w' ↔ firstWriteFails s = false) := by
  have hgrounded := grounded_supplied hfresh calls supply
  refine ⟨fun o w' hpending hexpired run ho => ?_, fun o w' hpending run ho => ?_,
    fun c c' k s e w' run begun => ?_⟩
  · exact tick_retryable hgrounded run ho hpending hexpired
  · exact shutdown_retryable hgrounded run ho hpending
  · exact apply_retryable run begun

/-- Past the deadline, and the first journal write fails. -/
def lateUnwritable : Supply := { late with puts := [.refused "disk I/O error"] }

/-- A tick at the deadline that can write the journal attempts every step. -/
theorem rollback_unless_unwritten_example :
    Retryable pendingNode.world.kernel (tick (supplied pendingNode.world late)).2 := by
  refine ((rollback_unless_unwritten exampleNode_fresh
    [(.construct true, answering), (.apply exampleConfig, answering)] late).1
    (tick (supplied pendingNode.world late)).1 _ ?_ ?_ (Prod.eta _).symm ?_).mpr fun _ => rfl
  · exact pendingNode_awaiting
  · exact ⟨60000000000, [], rfl, by decide +kernel⟩
  · decide +kernel

/-- The same tick with a journal that cannot be written: the configuration is
past its deadline, nothing was attempted, and it is not pending any more. -/
theorem tick_abandons :
    HasStatus "awaiting_confirmation" pendingNode.world.state_ ∧
    Expired lateUnwritable pendingNode.world ∧
    (tick (supplied pendingNode.world lateUnwritable)).1 ≠ .crashed ∧
    ¬ Retryable pendingNode.world.kernel (tick (supplied pendingNode.world lateUnwritable)).2 := by
  have hexpired : Expired lateUnwritable pendingNode.world :=
    ⟨60000000000, [], rfl, by decide +kernel⟩
  have hends : (tick (supplied pendingNode.world lateUnwritable)).1 ≠ .crashed := by
    decide +kernel
  refine ⟨pendingNode_awaiting, hexpired, hends, fun hretry => ?_⟩
  have hgrounded : Grounded (supplied pendingNode.world lateUnwritable) :=
    grounded_supplied exampleNode_fresh
      [(.construct true, answering), (.apply exampleConfig, answering)] lateUnwritable
  have hwrite := (tick_retryable hgrounded (Prod.eta _).symm hends pendingNode_awaiting
    hexpired).mp hretry (by decide +kernel)
  cases hwrite

end Magicbox.Guarantees.AbandonedRollback
