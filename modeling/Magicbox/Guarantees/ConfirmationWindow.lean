import Magicbox.Guarantees.ConfirmedIntent
import Magicbox.Source.StatusChanges

/-!
# The confirmation window

A pending configuration is confirmed by a `confirm` that reads the clock before
the deadline its own `apply` set, or it is rolled back. The runs here start
from a constructor that completed, over any journal, and take the calls of the
worker in any order.
-/

set_option autoImplicit false

namespace Magicbox.Guarantees.ConfirmationWindow
open Library.Crash Source Source.Json Source.Config Source.ConfigJson Source.Netns
  Source.NetworkController Source.Worker Source.StatusChanges ConfirmedIntent

/-- The calls of one process. -/
def Serving (calls : List (Call × Supply)) : Prop := ∀ event ∈ calls, event.1.starts = false

/-- The deadline and the configuration are those of an `apply` of this run,
which set them when it left its configuration pending. -/
def InstalledBy (boot : Node) (calls : List (Call × Supply)) (w : World) : Prop :=
  ∃ earlier c supply later, calls = earlier ++ (.apply c, supply) :: later ∧
    HasStatus "inactive" (boot.run earlier).world.state_ ∧
    HasStatus "awaiting_confirmation" (boot.run (earlier ++ [(.apply c, supply)])).world.state_ ∧
    w.deadline_ = (boot.run (earlier ++ [(.apply c, supply)])).world.clock + confirmationWindow ∧
    w.state_.get "config" = configJson c

theorem InstalledBy.later {boot : Node} {calls : List (Call × Supply)} {w w' : World}
    (h : InstalledBy boot calls w) (event : Call × Supply) (hdeadline : w'.deadline_ = w.deadline_)
    (hconfig : w'.state_.get "config" = w.state_.get "config") :
    InstalledBy boot (calls ++ [event]) w' := by
  obtain ⟨earlier, c, supply, later, hcalls, hbefore, hafter, hset, hc⟩ := h
  refine ⟨earlier, c, supply, later ++ [event], ?_, hbefore, hafter, hdeadline.trans hset,
    hconfig.trans hc⟩
  rw [hcalls, List.append_assoc, List.cons_append]

/-! ## After the constructor -/

/-- What a process starts from: nothing, or a configuration that was confirmed before. -/
structure Booted (journaled : Value) (w : World) : Prop where
  enabled : w.enabled = true
  status : HasStatus "inactive" w.state_ ∨ HasStatus "confirmed" w.state_ ∧
    HasStatus "confirmed" journaled ∧ ∃ c, Readable c w.state_

theorem construct_booted {w w' : World} (run : construct true w = (.returned (), w')) :
    Booted (journal w) w' := by
  have hrun := construct_run true w
  rw [run] at hrun
  have confirmed : ∀ {w₁}, Looking (loading true w) w₁ →
      HasStatus "confirmed" (initial w₁.state_) → HasStatus "confirmed" (journal w) := by
    intro w₁ look hs
    rw [look.state_] at hs
    unfold initial at hs
    split at hs
    · exact absurd ((hasStatus_set "confirmed" "inactive" _).mp hs) (by decide)
    · exact hs
  cases hrun with
  | lockedOut _ ho => exact absurd rfl ho
  | idle look hidle => exact ⟨look.enabled, .inl (hidle.resolve_right (by simp))⟩
  | unrestored _ _ _ _ ho => exact absurd rfl ho
  | restored look _ _ run₁ _ =>
    exact ⟨(restates_eq restates_restore run₁).enabled.trans look.enabled,
      .inl (restore_returned_inactive run₁)⟩
  | unapplied _ _ _ _ _ _ ho => exact absurd rfl ho
  | reapplied look _ hs run₁ hc again confirm =>
    obtain ⟨hreadable, hstatus⟩ := (confirm_returned ((apply_wrote again).2 rfl) confirm).1
    refine ⟨?_, .inr ⟨hstatus, confirmed look hs, _, hreadable⟩⟩
    rw [(restates_eq restates_confirm confirm).enabled, apply_enabled again,
      (restates_eq restates_restore run₁).enabled]
    exact look.enabled

theorem boot_booted {start : Node} {supply : Supply}
    (h : (start.step (.construct true, supply)).alive = true) :
    Booted (journal start.world) (start.step (.construct true, supply)).world := by
  rw [Node.step_construct] at h ⊢
  rcases hrun : construct true (supplied start.world supply) with ⟨o, w'⟩
  rw [hrun] at h
  cases o with
  | returned =>
    have hbooted := construct_booted (w := supplied start.world supply) hrun
    exact hbooted
  | threw | crashed => cases h

/-! ## Runs -/

section Runs
variable {boot : Node} {journaled : Value}

/-- A pending configuration was installed by an `apply` of the run, which set its deadline. -/
theorem installedBy (hboot : Booted journaled boot.world) (calls : List (Call × Supply)) :
    Serving calls → (boot.run calls).alive = true →
      HasStatus "awaiting_confirmation" (boot.run calls).world.state_ →
      InstalledBy boot calls (boot.run calls).world := by
  refine Library.Runs.historyInvariant (J := fun (past : List (Call × Supply)) (n : Node) =>
    Serving past → n.alive = true →
    HasStatus "awaiting_confirmation" n.world.state_ → InstalledBy boot past n.world) ?_ ?_ calls
  · intro _ _ hpending
    rcases hboot.status with hs | ⟨hs, -⟩ <;> exact absurd (hs.unique hpending) (by decide)
  · intro past event ih hserving halive hpending
    have hpast : Serving past := fun e he => hserving e (List.mem_append_left _ he)
    have hcall : event.1.starts = false :=
      hserving event (List.mem_append_right _ List.mem_cons_self)
    rw [Library.Runs.run_snoc] at halive hpending ⊢
    have hlive := alive_of_step hcall halive
    cases step_moves hcall halive with
    | stays status deadline_ agree =>
      have hbefore : HasStatus "awaiting_confirmation" (boot.run past).world.state_ :=
        status.symm.trans hpending
      refine (ih hpast hlive hbefore).later event deadline_ (agree ?_ "config" (by decide))
      exact fun h => absurd (h.unique hbefore) (by decide)
    | rollsBack status _ _ => exact absurd hpending (status.not (.inl rfl))
    | prepares _ _ status _ => exact absurd (status.unique hpending) (by decide)
    | @installs c hcall before status deadline_ config _ =>
      obtain ⟨call, supply⟩ := event
      cases hcall
      refine ⟨past, c, supply, [], rfl, before, ?_, ?_, config⟩
      · rw [Node.run_snoc]
        exact status
      · rw [Node.run_snoc]
        exact deadline_
    | confirms _ _ _ _ status _ _ => exact absurd (status.unique hpending) (by decide)

/-- What holds between the calls of a process whose journal writes succeed. -/
structure Between (w : World) : Prop where
  status : HasStatus "inactive" w.state_ ∨ HasStatus "awaiting_confirmation" w.state_ ∨
    HasStatus "confirmed" w.state_ ∨ HasStatus "rollback_failed" w.state_
  readable : ¬ HasStatus "inactive" w.state_ → ∃ c, Readable c w.state_

theorem between (hboot : Booted journaled boot.world) (calls : List (Call × Supply)) :
    Serving calls → Durable calls → (boot.run calls).alive = true →
      Between (boot.run calls).world := by
  refine Library.Runs.historyInvariant (J := fun (past : List (Call × Supply)) (n : Node) =>
    Serving past → Durable past →
    n.alive = true → Between n.world) ?_ ?_ calls
  · intro _ _ _
    rcases hboot.status with hs | ⟨hs, -, hc⟩
    · exact ⟨.inl hs, fun h => absurd hs h⟩
    · exact ⟨.inr (.inr (.inl hs)), fun _ => hc⟩
  · intro past event ih hserving hdurable halive
    have hpast : Serving past := fun e he => hserving e (List.mem_append_left _ he)
    have hputs : Durable past := fun e he => hdurable e (List.mem_append_left _ he)
    have hcall : event.1.starts = false :=
      hserving event (List.mem_append_right _ List.mem_cons_self)
    have hjournals : Journals event.2 :=
      hdurable event (List.mem_append_right _ List.mem_cons_self)
    rw [Library.Runs.run_snoc] at halive ⊢
    have hbefore := ih hpast hputs (alive_of_step hcall halive)
    cases step_moves hcall halive with
    | stays status _ agree =>
      have same : ∀ s, HasStatus s ((boot.run past).step event).world.state_ ↔
          HasStatus s (boot.run past).world.state_ := fun s => by
        unfold HasStatus
        rw [status]
        rfl
      refine ⟨by simpa only [same] using hbefore.status, fun h => ?_⟩
      rw [same] at h
      obtain ⟨c, hc⟩ := hbefore.readable h
      exact ⟨c, hc.agree (agree h)⟩
    | rollsBack _ settled readable =>
      refine ⟨?_, fun _ => readable⟩
      exact (settled hjournals).imp_right fun h => .inr (.inr h)
    | prepares _ _ _ unwritten => exact absurd hjournals unwritten
    | @installs c _ _ status _ config valid =>
      refine ⟨.inr (.inl status), fun _ => ⟨c, ?_⟩⟩
      rw [Readable, config]
      exact configFromJson_configJson valid
    | confirms _ before _ _ status _ agree =>
      obtain ⟨c, hc⟩ := hbefore.readable fun h => absurd (h.unique before) (by decide)
      exact ⟨.inr (.inr (.inl status)), fun _ => ⟨c, hc.agree agree⟩⟩

theorem enabled_run (hboot : Booted journaled boot.world) {calls : List (Call × Supply)}
    (hserving : Serving calls) : (boot.run calls).world.enabled = true :=
  Library.Runs.invariant (P := fun event : Call × Supply => event.1.starts = false)
    (I := fun n : Node => n.world.enabled = true)
    (fun _ _ hcall h => (step_enabled hcall).trans h) hboot.enabled hserving

end Runs

/-- The clock reading of the call is at or past the deadline. -/
def Expired (supply : Supply) (w : World) : Prop :=
  ∃ elapsed rest, supply.clock = elapsed :: rest ∧ w.deadline_ ≤ w.clock + elapsed

theorem pendingNode_awaiting : HasStatus "awaiting_confirmation" pendingNode.world.state_ :=
  Value.eqString_iff.mp (by decide +kernel)

/-- A tick past the deadline replaces the status of what it finds pending. -/
theorem tick_expired {w w' : World} {o : Outcome Exn Unit} (run : tick w = (o, w'))
    (ho : o ≠ .crashed) (hpending : NetworkController.Pending w) (hexpired : Expired w.supply w)
    (hreadable : ∃ c, Readable c w.state_) (hjournals : Journals w.supply) :
    Settled w'.state_ := by
  obtain ⟨elapsed, rest, hclock, hdue⟩ := hexpired
  have hrun := tick_run w
  rw [run] at hrun
  cases hrun with
  | idle h => exact absurd hpending h
  | unclocked _ _ => exact absurd rfl ho
  | early _ clock before =>
    rw [hclock] at clock
    cases clock
    omega
  | expired _ _ _ run₁ =>
    rcases restore_changes run₁ with ⟨e, he, -, -⟩ | rolled
    · obtain ⟨c, hc⟩ := hreadable
      cases hc.symm.trans he
    · exact rolled.settled ho hjournals

/-- A constructor over a journal that is not confirmed confirms nothing. -/
theorem construct_unconfirming {w w' : World} {o : Outcome Exn Unit}
    (h : ¬ HasStatus "confirmed" (journal w)) (run : construct true w = (o, w')) :
    ¬ HasStatus "confirmed" w'.state_ ∧ ¬ HasStatus "confirmed" (journal w') := by
  have hrun := construct_run true w
  rw [run] at hrun
  have loaded : ∀ {w₁}, Looking (loading true w) w₁ →
      ¬ HasStatus "confirmed" (initial w₁.state_) ∧ ¬ HasStatus "confirmed" w₁.state_ ∧
        ¬ HasStatus "confirmed" (journal w₁) := by
    intro w₁ look
    have hstate : w₁.state_ = journal w := look.state_
    have hstore : journal w₁ = journal w := congrArg (Store.get · "network") look.store
    rw [hstate, hstore]
    refine ⟨?_, h, h⟩
    unfold initial
    split
    · exact fun hs => absurd ((hasStatus_set _ _ _).mp hs) (by decide)
    · exact h
  have restored : ∀ {w₁ o₁ w₂}, Looking (loading true w) w₁ →
      restore (withState w₁ (initial w₁.state_)) = (o₁, w₂) →
      ¬ HasStatus "confirmed" w₂.state_ ∧ ¬ HasStatus "confirmed" (journal w₂) := by
    intro w₁ o₁ w₂ look run₁
    obtain ⟨hinitial, -, hjournal⟩ := loaded look
    obtain ⟨hmemory, hwritten⟩ := restore_unconfirming run₁
    exact ⟨fun hs => hinitial (hmemory hs), fun hs => hjournal (hwritten hs)⟩
  cases hrun with
  | lockedOut look _ => exact (loaded look).2
  | malformed look _ | idle look _ => exact ⟨(loaded look).1, (loaded look).2.2⟩
  | unrestored look _ _ run₁ _ | restored look _ _ run₁ _ => exact restored look run₁
  | unapplied look _ hs _ _ _ _ | reapplied look _ hs _ _ _ _ =>
    exact absurd hs (loaded look).1

/-- What one more call does to the confirmation window of a process. -/
structure KeepsWindow (boot : Node) (calls : List (Call × Supply)) (event : Call × Supply) :
    Prop where
  confirms : ¬ Unconfirming (boot.run calls).world ((boot.run calls).step event).world →
    event.1 = .confirm ∧ InTime event.2 (boot.run calls).world ∧
      InstalledBy boot calls (boot.run calls).world
  deadline_ : ((boot.run calls).step event).alive = true →
    HasStatus "awaiting_confirmation" (boot.run calls).world.state_ →
    HasStatus "awaiting_confirmation" ((boot.run calls).step event).world.state_ →
    ((boot.run calls).step event).world.deadline_ = (boot.run calls).world.deadline_ ∧
      ((boot.run calls).step event).world.state_.get "config" =
        (boot.run calls).world.state_.get "config"
  expires : Durable (calls ++ [event]) → ((boot.run calls).step event).alive = true →
    event.1 = .tick → HasStatus "awaiting_confirmation" (boot.run calls).world.state_ →
    Expired event.2 (boot.run calls).world →
    ¬ HasStatus "awaiting_confirmation" ((boot.run calls).step event).world.state_ ∧
      ¬ HasStatus "confirmed" ((boot.run calls).step event).world.state_

theorem keepsWindow {boot : Node} {journaled : Value} (hboot : Booted journaled boot.world)
    {calls : List (Call × Supply)} (hserving : Serving calls) {event : Call × Supply}
    (hcall : event.1.starts = false) : KeepsWindow boot calls event where
  confirms := by
    intro h
    obtain ⟨hconfirm, hintime, halive⟩ := (step_unconfirming hcall).resolve_left h
    exact ⟨hconfirm, hintime, installedBy hboot calls hserving halive hintime.1⟩
  deadline_ := by
    intro halive hpending hpending'
    cases step_moves hcall halive with
    | stays _ deadline_ agree =>
      exact ⟨deadline_, agree (fun h => absurd (h.unique hpending) (by decide)) _ (by decide)⟩
    | rollsBack status _ _ => exact absurd hpending' (status.not (.inl rfl))
    | prepares _ _ status _ => exact absurd (status.unique hpending') (by decide)
    | installs _ before _ _ _ _ => exact absurd (before.unique hpending) (by decide)
    | confirms _ _ _ _ status _ _ => exact absurd (status.unique hpending') (by decide)
  expires := by
    intro hdurable halive htick hpending hexpired
    have hlive := alive_of_step hcall halive
    have hbefore := between hboot calls hserving
      (fun e he => hdurable e (List.mem_append_left _ he)) hlive
    have hjournals : Journals event.2 :=
      hdurable event (List.mem_append_right _ List.mem_cons_self)
    obtain ⟨call, answers⟩ := event
    cases htick
    rw [step_live hlive] at halive ⊢
    rcases hrun : tick (supplied (boot.run calls).world answers) with ⟨o, w'⟩
    have hbody : Call.tick.body (supplied (boot.run calls).world answers) = (o, w') := hrun
    rw [hbody] at halive ⊢
    have hsettled : Settled w'.state_ := by
      refine tick_expired hrun (fun hcut => ?_) ⟨enabled_run hboot hserving, hpending⟩ hexpired
        (hbefore.readable fun h => absurd (h.unique hpending) (by decide)) hjournals
      subst hcut
      cases halive
    exact ⟨RollingBack.not (.inr hsettled) (.inl rfl), RollingBack.not (.inr hsettled) (.inr rfl)⟩

/-- Take a constructor that completed and any calls of the worker after it.
The status turns confirmed, in memory or in the journal, only in the recovery
of a confirmed journal, or in a `confirm` that read the clock before the
deadline which the `apply` of that same configuration had set. A deadline
does not move while its configuration is pending. And while the journal can be
written, the status between two calls is one of four, and a tick past the
deadline leaves neither a pending nor a confirmed one. -/
theorem confirmation_window {start : Node} {supply : Supply}
    (hboot : (start.step (.construct true, supply)).alive = true) :
    (¬ HasStatus "confirmed" (journal start.world) →
      ¬ HasStatus "confirmed" (start.step (.construct true, supply)).world.state_ ∧
        ¬ HasStatus "confirmed" (journal (start.step (.construct true, supply)).world)) ∧
    ∀ calls, Serving calls →
      (Durable calls → ((start.step (.construct true, supply)).run calls).alive = true →
        Between ((start.step (.construct true, supply)).run calls).world) ∧
      ∀ event : Call × Supply, event.1.starts = false →
        KeepsWindow (start.step (.construct true, supply)) calls event := by
  have hbooted := boot_booted hboot
  refine ⟨fun h => ?_, fun calls hserving => ⟨between hbooted calls hserving,
    fun event hcall => keepsWindow hbooted hserving hcall⟩⟩
  rw [Node.step_construct]
  exact construct_unconfirming (w := supplied start.world supply) h rfl

/-- The time is up before the worker looks again. -/
def late : Supply := { answering with clock := [60000000000] }

/-- A pending configuration, and a tick that reads the clock at its deadline. -/
theorem confirmation_window_example :
    ¬ HasStatus "awaiting_confirmation" (((exampleNode.step (.construct true, answering)).run
      [(.apply exampleConfig, answering)]).step (.tick, late)).world.state_ ∧
    ¬ HasStatus "confirmed" (((exampleNode.step (.construct true, answering)).run
      [(.apply exampleConfig, answering)]).step (.tick, late)).world.state_ := by
  have hserving : Serving [(.apply exampleConfig, answering)] := by
    simp [Serving, Call.starts]
  have hwindow := ((@confirmation_window exampleNode answering
    (by decide +kernel)).2 [(.apply exampleConfig, answering)] hserving).2 (.tick, late) rfl
  refine hwindow.expires ?_ (by decide +kernel) rfl ?_ ⟨60000000000, [], rfl, by decide +kernel⟩
  · simp [Durable, Journals, late, answering]
  · exact Value.eqString_iff.mp (by decide +kernel)

end Magicbox.Guarantees.ConfirmationWindow
