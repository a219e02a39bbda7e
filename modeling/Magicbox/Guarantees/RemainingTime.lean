import Magicbox.Guarantees.ConfirmationWindow

/-!
# The time that is left to confirm

`state()` reports how many seconds remain of a confirmation window. The number
is a promise: a configuration that was reported with `r` seconds stays pending
for `r` seconds, whatever ticks, reads and further requests come in between, and
a `confirm` that the worker takes up within them confirms it.
-/

set_option autoImplicit false

namespace Magicbox.Guarantees.RemainingTime
open Library.Crash Source Source.Json Source.Config Source.ConfigJson Source.Netns
  Source.NetworkController Source.Worker Source.StatusChanges ConfirmedIntent ConfirmationWindow

/-- A second of the steady clock. -/
def second : Nat := 1000000000

/-! ## The clock -/

theorem restore_clock {w w' : World} {o : Outcome Exn Unit} (run : restore w = (o, w')) :
    w'.clock = w.clock := by
  have closed : ∀ {c w₁ errors o₂ w₂}, putState (entering c w) = (.returned (), w₁) →
      rollBack c w₁ = (o₂, w₂) → (closing errors w₂).clock = w.clock := by
    intro c w₁ errors o₂ w₂ put roll
    exact (quiet_eq (quiet_rollBack c) roll).clock.trans (putState_effect put).clock
  have hrun := restore_run w
  rw [run] at hrun
  cases hrun with
  | unreadable _ => rfl
  | unjournaled _ put _ => exact (putState_effect put).clock
  | cut _ put roll =>
    have hend : (closing "" w').clock = w.clock := closed put roll
    exact hend
  | unrecorded _ put roll put' _ | failed _ put roll _ put' =>
    exact (putState_effect put').clock.trans (closed put roll)
  | @restored _ _ _ w₃ _ put roll put' =>
    have hend : w₃.clock = w.clock := (putState_effect put').clock.trans (closed put roll)
    exact hend

theorem activate_clock {c : NetworkConfig} {w w' : World} {o : Outcome Exn Unit}
    (run : activate c w = (o, w')) : w.clock ≤ w'.clock := by
  have installed : ∀ {o₁ w₁}, install c w = (o₁, w₁) → w₁.clock = w.clock :=
    fun inst => (quiet_eq (quiet_install c) inst).clock
  have hrun := activate_run c w
  rw [run] at hrun
  cases hrun with
  | uninstalled inst _ => exact Nat.le_of_eq (installed inst).symm
  | @unclocked w₁ inst _ =>
    have hclock : w₁.clock = w.clock := installed inst
    exact Nat.le_of_eq hclock.symm
  | @put w₁ elapsed rest _ _ inst _ put =>
    have hclock : w'.clock = w₁.clock + elapsed := (putState_effect put).clock
    rw [hclock, installed inst]
    exact Nat.le_add_right _ _

theorem apply_clock {c : NetworkConfig} {w w' : World} {o : Outcome Exn Unit}
    (run : apply c w = (o, w')) : w.clock ≤ w'.clock := by
  have ahead : ∀ {baseline w₁ o₁ w₂}, Looking w w₁ → writeAhead c baseline w₁ = (o₁, w₂) →
      w₂.clock = w.clock := by
    intro baseline w₁ o₁ w₂ look run₁
    have hahead := writeAhead_run c baseline w₁
    rw [run₁] at hahead
    cases hahead with
    | @unread _ u _ look' _ _ =>
      have hclock : u.clock = w.clock := look'.clock.trans look.clock
      exact hclock
    | @put u _ _ look' put =>
      have hclock : u.clock = w.clock := look'.clock.trans look.clock
      exact (putState_effect put).clock.trans hclock
  have hrun := apply_run c w
  rw [run] at hrun
  cases hrun with
  | rejected look _ => exact Nat.le_of_eq look.clock.symm
  | unjournaled look _ run₁ _ => exact Nat.le_of_eq (ahead look run₁).symm
  | pending look _ run₁ act | cut look _ run₁ act =>
    rw [← ahead look run₁]
    exact activate_clock act
  | undone look _ run₁ act undo =>
    rw [← ahead look run₁, restore_clock undo]
    exact activate_clock act

/-- The clock of a host never goes back. -/
theorem kept_clock (base : Nat) :
    Kept (fun _ => True) (fun w => base ≤ w.clock) (fun w => base ≤ w.clock) where
  host := fun _ h => h
  suppliedHost := fun _ _ _ h => h
  supplied := fun _ _ _ h => h
  looked := fun _ _ look h => look.clock ▸ h
  advanced := fun _ _ _ h => Nat.le_add_right_of_le h
  loading := fun _ _ h => h
  initial := fun _ h => h
  restore := by
    intro w _ h
    have hclock : base ≤ (restore w).2.clock := (restore_clock (w := w) rfl) ▸ h
    exact ⟨hclock, fun _ => hclock⟩
  apply := by
    intro c w h
    have hclock : base ≤ (apply c w).2.clock := Nat.le_trans h (apply_clock rfl)
    exact ⟨hclock, fun _ => hclock⟩
  confirmed := by
    intro w _ h
    rcases hput : putState (withState w (w.state_.set "status" (.string "confirmed"))) with ⟨o, w'⟩
    have hclock : w'.clock = w.clock := (putState_effect hput).clock
    have hend : base ≤ w'.clock := hclock ▸ h
    exact ⟨hend, fun _ => hend⟩

theorem clock_run (n : Node) (calls : List (Call × Supply)) :
    n.world.clock ≤ (n.run calls).world.clock :=
  ((kept_clock n.world.clock).run ⟨Nat.le_refl _, fun _ => Nat.le_refl _⟩ fun _ _ => trivial).1

/-! ## Waiting -/

/-- The calls that leave a pending configuration to its deadline. An `apply` is refused. -/
def Waits (call : Call) : Prop := call = .tick ∨ call = .state ∨ ∃ c, call = .apply c

/-- A process with a pending configuration, and what it is about. -/
structure Waiting (deadline : Nat) (config : Value) (n : Node) : Prop where
  alive : n.alive = true
  enabled : n.world.enabled = true
  pending : HasStatus "awaiting_confirmation" n.world.state_
  deadline_ : n.world.deadline_ = deadline
  config : n.world.state_.get "config" = config

section Waiting
variable {deadline : Nat} {config : Value} {n : Node} {event : Call × Supply}

theorem Waiting.looked (h : Waiting deadline config n) {answers : Supply} {w : World}
    (look : Looking (supplied n.world answers) w) : Waiting deadline config ⟨w, true⟩ :=
  ⟨rfl, look.enabled.trans h.enabled, look.state_ ▸ h.pending, look.deadline_.trans h.deadline_,
    look.state_ ▸ h.config⟩

theorem Waiting.tick (h : Waiting deadline config n) {answers : Supply} {o : Outcome Exn Unit}
    {w : World} (run : NetworkController.tick (supplied n.world answers) = (o, w))
    (ho : o ≠ .crashed) (before : w.clock < deadline) :
    o = .returned () ∧ Waiting deadline config ⟨w, true⟩ := by
  have hrun := tick_run (supplied n.world answers)
  rw [run] at hrun
  cases hrun with
  | idle hidle => exact absurd ⟨h.enabled, h.pending⟩ hidle
  | unclocked _ _ => exact absurd rfl ho
  | early _ _ _ => exact ⟨rfl, rfl, h.enabled, h.pending, h.deadline_, h.config⟩
  | @expired elapsed _ _ _ _ _ due undo =>
    have hclock : w.clock = n.world.clock + elapsed := restore_clock undo
    have hdue : n.world.deadline_ ≤ n.world.clock + elapsed := due
    rw [h.deadline_, ← hclock] at hdue
    exact absurd before (Nat.not_lt_of_le hdue)

/-- Before the deadline none of these calls ends the wait. -/
theorem Waiting.step (h : Waiting deadline config n) (waits : Waits event.1)
    (alive : (n.step event).alive = true) (before : (n.step event).world.clock < deadline) :
    Waiting deadline config (n.step event) := by
  obtain ⟨call, answers⟩ := event
  rw [step_live h.alive] at alive before ⊢
  rcases waits with hcall | hcall | ⟨c, hcall⟩
  · obtain rfl : call = .tick := hcall
    rcases hrun : NetworkController.tick (supplied n.world answers) with ⟨o, w⟩
    rw [show Call.tick.body (supplied n.world answers) = (o, w) from hrun] at alive before ⊢
    obtain ⟨rfl, hend⟩ := h.tick hrun (fun hcut => by subst hcut; cases alive) before
    exact hend
  · obtain rfl : call = .state := hcall
    have hrun := state_run (supplied n.world answers)
    rcases hstate : NetworkController.state (supplied n.world answers) with ⟨v | e | _, w⟩
    · rw [show Call.state.body (supplied n.world answers) = (.returned (), w) from
        bind_returned hstate]
      rw [hstate] at hrun
      cases hrun with
      | plain hs _ => exact absurd h.pending hs
      | timed _ _ _ => exact ⟨rfl, h.enabled, h.pending, h.deadline_, h.config⟩
    · rw [hstate] at hrun
      cases hrun
    · rw [show Call.state.body (supplied n.world answers) = (.crashed, w) from
        bind_crashed hstate] at alive
      cases alive
  · obtain rfl : call = .apply c := hcall
    have hrun := apply_run c (supplied n.world answers)
    rcases happly : NetworkController.apply c (supplied n.world answers) with ⟨o, w⟩
    rw [show (Call.apply c).body (supplied n.world answers) = (o, w) from happly] at alive ⊢
    have busy : ∀ {baseline}, ¬ Admitted c baseline (supplied n.world answers) := fun adm =>
      absurd (h.pending.unique adm.inactive) (by decide)
    rw [happly] at hrun
    cases hrun with
    | rejected look _ =>
      cases o with
      | crashed => cases alive
      | returned _ | threw _ => exact h.looked look
    | unjournaled _ adm _ _ => exact absurd adm busy
    | pending _ adm _ _ => exact absurd adm busy
    | cut _ adm _ _ => exact absurd adm busy
    | undone _ adm _ _ _ => exact absurd adm busy

theorem alive_of_waits (waits : Waits event.1) (alive : (n.step event).alive = true) :
    n.alive = true := by
  refine alive_of_step ?_ alive
  rcases waits with hcall | hcall | ⟨c, hcall⟩ <;> rw [hcall] <;> rfl

theorem Waiting.run {later : List (Call × Supply)} (h : Waiting deadline config n)
    (waits : ∀ event ∈ later, Waits event.1) (alive : (n.run later).alive = true)
    (before : (n.run later).world.clock < deadline) : Waiting deadline config (n.run later) := by
  induction later using List.reverseRecOn with
  | nil => exact h
  | append_singleton past event ih =>
    rw [Node.run_snoc] at alive before ⊢
    have hwaits : Waits event.1 := waits event (by simp)
    have hclock := clock_run (n.run past) [event]
    exact (ih (fun e he => waits e (List.mem_append_left _ he)) (alive_of_waits hwaits alive)
      (Nat.lt_of_le_of_lt hclock before)).step hwaits alive before

/-- A `confirm` that reads the clock before the deadline and can write the journal. -/
theorem Waiting.confirm (h : Waiting deadline config n) {answers : Supply} {elapsed : Nat}
    {rest : List Nat} {puts : List Verdict} (clock : answers.clock = elapsed :: rest)
    (written : answers.puts = .done :: puts) (before : n.world.clock + elapsed < deadline) :
    HasStatus "confirmed" (n.step (.confirm, answers)).world.state_ ∧
      journal (n.step (.confirm, answers)).world = (n.step (.confirm, answers)).world.state_ ∧
      (n.step (.confirm, answers)).world.state_.get "config" = config := by
  rw [step_live h.alive]
  have hrun := confirm_run (supplied n.world answers)
  change ConfirmRun (supplied n.world answers) (Call.confirm.body (supplied n.world answers)).1
    (Call.confirm.body (supplied n.world answers)).2 at hrun
  generalize Call.confirm.body (supplied n.world answers) = ending at hrun ⊢
  obtain ⟨o, w⟩ := ending
  -- The tick that `confirm` begins with comes before the deadline.
  have htick : NetworkController.tick (supplied n.world answers) =
      (.returned (), advanced elapsed rest (supplied n.world answers)) := by
    have hdue : ¬ (supplied n.world answers).deadline_ ≤ (supplied n.world answers).clock + elapsed :=
      Nat.not_le_of_lt (h.deadline_.symm ▸ before)
    have hticked := tick_run (supplied n.world answers)
    rcases hrun₁ : NetworkController.tick (supplied n.world answers) with ⟨o₁, w₁⟩
    rw [hrun₁] at hticked
    cases hticked with
    | idle hidle => exact absurd ⟨h.enabled, h.pending⟩ hidle
    | unclocked _ hclock => cases clock.symm.trans hclock
    | early _ hclock _ =>
      cases clock.symm.trans hclock
      rfl
    | expired _ hclock due _ =>
      cases clock.symm.trans hclock
      exact absurd due hdue
  cases hrun with
  | disabled hoff => cases h.enabled.symm.trans hoff
  | unticked tick ho =>
    cases htick.symm.trans tick
    exact absurd rfl ho
  | nothing tick hs =>
    cases htick.symm.trans tick
    exact absurd h.pending hs
  | put _ tick _ put =>
    cases htick.symm.trans tick
    have effect := putState_effect put
    have hconfig : w.state_.get "config" = config := by
      rw [effect.state_]
      exact (Value.get_set_of_ne _ (by decide) _).trans h.config
    have hstored : journal w = w.state_ := by
      rw [effect.state_]
      cases putState_cases put with
      | cut hputs => cases written.symm.trans hputs
      | done _ => exact Store.get_put _ _ _
      | refused hputs | lost hputs => cases written.symm.trans hputs
    refine ⟨?_, hstored, hconfig⟩
    rw [effect.state_]
    exact Value.get_set_self _ _ _

end Waiting

/-! ## The reply -/

theorem state_replies {w : World} {elapsed : Nat} {rest : List Nat}
    (hpending : HasStatus "awaiting_confirmation" w.state_)
    (clock : w.supply.clock = elapsed :: rest) :
    state w = (.returned ((w.state_.set "enabled" (.boolean w.enabled)).set "remaining_seconds"
      (.int ((w.deadline_ - (w.clock + elapsed)) / second : Nat))), advanced elapsed rest w) := by
  have hstatus : ((w.state_.set "enabled" (.boolean w.enabled)).get "status").eqString
      "awaiting_confirmation" = true := by
    rw [Value.get_set_of_ne _ (by decide)]
    exact Value.eqString_iff.mpr hpending
  unfold state
  rw [bind_returned (read_run _ w), bind_returned (read_run _ w), if_pos hstatus,
    bind_returned (steadyNow_cons clock), bind_returned (read_run _ _)]
  rfl

/-- What a reply says about a pending configuration, and what reading the clock leaves. -/
theorem state_pending {w w' : World} {v : Value} (run : state w = (.returned v, w'))
    (hpending : HasStatus "awaiting_confirmation" v) :
    HasStatus "awaiting_confirmation" w.state_ ∧
      v.get "remaining_seconds" = .int ((w.deadline_ - w'.clock) / second : Nat) ∧
      v.get "config" = w.state_.get "config" ∧
      ∃ elapsed rest, w' = advanced elapsed rest w := by
  have hrun := state_run w
  rw [run] at hrun
  cases hrun with
  | plain h same => exact absurd (same.symm.trans hpending) h
  | @timed _ elapsed rest h clock _ =>
    have hreply := run.symm.trans (state_replies h clock)
    simp only [Prod.mk.injEq, Outcome.returned.injEq] at hreply
    obtain ⟨rfl, -⟩ := hreply
    refine ⟨h, Value.get_set_self _ _ _, ?_, elapsed, rest, rfl⟩
    rw [Value.get_set_of_ne _ (by decide), Value.get_set_of_ne _ (by decide)]

/-- The deadline of a pending configuration is never more than the window away. -/
theorem deadline_within {boot : Node} {journaled : Value} (hboot : Booted journaled boot.world)
    {calls : List (Call × Supply)} (hserving : Serving calls)
    (halive : (boot.run calls).alive = true)
    (hpending : HasStatus "awaiting_confirmation" (boot.run calls).world.state_) :
    (boot.run calls).world.deadline_ ≤ (boot.run calls).world.clock + confirmationWindow := by
  obtain ⟨earlier, c, supply, later, hcalls, -, -, hdeadline, -⟩ :=
    installedBy hboot calls hserving halive hpending
  have hclock := clock_run (boot.run (earlier ++ [(.apply c, supply)])) later
  have hrun : (boot.run (earlier ++ [(.apply c, supply)])).run later = boot.run calls := by
    rw [hcalls]
    exact (Library.Runs.run_append boot _ _).symm.trans (by rw [List.append_assoc]; rfl)
  rw [hrun] at hclock
  omega

/-- Take a constructor that completed, any calls of the worker after it, and a
reply of `state()` that reports a pending configuration. It reports between 0
and 60 seconds. As long as the clock stays within the reported seconds, ticks,
further reads and refused requests leave that configuration pending, and a
`confirm` among them that can write the journal confirms it. -/
theorem remaining_time_kept {start : Node} {supply : Supply}
    (hboot : (start.step (.construct true, supply)).alive = true) {calls : List (Call × Supply)}
    (hserving : Serving calls)
    (halive : ((start.step (.construct true, supply)).run calls).alive = true)
    {answers : Supply} {v : Value} {w : World}
    (reply : state (supplied ((start.step (.construct true, supply)).run calls).world answers) =
      (.returned v, w)) (hpending : HasStatus "awaiting_confirmation" v) :
    ∃ r : Nat, v.get "remaining_seconds" = .int r ∧ r ≤ 60 ∧
      ∀ later : List (Call × Supply), (∀ event ∈ later, Waits event.1) →
        (Node.run ⟨w, true⟩ later).alive = true →
        ∀ elapsed, (Node.run ⟨w, true⟩ later).world.clock + elapsed < w.clock + r * second →
          HasStatus "awaiting_confirmation" (Node.run ⟨w, true⟩ later).world.state_ ∧
          ∀ (confirming : Supply) (rest : List Nat) (puts : List Verdict),
            confirming.clock = elapsed :: rest → confirming.puts = .done :: puts →
            HasStatus "confirmed"
              ((Node.run ⟨w, true⟩ later).step (.confirm, confirming)).world.state_ ∧
            HasStatus "confirmed"
              (journal ((Node.run ⟨w, true⟩ later).step (.confirm, confirming)).world) ∧
            ((Node.run ⟨w, true⟩ later).step (.confirm, confirming)).world.state_.get "config" =
              v.get "config" := by
  have hbooted := boot_booted hboot
  generalize start.step (.construct true, supply) = boot at hbooted halive reply
  obtain ⟨hmemory, hremaining, hconfig, passed, rest₀, rfl⟩ := state_pending reply hpending
  have hwithin := deadline_within hbooted hserving halive hmemory
  have henabled := enabled_run hbooted hserving
  generalize boot.run calls = n at halive reply hmemory hremaining hconfig hwithin henabled ⊢
  let w := advanced passed rest₀ (supplied n.world answers)
  have hdeadline : w.deadline_ = n.world.deadline_ := rfl
  have hclock : w.clock = n.world.clock + passed := rfl
  have hwindow : confirmationWindow = 60 * second := rfl
  refine ⟨(w.deadline_ - w.clock) / second, hremaining, ?_, fun later waits alive elapsed inTime => ?_⟩
  · refine Nat.div_le_of_le_mul ?_
    rw [Nat.mul_comm]
    omega
  have hfloor := Nat.div_mul_le_self (w.deadline_ - w.clock) second
  change (Node.run ⟨w, true⟩ later).world.clock + elapsed < w.clock + _ at inTime
  -- The reported seconds end at the deadline at the latest.
  have hbefore : (Node.run ⟨w, true⟩ later).world.clock + elapsed < w.deadline_ := by
    have hsince := clock_run ⟨w, true⟩ later
    have hsince' : w.clock ≤ (Node.run ⟨w, true⟩ later).world.clock := hsince
    omega
  have hwaiting : Waiting w.deadline_ (v.get "config") (Node.run ⟨w, true⟩ later) := by
    refine Waiting.run ⟨rfl, henabled, hmemory, rfl, hconfig.symm⟩ waits alive ?_
    exact Nat.lt_of_le_of_lt (Nat.le_add_right _ _) hbefore
  refine ⟨hwaiting.pending, fun confirming rest puts clock written => ?_⟩
  obtain ⟨hconfirmed, hstored, hsame⟩ := hwaiting.confirm clock written hbefore
  exact ⟨hconfirmed, hstored ▸ hconfirmed, hsame⟩

/-- A configuration is reported with 59 seconds left, ticked, and confirmed within them. -/
theorem remaining_time_kept_example :
    ∃ w, (state (supplied pendingNode.world answering)).2 = w ∧
      HasStatus "confirmed" ((Node.run ⟨w, true⟩ [(.tick, answering)]).step
        (.confirm, answering)).world.state_ := by
  have hreply := state_replies (w := supplied pendingNode.world answering) pendingNode_awaiting rfl
  have hleft : (pendingNode.world.deadline_ - (pendingNode.world.clock + 1000000000)) / second =
      59 := by decide +kernel
  refine ⟨_, rfl, ?_⟩
  rw [hreply]
  have hserving : Serving [(.apply exampleConfig, answering)] := by simp [Serving, Call.starts]
  obtain ⟨r, hr, -, hkept⟩ := remaining_time_kept (by decide +kernel) hserving
    (by decide +kernel) hreply
    ((hasStatus_set_of_ne _ (by decide) _).mpr
      ((hasStatus_set_of_ne _ (by decide) _).mpr pendingNode_awaiting))
  obtain rfl : r = 59 := by
    rw [Value.get_set_self] at hr
    have hnat := Int.ofNat.inj (Value.int.inj hr)
    exact hnat.symm.trans hleft
  refine ((hkept [(.tick, answering)] ?_ (by decide +kernel) 1000000000 (by decide +kernel)).2
    answering _ _ rfl rfl).1
  intro event hevent
  obtain rfl := List.mem_singleton.mp hevent
  exact .inl rfl

end Magicbox.Guarantees.RemainingTime
