import Magicbox.Guarantees.ConfirmationWindow
import Magicbox.Guarantees.JournalInvariant
import Magicbox.Source.CallRecords

/-!
# Failed calls

What `confirm` and `apply` leave in memory and in the journal when they throw.
Both assign to the state before they write it, and neither takes an assignment
back: they leave the state alone exactly where the reads and writes that follow
an assignment go through.
-/

set_option autoImplicit false

namespace Magicbox.Guarantees.Atomicity
open Library.Crash Source Source.Json Source.Config Source.ConfigJson Source.Netns
  Source.NetworkController Source.Worker Source.StatusChanges Source.RestorationSteps
  Source.CallRecords Baseline Admissions
  ConfirmationWindow JournalInvariant

/-! ## confirm -/

/-- A `confirm` that throws leaves the configuration pending, in memory and in the journal. -/
def ConfirmAtomic (w : World) : Prop :=
  ∀ e w', confirm w = (.threw e, w') → HasStatus "awaiting_confirmation" w'.state_ ∧
    (journal w').get "status" = w'.state_.get "status"

section Confirm
variable {w w' : World} {o : Outcome Exn Unit}

theorem tick_disabled (h : w.enabled = false) (run : tick w = (o, w')) : w' = w := by
  have hoff : ¬ w.enabled = true := by simp [h]
  have hrun := tick_run w
  rw [run] at hrun
  cases hrun with
  | idle _ => rfl
  | unclocked hp _ | early hp _ _ | expired hp _ _ _ => exact absurd hp.1 hoff

/-- A controller that may not change the network changes no state either. -/
theorem body_disabled {call : Call} (hcall : call.starts = false) (h : w.enabled = false)
    (run : call.body w = (o, w')) : w'.state_ = w.state_ ∧ journal w' = journal w := by
  have hoff : ¬ w.enabled = true := by simp [h]
  have same : ∀ {u : World}, u = w → u.state_ = w.state_ ∧ journal u = journal w := fun hu => by
    rw [hu]
    exact ⟨rfl, rfl⟩
  cases call with
  | construct _ => cases hcall
  | apply c =>
    have hrun := apply_run c w
    rw [show apply c w = (o, w') from run] at hrun
    cases hrun with
    | rejected look _ => exact ⟨look.state_, journal_of_looking look⟩
    | unjournaled _ adm _ _ | pending _ adm _ _ | cut _ adm _ _ | undone _ adm _ _ _ =>
      exact absurd adm.enabled hoff
  | confirm =>
    have hrun := confirm_run w
    rw [show confirm w = (o, w') from run] at hrun
    cases hrun with
    | disabled _ => exact ⟨rfl, rfl⟩
    | unticked tick _ | nothing tick _ => exact same (tick_disabled h tick)
    | put enabled _ _ _ => exact absurd enabled hoff
  | rollback =>
    have hrun := rollback_run w
    rw [show rollback w = (o, w') from run] at hrun
    cases hrun with
    | disabled _ | inactive _ => exact ⟨rfl, rfl⟩
    | run enabled _ _ => exact absurd enabled hoff
  | tick => exact same (tick_disabled h run)
  | shutdown =>
    have hrun := shutdown_run w
    rw [show Worker.shutdown w = (o, w') from run] at hrun
    cases hrun with
    | idle _ | unclocked _ _ => exact ⟨rfl, rfl⟩
    | @rolled elapsed rest _ _ _ _ run₁ =>
      have hroll := rollback_run (advanced elapsed rest w)
      rw [run₁] at hroll
      cases hroll with
      | disabled _ | inactive _ => exact ⟨rfl, rfl⟩
      | run enabled _ _ => exact absurd enabled hoff
  | state => rcases stateCall_leaves run with rfl | ⟨elapsed, rest, rfl⟩ <;> exact ⟨rfl, rfl⟩

theorem construct_disabled (run : construct false w = (.returned (), w')) : Level w' := by
  have hrun := construct_run false w
  rw [run] at hrun
  cases hrun with
  | lockedOut _ ho => exact absurd rfl ho
  | @idle w₁ look _ =>
    have hjournal : journal w₁ = w₁.state_ := (journal_of_looking look).trans look.state_.symm
    by_cases hnull : w₁.state_.isNull = true
    · exact .inr ⟨.inl (hjournal ▸ hnull), resting_initial (.inl hnull)⟩
    · have hsame : initial w₁.state_ = w₁.state_ := if_neg hnull
      exact .inl (hjournal.trans hsame.symm)
  | unrestored _ on _ _ _ | restored _ on _ _ _ | unapplied _ on _ _ _ _ _
  | reapplied _ on _ _ _ _ _ => cases on

theorem disabled_level {fresh : Node} (hfresh : Fresh fresh) (calls : List (Call × Supply)) :
    (fresh.run calls).alive = true → (fresh.run calls).world.enabled = false →
      Level (fresh.run calls).world := by
  refine Library.Runs.historyInvariant (J := fun (_ : List (Call × Supply)) (n : Node) =>
    n.alive = true → n.world.enabled = false → Level n.world) ?_ ?_ calls
  · intro halive
    rw [hfresh.stopped] at halive
    cases halive
  · intro past event ih halive hoff
    rw [Library.Runs.run_snoc] at halive hoff ⊢
    cases hcall : event.1.starts with
    | true =>
      obtain ⟨call, supply⟩ := event
      cases call with
      | construct enabled =>
        rw [Node.step_construct] at halive hoff ⊢
        rcases hrun : construct enabled (supplied (Library.Runs.run Node.step fresh past).world
          supply) with ⟨o, w'⟩
        rw [hrun] at halive hoff
        cases o with
        | returned =>
          cases enabled with
          | false => exact construct_disabled hrun
          | true =>
            have hon := (construct_booted hrun).enabled
            rw [show w'.enabled = false from hoff] at hon
            cases hon
        | threw | crashed => cases halive
      | _ => cases hcall
    | false =>
      have hlive := alive_of_step hcall halive
      have hbefore := ih hlive ((step_enabled hcall).symm.trans hoff)
      rw [step_live hlive] at hoff ⊢
      have hsame := body_disabled (w := supplied (Library.Runs.run Node.step fresh past).world
        event.2) hcall ((step_enabled hcall).symm.trans (by rw [step_live hlive]; exact hoff)) rfl
      exact hbefore.same hsame.1 hsame.2

/-- In time, `confirm` comes down to its journal write. -/
theorem confirm_in_time {elapsed : Nat} {rest : List Nat} (hpending : NetworkController.Pending w)
    (hclock : w.supply.clock = elapsed :: rest) (hbefore : w.clock + elapsed < w.deadline_) :
    confirm w = putState (withState (advanced elapsed rest w)
      (w.state_.set "status" (.string "confirmed"))) := by
  have ticked : ∀ {o₁ w₁}, tick w = (o₁, w₁) →
      o₁ = .returned () ∧ w₁ = advanced elapsed rest w := by
    intro o₁ w₁ tick
    have hrun := tick_run w
    rw [tick] at hrun
    cases hrun with
    | idle h => exact absurd hpending h
    | unclocked _ clock => rw [hclock] at clock; cases clock
    | early _ clock _ =>
      rw [hclock] at clock
      cases clock
      exact ⟨rfl, rfl⟩
    | expired _ clock due _ =>
      rw [hclock] at clock
      cases clock
      omega
  have hrun := confirm_run w
  generalize hconfirm : confirm w = ending at hrun
  obtain ⟨o, w'⟩ := ending
  cases hrun with
  | disabled hoff =>
    have hon := hpending.1
    rw [hoff] at hon
    cases hon
  | unticked tick ho => exact absurd (ticked tick).1 ho
  | nothing tick h =>
    rw [(ticked tick).2] at h
    exact absurd hpending.2 h
  | put _ tick _ put =>
    rw [(ticked tick).2] at put
    exact put.symm

/-- A `confirm` in time throws where its journal write fails, and then memory is confirmed. -/
theorem confirm_atomic (hpending : HasStatus "awaiting_confirmation" w.state_)
    (hintime : InTime w.supply w) (hlevel : w.enabled = false → Level w) :
    ConfirmAtomic w ↔ (w.enabled = true → firstWriteFails w.supply = false) := by
  obtain ⟨-, elapsed, rest, hclock, hbefore⟩ := hintime
  cases henabled : w.enabled with
  | false =>
    refine ⟨fun _ hon => (by cases hon), fun _ e w' run => ?_⟩
    have hcall : Call.confirm.starts = false := rfl
    obtain ⟨hstate, hjournal⟩ := body_disabled hcall henabled run
    rw [hstate, hjournal]
    refine ⟨hpending, ?_⟩
    rcases hlevel henabled with hsame | ⟨-, hrests⟩
    · rw [hsame]
    · exact absurd hrests (not_resting hpending (by decide))
  | true =>
    have hconfirm := confirm_in_time ⟨henabled, hpending⟩ hclock hbefore
    have hput := putState_run (withState (advanced elapsed rest w)
      (w.state_.set "status" (.string "confirmed")))
    have hconfirmed : ∀ {u : World}, u.state_ = w.state_.set "status" (.string "confirmed") →
        ¬ HasStatus "awaiting_confirmation" u.state_ := fun hu hs => by
      rw [hu, hasStatus_set] at hs
      exact absurd hs (by decide)
    unfold ConfirmAtomic
    rw [hconfirm]
    generalize putState (withState (advanced elapsed rest w)
      (w.state_.set "status" (.string "confirmed"))) = ending at hput
    obtain ⟨o, w'⟩ := ending
    cases hput with
    | cut h | done h =>
      have hputs : w.supply.puts = _ := h
      exact ⟨fun _ _ => by simp [firstWriteFails, hputs], fun _ e w' run => by cases run⟩
    | refused h | lost h =>
      have hputs : w.supply.puts = _ := h
      refine ⟨fun hall => absurd (hall _ _ rfl).1 (hconfirmed rfl), fun hwrite => ?_⟩
      simp [firstWriteFails, hputs] at hwrite

end Confirm

/-! ## apply before its first request -/

/-- An `apply` that throws without having asked the kernel for anything leaves
memory and journal as they were. -/
def ApplyUntouched (c : NetworkConfig) (w : World) : Prop :=
  ∀ e w', apply c w = (.threw e, w') → asked w' = asked w →
    w'.state_ = w.state_ ∧ journal w' = journal w

/-- The first answer is a failure. -/
def headFails (answers : List Verdict) : Bool :=
  match answers.head? with
  | some (.refused _) | some (.lost _) => true
  | some .done | none => false

/-- Once the checks of `apply` have passed, the two reads that follow go through
and so does the journal write; or a read fails, and what was assigned before it
was there already. -/
structure Prepared (c : NetworkConfig) (baseline : Value) (w : World) : Prop where
  forward : headFails w.supply.probes = true → drafted c baseline w.state_ = w.state_
  filter : ∀ rest, w.supply.probes = .done :: rest → headFails rest = true →
    (drafted c baseline w.state_).set "ip_forward" (.string w.kernel.ipForward) = w.state_
  written : ∀ rest, w.supply.probes = .done :: .done :: rest → firstWriteFails w.supply = false

theorem answers_cases (answers : List Verdict) :
    answers = [] ∨ headFails answers = true ∨ ∃ rest, answers = .done :: rest := by
  rcases answers with _ | ⟨answer, rest⟩
  · exact .inl rfl
  · cases answer with
    | done => exact .inr (.inr ⟨rest, rfl⟩)
    | refused _ | lost _ => exact .inr (.inl rfl)

section Reads
variable {w w' : World}

theorem readFile_fails {file : Sysctl} (h : headFails w.supply.probes = true) :
    ∃ e u, readFile file w = (.threw e, u) := by
  unfold readFile probe
  rcases hprobes : w.supply.probes with _ | ⟨answer, rest⟩ <;> rw [hprobes] at h
  · cases h
  · cases answer with
    | done => cases h
    | refused what | lost what => exact ⟨_, _, rfl⟩

theorem readFile_done {file : Sysctl} {value : String} {rest : List Verdict}
    (hvalue : w.kernel.readSysctl file = some value) (h : w.supply.probes = .done :: rest) :
    readFile file w = (.returned value,
      { w with supply := { w.supply with probes := rest } }) := by
  unfold readFile probe
  rw [h]
  simp [hvalue]

theorem readFile_cut {file : Sysctl} (h : w.supply.probes = []) :
    (readFile file w).1 = .crashed := by
  unfold readFile probe
  rw [h]

theorem journal_probed {file : Sysctl} {o : Outcome Exn String}
    (run : readFile file w = (o, w')) : w'.state_ = w.state_ ∧ journal w' = journal w := by
  have look : Looking w w' := looking_eq (looking_probe _) run
  exact ⟨look.state_, journal_of_looking look⟩

end Reads

section WriteAhead
variable {c : NetworkConfig} {baseline : Value} {w w' : World}

/-- The first read of the write-ahead fails. -/
theorem writeAhead_forward (h : headFails w.supply.probes = true) :
    ∃ e w', writeAhead c baseline w = (.threw e, w') ∧
      w'.state_ = drafted c baseline w.state_ ∧ journal w' = journal w := by
  obtain ⟨e, u, hread⟩ := @readFile_fails (withState w (drafted c baseline w.state_)) .ipForward h
  have hrun : writeAhead c baseline w = (.threw e, u) := by
    change (readFile .ipForward >>= _) (withState w (drafted c baseline w.state_)) = _
    exact bind_threw hread
  obtain ⟨hstate, hjournal⟩ := journal_probed hread
  exact ⟨e, u, hrun, hstate, hjournal⟩

/-- The world in which the second read of the write-ahead is made. -/
def secondRead (c : NetworkConfig) (baseline : Value) (rest : List Verdict) (w : World) : World :=
  { w with
    supply := { w.supply with probes := rest },
    state_ := (drafted c baseline w.state_).set "ip_forward" (.string w.kernel.ipForward) }

theorem writeAhead_second {rest : List Verdict} (h : w.supply.probes = .done :: rest) :
    writeAhead c baseline w = (readFile .rpFilterAll >>= fun value => do
      assign "rp_filter_all" (.string value)
      setStatus "applying"
      update fun w => { w with log := w.log ++ [.admitted c w.kernel] }
      putState) (secondRead c baseline rest w) := by
  change (readFile .ipForward >>= _) (withState w (drafted c baseline w.state_)) = _
  rw [bind_returned (readFile_done (w := withState w (drafted c baseline w.state_)) rfl h)]
  rfl

/-- The second read of the write-ahead fails. -/
theorem writeAhead_filter {rest : List Verdict} (h : w.supply.probes = .done :: rest)
    (hfails : headFails rest = true) :
    ∃ e w', writeAhead c baseline w = (.threw e, w') ∧
      w'.state_ = (drafted c baseline w.state_).set "ip_forward" (.string w.kernel.ipForward) ∧
      journal w' = journal w := by
  obtain ⟨e, u, hread⟩ := @readFile_fails (secondRead c baseline rest w) .rpFilterAll hfails
  obtain ⟨hstate, hjournal⟩ := journal_probed hread
  refine ⟨e, u, ?_, hstate, hjournal⟩
  rw [writeAhead_second h]
  exact bind_threw hread

/-- Both reads go through, and the write-ahead comes down to its journal write. -/
theorem writeAhead_written {rest : List Verdict} (h : w.supply.probes = .done :: .done :: rest) :
    writeAhead c baseline w =
      putState (admitting c baseline { w with supply := { w.supply with probes := rest } }) := by
  rw [writeAhead_second h,
    bind_returned (readFile_done (w := secondRead c baseline (.done :: rest) w) rfl rfl)]
  rfl

theorem writeAhead_cut (h : w.supply.probes = [] ∨ w.supply.probes = [.done]) :
    (writeAhead c baseline w).1 = .crashed := by
  have crashes : ∀ {f : String → Controller Unit} {file u}, u.supply.probes = [] →
      ((readFile file >>= f) u).1 = .crashed := by
    intro f file u hu
    rcases hread : readFile file u with ⟨o, u'⟩
    have hcut := @readFile_cut u file hu
    rw [hread] at hcut
    cases hcut
    rw [bind_crashed hread]
  rcases h with h | h
  · change ((readFile .ipForward >>= _) (withState w (drafted c baseline w.state_))).1 = _
    exact crashes h
  · rw [writeAhead_second h]
    exact crashes rfl

/-- A write-ahead leaves things alone when it throws exactly if it is prepared. -/
theorem writeAhead_atomic (hinactive : HasStatus "inactive" w.state_) :
    (∀ e w', writeAhead c baseline w = (.threw e, w') →
      w'.state_ = w.state_ ∧ journal w' = journal w) ↔ Prepared c baseline w := by
  constructor
  · intro hall
    refine ⟨fun hfails => ?_, fun rest h hfails => ?_, fun rest h => ?_⟩
    · obtain ⟨e, w', hrun, hstate, -⟩ := writeAhead_forward hfails
      exact hstate.symm.trans (hall e w' hrun).1
    · obtain ⟨e, w', hrun, hstate, -⟩ := writeAhead_filter h hfails
      exact hstate.symm.trans (hall e w' hrun).1
    · by_contra hwrite
      have hput := putState_run (admitting c baseline
        { w with supply := { w.supply with probes := rest } })
      have hrun : writeAhead c baseline w = _ := writeAhead_written h
      generalize putState (admitting c baseline
        { w with supply := { w.supply with probes := rest } }) = ending at hput hrun
      obtain ⟨o, w'⟩ := ending
      cases hput with
      | cut h | done h =>
        have hputs : w.supply.puts = _ := h
        exact hwrite (by simp [firstWriteFails, hputs])
      | refused _ | lost _ =>
        have hsame := (hall _ _ hrun).1
        have happlying : HasStatus "applying" w.state_ := hsame ▸ Value.get_set_self _ _ _
        exact absurd (happlying.unique hinactive) (by decide)
  · intro hprepared e w' hrun
    rcases answers_cases w.supply.probes with hnone | hfails | ⟨rest, hdone⟩
    · have hcut := @writeAhead_cut c baseline w (.inl hnone)
      rw [hrun] at hcut
      cases hcut
    · obtain ⟨e₁, w₁, hrun₁, hstate, hjournal⟩ := @writeAhead_forward c baseline w hfails
      cases hrun.symm.trans hrun₁
      exact ⟨hstate.trans (hprepared.forward hfails), hjournal⟩
    · rcases answers_cases rest with hnone | hfails | ⟨rest', hdone'⟩
      · have hcut := @writeAhead_cut c baseline w (.inr (hnone ▸ hdone))
        rw [hrun] at hcut
        cases hcut
      · obtain ⟨e₁, w₁, hrun₁, hstate, hjournal⟩ :=
          @writeAhead_filter c baseline w rest hdone hfails
        cases hrun.symm.trans hrun₁
        exact ⟨hstate.trans (hprepared.filter rest hdone hfails), hjournal⟩
      · rw [hdone'] at hdone
        have hwrite := hprepared.written rest' hdone
        rw [writeAhead_written hdone] at hrun
        cases putState_cases hrun with
        | refused h | lost h =>
          have hputs : w.supply.puts = _ := h
          simp [firstWriteFails, hputs] at hwrite

end WriteAhead

section Apply
variable {c : NetworkConfig} {w w' : World}

theorem apply_untouched : ApplyUntouched c w ↔
    ∀ baseline w₁, checkAdmission c w = (.returned baseline, w₁) → Prepared c baseline w₁ := by
  have admitted : ∀ {baseline w₁}, checkAdmission c w = (.returned baseline, w₁) →
      Looking w w₁ ∧ HasStatus "inactive" w₁.state_ := by
    intro baseline w₁ checks
    obtain ⟨look, adm⟩ := checkAdmission_returned checks
    exact ⟨look, look.state_ ▸ adm.inactive⟩
  constructor
  · intro hall baseline w₁ checks
    obtain ⟨look, hinactive⟩ := admitted checks
    refine (writeAhead_atomic hinactive).mp fun e w' ahead => ?_
    have hrun : apply c w = (.threw e, w') := by
      unfold NetworkController.apply
      rw [bind_returned checks, bind_threw ahead]
    obtain ⟨hstate, hjournal⟩ := hall e w' hrun
      ((records_writeAhead ahead).2.trans (asked_looking look))
    exact ⟨hstate.trans look.state_.symm, hjournal.trans (journal_of_looking look).symm⟩
  · intro hprepared e w' run hasked
    cases apply_threw run with
    | rejected look => exact ⟨look.state_, journal_of_looking look⟩
    | @unjournaled baseline w₁ _ checks ahead =>
      obtain ⟨look, hinactive⟩ := admitted checks
      obtain ⟨hstate, hjournal⟩ :=
        (writeAhead_atomic hinactive).mpr (hprepared baseline w₁ checks) _ _ ahead
      exact ⟨hstate.trans look.state_, hjournal.trans (journal_of_looking look)⟩
    | undone _ _ _ _ asks => exact absurd hasked asks

/-- An `apply` that throws after it has asked the kernel ends with its rollback. -/
theorem apply_settles {e : Exn} (run : apply c w = (.threw e, w')) (hasks : asked w' ≠ asked w) :
    ∃ k s, rollbacks w' = rollbacks w ++ [(c, k, s)] ∧
      (Settled w'.state_ ↔ firstWriteFails s = false) := by
  cases apply_threw run with
  | rejected look => exact absurd (asked_looking look) hasks
  | unjournaled checks ahead =>
    have look := looking_eq (looking_checkAdmission c) checks
    exact absurd ((records_writeAhead ahead).2.trans (asked_looking look)) hasks
  | @undone w₃ o readable undo ends begun _ =>
    refine ⟨w₃.kernel, w₃.supply, begun, fun hsettled => ?_, fun hwrite =>
      restore_settles undo ends readable hwrite⟩
    rcases restore_attempts undo ends readable with ⟨hwrite, -, -⟩ | ⟨-, hrolling, -⟩
    · exact hwrite
    · rcases hsettled with hs | hs <;> exact absurd (hs.unique hrolling) (by decide)

end Apply

/-- What a call that throws leaves, in any state a run reaches between two
calls. A `confirm` in time leaves the configuration pending in memory and in
the journal exactly if its journal write does not fail. An `apply` that throws
without asking the kernel for anything leaves both untouched exactly if, where
its checks pass, it is prepared. One that throws after that ends inactive or
rollback_failed exactly if the first journal write of its rollback does not fail. -/
theorem atomic_unless_unwritten {fresh : Node} (hfresh : Fresh fresh)
    {calls : List (Call × Supply)} (halive : (fresh.run calls).alive = true) (supply : Supply) :
    (HasStatus "awaiting_confirmation" (fresh.run calls).world.state_ →
      InTime supply (fresh.run calls).world →
      (ConfirmAtomic (supplied (fresh.run calls).world supply) ↔
        ((fresh.run calls).world.enabled = true → firstWriteFails supply = false))) ∧
    (∀ c, ApplyUntouched c (supplied (fresh.run calls).world supply) ↔
      ∀ baseline w₁, checkAdmission c (supplied (fresh.run calls).world supply) =
        (.returned baseline, w₁) → Prepared c baseline w₁) ∧
    ∀ c e w', apply c (supplied (fresh.run calls).world supply) = (.threw e, w') →
      asked w' ≠ asked (fresh.run calls).world →
      ∃ k s, rollbacks w' = rollbacks (fresh.run calls).world ++ [(c, k, s)] ∧
        (Settled w'.state_ ↔ firstWriteFails s = false) := by
  refine ⟨fun hpending hintime => ?_, fun c => apply_untouched, fun c e w' run hasks => ?_⟩
  · refine confirm_atomic (w := supplied (fresh.run calls).world supply) hpending hintime
      fun hoff => ?_
    exact (disabled_level hfresh calls halive hoff).same rfl rfl
  · exact apply_settles (w := supplied (fresh.run calls).world supply) run hasks

/-- The journal write of a call fails. -/
def unwritable : Supply := { answering with puts := [.refused "disk I/O error"] }

/-- A confirmation in time whose journal write goes through. -/
theorem atomic_unless_unwritten_example :
    ConfirmAtomic (supplied pendingNode.world answering) := by
  have hatomic := (@atomic_unless_unwritten exampleNode exampleNode_fresh
    [(.construct true, answering), (.apply exampleConfig, answering)] (by decide +kernel)
    answering).1
  have hintime : InTime answering pendingNode.world :=
    ⟨pendingNode_awaiting, 1000000000, _, rfl, by decide +kernel⟩
  exact (hatomic pendingNode_awaiting hintime).mpr fun _ => rfl

/-- A confirmation in time whose journal write is refused throws and leaves
memory confirmed, while the journal still waits for the confirmation. -/
theorem confirm_half_done :
    HasStatus "awaiting_confirmation" pendingNode.world.state_ ∧
    InTime unwritable pendingNode.world ∧
    ¬ ConfirmAtomic (supplied pendingNode.world unwritable) := by
  have hintime : InTime unwritable pendingNode.world :=
    ⟨pendingNode_awaiting, 1000000000, _, rfl, by decide +kernel⟩
  refine ⟨pendingNode_awaiting, hintime, fun hatomic => ?_⟩
  have hon : pendingNode.world.enabled = true := by decide +kernel
  have hwrite := (confirm_atomic (w := supplied pendingNode.world unwritable)
    pendingNode_awaiting hintime fun hoff => absurd (hon.symm.trans hoff) (by decide)).mp
      hatomic hon
  cases hwrite

end Magicbox.Guarantees.Atomicity
