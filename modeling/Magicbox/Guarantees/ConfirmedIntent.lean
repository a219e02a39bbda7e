import Magicbox.Source.JournalWrites
import Magicbox.Source.Worker

/-!
# A confirmed configuration across restarts

api.md: a confirmed configuration is applied again on restart. That it was
confirmed is known to the constructor alone once its rollback has written
`rolling_back` over the status, and nobody remembers it if the construction
does not get as far as its own `confirm`. A run of constructions that are only
stopped outside that window ends with the configuration confirmed.
-/

set_option autoImplicit false

namespace Magicbox.Guarantees.ConfirmedIntent
open Library.Crash Source Source.Json Source.Config Source.ConfigJson Source.Nftables Source.Netns
  Source.NetworkController Source.Worker

/-- The state names the configuration. -/
def Readable (c : NetworkConfig) (v : Value) : Prop := configFromJson (v.get "config") = .ok c

/-- It names it as the confirmed one. -/
def Confirmed (c : NetworkConfig) (v : Value) : Prop :=
  Readable c v ∧ v.get "status" = .string "confirmed"

section Writes
variable {c : NetworkConfig}

theorem Readable.agree {v v' : Value} (h : Readable c v) (agree : Agree v v') : Readable c v' := by
  unfold Readable
  rw [agree "config" (by decide)]
  exact h

theorem Readable.restates {w w' : World} (h : Readable c w.state_) (restates : Restates w w') :
    Readable c w'.state_ ∧ Wrote (Readable c) w w' :=
  ⟨h.agree restates.memory, restates.wrote.imp fun _ hv => h.agree hv⟩

theorem readable_applying (hvalid : validate c = []) (baseline : Value) (k : Kernel) (v : Value) :
    Readable c (applying c baseline k v) := by
  unfold Readable applying
  rw [Value.get_set_of_ne _ (by decide), Value.get_set_of_ne _ (by decide),
    Value.get_set_of_ne _ (by decide), drafted, Value.get_set_of_ne _ (by decide),
    Value.get_set_self]
  exact configFromJson_configJson hvalid

theorem writeAhead_wrote {baseline : Value} {w w' : World} {o : Outcome Exn Unit}
    (hvalid : validate c = []) (run : writeAhead c baseline w = (o, w')) :
    Wrote (Readable c) w w' ∧ (o = .returned () → Readable c w'.state_) := by
  have hrun := writeAhead_run c baseline w
  rw [run] at hrun
  cases hrun with
  | @unread _ w₁ draft look _ ho =>
    have hquiet : Wrote (Readable c) w w₁ := Wrote.quiet look.toQuiet
    exact ⟨hquiet, fun hret => absurd hret ho⟩
  | @put w₁ _ _ look put =>
    have hreadable : Readable c (admitting c baseline w₁).state_ :=
      readable_applying hvalid _ _ _
    have hadmitted : Wrote (Readable c) w₁ (admitting c baseline w₁) :=
      ⟨[.admitted c w₁.kernel], rfl, by simp, rfl⟩
    refine ⟨((Wrote.quiet look.toQuiet).trans hadmitted).trans (Wrote.put hreadable
      (putState_cases put)), fun _ => ?_⟩
    rw [(putState_effect put).state_]
    exact hreadable

/-- Everything `apply` writes names its configuration. -/
theorem apply_wrote {w w' : World} {o : Outcome Exn Unit} (run : apply c w = (o, w')) :
    Wrote (Readable c) w w' ∧ (o = .returned () → Readable c w'.state_) := by
  have hrun := apply_run c w
  rw [run] at hrun
  have active : ∀ {baseline w₁ w₂ o₁ w₃}, Looking w w₁ → Admitted c baseline w →
      writeAhead c baseline w₁ = (.returned (), w₂) → activate c w₂ = (o₁, w₃) →
      Readable c w₃.state_ ∧ Wrote (Readable c) w w₃ := by
    intro baseline w₁ w₂ o₁ w₃ look adm ahead act
    obtain ⟨hwrote, hreadable⟩ := writeAhead_wrote adm.valid ahead
    obtain ⟨hstate, hrest⟩ := (hreadable rfl).restates (restates_eq (restates_activate c) act)
    exact ⟨hstate, ((Wrote.quiet look.toQuiet).trans hwrote).trans hrest⟩
  cases hrun with
  | rejected look ho => exact ⟨Wrote.quiet look.toQuiet, fun hret => absurd hret ho⟩
  | unjournaled look adm ahead ho =>
    exact ⟨(Wrote.quiet look.toQuiet).trans (writeAhead_wrote adm.valid ahead).1,
      fun hret => absurd hret ho⟩
  | pending look adm ahead act =>
    obtain ⟨hstate, hwrote⟩ := active look adm ahead act
    exact ⟨hwrote, fun _ => hstate⟩
  | cut look adm ahead act =>
    exact ⟨(active look adm ahead act).2, fun hret => by cases hret⟩
  | @undone _ _ _ _ _ o₁ _ look adm ahead act undo =>
    obtain ⟨hstate, hwrote⟩ := active look adm ahead act
    have hrest := (hstate.restates (restates_eq restates_restore undo)).2
    refine ⟨hwrote.trans hrest, fun hret => ?_⟩
    cases o₁ <;> cases hret

/-- A `confirm` that returns leaves the status confirmed, in memory and in the journal. -/
theorem confirm_returned {w w' : World} (h : Readable c w.state_)
    (run : confirm w = (.returned (), w')) :
    Confirmed c w'.state_ ∧ Confirmed c (journal w') := by
  have hrun := confirm_run w
  rw [run] at hrun
  cases hrun with
  | unticked _ ho => exact absurd rfl ho
  | @put w₁ _ _ _ tick _ put =>
    have effect := putState_effect put
    have hreadable := (h.restates (restates_eq restates_tick tick)).1
    have hconfirmed : Confirmed c (w₁.state_.set "status" (.string "confirmed")) := by
      refine ⟨?_, Value.get_set_self _ _ _⟩
      unfold Readable
      rw [Value.get_set_of_ne _ (by decide)]
      exact hreadable
    exact ⟨effect.state_ ▸ hconfirmed, (effect.done rfl) ▸ hconfirmed⟩

/-- A construction over a confirmed journal writes that configuration only, and
if it completes, it completes with the configuration confirmed. -/
theorem construct_confirmed {w w' : World} {o : Outcome Exn Unit} (h : Confirmed c (journal w))
    (run : construct true w = (o, w')) :
    Wrote (Readable c) w w' ∧
      (o = .returned () → Confirmed c w'.state_ ∧ Confirmed c (journal w')) := by
  have hrun := construct_run true w
  rw [run] at hrun
  have loaded : ∀ {w₁}, Looking (loading true w) w₁ → initial w₁.state_ = journal w ∧
      Wrote (Readable c) w w₁ := by
    intro w₁ look
    have hstate : w₁.state_ = journal w := look.state_
    have hquiet : Wrote (Readable c) (loading true w) w₁ := Wrote.quiet look.toQuiet
    refine ⟨?_, hquiet⟩
    rw [hstate]
    unfold initial
    split
    · next hnull =>
      have hconfirmed := h.2
      cases hv : journal w <;> rw [hv] at hconfirmed hnull <;>
        first | cases hconfirmed | cases hnull
    · rfl
  have restored : ∀ {w₁ o₁ w₂}, Looking (loading true w) w₁ →
      restore (withState w₁ (initial w₁.state_)) = (o₁, w₂) → Wrote (Readable c) w w₂ := by
    intro w₁ o₁ w₂ look run₁
    obtain ⟨hinitial, hwrote⟩ := loaded look
    have hstart : Readable c (withState w₁ (initial w₁.state_)).state_ := by
      change Readable c (initial w₁.state_)
      rw [hinitial]
      exact h.1
    exact hwrote.trans (hstart.restates (restates_eq restates_restore run₁)).2
  have same : ∀ {w₁ c'}, Looking (loading true w) w₁ →
      configFromJson ((initial w₁.state_).get "config") = .ok c' → c' = c := by
    intro w₁ c' look hc
    rw [(loaded look).1] at hc
    exact Except.ok.inj (hc.symm.trans h.1)
  cases hrun with
  | lockedOut look ho => exact ⟨(loaded look).2, fun hret => absurd hret ho⟩
  | malformed look _ => exact ⟨(loaded look).2, fun hret => by cases hret⟩
  | idle look hidle =>
    rw [(loaded look).1, h.2] at hidle
    rcases hidle with hs | hs
    · simp at hs
    · cases hs
  | unrestored look _ _ run₁ ho => exact ⟨restored look run₁, fun hret => absurd hret ho⟩
  | restored look _ _ _ hs =>
    rw [(loaded look).1] at hs
    exact absurd h.2 hs
  | unapplied look _ _ run₁ hc again ho =>
    obtain rfl := same look hc
    exact ⟨(restored look run₁).trans (apply_wrote again).1, fun hret => absurd hret ho⟩
  | reapplied look _ _ run₁ hc again confirm =>
    obtain rfl := same look hc
    obtain ⟨hwrote, hreadable⟩ := apply_wrote again
    have hconfirm := (hreadable rfl).restates (restates_eq restates_confirm confirm)
    refine ⟨((restored look run₁).trans hwrote).trans hconfirm.2, fun hret => ?_⟩
    rw [hret] at confirm
    exact confirm_returned (hreadable rfl) confirm

end Writes

/-! ## Sequences of constructions -/

/-- Nothing the construction wrote has reached the journal, or the last thing
that has is the status its own `confirm` wrote. -/
def Settled (acts : List Act) : Bool :=
  (lastWritten acts).all fun v => (v.get "status").eqString "confirmed"

/-- No construction is stopped between its first journal write and its last. -/
def AllSettled : Node → List Supply → Prop
  | _, [] => True
  | n, supply :: rest =>
    Settled ((n.step (.construct true, supply)).world.log.drop n.world.log.length) = true ∧
      AllSettled (n.step (.construct true, supply)) rest

def constructions (supplies : List Supply) : List (Call × Supply) :=
  supplies.map fun supply => (.construct true, supply)

instance decidableAllSettled : ∀ n supplies, Decidable (AllSettled n supplies)
  | _, [] => inferInstanceAs (Decidable True)
  | n, supply :: rest =>
    have := decidableAllSettled (n.step (.construct true, supply)) rest
    inferInstanceAs (Decidable (_ ∧ _))

section Constructions
variable {c : NetworkConfig}

theorem step_wrote {n : Node} (h : Confirmed c (journal n.world)) (supply : Supply) :
    Wrote (Readable c) n.world (n.step (.construct true, supply)).world ∧
      ((n.step (.construct true, supply)).alive = true →
        Confirmed c (n.step (.construct true, supply)).world.state_ ∧
          Confirmed c (journal (n.step (.construct true, supply)).world)) := by
  rw [Node.step_construct]
  rcases hrun : construct true (supplied n.world supply) with ⟨o, w'⟩
  obtain ⟨hwrote, hreturned⟩ := construct_confirmed (w := supplied n.world supply) h hrun
  refine ⟨hwrote, fun halive => hreturned ?_⟩
  cases o with
  | returned => rfl
  | threw | crashed => cases halive

/-- A construction that is stopped outside the window leaves the journal confirmed. -/
theorem settled_confirmed {w w' : World} (h : Confirmed c (journal w))
    (wrote : Wrote (Readable c) w w') (settled : Settled (w'.log.drop w.log.length) = true) :
    Confirmed c (journal w') := by
  obtain ⟨acts, hlog, hreadable, hjournal⟩ := wrote
  rw [hlog, List.drop_left] at settled
  rw [hjournal]
  cases hlast : lastWritten acts with
  | none => exact h
  | some v =>
    obtain ⟨answer, hv⟩ := lastWritten_mem hlast
    rw [Settled, hlast] at settled
    exact ⟨hreadable v answer hv, Value.eqString_iff.mp settled⟩

theorem constructions_confirmed {n : Node} (h : Confirmed c (journal n.world))
    {supplies : List Supply} (settled : AllSettled n supplies) :
    Confirmed c (journal (n.run (constructions supplies)).world) := by
  induction supplies generalizing n with
  | nil => exact h
  | cons supply rest ih =>
    exact ih (settled_confirmed h (step_wrote h supply).1 settled.1) settled.2

/-- In every sequence of constructions in which the earlier ones were stopped,
if at all, outside the window between their first journal write and the one
of their `confirm`, a last one that completes ends with the configuration confirmed. -/
theorem confirmed_survives_recovery {n : Node} (h : Confirmed c (journal n.world))
    {earlier : List Supply} (settled : AllSettled n earlier) {last : Supply}
    (completes : (n.run (constructions (earlier ++ [last]))).alive = true) :
    Confirmed c (n.run (constructions (earlier ++ [last]))).world.state_ ∧
      Confirmed c (journal (n.run (constructions (earlier ++ [last]))).world) := by
  have hsplit : n.run (constructions (earlier ++ [last])) =
      (n.run (constructions earlier)).step (.construct true, last) := by
    simp [constructions, Node.run, Library.Runs.run_append]
  rw [hsplit] at completes ⊢
  exact (step_wrote (constructions_confirmed h settled) last).2 completes

end Constructions

/-- The host after the daemon confirmed a configuration and stopped. -/
def confirmedNode : Node :=
  ⟨(exampleNode.run [(.construct true, answering), (.apply exampleConfig, answering),
    (.confirm, answering)]).world, false⟩

theorem confirmed_confirmedNode : Confirmed exampleConfig (journal confirmedNode.world) :=
  ⟨by unfold Readable; decide +kernel, Value.eqString_iff.mp (by decide +kernel)⟩

/-- Cut before the first journal write, then left alone. -/
theorem confirmed_survives_recovery_example :
    Confirmed exampleConfig (confirmedNode.run (constructions
      ([{ answering with puts := [] }] ++ [answering]))).world.state_ ∧
    Confirmed exampleConfig (journal (confirmedNode.run (constructions
      ([{ answering with puts := [] }] ++ [answering]))).world) :=
  confirmed_survives_recovery confirmed_confirmedNode (by decide +kernel) (by decide +kernel)

/-- Cut right after the first journal write of the recovery: the next
construction completes with nothing applied. -/
theorem confirmed_lost_by_crash :
    Confirmed exampleConfig (journal confirmedNode.world) ∧
    (confirmedNode.run (constructions [{ answering with kernel := [] }])).alive = false ∧
    (confirmedNode.run (constructions [{ answering with kernel := [] }, answering])).alive = true ∧
    ¬ Confirmed exampleConfig (confirmedNode.run
      (constructions [{ answering with kernel := [] }, answering])).world.state_ := by
  refine ⟨confirmed_confirmedNode, by decide +kernel, by decide +kernel, fun h => ?_⟩
  have hstatus : ((confirmedNode.run (constructions
      [{ answering with kernel := [] }, answering])).world.state_.get "status").eqString
        "inactive" = true := by decide +kernel
  rw [Value.eqString_iff, h.2] at hstatus
  simp at hstatus

end Magicbox.Guarantees.ConfirmedIntent
