import Magicbox.Source.StatusChanges

/-!
# Control that is not enabled

The daemon controls the network only when it is started with --allow-network.
Without it a run may find any journal, also one that a controller left behind
in the middle of its work, and take any calls: it asks nothing of the kernel and
writes nothing, and every request for a change is refused.
-/

set_option autoImplicit false

namespace Magicbox.Guarantees.DisabledControl
open Library.Crash Source Source.Json Source.Config Source.Netns Source.NetworkController
  Source.Worker Source.StatusChanges

/-- Nothing but the clock, the answers and the memory of the controller changed. -/
structure Inert (w w' : World) : Prop where
  kernel : w'.kernel = w.kernel
  store : w'.store = w.store
  log : w'.log = w.log
  enabled : w'.enabled = false

section Calls
variable {w w' : World} {o : Outcome Exn Unit}

theorem Inert.refl (h : w.enabled = false) : Inert w w := ⟨rfl, rfl, rfl, h⟩

theorem Inert.looked (h : w.enabled = false) (look : Looking w w') : Inert w w' :=
  ⟨look.kernel, look.store, look.sameLog, look.enabled.trans h⟩

theorem Inert.advanced (h : w.enabled = false) (elapsed : Nat) (rest : List Nat) :
    Inert w (advanced elapsed rest w) := ⟨rfl, rfl, rfl, h⟩

theorem tick_disabled (h : w.enabled = false) : tick w = (.returned (), w) := by
  have hrun := tick_run w
  rcases htick : tick w with ⟨o, w'⟩
  rw [htick] at hrun
  have idle : ¬ NetworkController.Pending w := fun hp => by cases h.symm.trans hp.1
  cases hrun with
  | idle _ => rfl
  | unclocked hp _ => exact absurd hp idle
  | early hp _ _ => exact absurd hp idle
  | expired hp _ _ _ => exact absurd hp idle

theorem construct_inert (run : construct false w = (o, w')) : Inert w w' := by
  have hrun := construct_run false w
  rw [run] at hrun
  have looked : ∀ {w₁}, Looking (loading false w) w₁ → Inert w w₁ := fun look =>
    ⟨look.kernel, look.store, look.sameLog, look.enabled⟩
  cases hrun with
  | lockedOut look _ => exact looked look
  | @malformed _ w₁ look _ =>
    have hend := looked look
    exact ⟨hend.kernel, hend.store, hend.log, hend.enabled⟩
  | @idle w₁ look _ =>
    have hend := looked look
    exact ⟨hend.kernel, hend.store, hend.log, hend.enabled⟩
  | unrestored _ on _ _ _ => cases on
  | restored _ on _ _ _ => cases on
  | unapplied _ on _ _ _ _ _ => cases on
  | reapplied _ on _ _ _ _ _ => cases on

/-- The calls that ask for a change. -/
def Mutating (call : Call) : Prop :=
  (∃ c, call = .apply c) ∨ call = .confirm ∨ call = .rollback

/-- A change that is asked for is refused, before anything was looked at. -/
theorem mutating_refused (h : w.enabled = false) {call : Call} (mutating : Mutating call) :
    ∃ what, call.body w = (.threw (.runtimeError what), w) := by
  rcases mutating with ⟨c, rfl⟩ | rfl | rfl
  · have hcheck : ∃ what, checkAdmission c w = (.threw (.runtimeError what), w) := by
      unfold checkAdmission
      rw [bind_returned (read_run _ w), h]
      exact ⟨_, rfl⟩
    obtain ⟨what, hcheck⟩ := hcheck
    exact ⟨what, bind_threw hcheck⟩
  · refine ⟨"Network changes disabled", ?_⟩
    change confirm w = _
    unfold confirm
    rw [bind_returned (read_run _ w), h]
    rfl
  · refine ⟨"Network changes disabled", ?_⟩
    change rollback w = _
    unfold rollback
    rw [bind_returned (read_run _ w), h]
    rfl

theorem body_inert (h : w.enabled = false) {call : Call} (hcall : call.starts = false)
    (run : call.body w = (o, w')) : Inert w w' := by
  have refused : Mutating call → Inert w w' := by
    intro mutating
    obtain ⟨what, hbody⟩ := mutating_refused h mutating
    rw [hbody] at run
    cases run
    exact .refl h
  cases call with
  | construct _ => cases hcall
  | apply c => exact refused (.inl ⟨c, rfl⟩)
  | confirm => exact refused (.inr (.inl rfl))
  | rollback => exact refused (.inr (.inr rfl))
  | tick =>
    have htick : Call.tick.body w = (.returned (), w) := tick_disabled h
    rw [htick] at run
    cases run
    exact .refl h
  | state =>
    have hrun := state_run w
    rcases hstate : NetworkController.state w with ⟨v | e | _, w₁⟩ <;> rw [hstate] at hrun
    · rw [show Call.state.body w = (.returned (), w₁) from bind_returned hstate] at run
      cases run
      cases hrun with
      | plain _ _ => exact .refl h
      | timed _ _ _ => exact .advanced h _ _
    · cases hrun
    · rw [show Call.state.body w = (.crashed, w₁) from bind_crashed hstate] at run
      cases run
      cases hrun
      exact .refl h
  | shutdown =>
    have hrun := shutdown_run w
    rw [show Worker.shutdown w = (o, w') from run] at hrun
    cases hrun with
    | idle _ => exact .refl h
    | unclocked _ _ => exact .refl h
    | @rolled elapsed rest _ _ _ _ run₁ =>
      have hrollback : Mutating .rollback := .inr (.inr rfl)
      obtain ⟨what, hbody⟩ :=
        mutating_refused (w := NetworkController.advanced elapsed rest w) h hrollback
      cases hbody.symm.trans run₁
      exact .advanced h _ _

end Calls

/-! ## Runs -/

/-- What a host and a process without control keep. -/
structure Untouched (n m : Node) : Prop where
  kernel : m.world.kernel = n.world.kernel
  store : m.world.store = n.world.store
  log : m.world.log = n.world.log
  enabled : m.alive = true → m.world.enabled = false

theorem Untouched.step {n m : Node} (h : Untouched n m) (event : Call × Supply)
    (off : event.1 ≠ .construct true) : Untouched n (m.step event) := by
  obtain ⟨call, answers⟩ := event
  have inert : ∀ {o w'}, call.body (supplied m.world answers) = (o, w') →
      (call.starts = false → m.world.enabled = false) → Inert (supplied m.world answers) w' := by
    intro o w' run henabled
    cases call with
    | construct enabled =>
      cases enabled with
      | true => exact absurd rfl off
      | false => exact construct_inert run
    | _ => exact body_inert (henabled rfl) rfl run
  unfold Node.step
  split
  · next hon =>
    rcases hrun : call.body (supplied m.world answers) with ⟨o, w'⟩
    have hend := inert hrun fun hstarts => h.enabled (by simpa [hstarts] using hon)
    exact ⟨hend.kernel.trans h.kernel, hend.store.trans h.store, hend.log.trans h.log,
      fun _ => hend.enabled⟩
  · exact h

/-- Take a host on which control was never enabled in any process of the run,
whatever its journal and its kernel. Kernel, store and log are as they were,
and as long as a process runs it refuses every change. -/
theorem disabled_inert {n : Node} (dead : n.alive = false) {calls : List (Call × Supply)}
    (off : ∀ event ∈ calls, event.1 ≠ .construct true) :
    (n.run calls).world.kernel = n.world.kernel ∧ (n.run calls).world.store = n.world.store ∧
      (n.run calls).world.log = n.world.log ∧
      ((n.run calls).alive = true → ∀ (call : Call) (answers : Supply), Mutating call →
        ∃ what, call.body (supplied (n.run calls).world answers) =
          (.threw (.runtimeError what), supplied (n.run calls).world answers)) := by
  have start : Untouched n n := ⟨rfl, rfl, rfl, fun halive => by cases dead.symm.trans halive⟩
  have hend : Untouched n (n.run calls) :=
    Library.Runs.invariant (fun _ event hoff h => h.step event hoff) start off
  exact ⟨hend.kernel, hend.store, hend.log,
    fun halive call answers mutating =>
      mutating_refused (w := supplied (n.run calls).world answers) (hend.enabled halive) mutating⟩

/-- The daemon after a crash that left a configuration pending, started without control. -/
theorem disabled_inert_example :
    (Node.run ⟨pendingNode.world, false⟩ [(.construct false, answering), (.tick, answering),
      (.confirm, answering), (.shutdown, answering)]).world.log = pendingNode.world.log := by
  refine (disabled_inert (n := ⟨pendingNode.world, false⟩) rfl fun event hevent => ?_).2.2.1
  simp only [List.mem_cons, List.not_mem_nil, or_false] at hevent
  rcases hevent with rfl | rfl | rfl | rfl <;> simp

end Magicbox.Guarantees.DisabledControl
