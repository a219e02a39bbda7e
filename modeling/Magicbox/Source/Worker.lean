import Magicbox.Library.Runs
import Magicbox.Source.ControllerRuns

/-!
# The serialized worker

server.cpp: all controller methods run on one worker, `ApplianceRuntime::work`,
which ticks the controller before each task and, once told to stop, rolls a
pending configuration back. A run is a list of calls, each with the answers its
environment gives. A supply that runs out during a call is a crash: the process
is gone, and the next call that has an effect is a construction, which finds
what the kernel and the store hold.
-/

set_option autoImplicit false

namespace Magicbox.Source.Worker
open Library.Crash Json Config Netns NetworkController

inductive Call where
  | construct (enabled : Bool)
  | apply (c : NetworkConfig)
  | confirm
  | rollback
  | tick
  | state
  | shutdown
  deriving DecidableEq

/-- The end of `work`: a pending configuration is rolled back. -/
def shutdown : Controller Unit := do
  let s ← state
  if (s.get "status").eqString "awaiting_confirmation" then rollback else pure ()

def Call.body : Call → Controller Unit
  | .construct enabled => NetworkController.construct enabled
  | .apply c => NetworkController.apply c
  | .confirm => NetworkController.confirm
  | .rollback => NetworkController.rollback
  | .tick => NetworkController.tick
  | .state => do let _ ← NetworkController.state
  | .shutdown => Worker.shutdown

/-- The host, and whether a process with a controller runs on it. -/
structure Node where
  world : World
  alive : Bool

/-- Construction starts a process; the other calls need one. -/
def Call.starts : Call → Bool
  | .construct _ => true
  | _ => false

/-- A constructor that throws leaves no controller; a method that throws leaves
the controller it was called on. -/
def Call.survives (call : Call) : Outcome Exn Unit → Bool
  | .returned _ => true
  | .threw _ => !call.starts
  | .crashed => false

def supplied (w : World) (supply : Supply) : World := { w with supply := supply }

def Node.step (n : Node) (event : Call × Supply) : Node :=
  if n.alive || event.1.starts then
    let ending := event.1.body (supplied n.world event.2)
    ⟨ending.2, event.1.survives ending.1⟩
  else n

/-- A construction runs whether or not an earlier process is left. -/
theorem Node.step_construct (n : Node) (enabled : Bool) (supply : Supply) :
    n.step (.construct enabled, supply) =
      ⟨(construct enabled (supplied n.world supply)).2,
        Call.survives (.construct enabled) (construct enabled (supplied n.world supply)).1⟩ := by
  simp [Node.step, Call.starts, Call.body]

abbrev Node.run : Node → List (Call × Supply) → Node := Library.Runs.run Node.step

section Step
variable {n : Node} {event : Call × Supply}

theorem Node.run_snoc (boot : Node) (calls : List (Call × Supply)) (event : Call × Supply) :
    boot.run (calls ++ [event]) = (boot.run calls).step event :=
  Library.Runs.run_snoc _ _ _

theorem step_dead (hcall : event.1.starts = false) (h : n.alive = false) : n.step event = n := by
  simp [Node.step, h, hcall]

theorem step_live (h : n.alive = true) : n.step event =
    ⟨(event.1.body (supplied n.world event.2)).2,
      event.1.survives (event.1.body (supplied n.world event.2)).1⟩ := by
  simp [Node.step, h]

theorem alive_of_step (hcall : event.1.starts = false) (h : (n.step event).alive = true) :
    n.alive = true := by
  cases hn : n.alive with
  | true => rfl
  | false =>
    rw [step_dead hcall hn, hn] at h
    cases h

end Step

/-! ## An example host -/

def examplePort : Link where
  address := [2, 0, 0, 0, 0, 1]
  up := false
  disableIpv6 := "0"
  rpFilter := "2"

/-- The example configuration, on the outer port itself. -/
def untaggedConfig : NetworkConfig := { exampleConfig with vlanId := none }

/-- A host with the two ports of `exampleConfig` and none of the reserved resources. -/
def exampleKernel : Kernel where
  links := fun name => if name = "outer0" ∨ name = "inner0" then some examplePort else none
  routes := []
  rules := []
  tables := []
  ipForward := "0"
  rpFilterAll := "2"
  numericTables := true

/-- The daemon before its first start. -/
def exampleNode : Node := ⟨{ kernel := exampleKernel, store := ⟨fun _ => none⟩ }, false⟩

/-- Enough answers for any call, all of them positive. -/
def answering : Supply where
  clock := List.replicate 4 1000000000
  probes := List.replicate 40 .done
  kernel := List.replicate 60 .done
  puts := List.replicate 8 .done

/-- The example host with its configuration pending. -/
def pendingNode : Node :=
  exampleNode.run [(.construct true, answering), (.apply exampleConfig, answering)]

/-! ## Properties of whole runs -/

/-- How the end of the worker's loop can end. -/
inductive ShutdownRun (w : World) : Outcome Exn Unit → World → Prop
  | idle (h : w.state_.get "status" ≠ .string "awaiting_confirmation") :
    ShutdownRun w (.returned ()) w
  | unclocked (h : w.state_.get "status" = .string "awaiting_confirmation")
    (clock : w.supply.clock = []) : ShutdownRun w .crashed w
  | rolled {elapsed rest o w'} (h : w.state_.get "status" = .string "awaiting_confirmation")
    (clock : w.supply.clock = elapsed :: rest)
    (run : rollback (advanced elapsed rest w) = (o, w')) : ShutdownRun w o w'

theorem shutdown_run (w : World) : ShutdownRun w (shutdown w).1 (shutdown w).2 := by
  have hstate := state_run w
  unfold shutdown
  rcases hrun : state w with ⟨v | e | _, w₁⟩ <;> rw [hrun] at hstate
  · rw [bind_returned hrun]
    cases hstate with
    | plain h same =>
      rw [same, if_neg fun he => h (Value.eqString_iff.mp he)]
      exact .idle h
    | timed h clock same =>
      rw [same, if_pos (Value.eqString_iff.mpr h)]
      exact .rolled h clock rfl
  · cases hstate
  · rw [bind_crashed hrun]
    cases hstate with
    | unclocked h clock => exact .unclocked h clock

/-- A call that goes on leaves `I`; one that is cut leaves `J` at least. -/
def Ends {α : Type} (I J : World → Prop) (ending : Outcome Exn α × World) : Prop :=
  J ending.2 ∧ (ending.1 ≠ .crashed → I ending.2)

/-- What the parts of every call keep: `I` while a process runs, and of the
host alone, once it is gone, `J`. The answers of the environment are in `S`. -/
structure Kept (S : Supply → Prop) (I J : World → Prop) : Prop where
  host : ∀ w, I w → J w
  suppliedHost : ∀ w supply, S supply → J w → J (supplied w supply)
  supplied : ∀ w supply, S supply → I w → I (supplied w supply)
  looked : ∀ w w', Looking w w' → I w → I w'
  advanced : ∀ elapsed rest w, I w → I (advanced elapsed rest w)
  loading : ∀ enabled w, J w → I (loading enabled w)
  initial : ∀ w, I w → I (withState w (initial w.state_))
  restore : ∀ w, w.state_.get "status" ≠ .string "inactive" → I w → Ends I J (restore w)
  apply : ∀ c w, I w → Ends I J (NetworkController.apply c w)
  confirmed : ∀ w, w.state_.get "status" = .string "awaiting_confirmation" → I w →
    Ends I J (putState (withState w (w.state_.set "status" (.string "confirmed"))))

section Kept
variable {S : Supply → Prop} {I J : World → Prop}

theorem Kept.ends {α : Type} (h : Kept S I J) {o : Outcome Exn α} {w : World} (hw : I w) :
    Ends I J (o, w) :=
  ⟨h.host w hw, fun _ => hw⟩

/-- A run that returned went on. -/
theorem Ends.returned {α : Type} {a : α} {w : World} (h : Ends I J (.returned a, w)) : I w :=
  h.2 (by simp)

theorem Kept.tick (h : Kept S I J) (w : World) (hw : I w) :
    Ends I J (NetworkController.tick w) := by
  have hrun := tick_run w
  generalize NetworkController.tick w = ending at hrun ⊢
  obtain ⟨o, w'⟩ := ending
  cases hrun with
  | idle _ => exact h.ends hw
  | unclocked _ _ => exact h.ends hw
  | early _ _ _ => exact h.ends (h.advanced _ _ _ hw)
  | @expired elapsed rest _ _ pending _ _ run =>
    refine run ▸ h.restore _ (fun hs => ?_) (h.advanced elapsed rest w hw)
    have := pending.2.symm.trans hs
    simp at this

theorem Kept.confirm (h : Kept S I J) (w : World) (hw : I w) :
    Ends I J (NetworkController.confirm w) := by
  have hrun := confirm_run w
  generalize NetworkController.confirm w = ending at hrun ⊢
  obtain ⟨o, w'⟩ := ending
  cases hrun with
  | disabled _ => exact h.ends hw
  | unticked tick _ => exact tick ▸ h.tick w hw
  | @nothing _ w₁ tick _ => exact h.ends (Ends.returned (tick ▸ h.tick w hw))
  | @put w₁ _ _ _ tick hs put =>
    exact put ▸ h.confirmed w₁ hs (Ends.returned (tick ▸ h.tick w hw))

theorem Kept.rollback (h : Kept S I J) (w : World) (hw : I w) :
    Ends I J (NetworkController.rollback w) := by
  have hrun := rollback_run w
  generalize NetworkController.rollback w = ending at hrun ⊢
  obtain ⟨o, w'⟩ := ending
  cases hrun with
  | disabled _ => exact h.ends hw
  | inactive _ => exact h.ends hw
  | run _ busy run => exact run ▸ h.restore w busy hw

theorem Kept.state (h : Kept S I J) (w : World) (hw : I w) :
    Ends I J (NetworkController.state w) := by
  have hrun := state_run w
  generalize NetworkController.state w = ending at hrun ⊢
  obtain ⟨o, w'⟩ := ending
  cases hrun with
  | plain _ _ => exact h.ends hw
  | unclocked _ _ => exact h.ends hw
  | timed _ _ _ => exact h.ends (h.advanced _ _ _ hw)

theorem Kept.shutdown (h : Kept S I J) (w : World) (hw : I w) :
    Ends I J (Worker.shutdown w) := by
  have hrun := shutdown_run w
  generalize Worker.shutdown w = ending at hrun ⊢
  obtain ⟨o, w'⟩ := ending
  cases hrun with
  | idle _ => exact h.ends hw
  | unclocked _ _ => exact h.ends hw
  | @rolled elapsed rest _ _ _ _ run => exact run ▸ h.rollback _ (h.advanced elapsed rest w hw)

theorem Kept.construct (h : Kept S I J) (enabled : Bool) (w : World) (hw : J w) :
    Ends I J (NetworkController.construct enabled w) := by
  have started : ∀ {w₁}, Looking (NetworkController.loading enabled w) w₁ →
      I (withState w₁ (NetworkController.initial w₁.state_)) := fun look =>
    h.initial _ (h.looked _ _ look (h.loading enabled w hw))
  have restored : ∀ {w₁ o w₂}, Looking (NetworkController.loading enabled w) w₁ →
      (NetworkController.initial w₁.state_).get "status" ≠ .string "inactive" →
      NetworkController.restore (withState w₁ (NetworkController.initial w₁.state_)) = (o, w₂) →
      Ends I J (o, w₂) := fun look busy run => run ▸ h.restore _ busy (started look)
  have confirmed : ∀ {v : Value}, v.get "status" = .string "confirmed" →
      v.get "status" ≠ .string "inactive" := fun hv hs => by
    have := hv.symm.trans hs
    simp at this
  have applied : ∀ {w₁ w₂ c o w₃}, Looking (NetworkController.loading enabled w) w₁ →
      (NetworkController.initial w₁.state_).get "status" = .string "confirmed" →
      NetworkController.restore (withState w₁ (NetworkController.initial w₁.state_)) =
        (.returned (), w₂) → NetworkController.apply c w₂ = (o, w₃) → Ends I J (o, w₃) :=
    fun look hs run again => again ▸ h.apply _ _ (restored look (confirmed hs) run).returned
  have hrun := construct_run enabled w
  generalize NetworkController.construct enabled w = ending at hrun ⊢
  obtain ⟨o, w'⟩ := ending
  cases hrun with
  | lockedOut look _ => exact h.ends (h.looked _ _ look (h.loading enabled w hw))
  | malformed look _ => exact h.ends (started look)
  | idle look _ => exact h.ends (started look)
  | unrestored look _ busy run _ => exact restored look busy run
  | restored look _ busy run _ => exact restored look busy run
  | unapplied look _ hs run _ again _ => exact applied look hs run again
  | reapplied look _ hs run _ again confirm =>
    exact confirm ▸ h.confirm _ (applied look hs run again).returned

theorem Kept.body (h : Kept S I J) (call : Call) (w : World)
    (hw : if call.starts then J w else I w) : Ends I J (call.body w) := by
  cases call with
  | construct enabled => exact h.construct enabled w hw
  | apply c => exact h.apply c w hw
  | confirm => exact h.confirm w hw
  | rollback => exact h.rollback w hw
  | tick => exact h.tick w hw
  | shutdown => exact h.shutdown w hw
  | state =>
    have hstate := h.state w hw
    simp only [Call.body]
    rw [bind_run]
    rcases hrun : NetworkController.state w with ⟨v | e | _, w₁⟩ <;> rw [hrun] at hstate
    · exact h.ends hstate.returned
    · exact h.ends (hstate.2 (by simp))
    · exact ⟨hstate.1, fun ho => absurd rfl ho⟩

theorem Kept.step (h : Kept S I J) {n : Node} {event : Call × Supply} (hS : S event.2)
    (hn : J n.world ∧ (n.alive = true → I n.world)) :
    J (n.step event).world ∧ ((n.step event).alive = true → I (n.step event).world) := by
  unfold Node.step
  split
  · next hon =>
    have hends := h.body event.1 (Worker.supplied n.world event.2) (by
      split
      · exact h.suppliedHost _ _ hS hn.1
      · next hstarts =>
        have halive : n.alive = true := by simpa [hstarts] using hon
        exact h.supplied _ _ hS (hn.2 halive))
    refine ⟨hends.1, fun halive => hends.2 fun hcrash => ?_⟩
    have hsurvives : event.1.survives (event.1.body (Worker.supplied n.world event.2)).1 = true :=
      halive
    rw [hcrash] at hsurvives
    cases event.1 <;> cases hsurvives
  · exact hn

/-- What the parts of every call keep holds between the calls of every run. -/
theorem Kept.run (h : Kept S I J) {n : Node} (start : J n.world ∧ (n.alive = true → I n.world))
    {calls : List (Call × Supply)} (hS : ∀ event ∈ calls, S event.2) :
    J (n.run calls).world ∧ ((n.run calls).alive = true → I (n.run calls).world) :=
  Library.Runs.invariant (P := fun event : Call × Supply => S event.2)
    (I := fun n : Node => J n.world ∧ (n.alive = true → I n.world))
    (fun _ _ hevent hn => h.step hevent hn) start hS

end Kept

end Magicbox.Source.Worker
