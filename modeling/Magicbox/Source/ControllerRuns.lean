import Magicbox.Source.AdmissionChecks

/-!
# How the controller's operations can end

One lemma for each operation, listing every way a run of it can end together
with the states it passed through on the way. The properties of the later
modules are case analyses over these lists; none of them opens an operation again.
-/

set_option autoImplicit false

namespace Magicbox.Source.NetworkController
open Library.Crash Json Config ConfigJson Nftables Netns

/-! ## Restoration steps do not throw -/

theorem noThrow_attemptStep (step : Step) (errors : String) (action : Controller Unit) :
    NoThrow (attemptStep step errors action) :=
  NoThrow.bind (NoThrow.update _) fun _ => NoThrow.attempt _ _ _

theorem noThrow_lookUp (name : String) : NoThrow (lookUp name) := by
  intro w e
  obtain ⟨found, w', hrun, -⟩ := lookUp_run name w
  simp [hrun]

theorem noThrow_rollBack (c : NetworkConfig) : NoThrow (rollBack c) :=
  walk_rollBack composes_noThrow (noThrow_lookUp _) (fun _ _ => noThrow_attemptStep _ _ _)
    fun _ => noThrow_attemptStep _ _ _

/-! ## Journal writes -/

/-- A world after a journal answer was consumed. -/
def journaling (w : World) (rest : List Verdict) (answer : Verdict) : World :=
  { w with supply := { w.supply with puts := rest },
           log := w.log ++ [.journaled w.state_ answer] }

/-- The world in which the state reached the journal. -/
def persisted (w : World) : World := { w with store := w.store.put "network" w.state_ }

inductive PutRun (w : World) : Outcome Exn Unit → World → Prop
  | cut (h : w.supply.puts = []) : PutRun w .crashed w
  | done {rest} (h : w.supply.puts = .done :: rest) :
    PutRun w (.returned ()) (persisted (journaling w rest .done))
  | refused {what rest} (h : w.supply.puts = .refused what :: rest) :
    PutRun w (.threw (.runtimeError what)) (journaling w rest (.refused what))
  | lost {what rest} (h : w.supply.puts = .lost what :: rest) :
    PutRun w (.threw (.runtimeError what)) (persisted (journaling w rest (.lost what)))

theorem putState_run (w : World) : PutRun w (putState w).1 (putState w).2 := by
  unfold putState
  split
  · next h => exact .cut h
  · next answer rest h =>
    cases answer with
    | done => exact .done h
    | refused what => exact .refused h
    | lost what => exact .lost h

theorem putState_cases {w w' : World} {o : Outcome Exn Unit} (h : putState w = (o, w')) :
    PutRun w o w' := by
  have := putState_run w
  rwa [h] at this

/-- The persisted state. -/
def journal (w : World) : Value := w.store.get "network"

/-- What a journal write can change, however it ends. -/
structure PutEffect (o : Outcome Exn Unit) (w w' : World) : Prop where
  kernel : w'.kernel = w.kernel
  state_ : w'.state_ = w.state_
  enabled : w'.enabled = w.enabled
  clock : w'.clock = w.clock
  deadline_ : w'.deadline_ = w.deadline_
  answers : w'.supply.kernel = w.supply.kernel ∧ w'.supply.probes = w.supply.probes ∧
    w'.supply.clock = w.supply.clock
  lookups : w'.supply.lookups = w.supply.lookups
  store : journal w' = journal w ∨ journal w' = w.state_
  done : o = .returned () → journal w' = w.state_
  log : ∃ acts, w'.log = w.log ++ acts ∧ ∀ a ∈ acts, ∃ answer, a = .journaled w.state_ answer

theorem PutEffect.grows {w w' : World} {o : Outcome Exn Unit} (h : PutEffect o w w') :
    Grows w w' := by
  obtain ⟨acts, hlog, -⟩ := h.log
  exact ⟨acts, hlog⟩

theorem PutRun.effect {w w' : World} {o : Outcome Exn Unit} (h : PutRun w o w') :
    PutEffect o w w' := by
  cases h with
  | cut _ =>
    exact ⟨rfl, rfl, rfl, rfl, rfl, ⟨rfl, rfl, rfl⟩, rfl, .inl rfl, by simp, [], by simp, by simp⟩
  | @done rest _ =>
    have hput : journal (persisted (journaling w rest .done)) = w.state_ := Store.get_put _ _ _
    exact ⟨rfl, rfl, rfl, rfl, rfl, ⟨rfl, rfl, rfl⟩, rfl, .inr hput, fun _ => hput, _, rfl, by simp⟩
  | refused _ =>
    exact ⟨rfl, rfl, rfl, rfl, rfl, ⟨rfl, rfl, rfl⟩, rfl, .inl rfl, by simp, _, rfl, by simp⟩
  | lost _ =>
    exact ⟨rfl, rfl, rfl, rfl, rfl, ⟨rfl, rfl, rfl⟩, rfl, .inr (Store.get_put _ _ _), by simp, _,
      rfl, by simp⟩

theorem putState_effect {w w' : World} {o : Outcome Exn Unit} (h : putState w = (o, w')) :
    PutEffect o w w' :=
  (putState_cases h).effect

/-! ## restore -/

/-- `restore` has its configuration and is about to write the journal. -/
def entering (c : NetworkConfig) (w : World) : World :=
  { w with log := w.log ++ [.restoring c w.kernel w.supply],
           state_ := w.state_.set "status" (.string "rolling_back") }

/-- `restore` is through with its steps and is about to write the journal. -/
def closing (errors : String) (w : World) : World :=
  let final := if errors.isEmpty then "inactive" else "rollback_failed"
  { w with state_ := (w.state_.set "status" (.string final)).set "error" (.string errors) }

def noted (act : Act) (w : World) : World := { w with log := w.log ++ [act] }

/-- An attempted step leaves what its action leaves, and is cut when its action is. -/
theorem attemptStep_run (step : Step) (errors : String) (action : Controller Unit) (w : World) :
    (attemptStep step errors action w).2 = (action (noted (.attempted step) w)).2 ∧
      ((action (noted (.attempted step) w)).1 = .crashed →
        (attemptStep step errors action w).1 = .crashed) := by
  have hnote : note (.attempted step) w = (.returned (), noted (.attempted step) w) := rfl
  unfold attemptStep
  rw [bind_returned hnote]
  exact attempt_run _ _ _ _

inductive RestoreRun (w : World) : Outcome Exn Unit → World → Prop
  | unreadable {e} (h : configFromJson (w.state_.get "config") = .error e) :
    RestoreRun w (.threw e) w
  | unjournaled {c o w₁} (h : configFromJson (w.state_.get "config") = .ok c)
    (put : putState (entering c w) = (o, w₁)) (ho : o ≠ .returned ()) : RestoreRun w o w₁
  | cut {c w₁ w₂} (h : configFromJson (w.state_.get "config") = .ok c)
    (put : putState (entering c w) = (.returned (), w₁))
    (roll : rollBack c w₁ = (.crashed, w₂)) : RestoreRun w .crashed w₂
  | unrecorded {c w₁ errors w₂ o w₃} (h : configFromJson (w.state_.get "config") = .ok c)
    (put : putState (entering c w) = (.returned (), w₁))
    (roll : rollBack c w₁ = (.returned errors, w₂))
    (put' : putState (closing errors w₂) = (o, w₃)) (ho : o ≠ .returned ()) : RestoreRun w o w₃
  | restored {c w₁ w₂ w₃} (h : configFromJson (w.state_.get "config") = .ok c)
    (put : putState (entering c w) = (.returned (), w₁))
    (roll : rollBack c w₁ = (.returned "", w₂))
    (put' : putState (closing "" w₂) = (.returned (), w₃)) :
    RestoreRun w (.returned ()) (noted (.restored w₃.kernel) w₃)
  | failed {c w₁ errors w₂ w₃} (h : configFromJson (w.state_.get "config") = .ok c)
    (put : putState (entering c w) = (.returned (), w₁))
    (roll : rollBack c w₁ = (.returned errors, w₂)) (he : errors ≠ "")
    (put' : putState (closing errors w₂) = (.returned (), w₃)) :
    RestoreRun w (.threw (.runtimeError errors)) w₃

theorem isEmpty_eq_false {s : String} (h : s ≠ "") : s.isEmpty = false := by
  rw [← Bool.not_eq_true, String.isEmpty_iff]
  exact h

theorem restore_run (w : World) : RestoreRun w (restore w).1 (restore w).2 := by
  unfold restore member
  rw [bind_returned (read_run _ w)]
  cases h : configFromJson (w.state_.get "config") with
  | error e =>
    rw [bind_threw (liftExcept_error e w)]
    exact .unreadable h
  | ok c =>
    rw [bind_returned (liftExcept_ok c w)]
    change RestoreRun w ((putState >>= _) (entering c w)).1 ((putState >>= _) (entering c w)).2
    rcases hput : putState (entering c w) with ⟨_ | e | _, w₁⟩
    · rw [bind_returned hput]
      rcases hroll : rollBack c w₁ with ⟨errors | e | _, w₂⟩
      · rw [bind_returned hroll]
        change RestoreRun w ((putState >>= _) (closing errors w₂)).1
          ((putState >>= _) (closing errors w₂)).2
        rcases hput' : putState (closing errors w₂) with ⟨_ | e | _, w₃⟩
        · rw [bind_returned hput']
          by_cases he : errors = ""
          · subst he
            exact .restored h hput hroll hput'
          · rw [isEmpty_eq_false he]
            exact .failed h hput hroll he hput'
        · rw [bind_threw hput']
          exact .unrecorded h hput hroll hput' (by simp)
        · rw [bind_crashed hput']
          exact .unrecorded h hput hroll hput' (by simp)
      · exact absurd (by rw [hroll]) (noThrow_rollBack c w₁ e)
      · rw [bind_crashed hroll]
        exact .cut h hput hroll
    · rw [bind_threw hput]
      exact .unjournaled h hput (by simp)
    · rw [bind_crashed hput]
      exact .unjournaled h hput (by simp)

/-! ## apply -/

/-- The state after the first two assignments of the write-ahead. -/
def drafted (c : NetworkConfig) (baseline v : Value) : Value :=
  (v.set "config" (configJson c)).set "baseline" baseline

/-- The state as the write-ahead journals it. -/
def applying (c : NetworkConfig) (baseline : Value) (k : Kernel) (v : Value) : Value :=
  (((drafted c baseline v).set "ip_forward" (.string k.ipForward)).set "rp_filter_all"
    (.string k.rpFilterAll)).set "status" (.string "applying")

/-- `apply` has captured everything and is about to write the journal. -/
def admitting (c : NetworkConfig) (baseline : Value) (w : World) : World :=
  { w with state_ := applying c baseline w.kernel w.state_,
           log := w.log ++ [.admitted c w.kernel] }

def withState (w : World) (v : Value) : World := { w with state_ := v }

inductive WriteAheadRun (c : NetworkConfig) (baseline : Value) (w : World) :
    Outcome Exn Unit → World → Prop
  | unread {o w₁ draft} (look : Looking w w₁)
    (hdraft : draft = drafted c baseline w.state_ ∨
      draft = (drafted c baseline w.state_).set "ip_forward" (.string w.kernel.ipForward))
    (ho : o ≠ .returned ()) : WriteAheadRun c baseline w o (withState w₁ draft)
  | put {w₁ o w'} (look : Looking w w₁) (put : putState (admitting c baseline w₁) = (o, w')) :
    WriteAheadRun c baseline w o w'

/-- A look made with another state in memory. -/
theorem looking_withState {w w₁ : World} {v : Value} (look : Looking (withState w v) w₁) :
    Looking w (withState w₁ w.state_) ∧ w₁ = withState (withState w₁ w.state_) v := by
  refine ⟨⟨⟨look.store, look.clock, look.enabled, rfl, look.deadline_, look.ticks, look.puts,
    look.lookups, look.sees, look.log⟩, look.kernel, look.answers, look.sameLog⟩, ?_⟩
  have hstate : w₁.state_ = v := look.state_
  rw [← hstate]
  rfl

theorem writeAhead_run (c : NetworkConfig) (baseline : Value) (w : World) :
    WriteAheadRun c baseline w (writeAhead c baseline w).1 (writeAhead c baseline w).2 := by
  change WriteAheadRun c baseline w
    ((readFile .ipForward >>= _) (withState w (drafted c baseline w.state_))).1
    ((readFile .ipForward >>= _) (withState w (drafted c baseline w.state_))).2
  rcases hread : readFile .ipForward (withState w (drafted c baseline w.state_)) with
    ⟨value | e | _, w₁⟩
  · obtain ⟨look, hvalue⟩ := readFile_cases hread
    obtain ⟨look, hw₁⟩ := looking_withState look
    cases hvalue value rfl
    rw [bind_returned hread, hw₁]
    generalize withState w₁ w.state_ = u at look
    let draft := (drafted c baseline w.state_).set "ip_forward" (.string w.kernel.ipForward)
    change WriteAheadRun c baseline w ((readFile .rpFilterAll >>= _) (withState u draft)).1
      ((readFile .rpFilterAll >>= _) (withState u draft)).2
    rcases hread' : readFile .rpFilterAll (withState u draft) with ⟨value | e | _, w₂⟩
    · obtain ⟨look', hvalue'⟩ := readFile_cases hread'
      obtain ⟨look', hw₂⟩ := looking_withState look'
      cases hvalue' value rfl
      rw [bind_returned hread', hw₂]
      generalize withState w₂ u.state_ = v at look'
      have look'' := Looking.trans _ _ _ look look'
      refine @WriteAheadRun.put c baseline w v _ _ look'' ?_
      have hsame : admitting c baseline v = { v with
          state_ := (draft.set "rp_filter_all" (.string u.kernel.rpFilterAll)).set "status"
            (.string "applying"),
          log := v.log ++ [.admitted c v.kernel] } := by
        simp only [admitting, applying, draft, look''.state_, look''.kernel, look.kernel]
      rw [hsame]
      rfl
    · obtain ⟨look', hw₂⟩ := looking_withState (readFile_cases hread').1
      rw [bind_threw hread', hw₂]
      exact .unread (Looking.trans _ _ _ look look') (.inr rfl) (by simp)
    · obtain ⟨look', hw₂⟩ := looking_withState (readFile_cases hread').1
      rw [bind_crashed hread', hw₂]
      exact .unread (Looking.trans _ _ _ look look') (.inr rfl) (by simp)
  · obtain ⟨look, hw₁⟩ := looking_withState (readFile_cases hread).1
    rw [bind_threw hread, hw₁]
    exact .unread look (.inl rfl) (by simp)
  · obtain ⟨look, hw₁⟩ := looking_withState (readFile_cases hread).1
    rw [bind_crashed hread, hw₁]
    exact .unread look (.inl rfl) (by simp)

/-- The installed configuration awaits its confirmation. -/
def awaiting (elapsed : Nat) (rest : List Nat) (w : World) : World :=
  { w with clock := w.clock + elapsed, supply := { w.supply with clock := rest },
           state_ := w.state_.set "status" (.string "awaiting_confirmation"),
           deadline_ := w.clock + elapsed + confirmationWindow }

inductive ActivateRun (c : NetworkConfig) (w : World) : Outcome Exn Unit → World → Prop
  | uninstalled {o w₁} (inst : install c w = (o, w₁)) (ho : o ≠ .returned ()) :
    ActivateRun c w o w₁
  | unclocked {w₁} (inst : install c w = (.returned (), w₁)) (h : w₁.supply.clock = []) :
    ActivateRun c w .crashed
      (withState w₁ (w₁.state_.set "status" (.string "awaiting_confirmation")))
  | put {w₁ elapsed rest o w'} (inst : install c w = (.returned (), w₁))
    (clock : w₁.supply.clock = elapsed :: rest)
    (put : putState (awaiting elapsed rest w₁) = (o, w')) : ActivateRun c w o w'

theorem activate_run (c : NetworkConfig) (w : World) :
    ActivateRun c w (activate c w).1 (activate c w).2 := by
  unfold activate
  rcases hinst : install c w with ⟨_ | e | _, w₁⟩
  · rw [bind_returned hinst]
    let v := w₁.state_.set "status" (.string "awaiting_confirmation")
    change ActivateRun c w ((steadyNow >>= _) (withState w₁ v)).1
      ((steadyNow >>= _) (withState w₁ v)).2
    cases hclock : w₁.supply.clock with
    | nil =>
      have hnow : steadyNow (withState w₁ v) = (.crashed, withState w₁ v) := by
        simp [steadyNow, withState, hclock]
      rw [bind_crashed hnow]
      exact .unclocked hinst hclock
    | cons elapsed rest =>
      have hnow : steadyNow (withState w₁ v) = (.returned (w₁.clock + elapsed),
          { withState w₁ v with clock := w₁.clock + elapsed,
                                supply := { w₁.supply with clock := rest } }) := by
        simp [steadyNow, withState, hclock]
      rw [bind_returned hnow]
      exact .put hinst hclock rfl
  · rw [bind_threw hinst]
    exact .uninstalled hinst (by simp)
  · rw [bind_crashed hinst]
    exact .uninstalled hinst (by simp)

/-- How `apply` reports a failed activation. -/
def undone (e : Exn) : Outcome Exn Unit → Outcome Exn Unit
  | .returned _ => .threw (.runtimeError e.what)
  | .threw rollbackError =>
    .threw (.runtimeError (e.what ++ "; rollback failed: " ++ rollbackError.what))
  | .crashed => .crashed

inductive ApplyRun (c : NetworkConfig) (w : World) : Outcome Exn Unit → World → Prop
  | rejected {o w₁} (look : Looking w w₁) (ho : o ≠ .returned ()) : ApplyRun c w o w₁
  | unjournaled {baseline w₁ o w₂} (look : Looking w w₁) (adm : Admitted c baseline w)
    (ahead : writeAhead c baseline w₁ = (o, w₂)) (ho : o ≠ .returned ()) : ApplyRun c w o w₂
  | pending {baseline w₁ w₂ w₃} (look : Looking w w₁) (adm : Admitted c baseline w)
    (ahead : writeAhead c baseline w₁ = (.returned (), w₂))
    (act : activate c w₂ = (.returned (), w₃)) : ApplyRun c w (.returned ()) w₃
  | cut {baseline w₁ w₂ w₃} (look : Looking w w₁) (adm : Admitted c baseline w)
    (ahead : writeAhead c baseline w₁ = (.returned (), w₂))
    (act : activate c w₂ = (.crashed, w₃)) : ApplyRun c w .crashed w₃
  | undone {baseline w₁ w₂ e w₃ o w₄} (look : Looking w w₁) (adm : Admitted c baseline w)
    (ahead : writeAhead c baseline w₁ = (.returned (), w₂))
    (act : activate c w₂ = (.threw e, w₃)) (undo : restore w₃ = (o, w₄)) :
    ApplyRun c w (undone e o) w₄

theorem apply_run (c : NetworkConfig) (w : World) :
    ApplyRun c w (apply c w).1 (apply c w).2 := by
  unfold apply
  rcases hcheck : checkAdmission c w with ⟨baseline | e | _, w₁⟩
  · obtain ⟨look, adm⟩ := checkAdmission_returned hcheck
    rw [bind_returned hcheck]
    rcases hahead : writeAhead c baseline w₁ with ⟨_ | e | _, w₂⟩
    · rw [bind_returned hahead]
      unfold recover
      rcases hact : activate c w₂ with ⟨_ | e | _, w₃⟩
      · exact .pending look adm hahead hact
      · dsimp only
        unfold undo
        rw [bind_run]
        unfold recover
        rcases hundo : restore w₃ with ⟨_ | e' | _, w₄⟩
        · exact .undone look adm hahead hact hundo
        · exact .undone look adm hahead hact hundo
        · exact .undone look adm hahead hact hundo
      · exact .cut look adm hahead hact
    · rw [bind_threw hahead]
      exact .unjournaled look adm hahead (by simp)
    · rw [bind_crashed hahead]
      exact .unjournaled look adm hahead (by simp)
  · rw [bind_threw hcheck]
    exact .rejected (looking_eq (looking_checkAdmission c) hcheck) (by simp)
  · rw [bind_crashed hcheck]
    exact .rejected (looking_eq (looking_checkAdmission c) hcheck) (by simp)

/-! ## tick, confirm, rollback -/

/-- A configuration waits for its confirmation. -/
def Pending (w : World) : Prop :=
  w.enabled = true ∧ w.state_.get "status" = .string "awaiting_confirmation"

/-- The clock was read. -/
def advanced (elapsed : Nat) (rest : List Nat) (w : World) : World :=
  { w with clock := w.clock + elapsed, supply := { w.supply with clock := rest } }

theorem steadyNow_cons {w : World} {elapsed : Nat} {rest : List Nat}
    (h : w.supply.clock = elapsed :: rest) :
    steadyNow w = (.returned (w.clock + elapsed), advanced elapsed rest w) := by
  simp [steadyNow, h, advanced]

inductive TickRun (w : World) : Outcome Exn Unit → World → Prop
  | idle (h : ¬ Pending w) : TickRun w (.returned ()) w
  | unclocked (h : Pending w) (clock : w.supply.clock = []) : TickRun w .crashed w
  | early {elapsed rest} (h : Pending w) (clock : w.supply.clock = elapsed :: rest)
    (before : w.clock + elapsed < w.deadline_) :
    TickRun w (.returned ()) (advanced elapsed rest w)
  | expired {elapsed rest o w'} (h : Pending w) (clock : w.supply.clock = elapsed :: rest)
    (due : w.deadline_ ≤ w.clock + elapsed)
    (run : restore (advanced elapsed rest w) = (o, w')) : TickRun w o w'

theorem tick_run (w : World) : TickRun w (tick w).1 (tick w).2 := by
  unfold tick status
  rw [bind_returned (read_run _ w), bind_returned (read_run _ w)]
  split
  · next h =>
    rw [Bool.and_eq_true, Value.eqString_iff] at h
    cases hclock : w.supply.clock with
    | nil =>
      have hnow : steadyNow w = (.crashed, w) := by simp [steadyNow, hclock]
      rw [bind_crashed hnow]
      exact .unclocked h hclock
    | cons elapsed rest =>
      rw [bind_returned (steadyNow_cons hclock), bind_returned (read_run _ _)]
      split
      · next hdue => exact .expired h hclock hdue rfl
      · next hdue => exact .early h hclock (Nat.lt_of_not_le hdue)
  · next h =>
    refine .idle fun hp => h ?_
    rw [Bool.and_eq_true, Value.eqString_iff]
    exact hp

inductive ConfirmRun (w : World) : Outcome Exn Unit → World → Prop
  | disabled {e} (h : w.enabled = false) : ConfirmRun w (.threw e) w
  | unticked {o w₁} (tick : tick w = (o, w₁)) (ho : o ≠ .returned ()) : ConfirmRun w o w₁
  | nothing {e w₁} (tick : tick w = (.returned (), w₁))
    (h : w₁.state_.get "status" ≠ .string "awaiting_confirmation") : ConfirmRun w (.threw e) w₁
  | put {w₁ o w'} (enabled : w.enabled = true) (tick : tick w = (.returned (), w₁))
    (h : w₁.state_.get "status" = .string "awaiting_confirmation")
    (put : putState (withState w₁ (w₁.state_.set "status" (.string "confirmed"))) = (o, w')) :
    ConfirmRun w o w'

theorem confirm_run (w : World) : ConfirmRun w (confirm w).1 (confirm w).2 := by
  unfold confirm
  rw [bind_returned (read_run _ w)]
  split
  · next h => exact .disabled (by simpa using h)
  · next henabled =>
    rcases htick : tick w with ⟨_ | e | _, w₁⟩
    · rw [bind_returned htick]
      unfold status
      rw [bind_returned (read_run _ w₁)]
      split
      · next h =>
        refine .nothing htick fun hs => ?_
        have hs' : w₁.state_.get "status" = .string "awaiting_confirmation" := hs
        simp [hs'] at h
      · next h =>
        refine .put (by simpa using henabled) htick (Value.eqString_iff.mp (by simpa using h)) rfl
    · rw [bind_threw htick]
      exact .unticked htick (by simp)
    · rw [bind_crashed htick]
      exact .unticked htick (by simp)

inductive RollbackRun (w : World) : Outcome Exn Unit → World → Prop
  | disabled {e} (h : w.enabled = false) : RollbackRun w (.threw e) w
  | inactive (h : w.state_.get "status" = .string "inactive") : RollbackRun w (.returned ()) w
  | run {o w'} (enabled : w.enabled = true) (h : w.state_.get "status" ≠ .string "inactive")
    (run : restore w = (o, w')) : RollbackRun w o w'

theorem rollback_run (w : World) : RollbackRun w (rollback w).1 (rollback w).2 := by
  unfold rollback status
  rw [bind_returned (read_run _ w)]
  split
  · next h => exact .disabled (by simpa using h)
  · next henabled =>
    rw [bind_returned (read_run _ w)]
    split
    · next h =>
      refine .run (by simpa using henabled) (fun hs => ?_) rfl
      simp [hs] at h
    · next h => exact .inactive (Value.eqString_iff.mp (by simpa using h))

/-- `state` reads the clock only while a configuration is pending. -/
inductive StateRun (w : World) : Outcome Exn Value → World → Prop
  | plain {v} (h : w.state_.get "status" ≠ .string "awaiting_confirmation")
    (same : v.get "status" = w.state_.get "status") : StateRun w (.returned v) w
  | unclocked (h : w.state_.get "status" = .string "awaiting_confirmation")
    (clock : w.supply.clock = []) : StateRun w .crashed w
  | timed {v elapsed rest} (h : w.state_.get "status" = .string "awaiting_confirmation")
    (clock : w.supply.clock = elapsed :: rest) (same : v.get "status" = w.state_.get "status") :
    StateRun w (.returned v) (advanced elapsed rest w)

theorem state_run (w : World) : StateRun w (state w).1 (state w).2 := by
  have hstatus : (w.state_.set "enabled" (.boolean w.enabled)).get "status" =
      w.state_.get "status" := Value.get_set_of_ne _ (by decide) _
  unfold state
  rw [bind_returned (read_run _ w), bind_returned (read_run _ w), hstatus]
  split
  · next h =>
    have h := Value.eqString_iff.mp h
    cases hclock : w.supply.clock with
    | nil =>
      have hnow : steadyNow w = (.crashed, w) := by simp [steadyNow, hclock]
      rw [bind_crashed hnow]
      exact .unclocked h hclock
    | cons elapsed rest =>
      rw [bind_returned (steadyNow_cons hclock), bind_returned (read_run _ _)]
      refine .timed h hclock ?_
      rw [Value.get_set_of_ne _ (by decide), hstatus]
  · next h => exact .plain (fun hs => h (Value.eqString_iff.mpr hs)) hstatus

/-! ## Construction -/

/-- The constructor's initialisers. -/
def loading (enabled : Bool) (w : World) : World :=
  { w with enabled := enabled, state_ := w.store.get "network", deadline_ := 0 }

/-- The state memory starts from. -/
def initial (v : Value) : Value := if v.isNull then v.set "status" (.string "inactive") else v

inductive ConstructRun (enabled : Bool) (w : World) : Outcome Exn Unit → World → Prop
  | lockedOut {o w₁} (look : Looking (loading enabled w) w₁) (ho : o ≠ .returned ()) :
    ConstructRun enabled w o w₁
  | malformed {e w₁} (look : Looking (loading enabled w) w₁)
    (h : (initial w₁.state_).isObject = false) :
    ConstructRun enabled w (.threw e) (withState w₁ (initial w₁.state_))
  | idle {w₁} (look : Looking (loading enabled w) w₁)
    (h : (initial w₁.state_).get "status" = .string "inactive" ∨ enabled = false) :
    ConstructRun enabled w (.returned ()) (withState w₁ (initial w₁.state_))
  | unrestored {w₁ o w₂} (look : Looking (loading enabled w) w₁) (on : enabled = true)
    (busy : (initial w₁.state_).get "status" ≠ .string "inactive")
    (run : restore (withState w₁ (initial w₁.state_)) = (o, w₂)) (ho : o ≠ .returned ()) :
    ConstructRun enabled w o w₂
  | restored {w₁ w₂} (look : Looking (loading enabled w) w₁) (on : enabled = true)
    (busy : (initial w₁.state_).get "status" ≠ .string "inactive")
    (run : restore (withState w₁ (initial w₁.state_)) = (.returned (), w₂))
    (h : (initial w₁.state_).get "status" ≠ .string "confirmed") :
    ConstructRun enabled w (.returned ()) w₂
  | unapplied {w₁ w₂ c o w₃} (look : Looking (loading enabled w) w₁) (on : enabled = true)
    (h : (initial w₁.state_).get "status" = .string "confirmed")
    (run : restore (withState w₁ (initial w₁.state_)) = (.returned (), w₂))
    (hc : configFromJson ((initial w₁.state_).get "config") = .ok c)
    (again : apply c w₂ = (o, w₃)) (ho : o ≠ .returned ()) : ConstructRun enabled w o w₃
  | reapplied {w₁ w₂ c w₃ o w₄} (look : Looking (loading enabled w) w₁) (on : enabled = true)
    (h : (initial w₁.state_).get "status" = .string "confirmed")
    (run : restore (withState w₁ (initial w₁.state_)) = (.returned (), w₂))
    (hc : configFromJson ((initial w₁.state_).get "config") = .ok c)
    (again : apply c w₂ = (.returned (), w₃)) (confirm : confirm w₃ = (o, w₄)) :
    ConstructRun enabled w o w₄

/-- A rollback that returns had a configuration to read. -/
theorem restore_returned {w w' : World} (h : restore w = (.returned (), w')) :
    ∃ c, configFromJson (w.state_.get "config") = .ok c := by
  have hrun := restore_run w
  rw [h] at hrun
  cases hrun with
  | unjournaled _ _ ho => exact absurd rfl ho
  | unrecorded _ _ _ _ ho => exact absurd rfl ho
  | restored hc _ _ _ => exact ⟨_, hc⟩

theorem recoverJournal_run {w w₁ : World} (look : Looking (loading true w) w₁)
    (busy : (initial w₁.state_).get "status" ≠ .string "inactive") :
    ConstructRun true w (recoverJournal (withState w₁ (initial w₁.state_))).1
      (recoverJournal (withState w₁ (initial w₁.state_))).2 := by
  unfold recoverJournal status member
  rw [bind_returned (read_run _ _), bind_returned (read_run _ _)]
  rcases hrun : restore (withState w₁ (initial w₁.state_)) with ⟨_ | e | _, w₂⟩
  · rw [bind_returned hrun]
    split
    · next h =>
      have hconfirmed := Value.eqString_iff.mp h
      obtain ⟨c, hc⟩ := restore_returned hrun
      change configFromJson ((initial w₁.state_).get "config") = .ok c at hc
      have hparsed : (liftExcept (configFromJson ((initial w₁.state_).get "config")) :
          Controller NetworkConfig) w₂ = (.returned c, w₂) := by
        rw [hc]
        rfl
      rw [show (withState w₁ (initial w₁.state_)).state_ = initial w₁.state_ from rfl,
        bind_returned hparsed]
      rcases hagain : apply c w₂ with ⟨_ | e | _, w₃⟩
      · rw [bind_returned hagain]
        exact .reapplied look rfl hconfirmed hrun hc hagain rfl
      · rw [bind_threw hagain]
        exact .unapplied look rfl hconfirmed hrun hc hagain (by simp)
      · rw [bind_crashed hagain]
        exact .unapplied look rfl hconfirmed hrun hc hagain (by simp)
    · next h =>
      refine .restored look rfl busy hrun fun hs => h ?_
      exact Value.eqString_iff.mpr hs
  · rw [bind_threw hrun]
    exact .unrestored look rfl busy hrun (by simp)
  · rw [bind_crashed hrun]
    exact .unrestored look rfl busy hrun (by simp)

theorem initialise_run (w : World) :
    initialise w = (.returned (), withState w (initial w.state_)) := by
  unfold initialise initial
  rw [bind_returned (read_run _ w)]
  split <;> rfl

theorem construct_run (enabled : Bool) (w : World) :
    ConstructRun enabled w (construct enabled w).1 (construct enabled w).2 := by
  have hlook : Within Looking (claimNamespace enabled) := by
    unfold claimNamespace
    split
    · exact looking_acquireLock
    · exact looking_pure _
  unfold construct
  rw [bind_returned (update_run _ w)]
  change ConstructRun enabled w ((claimNamespace enabled >>= _) (loading enabled w)).1
    ((claimNamespace enabled >>= _) (loading enabled w)).2
  rcases hlock : claimNamespace enabled (loading enabled w) with ⟨_ | e | _, w₁⟩
  · have look := looking_eq hlook hlock
    rw [bind_returned hlock, bind_returned (initialise_run w₁), bind_returned (read_run _ _)]
    rw [show (withState w₁ (initial w₁.state_)).state_ = initial w₁.state_ from rfl]
    cases hobject : (initial w₁.state_).isObject with
    | false =>
      have hindex : ∃ e, (initial w₁.state_).index "status" = .error e := by
        unfold initial at hobject ⊢
        cases hv : w₁.state_ with
        | null | object members => rw [hv] at hobject; cases hobject
        | boolean _ | int _ | uint _ | real _ | string _ | array _ => exact ⟨_, rfl⟩
      obtain ⟨e, he⟩ := hindex
      rw [he, bind_threw (liftExcept_error e _)]
      exact .malformed look hobject
    | true =>
      rw [Value.index_of_isObject hobject, bind_returned (liftExcept_ok _ _)]
      split
      · next h =>
        rw [Bool.and_eq_true] at h
        obtain ⟨hbusy, rfl⟩ := h
        refine recoverJournal_run look fun hs => ?_
        simp [hs] at hbusy
      · next h =>
        refine .idle look ?_
        by_cases hs : (initial w₁.state_).get "status" = .string "inactive"
        · exact .inl hs
        · refine .inr (Bool.eq_false_iff.mpr fun hon => h ?_)
          have hne : ((initial w₁.state_).get "status").eqString "inactive" = false :=
            Bool.eq_false_iff.mpr fun he => hs (Value.eqString_iff.mp he)
          simp [hne, hon]
  · rw [bind_threw hlock]
    exact .lockedOut (looking_eq hlook hlock) (by simp)
  · rw [bind_crashed hlock]
    exact .lockedOut (looking_eq hlook hlock) (by simp)

end Magicbox.Source.NetworkController
