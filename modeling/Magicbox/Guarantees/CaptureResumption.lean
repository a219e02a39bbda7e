import Magicbox.Guarantees.CaptureRequests
import Magicbox.Source.Resumption

/-!
# Capture over restarts

The setting `capture_interface` over the processes of one database, whatever
fails and wherever a process ends. It holds what the last request set that was
carried out, and a start resumes it. As long as a process captures, the interface
it reports is the one that the next process would resume.
-/

set_option autoImplicit false

namespace Magicbox.Guarantees.CaptureResumption
open Source.Capture Source.Sampling Source.Resumption Library.Runs CaptureRequests

variable {r : Runtime} {saved : String}

/-! ## What the answers say -/

/-- The setting that an answered request should have written. -/
def settingOf (x : Exchange) : Option String :=
  if x.failure = none then some (wanted x.purpose) else none

/-- The setting that comes with an answer. -/
def answered (r : Runtime) (event : Source.Sampling.Event) : Option String :=
  (answer r event).bind fun both => if both.2 = none then some (wanted both.1) else none

theorem answered_put (r : Runtime) (name : String) (opens : Bool) :
    answered r (.put name opens) = none := by
  simp only [answered, answer]
  split_ifs <;> rfl

/-- A setting is written exactly where a request is carried out. -/
theorem stored_step (r : Runtime) (event : Source.Sampling.Event) :
    (r.step event).stored = (answered r event).getD r.stored := by
  by_cases hevent : ∃ starts stores now, event = .conclude starts stores now
  · obtain ⟨starts, stores, now, rfl⟩ := hevent
    simp only [Runtime.step, Runtime.conclude, answered, answer]
    split
    · next name hcontrol =>
      rw [hcontrol]
      cases starts <;> cases stores <;> rfl
    · next hcontrol =>
      rw [hcontrol]
      cases stores <;> rfl
    · next hcontrol =>
      rw [hcontrol]
      rfl
    · next hreplace hremove hexit =>
      split
      · next name hcontrol => exact absurd hcontrol (hreplace name)
      · next hcontrol => exact absurd hcontrol hremove
      · rfl
  · have hsame : Same r (r.step event) :=
      same_step fun starts stores now heq => hevent ⟨starts, stores, now, heq⟩
    have hnone : answered r event = none := by
      cases event with
      | put name opens => exact answered_put r name opens
      | conclude starts stores now => exact absurd ⟨starts, stores, now, rfl⟩ hevent
      | _ => rfl
    rw [hnone, hsame.stored]
    rfl

theorem exchanges_step (w : Watch) (event : Source.Sampling.Event) :
    (w.step event).exchanges.filterMap settingOf =
      w.exchanges.filterMap settingOf ++ (answered w.runtime event).toList := by
  unfold Watch.step answered
  cases hanswer : answer w.runtime event with
  | none => simp
  | some both =>
    obtain ⟨purpose, failure⟩ := both
    cases failure <;> simp [settingOf]

theorem runtime_step (w : Watch) (event : Source.Sampling.Event) :
    (w.step event).runtime = w.runtime.step event := by
  unfold Watch.step
  cases answer w.runtime event <;> rfl

/-- A process with the requests that it has answered. -/
def watched (r : Runtime) (events : List Source.Sampling.Event) : Watch :=
  run Watch.step ⟨r, r, []⟩ events

theorem watched_runtime (r : Runtime) (events : List Source.Sampling.Event) :
    (watched r events).runtime = run Runtime.step r events :=
  historyInvariant (J := fun past (w : Watch) => w.runtime = run Runtime.step r past) rfl
    (fun past event ih => by
      rw [run_snoc, run_snoc, runtime_step, ih]) events

theorem getLast?_getD_append_toList {α : Type} (l : List α) (x : Option α) (d : α) :
    (l ++ x.toList).getLast?.getD d = x.getD (l.getLast?.getD d) := by
  cases x <;> simp

/-- What is stored in a run is what was carried out last. -/
theorem stored_run (r : Runtime) (events : List Source.Sampling.Event) :
    (run Runtime.step r events).stored =
      ((watched r events).exchanges.filterMap settingOf).getLast?.getD r.stored := by
  rw [← watched_runtime]
  refine invariant (P := fun _ => True)
    (I := fun w : Watch => w.runtime.stored =
      (w.exchanges.filterMap settingOf).getLast?.getD r.stored)
    (fun w event _ ih => ?_) rfl fun _ _ => trivial
  rw [runtime_step, stored_step, exchanges_step, getLast?_getD_append_toList, ih]

/-! ## What a process keeps -/

/-- A setting that can be resumed. -/
def Resumable (setting : String) : Prop := setting = "" ∨ validName setting = true

/-- An engine captures the stored interface, and only names that passed the check are stored. -/
structure Kept (r : Runtime) : Prop where
  engine : r.engine_ ≠ none → r.captureInterface_ = r.stored
  named : r.engine_ = none → r.captureInterface_ = ""
  stored : Resumable r.stored
  purpose : ∀ name, purposeOf r.control = some (.replace name) → validName name = true

theorem kept_idle (h : Resumable saved) : Kept (loaded saved) :=
  ⟨fun hengine => absurd rfl hengine, fun _ => rfl, h, fun name hname => by cases hname⟩

theorem kept_install {name : String} (h : validName name = true) (now : Int) :
    Kept (r.install name now) :=
  ⟨fun _ => rfl, fun hnone => (nomatch hnone), .inr h, fun name hname => by cases hname⟩

/-- A name that the worker is at has passed the check. -/
theorem purpose_valid (h : Kept r) {event : Source.Sampling.Event} {name : String}
    (hpurpose : purposeOf (r.step event).control = some (.replace name)) :
    validName name = true := by
  rcases purpose_step hpurpose with hbefore | hrequest | hexit
  · exact h.purpose name hbefore
  · cases event with
    | put wished opens =>
      simp only [request] at hrequest
      split at hrequest
      · next hidle =>
        obtain rfl : wished = name := by simpa using hrequest
        by_contra hname
        have hput : r.put wished opens = r := if_neg fun hall => hname hall.2.1
        rw [Runtime.step, hput, hidle] at hpurpose
        cases hpurpose
      · cases hrequest
    | delete =>
      simp only [request] at hrequest
      split at hrequest <;> cases hrequest
    | _ => cases hrequest
  · cases hexit

theorem kept_conclude (h : Kept r) (starts stores : Bool) (now : Int) :
    Kept (r.conclude starts stores now) := by
  unfold Runtime.conclude
  split
  · next name hcontrol =>
    have hname : validName name = true := h.purpose name (by rw [hcontrol]; rfl)
    split
    · exact kept_install hname now
    · exact ⟨h.engine, h.named, h.stored, fun name hname => by cases hname⟩
  · refine ⟨fun hengine => absurd rfl hengine, fun _ => rfl, ?_, fun name hname => by cases hname⟩
    show Resumable (if stores then "" else r.stored)
    split
    · exact .inl rfl
    · exact h.stored
  · exact ⟨h.engine, h.named, h.stored, fun name hname => by cases hname⟩
  · exact h

theorem kept_step (h : Kept r) (event : Source.Sampling.Event) : Kept (r.step event) := by
  by_cases hevent : ∃ starts stores now, event = .conclude starts stores now
  · obtain ⟨starts, stores, now, rfl⟩ := hevent
    exact kept_conclude h starts stores now
  · have hsame : Same r (r.step event) :=
      same_step fun starts stores now heq => hevent ⟨starts, stores, now, heq⟩
    have hengine : (r.step event).engine_ = none ↔ r.engine_ = none := by
      rw [← Option.isNone_iff_eq_none, ← Option.isNone_iff_eq_none, ← Option.not_isSome,
        ← Option.not_isSome, hsame.engine.engine]
    refine ⟨fun hsome => ?_, fun hnone => ?_, ?_, fun name => purpose_valid h⟩
    · rw [hsame.captureInterface, hsame.stored]
      exact h.engine (mt hengine.mpr hsome)
    · rw [hsame.captureInterface]
      exact h.named (hengine.mp hnone)
    · rw [hsame.stored]
      exact h.stored

theorem kept_run (h : Kept r) (events : List Source.Sampling.Event) :
    Kept (run Runtime.step r events) :=
  invariant (P := fun _ => True) (I := Kept) (fun _ event _ h => kept_step h event) h
    fun _ _ => trivial

/-! ## Starts -/

theorem startCapture_ok {name : String} {o : Outcomes} {after : Runtime}
    (h : startCapture r name o = .ok after) :
    validName name = true ∧ after = r.install name o.now := by
  unfold startCapture at h
  cases hname : validName name with
  | false =>
    rw [hname] at h
    cases h
  | true =>
    rw [hname] at h
    cases hopens : o.opens with
    | error e =>
      rw [hopens] at h
      cases h
    | ok =>
      cases hstarts : o.starts with
      | error e =>
        rw [hopens, hstarts] at h
        cases h
      | ok =>
        cases hstores : o.stores with
        | error e =>
          rw [hopens, hstarts, hstores] at h
          cases h
        | ok =>
          rw [hopens, hstarts, hstores] at h
          cases h
          exact ⟨rfl, rfl⟩

/-- What a constructor that returns leaves: an engine on the option or on the setting, or none and
the setting as it was. -/
theorem construct_ok {option error : String} {o : Outcomes}
    (h : construct option saved o = .ok (r, error)) :
    (∃ name, validName name = true ∧ r = (loaded saved).install name o.now ∧
        (option = name ∨ option = "" ∧ saved = name)) ∨
      r = loaded saved ∧ option = "" := by
  unfold construct at h
  split at h
  · cases hstart : startCapture (loaded saved) option o with
    | error e =>
      rw [hstart] at h
      cases h
    | ok after =>
      rw [hstart] at h
      obtain ⟨hname, rfl⟩ := startCapture_ok hstart
      cases h
      exact .inl ⟨option, hname, rfl, .inl rfl⟩
  · next hoption =>
    have hnone : option = "" := not_not.mp hoption
    split at h
    · split at h
      · next after hstart =>
        obtain ⟨hname, rfl⟩ := startCapture_ok hstart
        cases h
        exact .inl ⟨saved, hname, rfl, .inr ⟨hnone, rfl⟩⟩
      · cases h
        exact .inr ⟨rfl, hnone⟩
    · cases h
      exact .inr ⟨rfl, hnone⟩

theorem construct_kept (hsaved : Resumable saved) {option error : String} {o : Outcomes}
    (h : construct option saved o = .ok (r, error)) : Kept r := by
  rcases construct_ok h with ⟨name, hname, rfl, -⟩ | ⟨rfl, -⟩
  · exact kept_install hname o.now
  · exact kept_idle hsaved

/-- The option is stored where there is one. -/
theorem construct_stored {option error : String} {o : Outcomes}
    (h : construct option saved o = .ok (r, error)) :
    r.stored = if option = "" then saved else option := by
  rcases construct_ok h with ⟨name, hname, rfl, rfl | ⟨rfl, rfl⟩⟩ | ⟨rfl, rfl⟩
  · have hsome : option ≠ "" := by
      rintro rfl
      simp [validName] at hname
    rw [if_neg hsome]
    rfl
  · rfl
  · rfl

/-! ## Lives -/

/-- What a process set, by the answers that it gave: its option, the requests that it carried out,
and one that it ended at. -/
def wrote (saved : String) (l : Life) : List String :=
  match construct l.option saved l.outcomes with
  | .error _ => []
  | .ok (r, _) =>
    (if l.option = "" then [] else [l.option]) ++
      (watched r l.events).exchanges.filterMap settingOf ++
      if l.torn then (asked (watched r l.events).runtime.control).toList else []

def written : String → List Life → List String
  | _, [] => []
  | saved, l :: lives => wrote saved l ++ written (l.leave saved) lives

theorem getLast?_getD_append {α : Type} (l m : List α) (d : α) :
    (l ++ m).getLast?.getD d = m.getLast?.getD (l.getLast?.getD d) := by
  rw [List.getLast?_append]
  cases m.getLast? <;> rfl

theorem leave_written (saved : String) (l : Life) :
    l.leave saved = (wrote saved l).getLast?.getD saved := by
  unfold Life.leave wrote
  cases hstart : construct l.option saved l.outcomes with
  | error e => rfl
  | ok both =>
    obtain ⟨r, error⟩ := both
    dsimp only
    have hoption : r.stored = (if l.option = "" then [] else [l.option]).getLast?.getD saved := by
      rw [construct_stored hstart]
      split <;> rfl
    rw [getLast?_getD_append, getLast?_getD_append, ← hoption, ← stored_run, watched_runtime]
    unfold Life.setting
    split
    · rw [← List.nil_append (Option.toList _), getLast?_getD_append_toList]
      rfl
    · rfl

theorem lives_written (lives : List Life) (saved : String) :
    run Life.leave saved lives = (written saved lives).getLast?.getD saved := by
  induction lives generalizing saved with
  | nil => rfl
  | cons l lives ih => rw [run_cons, ih, written, getLast?_getD_append, leave_written]

theorem leave_resumable (h : Resumable saved) (l : Life) : Resumable (l.leave saved) := by
  unfold Life.leave
  split
  · next r error hstart =>
    have hkept := kept_run (construct_kept h hstart) l.events
    unfold Life.setting
    dsimp only
    split
    · cases hasked : asked (run Runtime.step r l.events).control with
      | none => exact hkept.stored
      | some name =>
        rw [Option.getD_some]
        unfold asked at hasked
        split at hasked
        · next wished hcontrol =>
          obtain rfl := Option.some.inj hasked
          exact .inr (hkept.purpose wished (by rw [hcontrol]; rfl))
        · exact .inl (Option.some.inj hasked).symm
        · cases hasked
    · exact hkept.stored
  · exact h

theorem database_resumable (lives : List Life) : Resumable (database lives) :=
  invariant (P := fun _ => True) (I := Resumable) (fun _ l _ h => leave_resumable h l) (.inl rfl)
    fun _ _ => trivial

/-- A start without the option does not fail. It keeps the setting, and captures it where nothing
fails. -/
theorem construct_resumes (h : Resumable saved) (o : Outcomes) :
    ∃ r error, construct "" saved o = .ok (r, error) ∧ r.stored = saved ∧
      (o.opens = .ok () → o.starts = .ok () → o.stores = .ok () →
        error = "" ∧ r.captureInterface_ = saved ∧
          if saved = "" then r.engine_ = none else Running r.engine_.toList) := by
  by_cases hempty : saved = ""
  · have hstart : construct "" saved o = .ok (loaded saved, "") := by simp [construct, hempty]
    refine ⟨_, _, hstart, rfl, fun _ _ _ => ⟨rfl, hempty.symm, ?_⟩⟩
    rw [if_pos hempty]
    rfl
  · have hname := h.resolve_left hempty
    cases hcapture : startCapture (loaded saved) saved o with
    | ok r =>
      have hstart : construct "" saved o = .ok (r, "") := by
        simp [construct, hempty, hcapture]
      obtain ⟨-, rfl⟩ := startCapture_ok hcapture
      refine ⟨_, _, hstart, rfl, fun _ _ _ => ⟨rfl, rfl, ?_⟩⟩
      rw [if_neg hempty]
      exact ⟨_, List.mem_singleton_self _, rfl⟩
    | error e =>
      have hstart : construct "" saved o = .ok (loaded saved, e) := by
        simp [construct, hempty, hcapture]
      refine ⟨_, _, hstart, rfl, fun hopens hstarts hstores => ?_⟩
      simp only [startCapture, hname, hopens, hstarts, hstores] at hcapture
      cases hcapture

/-- **A restart resumes the capture.** Behind any processes, the database holds
what was set last among the options and the requests that were carried out. A
start without the option does not fail, keeps the setting, and captures it where
nothing fails. It is the interface that the process before reported when it
ended, if that process had an engine. -/
theorem capture_resumed (lives : List Life) :
    database lives = (written "" lives).getLast?.getD "" ∧
    (∀ o : Outcomes, ∃ r error, construct "" (database lives) o = .ok (r, error) ∧
      r.stored = database lives ∧
      (o.opens = .ok () → o.starts = .ok () → o.stores = .ok () →
        error = "" ∧ r.captureInterface_ = database lives ∧
          if database lives = "" then r.engine_ = none else Running r.engine_.toList)) ∧
    ∀ (l : Life) (r : Runtime) (error : String), l.torn = false →
      construct l.option (database lives) l.outcomes = .ok (r, error) →
      (run Runtime.step r l.events).engine_ ≠ none →
        database (lives ++ [l]) = (run Runtime.step r l.events).captureInterface_ := by
  have hsaved := database_resumable lives
  refine ⟨lives_written lives "", construct_resumes hsaved,
    fun l r error htorn hstart hengine => ?_⟩
  have hkept := kept_run (construct_kept hsaved hstart) l.events
  have hsetting : l.setting r = (run Runtime.step r l.events).stored := by
    simp [Life.setting, htorn]
  rw [database, run_snoc, ← database, Life.leave, hstart, hkept.engine hengine, ← hsetting]

end Magicbox.Guarantees.CaptureResumption
