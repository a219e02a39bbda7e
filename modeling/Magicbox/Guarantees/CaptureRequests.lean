import Magicbox.Guarantees.SessionReports

/-!
# Capture requests

PUT and DELETE on /api/v1/capture, with the state in which the worker takes up a
request and the state in which it answers it. A new source is opened before the
old engine is stopped, so that a bad name and an interface that does not open
change nothing. The thread is started and the setting is written behind the stop,
and nothing starts the old engine again.
-/

set_option autoImplicit false

namespace Magicbox.Guarantees.CaptureRequests
open Source.Capture Source.Engine Source.Sampling Library.Runs
open CaptureAccounting SessionReports

variable {r : Runtime} {s : Session}

/-! ## Requests and answers -/

/-- What a request failed at. -/
inductive Failure where
  | name
  | opening
  | thread
  | setting
  deriving DecidableEq, Repr

/-- A request that was answered. -/
structure Exchange where
  purpose : Purpose
  failure : Option Failure
  before : Runtime
  after : Runtime

/-- The request that the worker takes up with an event. -/
def request (r : Runtime) : Source.Sampling.Event → Option Purpose
  | .put name _ => if r.control = .idle then some (.replace name) else none
  | .delete => if r.control = .idle then some .remove else none
  | _ => none

/-- The answer that an event brings. -/
def answer (r : Runtime) : Source.Sampling.Event → Option (Purpose × Option Failure)
  | .put name opens =>
    if r.control = .idle then
      if !validName name then some (.replace name, some .name)
      else if !opens then some (.replace name, some .opening)
      else none
    else none
  | .conclude starts stores _ =>
    match r.control with
    | .closing (.replace name) =>
      some (.replace name,
        if !starts then some .thread else if !stores then some .setting else none)
    | .closing .remove => some (.remove, if stores then none else some .setting)
    | _ => none
  | _ => none

/-- A runtime with the state in which the last request was taken up, and with the requests that
were answered. -/
structure Watch where
  runtime : Runtime
  found : Runtime
  exchanges : List Exchange := []

namespace Watch

def step (w : Watch) (event : Source.Sampling.Event) : Watch :=
  let found := if (request w.runtime event).isSome then w.runtime else w.found
  let after := w.runtime.step event
  match answer w.runtime event with
  | some (purpose, failure) =>
    ⟨after, found, w.exchanges ++ [⟨purpose, failure, found, after⟩]⟩
  | none => ⟨after, found, w.exchanges⟩

/-- The runtime before any capture. The store may hold the interface of an earlier process. -/
def start (saved : String) : Watch :=
  ⟨{ idle with stored := saved }, { idle with stored := saved }, []⟩

end Watch

/-! ## What a request should do -/

/-- Some engine of a list of sessions runs. -/
def Running (sessions : List Session) : Prop :=
  ∃ s ∈ sessions, s.engine.counters_.running = true

/-- The same engine is there, or there is still none: none was retired and none was put in. -/
structure SameEngine (before after : Runtime) : Prop where
  closed : after.closed = before.closed
  engine : after.engine_.isSome = before.engine_.isSome

/-- A request that is answered with an error should change none of this. -/
structure Unchanged (before after : Runtime) : Prop where
  engine : SameEngine before after
  running : Running before.engine_.toList → Running after.engine_.toList
  captureInterface : after.captureInterface_ = before.captureInterface_
  stored : after.stored = before.stored

/-- The interface that a request asks for. -/
def wanted : Purpose → String
  | .replace name => name
  | .remove | .exit => ""

/-- A request that succeeds should leave this. -/
structure Carried (purpose : Purpose) (after : Runtime) : Prop where
  captureInterface : after.captureInterface_ = wanted purpose
  stored : after.stored = wanted purpose
  engine : if purpose = .remove then after.engine_ = none else Running after.engine_.toList
  others : ¬ Running after.closed

def AllOrNothing (x : Exchange) : Prop :=
  if x.failure = none then Carried x.purpose x.after else Unchanged x.before x.after

/-- Nothing fails behind the stop of an engine: of an engine that runs, where it should be
replaced, and of any engine where it should be removed. -/
def Harmless (x : Exchange) : Prop :=
  x.failure = some .thread ∨ x.failure = some .setting →
    if x.purpose = .remove then x.before.engine_ = none else ¬ Running x.before.engine_.toList

/-! ## What the way to an answer leaves alone -/

/-- What a request finds and what the worker has until it is answered. -/
structure Same (before after : Runtime) : Prop where
  engine : SameEngine before after
  captureInterface : after.captureInterface_ = before.captureInterface_
  stored : after.stored = before.stored

theorem Same.refl (r : Runtime) : Same r r := ⟨⟨rfl, rfl⟩, rfl, rfl⟩

theorem Same.trans {a b c : Runtime} (hab : Same a b) (hbc : Same b c) : Same a c :=
  ⟨⟨hbc.engine.closed.trans hab.engine.closed, hbc.engine.engine.trans hab.engine.engine⟩,
    hbc.captureInterface.trans hab.captureInterface, hbc.stored.trans hab.stored⟩

theorem same_stop (r : Runtime) (purpose : Purpose) : Same r (r.stop purpose) := by
  unfold Runtime.stop
  split
  · exact ⟨⟨rfl, rfl⟩, rfl, rfl⟩
  · next s hengine => exact ⟨⟨rfl, by simp [hengine]⟩, rfl, rfl⟩

/-- Only the end of a request touches the engine's place and the interface. -/
theorem same_step {event : Source.Sampling.Event}
    (hevent : ∀ starts stores now, event ≠ .conclude starts stores now) :
    Same r (r.step event) := by
  cases event with
  | capture event =>
    simp only [Runtime.step, Runtime.capture]
    split
    · exact ⟨⟨rfl, by simp⟩, rfl, rfl⟩
    · exact .refl r
  | put name opens =>
    simp only [Runtime.step, Runtime.put]
    split
    · exact same_stop r _
    · exact .refl r
  | delete =>
    simp only [Runtime.step, Runtime.delete]
    split
    · exact same_stop r _
    · exact .refl r
  | shutdown =>
    simp only [Runtime.step, Runtime.shutdown]
    split
    · exact same_stop r _
    · exact .refl r
  | joined =>
    simp only [Runtime.step, Runtime.joined]
    split
    · next purpose s hcontrol hengine =>
      split
      · exact ⟨⟨rfl, by simp [hengine]⟩, rfl, rfl⟩
      · exact .refl r
    · exact .refl r
  | tick =>
    simp only [Runtime.step, Runtime.tick]
    split
    · next s hcontrol hengine => exact ⟨⟨rfl, by simp [Runtime.drain, hengine]⟩, rfl, rfl⟩
    · exact .refl r
  | flush =>
    simp only [Runtime.step, Runtime.flush]
    split
    · next purpose s hcontrol hengine =>
      exact ⟨⟨rfl, by simp [Runtime.drain, hengine]⟩, rfl, rfl⟩
    · exact .refl r
  | finish now wall =>
    simp only [Runtime.step, Runtime.finish]
    split
    · next purpose s hcontrol hengine =>
      split
      · exact ⟨⟨rfl, rfl⟩, rfl, rfl⟩
      · exact ⟨⟨rfl, by simp [Runtime.publish, hengine]⟩, rfl, rfl⟩
    · exact .refl r
  | conclude starts stores now => exact absurd rfl (hevent starts stores now)

/-- What the worker is at. -/
def purposeOf : Control → Option Purpose
  | .stopping purpose | .flushing purpose | .closing purpose => some purpose
  | .sampling purpose => purpose
  | .idle | .halted => none

theorem purpose_stop (r : Runtime) (purpose : Purpose) :
    purposeOf (r.stop purpose).control = some purpose := by
  unfold Runtime.stop
  split <;> rfl

/-- A purpose comes from a request or from the shutdown, and lasts until the end. -/
theorem purpose_step {event : Source.Sampling.Event} {purpose : Purpose}
    (h : purposeOf (r.step event).control = some purpose) :
    purposeOf r.control = some purpose ∨ request r event = some purpose ∨ purpose = .exit := by
  cases event with
  | capture event =>
    simp only [Runtime.step, Runtime.capture] at h
    split at h <;> exact Or.inl h
  | put name opens =>
    simp only [Runtime.step, Runtime.put] at h
    split at h
    · next hput =>
      rw [purpose_stop, Option.some.injEq] at h
      exact Or.inr (Or.inl (by simp [request, hput.1, h]))
    · exact Or.inl h
  | delete =>
    simp only [Runtime.step, Runtime.delete] at h
    split at h
    · next hidle =>
      rw [purpose_stop, Option.some.injEq] at h
      exact Or.inr (Or.inl (by simp [request, hidle, h]))
    · exact Or.inl h
  | shutdown =>
    simp only [Runtime.step, Runtime.shutdown] at h
    split at h
    · rw [purpose_stop, Option.some.injEq] at h
      exact Or.inr (Or.inr h.symm)
    · exact Or.inl h
  | joined =>
    simp only [Runtime.step, Runtime.joined] at h
    split at h
    · next hcontrol hengine =>
      split at h
      · exact Or.inl (by rw [hcontrol]; exact h)
      · exact Or.inl h
    · exact Or.inl h
  | tick =>
    simp only [Runtime.step, Runtime.tick] at h
    split at h
    · cases h
    · exact Or.inl h
  | flush =>
    simp only [Runtime.step, Runtime.flush] at h
    split at h
    · next hcontrol hengine => exact Or.inl (by rw [hcontrol]; exact h)
    · exact Or.inl h
  | finish now wall =>
    simp only [Runtime.step, Runtime.finish] at h
    split at h
    · next sampled s hcontrol hengine =>
      split at h
      · cases h
      · cases sampled with
        | none => cases h
        | some sampled => exact Or.inl (by rw [hcontrol]; exact h)
    · exact Or.inl h
  | conclude starts stores now =>
    simp only [Runtime.step, Runtime.conclude] at h
    split at h
    · split at h <;> cases h
    · cases h
    · cases h
    · exact Or.inl h

/-! ## Answers -/

/-- A runtime in which a request is answered, with the state that the request found. -/
structure Ready (purpose : Purpose) (found r : Runtime) : Prop where
  sound : Sound r
  named : r.engine_ = none → r.captureInterface_ = ""
  same : Same found r
  control : r.control = .closing purpose

theorem settled_still (h : Reported s) (hsettled : Settled s) :
    ¬ s.engine.counters_.running = true := by
  intro hrunning
  exact (h.lifecycle.running.mp hrunning).2 hsettled.finished

theorem retired_still (h : Sound r) {purpose : Purpose} (hcontrol : r.control = .closing purpose) :
    ¬ Running r.retire.closed := by
  rintro ⟨s, hs, hrunning⟩
  obtain ⟨hreported, hsettled⟩ := retired_settled h hcontrol s hs
  exact settled_still hreported hsettled hrunning

/-- The engine that was stopped for a request does not run when the request is answered. -/
theorem Ready.still {purpose : Purpose} {found : Runtime} (h : Ready purpose found r) :
    ¬ Running r.engine_.toList := by
  rintro ⟨s, hs, hrunning⟩
  exact retired_still h.sound h.control ⟨s, List.mem_append_right _ hs, hrunning⟩

/-- A failure to replace an engine is harmless where none ran. -/
theorem Ready.unchanged_iff {purpose : Purpose} {found : Runtime} (h : Ready purpose found r) :
    Unchanged found { r with control := .idle } ↔ ¬ Running found.engine_.toList := by
  constructor
  · intro hunchanged hrunning
    exact h.still (hunchanged.running hrunning)
  · intro hnone
    exact ⟨⟨h.same.engine.closed, h.same.engine.engine⟩, fun hrunning => absurd hrunning hnone,
      h.same.captureInterface, h.same.stored⟩

theorem Ready.installed {name : String} {found : Runtime} (h : Ready (.replace name) found r)
    (now : Int) : Carried (.replace name) (r.install name now) where
  captureInterface := rfl
  stored := rfl
  engine := ⟨_, List.mem_singleton_self _, rfl⟩
  others := retired_still h.sound h.control

theorem Ready.removed {found : Runtime} (h : Ready .remove found r) (starts : Bool) (now : Int) :
    Carried .remove (r.conclude starts true now) := by
  simp only [Runtime.conclude, h.control]
  exact ⟨rfl, rfl, rfl, retired_still h.sound h.control⟩

/-- A removal whose setting is not written is harmless where there was no engine. -/
theorem Ready.removal_iff {found : Runtime} (h : Ready .remove found r) (starts : Bool)
    (now : Int) :
    Unchanged found (r.conclude starts false now) ↔ found.engine_ = none := by
  simp only [Runtime.conclude, h.control]
  constructor
  · intro hunchanged
    simpa [Runtime.retire] using hunchanged.engine.engine.symm
  · intro hnone
    have hengine : r.engine_ = none := by
      simpa [hnone] using h.same.engine.engine
    refine ⟨⟨?_, by simp [Runtime.retire, hnone]⟩, ?_, ?_, h.same.stored⟩
    · simpa [Runtime.retire, hengine] using h.same.engine.closed
    · simp [hnone, Running]
    · exact (h.named hengine).symm.trans h.same.captureInterface

/-- The answer behind the stop. -/
theorem Ready.answered {purpose : Purpose} {found : Runtime} (h : Ready purpose found r)
    {starts stores : Bool} {now : Int} {failure : Option Failure}
    (hanswer : answer r (.conclude starts stores now) = some (purpose, failure)) :
    AllOrNothing ⟨purpose, failure, found, r.conclude starts stores now⟩ ↔
      Harmless ⟨purpose, failure, found, r.conclude starts stores now⟩ := by
  cases purpose with
  | exit => simp [answer, h.control] at hanswer
  | remove =>
    simp only [answer, h.control, Option.some.injEq, Prod.mk.injEq, true_and] at hanswer
    cases stores with
    | true =>
      subst hanswer
      simpa [AllOrNothing, Harmless] using h.removed starts now
    | false =>
      subst hanswer
      simpa [AllOrNothing, Harmless] using h.removal_iff starts now
  | replace name =>
    simp only [answer, h.control, Option.some.injEq, Prod.mk.injEq, true_and] at hanswer
    have hunchanged := h.unchanged_iff
    cases starts with
    | false =>
      subst hanswer
      simpa [AllOrNothing, Harmless, Runtime.conclude, h.control] using hunchanged
    | true =>
      cases stores with
      | true =>
        subst hanswer
        simpa [AllOrNothing, Harmless, Runtime.conclude, h.control] using h.installed now
      | false =>
        subst hanswer
        simpa [AllOrNothing, Harmless, Runtime.conclude, h.control] using hunchanged

/-- The answer before anything was done. -/
theorem refused {name : String} {opens : Bool} {purpose : Purpose} {failure : Option Failure}
    (hanswer : answer r (.put name opens) = some (purpose, failure)) :
    AllOrNothing ⟨purpose, failure, r, r.put name opens⟩ ↔
      Harmless ⟨purpose, failure, r, r.put name opens⟩ := by
  have hsame : Unchanged r r := ⟨⟨rfl, rfl⟩, id, rfl, rfl⟩
  simp only [answer] at hanswer
  split at hanswer
  · next hidle =>
    split at hanswer
    · next hname =>
      simp only [Option.some.injEq, Prod.mk.injEq] at hanswer
      obtain ⟨rfl, rfl⟩ := hanswer
      have hput : r.put name opens = r := if_neg fun h => by simp [h.2.1] at hname
      simp [AllOrNothing, Harmless, hput, hsame]
    · split at hanswer
      · next hopens =>
        simp only [Option.some.injEq, Prod.mk.injEq] at hanswer
        obtain ⟨rfl, rfl⟩ := hanswer
        have hput : r.put name opens = r := if_neg fun h => by simp [h.2.2] at hopens
        simp [AllOrNothing, Harmless, hput, hsame]
      · cases hanswer
  · cases hanswer

/-! ## Runs -/

/-- What holds between the requests of a run and on the way to their answers. -/
structure Watched (w : Watch) : Prop where
  sound : Sound w.runtime
  named : w.runtime.engine_ = none → w.runtime.captureInterface_ = ""
  pending : ∀ purpose, purposeOf w.runtime.control = some purpose → purpose ≠ .exit →
    Same w.found w.runtime
  answered : ∀ x ∈ w.exchanges, AllOrNothing x ↔ Harmless x

theorem watched_start (saved : String) : Watched (.start saved) := by
  refine ⟨?_, fun _ => rfl, fun purpose hpurpose _ => ?_, fun x hx => ?_⟩
  · constructor <;> simp [Watch.start, idle]
  · cases hpurpose
  · cases hx

theorem named_step (h : r.engine_ = none → r.captureInterface_ = "")
    (event : Source.Sampling.Event) :
    (r.step event).engine_ = none → (r.step event).captureInterface_ = "" := by
  by_cases hevent : ∃ starts stores now, event = .conclude starts stores now
  · obtain ⟨starts, stores, now, rfl⟩ := hevent
    simp only [Runtime.step, Runtime.conclude]
    split
    · split
      · intro hnone
        cases hnone
      · exact h
    · exact fun _ => rfl
    · exact h
    · exact h
  · have hsame : Same r (r.step event) :=
      same_step fun starts stores now heq => hevent ⟨starts, stores, now, heq⟩
    intro hnone
    have hengine : r.engine_ = none := by
      simpa [hnone] using hsame.engine.engine.symm
    exact hsame.captureInterface.trans (h hengine)

/-- A request that is taken up, or none: the state that the answer will be compared with. -/
theorem pending_step {w : Watch} (h : Watched w) (event : Source.Sampling.Event)
    (hevent : ∀ starts stores now, event ≠ .conclude starts stores now) {purpose : Purpose}
    (hpurpose : purposeOf (w.runtime.step event).control = some purpose) (hexit : purpose ≠ .exit) :
    Same (if (request w.runtime event).isSome then w.runtime else w.found)
      (w.runtime.step event) := by
  have hsame : Same w.runtime (w.runtime.step event) := same_step hevent
  cases hrequest : request w.runtime event with
  | some taken => exact hsame
  | none =>
    rcases purpose_step hpurpose with hbefore | hnew | hshutdown
    · exact (h.pending purpose hbefore hexit).trans hsame
    · rw [hrequest] at hnew
      cases hnew
    · exact absurd hshutdown hexit

/-- Behind the end of a request the worker is at nothing. -/
theorem conclude_idle {purpose : Purpose} {starts stores : Bool} {now : Int}
    (h : purposeOf (r.conclude starts stores now).control = some purpose) :
    r.conclude starts stores now = r ∧ purposeOf r.control = some purpose := by
  unfold Runtime.conclude at h ⊢
  split at h
  · split at h <;> cases h
  · cases h
  · cases h
  · exact ⟨rfl, h⟩

theorem requested_of_answer {name : String} {opens : Bool} {found : Purpose × Option Failure}
    (h : answer r (.put name opens) = some found) :
    (request r (.put name opens)).isSome = true := by
  simp only [answer] at h
  split at h
  · next hidle => simp [request, hidle]
  · cases h

theorem closing_of_answer {starts stores : Bool} {now : Int} {purpose : Purpose}
    {failure : Option Failure}
    (h : answer r (.conclude starts stores now) = some (purpose, failure)) :
    r.control = .closing purpose ∧ purpose ≠ .exit := by
  simp only [answer] at h
  split at h
  · next name hcontrol =>
    obtain ⟨rfl, -⟩ := Prod.mk.inj (Option.some.inj h)
    exact ⟨hcontrol, by simp⟩
  · next hcontrol =>
    obtain ⟨rfl, -⟩ := Prod.mk.inj (Option.some.inj h)
    exact ⟨hcontrol, by simp⟩
  · cases h

theorem step_exchanges (w : Watch) (event : Source.Sampling.Event) {x : Exchange}
    (hx : x ∈ (w.step event).exchanges) :
    x ∈ w.exchanges ∨ answer w.runtime event = some (x.purpose, x.failure) ∧
      x.before = (w.step event).found ∧ x.after = w.runtime.step event := by
  unfold Watch.step at hx ⊢
  cases hanswer : answer w.runtime event with
  | none =>
    rw [hanswer] at hx
    exact Or.inl hx
  | some both =>
    rw [hanswer] at hx
    rcases List.mem_append.mp hx with hx | hx
    · exact Or.inl hx
    · rw [List.mem_singleton.mp hx]
      exact Or.inr ⟨rfl, rfl, rfl⟩

theorem watched_step {w : Watch} (h : Watched w) (event : Source.Sampling.Event) :
    Watched (w.step event) := by
  have hruntime : (w.step event).runtime = w.runtime.step event := by
    unfold Watch.step
    cases answer w.runtime event <;> rfl
  have hfound : (w.step event).found =
      if (request w.runtime event).isSome then w.runtime else w.found := by
    unfold Watch.step
    cases answer w.runtime event <;> rfl
  refine ⟨?_, ?_, fun purpose hpurpose hexit => ?_, fun x hx => ?_⟩
  · rw [hruntime]
    exact sound_step h.sound event
  · rw [hruntime]
    exact named_step h.named event
  · rw [hruntime] at hpurpose ⊢
    rw [hfound]
    by_cases hevent : ∃ starts stores now, event = .conclude starts stores now
    · obtain ⟨starts, stores, now, rfl⟩ := hevent
      obtain ⟨hstill, hbefore⟩ := conclude_idle hpurpose
      simp only [Runtime.step, hstill]
      exact h.pending purpose hbefore hexit
    · exact pending_step h event (fun starts stores now heq => hevent ⟨starts, stores, now, heq⟩)
        hpurpose hexit
  · rcases step_exchanges w event hx with hold | ⟨hanswer, hbefore, hafter⟩
    · exact h.answered x hold
    · obtain ⟨purpose, failure, before, after⟩ := x
      simp only at hanswer hbefore hafter
      subst hafter
      rw [hbefore, hfound]
      cases event with
      | put name opens =>
        rw [if_pos (requested_of_answer hanswer)]
        exact refused hanswer
      | conclude starts stores now =>
        obtain ⟨hcontrol, hexit⟩ := closing_of_answer hanswer
        have hpending := h.pending purpose (by rw [hcontrol]; rfl) hexit
        exact Ready.answered ⟨h.sound, h.named, hpending, hcontrol⟩ hanswer
      | _ => cases hanswer

/-- In every run, a capture request is all-or-nothing exactly where nothing fails behind the stop
of an engine. -/
theorem requests_atomic (saved : String) (events : List Source.Sampling.Event) :
    ∀ x ∈ (run Watch.step (.start saved) events).exchanges, AllOrNothing x ↔ Harmless x :=
  (invariant (P := fun _ => True) (I := Watched) (fun _ event _ h => watched_step h event)
    (watched_start saved) fun _ _ => trivial).answered

/-- An interface is captured, and is to be replaced by one whose thread starts or does not, whose
name is stored or is not. -/
def replacing (starts stores : Bool) : List Source.Sampling.Event :=
  [.put "eth0" true, .conclude true true 0, .put "eth1" true, .capture .check, .capture .finish,
    .joined, .flush, .finish 1000 0, .conclude starts stores 1000]

/-- Where all goes well, the second interface is captured. -/
theorem requests_atomic_replaced :
    ∃ x ∈ (run Watch.step (.start "") (replacing true true)).exchanges,
      x.purpose = .replace "eth1" ∧ AllOrNothing x := by
  have hrun : (run Watch.step (.start "") (replacing true true)).exchanges.map
      (fun x => (x.purpose, x.failure)) =
      [(.replace "eth0", none), (.replace "eth1", none)] := by decide +kernel
  obtain ⟨x, hx, hfacts⟩ := List.mem_map.mp (hrun ▸ List.mem_cons_of_mem _ List.mem_cons_self :
    (Purpose.replace "eth1", none) ∈ _)
  obtain ⟨hpurpose, hfailure⟩ := Prod.mk.inj hfacts
  exact ⟨x, hx, hpurpose,
    (requests_atomic "" (replacing true true) x hx).mpr (by simp [Harmless, hfailure])⟩

/-- Where the setting is not written, the request fails and the engine that ran is stopped. -/
theorem requests_not_atomic :
    ¬ ∀ saved events, ∀ x ∈ (run Watch.step (.start saved) events).exchanges, AllOrNothing x := by
  intro h
  have hrun : (run Watch.step (.start "") (replacing true false)).exchanges.map (fun x =>
      (x.failure, x.before.engine_.toList.map (·.engine.counters_.running),
        x.after.engine_.toList.map (·.engine.counters_.running))) =
      [(none, [], [true]), (some .setting, [true], [false])] := by decide +kernel
  obtain ⟨x, hx, hfacts⟩ := List.mem_map.mp (hrun ▸ List.mem_cons_of_mem _ List.mem_cons_self :
    (some Failure.setting, [true], [false]) ∈ _)
  simp only [Prod.mk.injEq] at hfacts
  obtain ⟨hfailure, hbefore, hafter⟩ := hfacts
  have hatomic := h "" (replacing true false) x hx
  rw [AllOrNothing, if_neg (by simp [hfailure])] at hatomic
  have hran : Running x.before.engine_.toList := by
    obtain ⟨s, hs, hrunning⟩ := List.mem_map.mp (hbefore ▸ List.mem_cons_self : true ∈ _)
    exact ⟨s, hs, hrunning⟩
  obtain ⟨s, hs, hrunning⟩ := hatomic.running hran
  have hmem := List.mem_map_of_mem (f := fun s : Session => s.engine.counters_.running) hs
  rw [hafter, hrunning] at hmem
  simp at hmem

end Magicbox.Guarantees.CaptureRequests
