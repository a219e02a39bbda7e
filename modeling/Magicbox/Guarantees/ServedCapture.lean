import Magicbox.Guarantees.RecentPackets
import Magicbox.Source.Gate
import Magicbox.Source.RuntimeMembers

/-!
# What the served appliance captures

Whatever relation the parts of the runtime keep to, the served appliance keeps
to, in every schedule of clients, queue and worker. The capture of the appliance
that is made of the models of its parts is therefore where a run of the sampling
has led it, and what is known of every such run holds of what is served.
-/

set_option autoImplicit false

namespace Magicbox.Guarantees.ServedCapture
open Library Library.Crash Source Source.Json Source.NetworkController Source.ControlPlane
  Source.RuntimeMembers Source.Sampling RecentPackets
open Source.ControlQueue (Task Job Position System)

/-! ## From the parts to the queue -/

section Queue
variable {κ σ ε : Type} {R : σ → σ → Prop} {parts : ControlQueue.Parts σ ε}
  {r : σ} {q : System σ ε}

/-- The work of the worker, besides the tasks, keeps to a relation. -/
structure Bounds (R : σ → σ → Prop) (parts : ControlQueue.Parts σ ε) : Prop where
  refl : ∀ s, R s s
  trans : ∀ s t u, R s t → R t u → R s u
  tick : ∀ answers, Within R (parts.tick answers)
  sample : ∀ force answers, Within R (parts.sample force answers)
  noteCaptureError : ∀ what s, R s (parts.noteCaptureError what s)
  stopEngine : ∀ s, R s (parts.stopEngine s)
  rollBackPending : ∀ answers, Within R (parts.rollBackPending answers)

/-- So far the runtime has kept to the relation, and the jobs that wait will. -/
structure Bounded (R : σ → σ → Prop) (r : σ) (q : System σ ε) : Prop where
  runtime : R r q.runtime
  jobs : ∀ job ∈ q.jobs, ∀ answers, Within R (job.task answers)

theorem Bounded.next {q' : System σ ε} (h : Bounds R parts) (hq : Bounded R r q)
    (runtime : R q.runtime q'.runtime) (hjobs : q'.jobs ⊆ q.jobs) : Bounded R r q' :=
  ⟨h.trans _ _ _ hq.runtime runtime, fun job hjob => hq.jobs job (hjobs hjob)⟩

theorem bounded_submit (h : Bounds R parts) (hq : Bounded R r q) {task : Task σ ε}
    (htask : ∀ answers, Within R (task answers)) : Bounded R r (q.submit task) := by
  unfold System.submit
  split
  · exact hq.next h (h.refl _) (List.Subset.refl _)
  · refine ⟨hq.runtime, fun job hjob => ?_⟩
    have hcases : job ∈ q.jobs ∨ job = ⟨q.submits, task⟩ := by
      simpa [System.jobs, or_assoc] using hjob
    rcases hcases with hold | rfl
    · exact hq.jobs job hold
    · exact htask

theorem bounded_tick (h : Bounds R parts) (hq : Bounded R r q) {task : Option (Job σ ε)}
    (hworker : q.worker_ = .ticking task) (answers : ε) :
    Bounded R r (q.tick parts task answers) := by
  have hwithin := h.tick answers q.runtime
  unfold System.tick
  rcases hending : parts.tick answers q.runtime with ⟨_ | e | _, s⟩ <;> rw [hending] at hwithin
  · exact hq.next h hwithin (by simp [System.jobs, Position.jobs, hworker])
  · exact hq.next h hwithin (by simp [System.jobs, Position.jobs, hworker])
  · exact hq.next h hwithin (List.Subset.refl _)

theorem bounded_run (h : Bounds R parts) (hq : Bounded R r q) {job : Job σ ε}
    (hworker : q.worker_ = .running job) (answers : ε) : Bounded R r (q.run job answers) := by
  have hwithin := hq.jobs job (by simp [System.jobs, Position.jobs, hworker]) answers q.runtime
  unfold System.run
  rcases hending : job.task answers q.runtime with ⟨v | e | _, s⟩ <;> rw [hending] at hwithin
  · exact hq.next h hwithin (by simp [System.ended, System.jobs, Position.jobs])
  · exact hq.next h hwithin (by simp [System.ended, System.jobs, Position.jobs])
  · exact hq.next h hwithin (List.Subset.refl _)

theorem bounded_sample (h : Bounds R parts) (hq : Bounded R r q) (answers : ε) :
    Bounded R r (q.sample parts answers) := by
  have hwithin := h.sample false answers q.runtime
  unfold System.sample
  rcases hending : parts.sample false answers q.runtime with ⟨_ | e | _, s⟩ <;>
    rw [hending] at hwithin
  · exact hq.next h hwithin (by simp [System.jobs, Position.jobs])
  · exact hq.next h (h.trans _ _ _ hwithin (h.noteCaptureError _ _))
      (by simp [System.jobs, Position.jobs])
  · exact hq.next h hwithin (List.Subset.refl _)

theorem bounded_closing (h : Bounds R parts) (hq : Bounded R r q)
    {m : Program σ Exn Unit} (hm : Within R m) {next : ControlQueue.Position σ ε}
    (hnext : next.jobs = []) : Bounded R r (q.closing (m q.runtime) next) := by
  have hwithin := hm q.runtime
  rcases hending : m q.runtime with ⟨_ | e | _, s⟩ <;> rw [hending] at hwithin
  · exact hq.next h hwithin (by simp [System.closing, System.jobs, hnext])
  · exact hq.next h hwithin (by simp [System.closing, System.jobs, hnext])
  · exact hq.next h hwithin (List.Subset.refl _)

/-- A step of the queue. -/
theorem bounded_step (h : Bounds R parts) (hq : Bounded R r q) (event : ControlQueue.Event σ ε)
    (hsubmit : ∀ task, event = .submit task → ∀ answers, Within R (task answers)) :
    Bounded R r (q.step parts event) := by
  have same : Bounded R r q := hq
  unfold System.step
  split
  · split
    · split
      · exact same
      · exact bounded_submit h hq (hsubmit _ rfl)
    · exact hq.next h (h.refl _) (List.Subset.refl _)
    · unfold System.check
      split <;> exact hq.next h (h.refl _) (by simp [System.jobs, Position.jobs])
    · unfold System.wait
      split
      · exact hq.next h (h.refl _) (by simp [System.jobs, Position.jobs])
      · exact same
    · next hworker =>
      unfold System.dequeue
      split
      · exact hq.next h (h.refl _) (by simp [System.jobs, Position.jobs])
      · next htasks => exact hq.next h (h.refl _) (by simp [System.jobs, Position.jobs, htasks])
    · next hworker => exact bounded_tick h hq hworker _
    · next task hworker =>
      cases task <;>
        exact hq.next h (h.refl _) (by simp [System.start, System.jobs, Position.jobs, hworker])
    · next hworker => exact bounded_run h hq hworker _
    · exact hq.next h (h.refl _) (by simp [System.reply, System.jobs, Position.jobs])
    · exact bounded_sample h hq _
    · exact hq.next h (h.stopEngine _) (by simp [System.jobs, Position.jobs])
    · exact bounded_closing h hq (h.sample true _) rfl
    · exact bounded_closing h hq (h.rollBackPending _) rfl
    · exact hq.next h (h.refl _) (by simp [System.clear, System.jobs, Position.jobs])
    · exact same
  · exact same

/-- What the parts and the tasks of the clients keep to, every schedule keeps to. -/
theorem served_bounded (app : Gate.App κ σ ε) (h : Bounds R app.parts)
    (request : ∀ content answers, Within R (app.request content answers))
    (snapshot : ∀ answers, Within R (app.snapshot answers)) (runtime : σ)
    (events : List (Gate.Event κ σ ε)) :
    R runtime (Gate.serve app runtime events).core.queue.runtime := by
  have keep : ∀ (front : Gate.Front σ ε) event, True → Bounded R runtime front.core.queue →
      Bounded R runtime (front.step app event).core.queue := by
    intro front event _ hq
    have moves := Gate.step_moves app front event
    generalize (front.step app event).core.queue = q' at moves ⊢
    cases moves with
    | same => exact hq
    | queue hevent => exact bounded_step h hq _ fun task htask => absurd htask (hevent task)
    | @request _ r _ =>
      refine bounded_step h hq _ fun task htask => ?_
      cases htask
      exact request r.content
    | snapshot =>
      refine bounded_step h hq _ fun task htask => ?_
      cases htask
      exact snapshot
  have start : Bounded R runtime (ControlQueue.started (ε := ε) runtime) :=
    ⟨h.refl _, fun job hjob => by simp [ControlQueue.started, System.jobs, Position.jobs] at hjob⟩
  exact (Runs.invariant (P := fun _ => True)
    (I := fun front : Gate.Front σ ε => Bounded R runtime front.core.queue) keep start
    fun _ _ => trivial).runtime

end Queue

/-! ## From the other members to the appliance -/

section Rest
variable {τ ρ α : Type} {R : τ → τ → Prop} {parts : Rest τ ρ}

/-- What the runtime does with its other members keeps to a relation. -/
structure Confines (R : τ → τ → Prop) (parts : Rest τ ρ) : Prop where
  refl : ∀ s, R s s
  trans : ∀ s t u, R s t → R t u → R s u
  sample : ∀ force answers, Within R (parts.sample force answers)
  noteCaptureError : ∀ what s, R s (parts.noteCaptureError what s)
  stopEngine : ∀ s, R s (parts.stopEngine s)
  startCapture : ∀ name answers, Within R (parts.startCapture name answers)
  removeCapture : ∀ answers, Within R (parts.removeCapture answers)
  connections : ∀ answers, Within R (parts.connections answers)
  history : ∀ from_ to_ interval answers, Within R (parts.history from_ to_ interval answers)

/-- The relation, seen from the runtime. -/
def Beside (R : τ → τ → Prop) (s t : ControlPlane.Runtime τ) : Prop := R s.rest t.rest

theorem within_controller (h : Confines R parts) (supply : Supply) (m : Controller α) :
    Within (Beside R) (controller (τ := τ) supply m) := fun s => h.refl s.rest

theorem within_others {m : Program τ Exn α} (hm : Within R m) : Within (Beside R) (others m) :=
  fun s => hm s.rest

theorem composes_beside (h : Confines R parts) :
    Composes fun {α} (m : Program (ControlPlane.Runtime τ) Exn α) => Within (Beside R) m :=
  composes_within (fun s => h.refl s.rest) fun s t u => h.trans s.rest t.rest u.rest

theorem within_liftExcept (h : Confines R parts) (x : Except Exn α) :
    Within (Beside R) (liftExcept x) :=
  Within.liftExcept (fun s => h.refl s.rest) x

theorem within_snapshot (h : Confines R parts) (supply : Supply) :
    Within (Beside R) (ControlPlane.snapshot parts supply) :=
  (composes_beside h).bind (within_controller h _ _) fun _ => (composes_beside h).read _

theorem within_request (h : Confines R parts) (content : Content) (answers : Answers ρ) :
    Within (Beside R) (ControlPlane.request parts content answers) := by
  have composes := composes_beside h
  unfold ControlPlane.request
  cases endpoint content.path content.method with
  | none => exact fun s => h.refl s.rest
  | some e =>
    cases e with
    | status =>
      refine composes.bind (within_controller h _ _) fun _ => composes.bind (composes.read _) ?_
      exact fun _ => composes.bind (within_snapshot h _) fun _ => composes.pure _
    | interfaces => exact within_liftExcept h _
    | config => exact within_controller h _ _
    | validate => exact composes.bind (within_liftExcept h _) fun _ => composes.pure _
    | apply =>
      refine composes.bind (within_liftExcept h _) fun _ => ?_
      exact composes.bind (within_controller h _ _) fun _ => within_controller h _ _
    | confirm | rollback =>
      exact composes.bind (within_controller h _ _) fun _ => within_controller h _ _
    | startCapture =>
      refine composes.bind (within_liftExcept h _) fun name => ?_
      exact composes.bind (within_others (h.startCapture name _)) fun _ => within_snapshot h _
    | removeCapture =>
      exact composes.bind (within_others (h.removeCapture _)) fun _ => within_snapshot h _
    | metrics => exact within_snapshot h _
    | packets => exact composes.read _
    | flows => exact within_others (h.connections _)
    | history =>
      refine composes.bind (within_liftExcept h _) fun interval => ?_
      exact composes.bind (within_liftExcept h _) fun range => within_others (h.history _ _ _ _)

theorem bounds_work (h : Confines R parts) : Bounds (Beside R) (work parts) where
  refl := fun s => h.refl s.rest
  trans := fun s t u => h.trans s.rest t.rest u.rest
  tick := fun _ => within_controller h _ _
  sample := fun force answers => within_others (h.sample force answers.rest)
  noteCaptureError := fun what s => h.noteCaptureError what s.rest
  stopEngine := fun s => h.stopEngine s.rest
  rollBackPending := fun _ => within_controller h _ _

theorem served_beside (h : Confines R parts) (token_ : List UInt8)
    (runtime : ControlPlane.Runtime τ)
    (events : List (Gate.Event Content (ControlPlane.Runtime τ) (Answers ρ))) :
    R runtime.rest (Gate.serve (app parts token_) runtime events).core.queue.runtime.rest :=
  served_bounded (R := Beside R) (app parts token_) (bounds_work h) (within_request h)
    (fun _ => within_snapshot h _) runtime events

end Rest

/-! ## The capture -/

section Capture
variable {ρ α : Type} (db : FlowTable.Database ρ)

/-- The capture of `t` is where a run of the sampling leads from that of `s`. -/
def Sampled (s t : Members ρ) : Prop :=
  ∃ events, t.capture = Runs.run Sampling.Runtime.step s.capture events

theorem sampled_same {s t : Members ρ} (h : t.capture = s.capture) : Sampled s t := ⟨[], h⟩

theorem sampled_trans (s t u : Members ρ) (h : Sampled s t) (h' : Sampled t u) : Sampled s u := by
  obtain ⟨events, hevents⟩ := h
  obtain ⟨events', hevents'⟩ := h'
  exact ⟨events ++ events', by rw [Runs.run_append, ← hevents, hevents']⟩

theorem composes_sampled :
    Composes fun {α} (m : Program (Members ρ) Exn α) => Within Sampled m :=
  composes_within (fun _ => sampled_same rfl) sampled_trans

theorem sampled_play (events : List Sampling.Event) : Within (Sampled (ρ := ρ)) (play events) :=
  fun _ => ⟨events, rfl⟩

/-- A program that does not touch the capture. -/
theorem sampled_apart {m : Program (Members ρ) Exn α}
    (h : ∀ s, (m s).2.capture = s.capture) : Within Sampled m := fun s => sampled_same (h s)

theorem sampled_liftExcept (x : Except Exn α) :
    Within (Sampled (ρ := ρ)) (liftExcept x) :=
  Within.liftExcept (fun _ => sampled_same rfl) x

theorem sampled_join (outside : Outside) : Within (Sampled (ρ := ρ)) (join outside) := by
  refine composes_sampled.bind (sampled_play _) fun _ => ?_
  refine composes_sampled.bind (sampled_play _) fun _ => ?_
  refine composes_sampled.bind (composes_sampled.read _) fun control => ?_
  split
  · exact sampled_apart fun _ => rfl
  · exact composes_sampled.pure _

theorem sampled_store (outside : Outside) (p : Publication) :
    Within Sampled (store db outside p) := by
  refine Within.recover sampled_trans ?_ fun e => sampled_apart fun _ => rfl
  refine composes_sampled.bind ?_ fun _ => composes_sampled.bind (sampled_apart fun _ => rfl)
    fun _ => sampled_apart fun _ => rfl
  refine composes_sampled.bind (sampled_liftExcept _) fun _ => ?_
  refine composes_sampled.bind (sampled_apart fun _ => rfl) fun _ => ?_
  exact composes_sampled.bind (sampled_liftExcept _) fun _ => sampled_apart fun _ => rfl

theorem sampled_finish (outside : Outside) : Within Sampled (finish db outside) := by
  refine composes_sampled.bind (composes_sampled.read _) fun published => ?_
  refine composes_sampled.bind (sampled_play _) fun _ => ?_
  cases published with
  | none => exact composes_sampled.pure _
  | some p => exact sampled_store db outside p

theorem sampled_closeEngine (request : Sampling.Event) (outside : Outside) :
    Within Sampled (closeEngine db request outside) := by
  refine composes_sampled.bind (sampled_play _) fun _ => ?_
  refine composes_sampled.bind (sampled_join outside) fun _ => ?_
  exact composes_sampled.bind (sampled_play _) fun _ => sampled_finish db outside

theorem sampled_sample (force : Bool) (outside : Outside) :
    Within Sampled (sample db force outside) := by
  unfold RuntimeMembers.sample
  cases force with
  | true =>
    refine composes_sampled.bind (sampled_join outside) fun _ => ?_
    refine composes_sampled.bind (sampled_play _) fun _ => ?_
    exact composes_sampled.bind (sampled_finish db outside) fun _ => sampled_play _
  | false =>
    refine composes_sampled.bind (sampled_play _) fun _ => ?_
    refine composes_sampled.bind (sampled_play _) fun _ => ?_
    exact composes_sampled.bind (sampled_finish db outside) fun _ => sampled_play _

theorem sampled_startCapture (name : String) (outside : Outside) :
    Within Sampled (startCapture db name outside) := by
  unfold startCapture
  split
  · exact sampled_apart fun _ => rfl
  · refine composes_sampled.bind (sampled_liftExcept _) fun _ => ?_
    refine composes_sampled.bind (sampled_closeEngine db _ outside) fun _ => ?_
    refine composes_sampled.bind (sampled_play _) fun _ => ?_
    refine composes_sampled.bind (sampled_liftExcept _) fun _ => ?_
    refine composes_sampled.bind (sampled_liftExcept _) fun _ => ?_
    exact composes_sampled.bind (sampled_apart fun _ => rfl) fun _ => sampled_play _

theorem sampled_removeCapture (outside : Outside) :
    Within Sampled (removeCapture db outside) := by
  refine composes_sampled.bind (sampled_closeEngine db _ outside) fun _ => ?_
  exact composes_sampled.bind (sampled_play _) fun _ => sampled_liftExcept _

theorem sampled_history (from_ to_ interval : Int64) :
    Within Sampled (history db from_ to_ interval) := by
  refine composes_sampled.bind (composes_sampled.read _) fun samples => ?_
  split <;> exact sampled_apart fun _ => rfl

theorem confines_members (reader : String → Requests.Parsed) :
    Confines Sampled (members db reader) where
  refl := fun _ => sampled_same rfl
  trans := sampled_trans
  sample := sampled_sample db
  noteCaptureError := fun _ _ => sampled_same rfl
  stopEngine := fun _ => ⟨[.shutdown], rfl⟩
  startCapture := sampled_startCapture db
  removeCapture := sampled_removeCapture db
  connections := fun _ =>
    composes_sampled.bind (composes_sampled.read _) fun _ => sampled_liftExcept _
  history := fun from_ to_ interval _ => sampled_history db from_ to_ interval

/-- The capture of the served appliance is where a run of the sampling has led
it, in every schedule, and GET /api/v1/packets lists the newest packets that were
drained from its last session. -/
theorem served_capture (reader : String → Requests.Parsed) (token_ : List UInt8) (w : World)
    (m : Members ρ) (fresh : m.capture = idle)
    (events : List (Gate.Event Content (ControlPlane.Runtime (Members ρ)) (Answers Outside))) :
    let served := (Gate.serve (app (members db reader) token_) ⟨w, m⟩ events).core.queue.runtime
    (∃ steps, served.rest.capture = Runs.run Sampling.Runtime.step idle steps) ∧
      (members db reader).recent_ served.rest =
        .array ((((lastSession served.rest.capture).map drained).getD []).rtake 200 |>.map
          PacketJson.packetJson) := by
  intro served
  obtain ⟨steps, hsteps⟩ : Sampled m served.rest :=
    served_beside (confines_members db reader) token_ ⟨w, m⟩ events
  rw [fresh] at hsteps
  refine ⟨⟨steps, hsteps⟩, ?_⟩
  have hlisted : served.rest.capture.recent_ = listed served.rest.capture := by
    rw [hsteps]
    exact listed_run steps
  change Value.array (served.rest.capture.recent_.map PacketJson.packetJson) = _
  rw [hlisted]
  cases hlast : lastSession served.rest.capture <;> simp [listed, hlast]

end Capture

end Magicbox.Guarantees.ServedCapture
