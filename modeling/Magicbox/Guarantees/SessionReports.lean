import Magicbox.Guarantees.CaptureAccounting
import Magicbox.Library.Counters
import Magicbox.Source.Sampling

/-!
# Session reports

What the publications of a capture session say, in terms of the engine's ledger:
the counters of each are the totals at its snapshot, its breakdown is the one of
the packets that were drained since the publication before it, and each starts
where the last one ended. A session that was flushed has published everything.
-/

set_option autoImplicit false

namespace Magicbox.Guarantees.SessionReports
open Source.Capture Source.Engine Source.Sampling Library Library.BoundedQueue Library.Runs
open CaptureAccounting

variable {r : Runtime} {s : Session} {o : Observed}

/-! ## Ledgers that grow -/

/-- The first ledger is an earlier state of the second. -/
structure Within (before now : Ledger PacketMetadata) : Prop where
  arrivals : before.arrivals <+: now.arrivals
  taken : before.taken <+: now.taken

theorem Within.refl (l : Ledger PacketMetadata) : Within l l :=
  ⟨List.prefix_rfl, List.prefix_rfl⟩

theorem Within.trans {a b c : Ledger PacketMetadata} (hab : Within a b) (hbc : Within b c) :
    Within a c :=
  ⟨hab.arrivals.trans hbc.arrivals, hab.taken.trans hbc.taken⟩

theorem within_step (o : Observed) (event : Source.Engine.Event) :
    Within o.ledger (o.step event).ledger := by
  cases hdelivered : delivered o.engine event with
  | some p =>
    rw [observed_delivered hdelivered]
    exact ⟨List.prefix_append _ _, List.prefix_rfl⟩
  | none =>
    by_cases hdrain : ∃ limit, event = .drain limit
    · obtain ⟨limit, rfl⟩ := hdrain
      rw [observed_drain]
      exact ⟨List.prefix_rfl, List.prefix_append _ _⟩
    · rw [observed_quiet hdelivered fun limit heq => hdrain ⟨limit, heq⟩]
      exact .refl _

/-- Only `drain` takes packets out. -/
theorem taken_step {event : Source.Engine.Event} (hdrain : ∀ limit, event ≠ .drain limit) :
    (o.step event).ledger.taken = o.ledger.taken := by
  cases hdelivered : delivered o.engine event with
  | some p =>
    rw [observed_delivered hdelivered]
    rfl
  | none => rw [observed_quiet hdelivered hdrain]

/-- The packets that were drained between two states of a ledger. -/
def drainedSince (before now : Ledger PacketMetadata) : List PacketMetadata :=
  now.taken.flatten.drop before.taken.flatten.length

/-- The packets that arrived between two states of a ledger. -/
def arrivedSince (before now : Ledger PacketMetadata) : List PacketMetadata :=
  (now.arrivals.drop before.arrivals.length).map (·.item)

theorem Within.taken_le {before now : Ledger PacketMetadata} (h : Within before now) :
    before.taken.flatten.length ≤ now.taken.flatten.length := by
  obtain ⟨rest, hrest⟩ := h.taken
  rw [← hrest]
  simp

theorem drainedSince_self (l : Ledger PacketMetadata) : drainedSince l l = [] := by
  simp [drainedSince]

theorem drainedSince_gave {before now : Ledger PacketMetadata} (h : Within before now)
    (batch : List PacketMetadata) :
    drainedSince before (now.gave batch) = drainedSince before now ++ batch := by
  rw [drainedSince, Ledger.taken_gave, List.drop_append_of_le_length h.taken_le, drainedSince]

/-- A total over the ledger that only grows. -/
structure Measure (m : Ledger PacketMetadata → Nat) : Prop where
  empty : m {} = 0
  mono : ∀ before now, Within before now → m before ≤ m now

theorem arrivals_measure : Measure fun l => l.arrivals.length :=
  ⟨rfl, fun _ _ h => h.arrivals.length_le⟩

theorem wireTotal_measure : Measure wireTotal := by
  refine ⟨rfl, fun before now h => ?_⟩
  obtain ⟨rest, hrest⟩ := h.arrivals
  simp [wireTotal, ← hrest]

theorem drained_measure : Measure fun l => l.taken.flatten.length :=
  ⟨rfl, fun _ _ h => h.taken_le⟩

/-! ## Publications -/

/-- A publication and the engine it is about. -/
structure Consistent (p : Publication) : Prop where
  grew : Within p.before p.ledger
  drained : p.before.taken.flatten <+: p.before.kept
  previousPackets : p.previousPackets = UInt64.ofNat p.before.arrivals.length
  previousBytes : p.previousBytes = UInt64.ofNat (wireTotal p.before)
  packets : p.counters.packets = UInt64.ofNat p.ledger.arrivals.length
  wireBytes : p.counters.wireBytes = UInt64.ofNat (wireTotal p.ledger)
  metadataDropped : p.counters.metadataDropped = UInt64.ofNat p.ledger.dropped
  waiting : ∃ queue, p.counters.queued = queue.length ∧
    p.ledger.taken.flatten ++ queue = p.ledger.kept
  breakdown : ∃ captureInterface, p.breakdown =
    (drainedSince p.before p.ledger).foldl (Breakdown.add captureInterface) {}
  protocols : p.metrics.protocols = p.breakdown.protocols_.entries
  complete : p.metrics.breakdownComplete =
    (p.counters.metadataDropped = 0 && p.breakdown.talkersOmitted_ = 0 : Bool)

/-- A session and its publications. -/
structure Reported (s : Session) : Prop where
  accounted : Accounted 8192 s.observed
  lifecycle : Lifecycle s.engine
  started : s.engine.started_ = true
  consistent : ∀ p ∈ s.publications, Consistent p
  /-- Each publication starts where the last one ended. -/
  telescopes : ∀ m, Measure m →
    (s.publications.map fun p => m p.ledger - m p.before).sum = m s.since
  within : Within s.since s.observed.ledger
  earlier : ∀ p ∈ s.publications, Within p.ledger s.observed.ledger

@[simp] theorem since_step (s : Session) (event : Source.Engine.Event) :
    (s.step event).since = s.since := rfl

theorem reported_step (h : Reported s) (event : Source.Engine.Event) : Reported (s.step event) :=
  ⟨accounted_step h.accounted event, lifecycle_step h.lifecycle event,
    started_step h.started event, h.consistent, h.telescopes,
    h.within.trans (within_step s.observed event),
    fun p hp => (h.earlier p hp).trans (within_step s.observed event)⟩

/-- The members of the runtime that belong to the interval under way. -/
structure Pending (r : Runtime) (s : Session) : Prop where
  previousPackets : r.previousPackets_ = UInt64.ofNat s.since.arrivals.length
  previousBytes : r.previousBytes_ = UInt64.ofNat (wireTotal s.since)
  breakdown : r.breakdown =
    (drainedSince s.since s.observed.ledger).foldl (Breakdown.add r.captureInterface_) {}

/-- Everything was drained and published, and nothing more can arrive. -/
structure Settled (s : Session) : Prop where
  finished : s.engine.worker_ = .finished
  empty : s.engine.queue_ = []
  flushed : s.since = s.observed.ledger

/-- A thread that is gone leaves a session as it is. -/
theorem finished_capture (h : Reported s) (hfinished : s.engine.worker_ = .finished)
    {event : Source.Engine.Event} (hworker : ofWorker event = true) :
    (s.step event).engine.worker_ = .finished ∧ (s.step event).engine.queue_ = s.engine.queue_ ∧
      (s.step event).observed.ledger = s.observed.ledger := by
  have hdrain : ∀ limit, event ≠ .drain limit := by
    intro limit heq
    rw [heq] at hworker
    cases hworker
  obtain ⟨hdelivered, -, hstill, -⟩ := finished_step h.started hfinished event
  have hquiet : s.observed.step event = ⟨s.engine.step event, s.observed.ledger⟩ :=
    observed_quiet hdelivered hdrain
  refine ⟨hstill, (step_quiet hdelivered hdrain).1, ?_⟩
  rw [Session.step, hquiet]

theorem Settled.capture (h : Settled s) (hreported : Reported s) {event : Source.Engine.Event}
    (hworker : ofWorker event = true) : Settled (s.step event) := by
  obtain ⟨hfinished, hqueue, hledger⟩ := finished_capture hreported h.finished hworker
  exact ⟨hfinished, hqueue.trans h.empty, by rw [since_step, h.flushed, hledger]⟩

theorem pending_capture (h : Pending r s) {event : Source.Engine.Event}
    (hworker : ofWorker event = true) :
    Pending { r with engine_ := some (s.step event) } (s.step event) := by
  have hdrain : ∀ limit, event ≠ .drain limit := by
    intro limit heq
    rw [heq] at hworker
    cases hworker
  have htaken : (s.step event).observed.ledger.taken = s.observed.ledger.taken :=
    taken_step hdrain
  refine ⟨h.previousPackets, h.previousBytes, ?_⟩
  rw [since_step, drainedSince, htaken]
  exact h.breakdown

/-! ## The parts of a sample -/

theorem pending_drain (hreported : Reported s) (h : Pending r s) (purpose : Option Purpose) :
    Pending (r.drain s purpose) (s.step (.drain 8192)) := by
  refine ⟨h.previousPackets, h.previousBytes, ?_⟩
  have hledger : (s.step (.drain 8192)).observed.ledger =
      s.observed.ledger.gave (s.engine.queue_.take 8192) := rfl
  rw [since_step, hledger, drainedSince_gave hreported.within, List.foldl_append]
  exact congrArg ((s.engine.queue_.take 8192).foldl (Breakdown.add r.captureInterface_))
    h.breakdown

/-- The queue is not longer than what a drain takes. -/
theorem drain_empties (h : Reported s) : (s.step (.drain 8192)).engine.queue_ = [] :=
  List.drop_eq_nil_of_le h.accounted.balanced.bounded

/-- What was taken out until the last publication had been let in by then. -/
theorem since_drained (h : Reported s) : s.since.taken.flatten <+: s.since.kept := by
  cases hlast : s.publications.getLast? with
  | none =>
    rw [Session.since, hlast]
    exact List.prefix_rfl
  | some q =>
    obtain ⟨queue, -, horder⟩ := (h.consistent q (List.mem_of_getLast? hlast)).waiting
    rw [Session.since, hlast]
    exact ⟨queue, horder⟩

theorem publication_consistent (hreported : Reported s) (h : Pending r s) (elapsed wall : Int) :
    Consistent (r.publication s elapsed wall) where
  grew := hreported.within
  drained := since_drained hreported
  previousPackets := h.previousPackets
  previousBytes := h.previousBytes
  packets := hreported.accounted.packets
  wireBytes := hreported.accounted.wireBytes
  metadataDropped := hreported.accounted.metadataDropped
  waiting := ⟨s.engine.queue_, rfl, hreported.accounted.balanced.order⟩
  breakdown := ⟨r.captureInterface_, h.breakdown⟩
  protocols := rfl
  complete := rfl

/-- The session behind a publication. -/
def published (s : Session) (p : Publication) : Session :=
  { s with publications := s.publications ++ [p] }

theorem since_published (s : Session) (p : Publication) : (published s p).since = p.ledger := by
  simp [published, Session.since]

theorem reported_published (hreported : Reported s) (h : Pending r s) (elapsed wall : Int) :
    Reported (published s (r.publication s elapsed wall)) := by
  have hsince := since_published s (r.publication s elapsed wall)
  refine ⟨hreported.accounted, hreported.lifecycle, hreported.started, fun p hp => ?_,
    fun m hm => ?_, ?_, fun p hp => ?_⟩
  · rcases List.mem_append.mp hp with hp | hp
    · exact hreported.consistent p hp
    · rw [List.mem_singleton.mp hp]
      exact publication_consistent hreported h elapsed wall
  · have hsum := hreported.telescopes m hm
    have hle := hm.mono _ _ hreported.within
    rw [hsince, published, List.map_append, List.sum_append, hsum]
    simp only [Runtime.publication, List.map_cons, List.map_nil, List.sum_cons, List.sum_nil]
    omega
  · rw [hsince]
    exact .refl _
  · rcases List.mem_append.mp hp with hp | hp
    · exact hreported.earlier p hp
    · rw [List.mem_singleton.mp hp]
      exact .refl _

theorem pending_published (hreported : Reported s) (now wall : Int) (purpose : Option Purpose) :
    Pending { r.publish s now wall with control := purpose.elim .idle .closing }
      (published s (r.publication s (r.elapsed now) wall)) := by
  have hsince := since_published s (r.publication s (r.elapsed now) wall)
  refine ⟨?_, ?_, ?_⟩
  · rw [hsince]
    exact hreported.accounted.packets
  · rw [hsince]
    exact hreported.accounted.wireBytes
  · have hnone : drainedSince (r.publication s (r.elapsed now) wall).ledger
        (published s (r.publication s (r.elapsed now) wall)).observed.ledger = [] :=
      drainedSince_self s.observed.ledger
    rw [hsince, hnone]
    rfl

theorem reported_fresh (h : 0 < 8192) : Reported ⟨⟨(fresh 8192 h).start, {}⟩, []⟩ := by
  refine ⟨accounted_step (accounted_fresh h) .start, lifecycle_step (lifecycle_fresh _ h) .start,
    rfl, by simp, fun m hm => ?_, .refl _, by simp⟩
  exact hm.empty.symm

/-! ## Runs of the runtime -/

/-- What the place of the control worker says about the engine. -/
def Phase : Control → Session → Prop
  | .idle, _ | .stopping _, _ | .sampling none, _ => True
  | .flushing _, s => s.engine.worker_ = .finished
  | .sampling (some _), s => s.engine.worker_ = .finished ∧ s.engine.queue_ = []
  | .closing _, s | .halted, s => Settled s

structure Sound (r : Runtime) : Prop where
  reported : ∀ s, r.engine_ = some s → Reported s
  pending : ∀ s, r.engine_ = some s → Pending r s
  phase : ∀ s, r.engine_ = some s → Phase r.control s
  closed : ∀ s ∈ r.closed, Reported s ∧ Settled s

theorem sound_idle : Sound idle := by
  constructor <;> simp [idle]

/-- A step that leaves a session in place. -/
theorem Sound.keep {after : Runtime} {t : Session} (h : Sound r) (hengine : after.engine_ = some t)
    (hreported : Reported t) (hpending : Pending after t) (hphase : Phase after.control t)
    (hclosed : after.closed = r.closed) : Sound after := by
  constructor
  · intro s hs
    obtain rfl : t = s := Option.some.inj (hengine.symm.trans hs)
    exact hreported
  · intro s hs
    obtain rfl : t = s := Option.some.inj (hengine.symm.trans hs)
    exact hpending
  · intro s hs
    obtain rfl : t = s := Option.some.inj (hengine.symm.trans hs)
    exact hphase
  · rw [hclosed]
    exact h.closed

/-- A step that moves the control worker only. -/
theorem Sound.move (h : Sound r) {control : Control}
    (hphase : ∀ s, r.engine_ = some s → Phase control s) : Sound { r with control } :=
  ⟨h.reported, fun s hs => ⟨(h.pending s hs).1, (h.pending s hs).2, (h.pending s hs).3⟩, hphase,
    h.closed⟩

theorem phase_capture {control : Control} (hreported : Reported s) (h : Phase control s)
    {event : Source.Engine.Event} (hworker : ofWorker event = true) :
    Phase control (s.step event) := by
  cases control with
  | idle => trivial
  | stopping purpose => trivial
  | flushing purpose => exact (finished_capture hreported h hworker).1
  | sampling purpose =>
    cases purpose with
    | none => trivial
    | some purpose =>
      obtain ⟨hfinished, hqueue, -⟩ := finished_capture hreported h.1 hworker
      exact ⟨hfinished, hqueue.trans h.2⟩
  | closing purpose => exact Settled.capture h hreported hworker
  | halted => exact Settled.capture h hreported hworker

theorem sound_capture (h : Sound r) (event : Source.Engine.Event) : Sound (r.capture event) := by
  unfold Runtime.capture
  split
  · next hworker =>
    cases hengine : r.engine_ with
    | none =>
      constructor <;> simp only [Option.map_none, reduceCtorEq, false_implies, implies_true]
      exact h.closed
    | some s =>
      have hreported := h.reported s hengine
      refine h.keep (t := s.step event) rfl (reported_step hreported event) ?_
        (phase_capture hreported (h.phase s hengine) hworker) rfl
      exact pending_capture (h.pending s hengine) hworker
  · exact h

theorem sound_stop (h : Sound r) (purpose : Purpose) : Sound (r.stop purpose) := by
  unfold Runtime.stop
  split
  · next hengine => exact h.move fun s hs => by simp [hengine] at hs
  · next s hengine =>
    have hpending := h.pending s hengine
    refine h.keep (t := s.step .requestStop) rfl (reported_step (h.reported s hengine) _) ?_
      trivial rfl
    refine ⟨hpending.previousPackets, hpending.previousBytes, ?_⟩
    have hledger : (s.step .requestStop).observed.ledger = s.observed.ledger := rfl
    rw [since_step, hledger]
    exact hpending.breakdown

theorem sound_joined (h : Sound r) : Sound r.joined := by
  unfold Runtime.joined
  split
  · next purpose s hcontrol hengine =>
    split
    · next hfinished =>
      have hreported := h.reported s hengine
      have hpending := h.pending s hengine
      refine h.keep (t := s.step .join) rfl (reported_step hreported _) ?_ ?_ rfl
      · refine ⟨hpending.previousPackets, hpending.previousBytes, ?_⟩
        have hledger : (s.step .join).observed.ledger = s.observed.ledger := rfl
        rw [since_step, hledger]
        exact hpending.breakdown
      · exact (finished_step hreported.started hfinished .join).2.2.1
    · exact h
  · exact h

theorem sound_drain (h : Sound r) (hengine : r.engine_ = some s) (purpose : Option Purpose)
    (hfinished : purpose ≠ none → s.engine.worker_ = .finished) :
    Sound (r.drain s purpose) := by
  have hreported := h.reported s hengine
  refine h.keep (t := s.step (.drain 8192)) rfl (reported_step hreported _)
    (pending_drain hreported (h.pending s hengine) purpose) ?_ rfl
  cases purpose with
  | none => trivial
  | some purpose =>
    have hgone := hfinished (by simp)
    exact ⟨(finished_step hreported.started hgone (.drain 8192)).2.2.1, drain_empties hreported⟩

theorem sound_tick (h : Sound r) : Sound r.tick := by
  unfold Runtime.tick
  split
  · next s hcontrol hengine => exact sound_drain h hengine none fun hne => absurd rfl hne
  · exact h

theorem sound_flush (h : Sound r) : Sound r.flush := by
  unfold Runtime.flush
  split
  · next purpose s hcontrol hengine =>
    have hphase := h.phase s hengine
    rw [hcontrol] at hphase
    exact sound_drain h hengine (some purpose) fun _ => hphase
  · exact h

theorem sound_finish (h : Sound r) (now wall : Int) : Sound (r.finish now wall) := by
  unfold Runtime.finish
  split
  · next purpose s hcontrol hengine =>
    split
    · exact h.move fun _ _ => trivial
    · have hreported := h.reported s hengine
      refine h.keep (t := published s (r.publication s (r.elapsed now) wall)) rfl
        (reported_published hreported (h.pending s hengine) _ wall)
        (pending_published hreported now wall purpose) ?_ rfl
      have hphase := h.phase s hengine
      rw [hcontrol] at hphase
      cases purpose with
      | none => trivial
      | some purpose => exact ⟨hphase.1, hphase.2, since_published s _⟩
  · exact h

/-- What is retired was flushed. -/
theorem retired_settled (h : Sound r) {purpose : Purpose}
    (hcontrol : r.control = .closing purpose) :
    ∀ s ∈ r.retire.closed, Reported s ∧ Settled s := by
  intro s hs
  rcases List.mem_append.mp hs with hs | hs
  · exact h.closed s hs
  · have hengine : r.engine_ = some s := Option.mem_toList.mp hs
    have hphase := h.phase s hengine
    rw [hcontrol] at hphase
    exact ⟨h.reported s hengine, hphase⟩

theorem sound_conclude (h : Sound r) (starts stores : Bool) (now : Int) :
    Sound (r.conclude starts stores now) := by
  unfold Runtime.conclude
  split
  · next name hcontrol =>
    split
    · have hfresh := reported_fresh (by decide)
      constructor
      · intro s hs
        obtain rfl := Option.some.inj hs
        exact hfresh
      · intro s hs
        obtain rfl := Option.some.inj hs
        exact ⟨rfl, rfl, rfl⟩
      · intro s _
        trivial
      · exact retired_settled h hcontrol
    · exact h.move fun _ _ => trivial
  · next hcontrol =>
    constructor
    · intro s hs
      simp [Runtime.retire] at hs
    · intro s hs
      simp [Runtime.retire] at hs
    · intro s hs
      simp [Runtime.retire] at hs
    · exact retired_settled h hcontrol
  · next hcontrol =>
    refine h.move fun s hs => ?_
    have hphase := h.phase s hs
    rw [hcontrol] at hphase
    exact hphase
  · exact h

theorem sound_step (h : Sound r) (event : Source.Sampling.Event) : Sound (r.step event) := by
  cases event with
  | capture event => exact sound_capture h event
  | put name opens =>
    simp only [Runtime.step, Runtime.put]
    split
    · exact sound_stop h _
    · exact h
  | delete =>
    simp only [Runtime.step, Runtime.delete]
    split
    · exact sound_stop h _
    · exact h
  | shutdown =>
    simp only [Runtime.step, Runtime.shutdown]
    split
    · exact sound_stop h _
    · exact h
  | joined => exact sound_joined h
  | tick => exact sound_tick h
  | flush => exact sound_flush h
  | finish now wall => exact sound_finish h now wall
  | conclude starts stores now => exact sound_conclude h starts stores now

theorem sound_run (events : List Source.Sampling.Event) : Sound (run Runtime.step idle events) :=
  invariant (P := fun _ => True) (I := Sound) (fun _ event _ h => sound_step h event) sound_idle
    fun _ _ => trivial

end Magicbox.Guarantees.SessionReports
