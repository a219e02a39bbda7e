import Mathlib.Algebra.GroupWithZero.Nat
import Magicbox.Source.Engine

/-!
# Capture accounting

The counters, the bounded queue and the batches that were drained account for
every packet the source delivered, under every schedule. The counters are 64-bit,
so that they hold the totals modulo 2^64. Once the worker is gone nothing is
counted any more, and what is left in the queue can still be drained.

A `stop` before `start` does nothing: the engine may still be started.
-/

set_option autoImplicit false

namespace Magicbox.Guarantees.CaptureAccounting
open Source.Capture Source.Engine Library.BoundedQueue Library.Runs

variable {e : CaptureEngine} {event : Event}

/-! ## Effects of an event -/

def wireTotal (l : Ledger PacketMetadata) : Nat :=
  (l.arrivals.map fun a => a.item.wireBytes.toNat).sum

/-- The counters of traffic and loss. -/
def totals (c : CaptureSnapshot) : UInt64 × UInt64 × UInt64 :=
  (c.packets, c.wireBytes, c.metadataDropped)

/-- What counting a packet leaves alone. -/
theorem count_frame (e : CaptureEngine) (p : PacketMetadata) :
    (e.count p).capacity_ = e.capacity_ ∧ (e.count p).started_ = e.started_ ∧
      (e.count p).worker_ = e.worker_ ∧ (e.count p).stopRequested = e.stopRequested ∧
      (e.count p).joinable = e.joinable ∧
      (e.count p).counters_.running = e.counters_.running := by
  unfold CaptureEngine.count
  split <;> simp

theorem step_capacity (e : CaptureEngine) (event : Event) :
    (e.step event).capacity_ = e.capacity_ := by
  cases event with
  | start => simp only [CaptureEngine.step, CaptureEngine.start]; split <;> rfl
  | requestStop => simp only [CaptureEngine.step, CaptureEngine.requestStop]; split <;> rfl
  | join => simp only [CaptureEngine.step, CaptureEngine.join]; split <;> rfl
  | drain limit => rfl
  | check => simp only [CaptureEngine.step, CaptureEngine.check]; split <;> rfl
  | next result =>
    simp only [CaptureEngine.step, CaptureEngine.next]
    split
    · cases result <;> rfl
    · rfl
  | iterate kernelDrops =>
    simp only [CaptureEngine.step, CaptureEngine.iterate]
    split
    · split
      · exact (count_frame _ _).1
      · rfl
    · rfl
  | handle => simp only [CaptureEngine.step, CaptureEngine.handle]; split <;> rfl
  | finish => simp only [CaptureEngine.step, CaptureEngine.finish]; split <;> rfl

/-- An event that delivers no packet and drains nothing leaves queue and totals alone. -/
theorem step_quiet (hdelivered : delivered e event = none)
    (hdrain : ∀ limit, event ≠ .drain limit) :
    (e.step event).queue_ = e.queue_ ∧
      totals (e.step event).counters_ = totals e.counters_ := by
  cases event with
  | start => simp only [CaptureEngine.step, CaptureEngine.start]; split <;> exact ⟨rfl, rfl⟩
  | requestStop =>
    simp only [CaptureEngine.step, CaptureEngine.requestStop]
    split <;> exact ⟨rfl, rfl⟩
  | join => simp only [CaptureEngine.step, CaptureEngine.join]; split <;> exact ⟨rfl, rfl⟩
  | drain limit => exact absurd rfl (hdrain limit)
  | check => simp only [CaptureEngine.step, CaptureEngine.check]; split <;> exact ⟨rfl, rfl⟩
  | next result =>
    simp only [CaptureEngine.step, CaptureEngine.next]
    split
    · cases result <;> exact ⟨rfl, rfl⟩
    · exact ⟨rfl, rfl⟩
  | iterate kernelDrops =>
    cases hworker : e.worker_ with
    | fetched packet =>
      have hnone : packet = none := by simpa [delivered, hworker] using hdelivered
      simp [CaptureEngine.step, CaptureEngine.iterate, hworker, hnone, totals]
    | _ => simp [CaptureEngine.step, CaptureEngine.iterate, hworker]
  | handle => simp only [CaptureEngine.step, CaptureEngine.handle]; split <;> exact ⟨rfl, rfl⟩
  | finish => simp only [CaptureEngine.step, CaptureEngine.finish]; split <;> exact ⟨rfl, rfl⟩

/-- A delivery is an iteration of a worker that fetched the packet. -/
theorem iteration_of_delivered {p : PacketMetadata} (h : delivered e event = some p) :
    e.worker_ = .fetched (some p) ∧ ∃ kernelDrops, event = .iterate kernelDrops := by
  cases event with
  | iterate kernelDrops =>
    cases hworker : e.worker_ with
    | fetched packet => exact ⟨by simpa [delivered, hworker] using h, kernelDrops, rfl⟩
    | _ => simp [delivered, hworker] at h
  | _ => simp [delivered] at h

theorem step_delivered {p : PacketMetadata} (h : delivered e event = some p) :
    (e.step event).queue_ = offer e.capacity_ e.queue_ p ∧
      totals (e.step event).counters_ =
        (e.counters_.packets + 1, e.counters_.wireBytes + p.wireBytes.toUInt64,
          if e.queue_.length = e.capacity_ then e.counters_.metadataDropped + 1
          else e.counters_.metadataDropped) := by
  obtain ⟨hworker, kernelDrops, rfl⟩ := iteration_of_delivered h
  by_cases hfull : e.queue_.length = e.capacity_
  · simp [CaptureEngine.step, CaptureEngine.iterate, CaptureEngine.count, hworker, hfull, totals,
      offer]
  · simp [CaptureEngine.step, CaptureEngine.iterate, CaptureEngine.count, hworker, hfull, totals,
      offer]

/-! ## The life of the worker -/

/-- What the flags say about the worker. -/
structure Lifecycle (e : CaptureEngine) : Prop where
  idle : e.started_ = false → e.worker_ = .absent ∧ e.joinable = false
  joined : e.started_ = true → e.joinable = false → e.worker_ = .finished
  running : e.counters_.running = true ↔ e.started_ = true ∧ e.worker_ ≠ .finished

theorem lifecycle_fresh (capacity : Nat) (h : 0 < capacity) : Lifecycle (fresh capacity h) :=
  ⟨fun _ => ⟨rfl, rfl⟩, by simp [fresh], by simp [fresh]⟩

/-- A worker that is at work was started and was not joined. -/
theorem Lifecycle.busy (h : Lifecycle e) (habsent : e.worker_ ≠ .absent)
    (hfinished : e.worker_ ≠ .finished) : e.started_ = true ∧ e.joinable = true := by
  have hstarted : e.started_ = true := by
    cases hstarted : e.started_ with
    | true => rfl
    | false => exact absurd (h.idle hstarted).1 habsent
  refine ⟨hstarted, ?_⟩
  cases hjoinable : e.joinable with
  | true => rfl
  | false => exact absurd (h.joined hstarted hjoinable) hfinished

/-- A step of the worker that does not end it. -/
theorem Lifecycle.move {after : CaptureEngine} (h : Lifecycle e) (habsent : e.worker_ ≠ .absent)
    (hfinished : e.worker_ ≠ .finished) (hworker : after.worker_ ≠ .finished)
    (hstarted : after.started_ = e.started_) (hjoinable : after.joinable = e.joinable)
    (hrunning : after.counters_.running = e.counters_.running) : Lifecycle after := by
  obtain ⟨hs, hj⟩ := h.busy habsent hfinished
  constructor
  · simp [hstarted, hs]
  · simp [hjoinable, hj]
  · rw [hrunning, h.running, hstarted]
    simp [hfinished, hworker]

theorem lifecycle_step (h : Lifecycle e) (event : Event) : Lifecycle (e.step event) := by
  have ⟨hidle, hjoined, hrunning⟩ := h
  cases event with
  | start =>
    simp only [CaptureEngine.step, CaptureEngine.start]
    split
    · exact ⟨hidle, hjoined, hrunning⟩
    · constructor <;> simp
  | requestStop =>
    simp only [CaptureEngine.step, CaptureEngine.requestStop]
    split <;> exact ⟨hidle, hjoined, hrunning⟩
  | join =>
    simp only [CaptureEngine.step, CaptureEngine.join]
    split
    · next hfinished =>
      exact ⟨fun hstarted => ⟨(hidle hstarted).1, rfl⟩, fun _ _ => hfinished, hrunning⟩
    · exact ⟨hidle, hjoined, hrunning⟩
  | drain limit => exact ⟨hidle, hjoined, hrunning⟩
  | check =>
    simp only [CaptureEngine.step, CaptureEngine.check]
    split
    · next hworker =>
      exact h.move (by simp [hworker]) (by simp [hworker]) (by simp; split <;> simp) rfl rfl rfl
    · exact h
  | next result =>
    simp only [CaptureEngine.step, CaptureEngine.next]
    split
    · next hworker =>
      cases result <;> exact h.move (by simp [hworker]) (by simp [hworker]) (by simp) rfl rfl rfl
    · exact h
  | iterate kernelDrops =>
    simp only [CaptureEngine.step, CaptureEngine.iterate]
    split
    · next hworker =>
      have hbusy : Lifecycle { e with
          counters_ := { e.counters_ with kernelDropped := kernelDrops }, worker_ := .looping } :=
        h.move (by simp [hworker]) (by simp [hworker]) (by simp) rfl rfl rfl
      split
      · obtain ⟨-, hstarted, hsame, -, hjoinable, hran⟩ := count_frame _ _
        exact hbusy.move (by simp) (by simp) (by rw [hsame]; simp) hstarted hjoinable hran
      · exact hbusy
    · exact h
  | handle =>
    simp only [CaptureEngine.step, CaptureEngine.handle]
    split
    · next hworker =>
      exact h.move (by simp [hworker]) (by simp [hworker]) (by simp) rfl rfl rfl
    · exact h
  | finish =>
    simp only [CaptureEngine.step, CaptureEngine.finish]
    split
    · next hworker =>
      obtain ⟨hstarted, hjoinable⟩ := h.busy (by simp [hworker]) (by simp [hworker])
      constructor
      · simp [hstarted]
      · simp
      · simp
    · exact h

theorem started_step (hstarted : e.started_ = true) (event : Event) :
    (e.step event).started_ = true := by
  cases event with
  | start => simp [CaptureEngine.step, CaptureEngine.start, hstarted]
  | requestStop =>
    simp only [CaptureEngine.step, CaptureEngine.requestStop]
    split <;> exact hstarted
  | join => simp only [CaptureEngine.step, CaptureEngine.join]; split <;> exact hstarted
  | drain limit => exact hstarted
  | check => simp only [CaptureEngine.step, CaptureEngine.check]; split <;> exact hstarted
  | next result =>
    simp only [CaptureEngine.step, CaptureEngine.next]
    split
    · cases result <;> exact hstarted
    · exact hstarted
  | iterate kernelDrops =>
    simp only [CaptureEngine.step, CaptureEngine.iterate]
    split
    · split
      · exact (count_frame _ _).2.1.trans hstarted
      · exact hstarted
    · exact hstarted
  | handle => simp only [CaptureEngine.step, CaptureEngine.handle]; split <;> exact hstarted
  | finish => simp only [CaptureEngine.step, CaptureEngine.finish]; split <;> exact hstarted

/-- A finished worker was started. -/
theorem Lifecycle.started_of_finished (h : Lifecycle e) (hfinished : e.worker_ = .finished) :
    e.started_ = true := by
  cases hstarted : e.started_ with
  | true => rfl
  | false => simp [(h.idle hstarted).1] at hfinished

/-! ## Accounts -/

/-- The engine and the ledger of its queue agree. -/
structure Accounted (capacity : Nat) (o : Observed) : Prop where
  configured : o.engine.capacity_ = capacity
  balanced : Balanced capacity o.engine.queue_ o.ledger
  packets : o.engine.counters_.packets = UInt64.ofNat o.ledger.arrivals.length
  wireBytes : o.engine.counters_.wireBytes = UInt64.ofNat (wireTotal o.ledger)
  metadataDropped : o.engine.counters_.metadataDropped = UInt64.ofNat o.ledger.dropped

variable {capacity : Nat} {o : Observed}

theorem accounted_fresh (h : 0 < capacity) : Accounted capacity ⟨fresh capacity h, {}⟩ :=
  ⟨rfl, Balanced.start capacity, rfl, rfl, rfl⟩

theorem observed_quiet (hdelivered : delivered o.engine event = none)
    (hdrain : ∀ limit, event ≠ .drain limit) :
    o.step event = ⟨o.engine.step event, o.ledger⟩ := by
  cases event with
  | drain limit => exact absurd rfl (hdrain limit)
  | _ => simp [Observed.step, hdelivered]

theorem observed_drain (limit : Nat) :
    o.step (.drain limit) =
      ⟨(o.engine.drain limit).2, o.ledger.gave (o.engine.queue_.take limit)⟩ := rfl

theorem observed_delivered {p : PacketMetadata} (h : delivered o.engine event = some p) :
    o.step event =
      ⟨o.engine.step event, o.ledger.offered o.engine.queue_
        (offer o.engine.capacity_ o.engine.queue_ p) p⟩ := by
  have hqueue := (step_delivered h).1
  obtain ⟨-, kernelDrops, rfl⟩ := iteration_of_delivered h
  simp [Observed.step, h, hqueue]

theorem wireTotal_offered (l : Ledger PacketMetadata) (before after : List PacketMetadata)
    (p : PacketMetadata) :
    wireTotal (l.offered before after p) = wireTotal l + p.wireBytes.toNat := by
  simp [wireTotal, Ledger.offered]

theorem accounted_step (h : Accounted capacity o) (event : Event) :
    Accounted capacity (o.step event) := by
  have hcapacity := (step_capacity o.engine event).trans h.configured
  cases hdelivered : delivered o.engine event with
  | some p =>
    obtain ⟨hqueue, htotals⟩ := step_delivered hdelivered
    simp only [totals, Prod.mk.injEq] at htotals
    obtain ⟨hpackets, hbytes, hdropped⟩ := htotals
    rw [observed_delivered hdelivered]
    refine ⟨hcapacity, ?_, ?_, ?_, ?_⟩
    · rw [hqueue, h.configured]
      exact h.balanced.offer p
    · rw [hpackets, h.packets]
      simp [Ledger.offered, UInt64.ofNat_add]
    · rw [hbytes, h.wireBytes, wireTotal_offered, UInt64.ofNat_add, UInt64.ofNat_uInt32ToNat]
    · rw [hdropped, h.metadataDropped, Ledger.dropped_offered, h.configured]
      by_cases hfull : o.engine.queue_.length = capacity
      · rw [if_pos hfull, if_neg fun hgrew => (length_lt_offer p).mp hgrew hfull,
          UInt64.ofNat_add]
        rfl
      · rw [if_neg hfull, if_pos ((length_lt_offer p).mpr hfull)]
  | none =>
    by_cases hdrain : ∃ limit, event = .drain limit
    · obtain ⟨limit, rfl⟩ := hdrain
      rw [observed_drain]
      exact ⟨hcapacity, h.balanced.take limit, h.packets, h.wireBytes, h.metadataDropped⟩
    · have hquiet : ∀ limit, event ≠ .drain limit := fun limit heq => hdrain ⟨limit, heq⟩
      obtain ⟨hqueue, htotals⟩ := step_quiet hdelivered hquiet
      simp only [totals, Prod.mk.injEq] at htotals
      rw [observed_quiet hdelivered hquiet]
      exact ⟨hcapacity, hqueue ▸ h.balanced, htotals.1 ▸ h.packets, htotals.2.1 ▸ h.wireBytes,
        htotals.2.2 ▸ h.metadataDropped⟩

/-! ## After the end -/

/-- The worker exited, or a `stop` that came after `start` returned. -/
def Ended (e : CaptureEngine) : Prop :=
  e.worker_ = .finished ∨ e.started_ = true ∧ e.stopped = true

theorem Lifecycle.finished (h : Lifecycle e) (hended : Ended e) : e.worker_ = .finished := by
  rcases hended with hfinished | ⟨hstarted, hstopped⟩
  · exact hfinished
  · exact h.joined hstarted (by simpa [CaptureEngine.stopped] using hstopped)

/-- Without a worker only flags and the queue can change. -/
theorem finished_step (hstarted : e.started_ = true) (hfinished : e.worker_ = .finished)
    (event : Event) :
    delivered e event = none ∧ (e.step event).counters_ = e.counters_ ∧
      (e.step event).worker_ = .finished ∧ (e.step event).started_ = true := by
  cases event with
  | start => simp [delivered, CaptureEngine.step, CaptureEngine.start, hstarted, hfinished]
  | requestStop =>
    simp only [delivered, CaptureEngine.step, CaptureEngine.requestStop]
    split <;> simp [hstarted, hfinished]
  | _ =>
    simp [delivered, CaptureEngine.step, CaptureEngine.join, CaptureEngine.drain,
      CaptureEngine.check, CaptureEngine.next, CaptureEngine.iterate, CaptureEngine.handle,
      CaptureEngine.finish, hstarted, hfinished]

/-- What is left to happen after `o`, which has no worker any more. -/
structure Frozen (o later : Observed) : Prop where
  started : later.engine.started_ = true
  finished : later.engine.worker_ = .finished
  counters : later.engine.counters_ = o.engine.counters_
  arrivals : later.ledger.arrivals = o.ledger.arrivals
  /-- Batches and queue are still the old queue. -/
  drained : ∃ batches, later.ledger.taken = o.ledger.taken ++ batches ∧
    batches.flatten ++ later.engine.queue_ = o.engine.queue_

theorem frozen_step {later : Observed} (h : Frozen o later) (event : Event) :
    Frozen o (later.step event) := by
  obtain ⟨hstarted, hfinished, hcounters, harrivals, batches, htaken, hqueue⟩ := h
  obtain ⟨hdelivered, hsame, hworker, hflag⟩ := finished_step hstarted hfinished event
  by_cases hdrain : ∃ limit, event = .drain limit
  · obtain ⟨limit, rfl⟩ := hdrain
    rw [observed_drain]
    refine ⟨hflag, hworker, hsame.trans hcounters, harrivals,
      batches ++ [later.engine.queue_.take limit], ?_, ?_⟩
    · simp [Ledger.gave, htaken]
    · rw [← hqueue]
      simp [CaptureEngine.drain]
  · have hquiet : ∀ limit, event ≠ .drain limit := fun limit heq => hdrain ⟨limit, heq⟩
    rw [observed_quiet hdelivered hquiet]
    exact ⟨hflag, hworker, hsame.trans hcounters, harrivals, batches, htaken,
      by rw [(step_quiet hdelivered hquiet).1]; exact hqueue⟩

/-! ## Runs -/

/-- Every state that a schedule reaches. -/
theorem observed_sound (hpositive : 0 < capacity) (events : List Event) :
    Accounted capacity (observe capacity hpositive events) ∧
      Lifecycle (observe capacity hpositive events).engine := by
  have keep : ∀ o event, True → Accounted capacity o ∧ Lifecycle o.engine →
      Accounted capacity (Observed.step o event) ∧ Lifecycle (Observed.step o event).engine :=
    fun o event _ h => ⟨accounted_step h.1 event, lifecycle_step h.2 event⟩
  exact invariant keep ⟨accounted_fresh hpositive, lifecycle_fresh capacity hpositive⟩
    fun _ _ => trivial

theorem frozen_run (hpositive : 0 < capacity) (past future : List Event)
    (hended : Ended (observe capacity hpositive past).engine) :
    Frozen (observe capacity hpositive past)
      (run Observed.step (observe capacity hpositive past) future) := by
  have hlifecycle := (observed_sound hpositive past).2
  have hfinished := hlifecycle.finished hended
  exact invariant (P := fun _ => True) (I := Frozen (observe capacity hpositive past))
    (fun _ event _ h => frozen_step h event)
    ⟨hlifecycle.started_of_finished hfinished, hfinished, rfl, rfl, [], by simp, by simp⟩
    fun _ _ => trivial

/-- Capture accounting for every capacity and every schedule. -/
theorem capture_accounting (hpositive : 0 < capacity) (past future : List Event) :
    let o := observe capacity hpositive past
    let later := run Observed.step o future
    let queue := o.engine.queue_
    (o.engine.snapshot.packets = UInt64.ofNat o.ledger.arrivals.length ∧
      o.engine.snapshot.wireBytes = UInt64.ofNat (wireTotal o.ledger) ∧
      o.engine.snapshot.metadataDropped = UInt64.ofNat o.ledger.dropped) ∧
    o.engine.snapshot.queued = queue.length ∧ queue.length ≤ capacity ∧
    o.ledger.arrivals.length =
      o.ledger.taken.flatten.length + queue.length + o.ledger.dropped ∧
    o.ledger.taken.flatten ++ queue = o.ledger.kept ∧
    (∀ a ∈ o.ledger.arrivals, a.kept = false ↔ a.queued = capacity) ∧
    (Ended o.engine →
      later.engine.counters_ = o.engine.counters_ ∧
      later.engine.counters_.running = false ∧
      later.ledger.arrivals = o.ledger.arrivals ∧
      (∃ batches, later.ledger.taken = o.ledger.taken ++ batches ∧
        batches.flatten ++ later.engine.queue_ = queue) ∧
      ∀ limit, later.engine.queue_.length ≤ limit →
        (later.engine.drain limit).1 = later.engine.queue_) := by
  obtain ⟨haccounted, hlifecycle⟩ := observed_sound hpositive past
  refine ⟨⟨haccounted.packets, haccounted.wireBytes, haccounted.metadataDropped⟩, rfl,
    haccounted.balanced.bounded, haccounted.balanced.conserved, haccounted.balanced.order,
    haccounted.balanced.cause, fun hended => ?_⟩
  have hfrozen := frozen_run hpositive past future hended
  have hstill : (observe capacity hpositive past).engine.counters_.running = false :=
    Bool.eq_false_iff.mpr fun hrunning =>
      (hlifecycle.running.mp hrunning).2 (hlifecycle.finished hended)
  exact ⟨hfrozen.counters, hfrozen.counters ▸ hstill, hfrozen.arrivals, hfrozen.drained,
    fun limit hlimit => List.take_of_length_le hlimit⟩

def frame : PacketMetadata := { timestamp := 0, wireBytes := 60 }

/-- One packet delivered and counted, then the worker stopped and joined. -/
def session (p : PacketMetadata) : List Event :=
  [.start, .check, .next (.packet p), .iterate none, .requestStop, .check, .finish, .join]

theorem capture_accounting_session :
    (observe 1 Nat.one_pos (session frame)).engine.counters_.packets = 1 ∧
      (run Observed.step (observe 1 Nat.one_pos (session frame))
        [.drain 1]).engine.counters_.packets = 1 := by
  have haccounting := capture_accounting Nat.one_pos (session frame) [.drain 1]
  have hended : Ended (observe 1 Nat.one_pos (session frame)).engine := Or.inl rfl
  have hfrozen := haccounting.2.2.2.2.2.2 hended
  exact ⟨haccounting.1.1, hfrozen.1 ▸ haccounting.1.1⟩

/-! ## What does not hold -/

/-- The events of one more packet. -/
def delivery (p : PacketMetadata) : List Event := [.check, .next (.packet p), .iterate none]

/-- A worker at its loop counts the packet and is at its loop again. -/
theorem delivery_run (p : PacketMetadata) (hlooping : o.engine.worker_ = .looping)
    (hstop : o.engine.stopRequested = false) :
    let later := run Observed.step o (delivery p)
    later.engine.worker_ = .looping ∧ later.engine.stopRequested = false ∧
      later.ledger.arrivals.length = o.ledger.arrivals.length + 1 := by
  have hcheck : o.step .check = ⟨{ o.engine with worker_ := .waiting }, o.ledger⟩ := by
    simp [Observed.step, CaptureEngine.step, CaptureEngine.check, hlooping, hstop, delivered]
  have hnext : (o.step .check).step (.next (.packet p)) =
      ⟨{ o.engine with worker_ := .fetched (some p) }, o.ledger⟩ := by
    rw [hcheck]
    simp [Observed.step, CaptureEngine.step, CaptureEngine.next, delivered]
  simp only [delivery, run_cons, run_nil, hnext]
  refine ⟨?_, ?_, ?_⟩
  · exact (count_frame _ p).2.2.1
  · exact (count_frame _ p).2.2.2.1.trans hstop
  · simp [Observed.step, delivered, Ledger.offered]

/-- A worker at its loop takes any number of packets. -/
theorem deliveries_run (p : PacketMetadata) (n : Nat) (hlooping : o.engine.worker_ = .looping)
    (hstop : o.engine.stopRequested = false) :
    let later := run Observed.step o (List.replicate n (delivery p)).flatten
    later.engine.worker_ = .looping ∧ later.engine.stopRequested = false ∧
      later.ledger.arrivals.length = o.ledger.arrivals.length + n := by
  induction n generalizing o with
  | zero => exact ⟨hlooping, hstop, rfl⟩
  | succ n ih =>
    obtain ⟨hworker, hflag, hlength⟩ := delivery_run p hlooping hstop
    obtain ⟨hlater, hlaterFlag, hlaterLength⟩ := ih hworker hflag
    rw [List.replicate_succ, List.flatten_cons, run_append]
    refine ⟨hlater, hlaterFlag, ?_⟩
    rw [hlaterLength, hlength]
    omega

/-- A source that always has a packet. -/
def busy (p : PacketMetadata) (n : Nat) : List Event :=
  .start :: (List.replicate n (delivery p)).flatten

theorem busy_arrivals (p : PacketMetadata) (n : Nat) :
    (observe 1 Nat.one_pos (busy p n)).ledger.arrivals.length = n := by
  rw [observe, busy, run_cons, (deliveries_run p n rfl rfl).2.2]
  exact Nat.zero_add n

/-- A `stop` that comes before `start` stops nothing, and a counter of 64 bits does not tell
2^64 packets from none. -/
theorem capture_accounting_limits :
    (let o := observe 1 Nat.one_pos [.requestStop, .join]
     let later := run Observed.step o (.start :: delivery frame)
     o.engine.stopped = true ∧ o.engine.counters_.packets = 0 ∧
       later.engine.counters_.running = true ∧ later.engine.counters_.packets = 1) ∧
    ¬ ∀ events, (observe 1 Nat.one_pos events).engine.counters_.packets.toNat =
      (observe 1 Nat.one_pos events).ledger.arrivals.length := by
  refine ⟨by decide, fun h => ?_⟩
  have hlt := (observe 1 Nat.one_pos
    (busy frame UInt64.size)).engine.counters_.packets.toNat_lt_size
  rw [h, busy_arrivals] at hlt
  exact Nat.lt_irrefl _ hlt

end Magicbox.Guarantees.CaptureAccounting
