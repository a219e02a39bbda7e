import Magicbox.Guarantees.CaptureAccounting
import Magicbox.Guarantees.FrameCuts
import Magicbox.Source.LiveSource
import Mathlib.Data.List.Forall2

/-!
# What a live capture counts

The engine on libpcap, from frames to counters. Every frame that was read counts
once and with its size on the wire, whatever its bytes are, in the order in which
it was read. libpcap is asked for its drops at most once a second, and what is
reported of them is what it said last, or before that.
-/

set_option autoImplicit false

namespace Magicbox.Guarantees.LiveCapture
open Source.Capture Source.Engine Source.LiveSource Library.BoundedQueue Library.Runs
open CaptureAccounting FrameCuts FrameLayers

variable {inetNtop : InetNtop} {w : Live}

/-! ## What a frame is reported as -/

def report (inetNtop : InetNtop) (f : CapturedFrame) : PacketMetadata :=
  layers inetNtop f.data f.len f.timestamp

theorem layersAbove_wireBytes (found : PacketMetadata × Option Packet) :
    (layersAbove found).wireBytes = found.1.wireBytes := by
  obtain ⟨p, packet⟩ := found
  cases packet with
  | none => rfl
  | some k =>
    simp only [layersAbove]
    cases hs : (peelTransport k p).2 with
    | none => rw [layersPayload_none hs]
    | some s =>
      rw [layersPayload_some hs]
      cases s.complete <;> rfl

theorem peelNetwork_wireBytes (type : UInt16) (rest : Bytes) (p : PacketMetadata) :
    (peelNetwork inetNtop type rest p).1.wireBytes = p.wireBytes := by
  unfold peelNetwork peelIpv4 peelIpv6
  dsimp only
  repeat' split
  all_goals rfl

/-- The size of a frame is reported as it is, also of a frame that says nothing else. -/
theorem report_wireBytes (f : CapturedFrame) : (report inetNtop f).wireBytes = f.len := by
  unfold report layers layersBehind
  dsimp only
  split
  · rfl
  · split
    · rfl
    · rw [layersAbove_wireBytes, peelNetwork_wireBytes]

/-! ## Frames on their way -/

/-- The packet that the worker has and has not counted. -/
def pending (e : CaptureEngine) : Option PacketMetadata :=
  match e.worker_ with
  | .fetched packet => packet
  | _ => none

/-- The packet that an event brings. -/
def brought (e : CaptureEngine) : Source.Engine.Event → Option PacketMetadata
  | .next (.packet p) => if e.worker_ = .waiting then some p else none
  | _ => none

/-- The packets that came, counted or not. -/
def come (o : Observed) : List PacketMetadata :=
  o.ledger.arrivals.map (·.item) ++ (pending o.engine).toList

theorem pending_none {e : CaptureEngine} (h : ∀ packet, e.worker_ ≠ .fetched packet) :
    pending e = none := by
  unfold pending
  split
  · next packet hworker => exact absurd hworker (h packet)
  · rfl

theorem pending_some {e : CaptureEngine} {packet : Option PacketMetadata}
    (h : e.worker_ = .fetched packet) : pending e = packet := by
  rw [pending, h]

/-- An event that moves neither the worker nor the ledger. -/
theorem come_still {o after : Observed} (hledger : after.ledger.arrivals = o.ledger.arrivals)
    (hworker : pending after.engine = pending o.engine) : come after = come o := by
  rw [come, come, hledger, hworker]

theorem come_quiet {o after : Observed} {event : Source.Engine.Event}
    (hquiet : brought o.engine event = none)
    (hledger : after.ledger.arrivals = o.ledger.arrivals)
    (hworker : pending after.engine = pending o.engine) :
    come after = come o ++ (brought o.engine event).toList := by
  rw [hquiet, Option.toList_none, List.append_nil]
  exact come_still hledger hworker

/-- The locked section of an iteration moves the packet into the ledger. -/
theorem come_iterate (o : Observed) (kernelDrops : Option UInt64) :
    come (o.step (.iterate kernelDrops)) = come o := by
  by_cases hfetched : ∃ packet, o.engine.worker_ = .fetched packet
  · obtain ⟨packet, hworker⟩ := hfetched
    have hdelivered : delivered o.engine (.iterate kernelDrops) = packet := by
      simp only [delivered, hworker]
    have hafter : pending (o.engine.step (.iterate kernelDrops)) = none := by
      refine pending_none fun other => ?_
      simp only [CaptureEngine.step, CaptureEngine.iterate, hworker]
      cases packet with
      | none => simp
      | some p => simp [(count_frame _ _).2.2.1]
    cases packet with
    | none =>
      rw [observed_quiet hdelivered (by simp), come, come, hafter, pending_some hworker]
    | some p =>
      rw [observed_delivered hdelivered, come, come, hafter, pending_some hworker]
      simp [Ledger.offered]
  · have hother : ∀ packet, o.engine.worker_ ≠ .fetched packet := fun packet heq =>
      hfetched ⟨packet, heq⟩
    have hstep : o.engine.iterate kernelDrops = o.engine := by
      unfold CaptureEngine.iterate
      split
      · next packet hworker => exact absurd hworker (hother packet)
      · rfl
    have hquiet : delivered o.engine (.iterate kernelDrops) = none := by
      cases hdelivered : delivered o.engine (.iterate kernelDrops) with
      | none => rfl
      | some p => exact absurd (iteration_of_delivered hdelivered).1 (hother (some p))
    rw [observed_quiet hquiet (by simp)]
    exact come_still rfl (by rw [CaptureEngine.step, hstep])

/-- What `next` comes back with is on its way. -/
theorem come_next (o : Observed) (result : Next) :
    come (o.step (.next result)) = come o ++ (brought o.engine (.next result)).toList := by
  by_cases hwaiting : o.engine.worker_ = .waiting
  · have hnone : pending o.engine = none := pending_none (by simp [hwaiting])
    have hcome : come o = o.ledger.arrivals.map (·.item) := by
      rw [come, hnone, Option.toList_none, List.append_nil]
    rw [hcome]
    cases result <;>
      simp [come, brought, hwaiting, Observed.step, delivered, CaptureEngine.step,
        CaptureEngine.next, pending]
  · refine come_quiet ?_ rfl ?_
    · cases result <;> simp [brought, hwaiting]
    · simp only [Observed.step, CaptureEngine.step, CaptureEngine.next, if_neg hwaiting]

/-- Nothing is lost between the source and the counters. -/
theorem come_step {o : Observed} (h : Lifecycle o.engine) (event : Source.Engine.Event) :
    come (o.step event) = come o ++ (brought o.engine event).toList := by
  cases event with
  | start =>
    refine come_quiet rfl rfl ?_
    simp only [Observed.step, CaptureEngine.step, CaptureEngine.start]
    split
    · rfl
    · next hstarted =>
      have habsent := (h.idle (Bool.eq_false_iff.mpr hstarted)).1
      have hbefore : pending o.engine = none := pending_none (by simp [habsent])
      rw [hbefore]
      exact pending_none (by simp)
  | requestStop =>
    refine come_quiet rfl rfl ?_
    simp only [Observed.step, CaptureEngine.step, CaptureEngine.requestStop]
    split <;> rfl
  | join =>
    refine come_quiet rfl rfl ?_
    simp only [Observed.step, CaptureEngine.step, CaptureEngine.join]
    split <;> rfl
  | drain limit => exact come_quiet rfl rfl rfl
  | check =>
    refine come_quiet rfl rfl ?_
    simp only [Observed.step, CaptureEngine.step, CaptureEngine.check]
    split
    · next hlooping =>
      have hbefore : pending o.engine = none := pending_none (by simp [hlooping])
      rw [hbefore]
      exact pending_none fun packet => by split <;> simp
    · rfl
  | next result => exact come_next o result
  | iterate kernelDrops =>
    have hquiet : brought o.engine (.iterate kernelDrops) = none := rfl
    rw [hquiet, Option.toList_none, List.append_nil, come_iterate]
  | handle =>
    refine come_quiet rfl rfl ?_
    simp only [Observed.step, CaptureEngine.step, CaptureEngine.handle]
    split
    · next what hfailed =>
      have hbefore : pending o.engine = none := pending_none (by simp [hfailed])
      rw [hbefore]
      exact pending_none (by simp)
    · rfl
  | finish =>
    refine come_quiet rfl rfl ?_
    simp only [Observed.step, CaptureEngine.step, CaptureEngine.finish]
    split
    · next hleaving =>
      have hbefore : pending o.engine = none := pending_none (by simp [hleaving])
      rw [hbefore]
      exact pending_none (by simp)
    · rfl

/-! ## The calls of the source -/

/-- What a call comes back with. -/
def resultOf (inetNtop : InetNtop) (c : Call) : Next :=
  if c.stopRequested then .idle
  else match c.answer with
    | .frame f => .packet (report inetNtop f)
    | .failed error => .threw (some error)
    | .timeout => .idle

/-- A call reads nothing outside the captured bytes. -/
theorem next_ok (inetNtop : InetNtop) (s : PcapSource) (c : Call) :
    s.next inetNtop c = .ok (s.refresh c, resultOf inetNtop c) := by
  unfold PcapSource.next resultOf
  cases hstop : c.stopRequested with
  | true =>
    have hsame : s.refresh c = s := by simp [PcapSource.refresh, PcapSource.reading, hstop]
    rw [hsame]
    rfl
  | false =>
    cases c.answer with
    | frame f =>
      simp only [dissect_layers]
      rfl
    | timeout => rfl
    | failed error => rfl

theorem brought_result (inetNtop : InetNtop) {e : CaptureEngine} (c : Call)
    (hwaiting : e.worker_ = .waiting) :
    brought e (.next (resultOf inetNtop c)) = c.frame.map (report inetNtop) := by
  unfold resultOf Call.frame
  cases c.stopRequested with
  | true => rfl
  | false => cases c.answer <;> simp [brought, hwaiting]

/-! ## Drops of the kernel -/

/-- What `pcap_stats` said last. The calls that failed say nothing. -/
def lastSaid (readings : List (Int × Option UInt32)) : Option UInt64 :=
  (readings.filterMap (·.2)).getLast?.map UInt32.toUInt64

theorem lastSaid_append (readings : List (Int × Option UInt32)) (r : Int × Option UInt32) :
    lastSaid (readings ++ [r]) = (r.2.map UInt32.toUInt64).or (lastSaid readings) := by
  obtain ⟨now, stats⟩ := r
  cases stats with
  | none => simp [lastSaid, List.filterMap_append]
  | some n => simp [lastSaid, List.filterMap_append]

theorem kernelDropped_step {e : CaptureEngine} {event : Source.Engine.Event}
    (h : ∀ kernelDrops, event ≠ .iterate kernelDrops) :
    (e.step event).counters_.kernelDropped = e.counters_.kernelDropped := by
  cases event with
  | iterate kernelDrops => exact absurd rfl (h kernelDrops)
  | drain limit => rfl
  | start => simp only [CaptureEngine.step, CaptureEngine.start]; split <;> rfl
  | requestStop => simp only [CaptureEngine.step, CaptureEngine.requestStop]; split <;> rfl
  | join => simp only [CaptureEngine.step, CaptureEngine.join]; split <;> rfl
  | check => simp only [CaptureEngine.step, CaptureEngine.check]; split <;> rfl
  | next result =>
    simp only [CaptureEngine.step, CaptureEngine.next]
    split
    · cases result <;> rfl
    · rfl
  | handle => simp only [CaptureEngine.step, CaptureEngine.handle]; split <;> rfl
  | finish => simp only [CaptureEngine.step, CaptureEngine.finish]; split <;> rfl

/-- An iteration takes over what the source says, unless the worker is elsewhere. -/
theorem kernelDropped_iterate (e : CaptureEngine) (kernelDrops : Option UInt64) :
    e.step (.iterate kernelDrops) = e ∨
      (e.step (.iterate kernelDrops)).counters_.kernelDropped = kernelDrops := by
  simp only [CaptureEngine.step, CaptureEngine.iterate]
  split
  · next packet hfetched =>
    right
    cases packet with
    | none => rfl
    | some p => dsimp only [CaptureEngine.count]; split <;> rfl
  · exact .inl rfl

/-- The worker has not called the source since it told its drops. -/
def Settled (e : CaptureEngine) : Prop :=
  e.worker_ = .absent ∨ e.worker_ = .looping ∨ e.worker_ = .waiting

/-- Only an iteration brings the worker back to where the source was not called. -/
theorem settled_step {e : CaptureEngine} {event : Source.Engine.Event}
    (hiterate : ∀ kernelDrops, event ≠ .iterate kernelDrops) (hstarted : Lifecycle e)
    (h : Settled (e.step event)) : Settled e := by
  cases event with
  | iterate kernelDrops => exact absurd rfl (hiterate kernelDrops)
  | drain limit => exact h
  | start =>
    simp only [CaptureEngine.step, CaptureEngine.start] at h
    split at h
    · exact h
    · next hfresh => exact .inl (hstarted.idle (Bool.eq_false_iff.mpr hfresh)).1
  | requestStop =>
    simp only [CaptureEngine.step, CaptureEngine.requestStop] at h
    split at h <;> exact h
  | join =>
    simp only [CaptureEngine.step, CaptureEngine.join] at h
    split at h <;> exact h
  | check =>
    simp only [CaptureEngine.step, CaptureEngine.check] at h
    split at h
    · next hlooping => exact .inr (.inl hlooping)
    · exact h
  | next result =>
    simp only [CaptureEngine.step, CaptureEngine.next] at h
    split at h
    · next hwaiting => exact .inr (.inr hwaiting)
    · exact h
  | handle =>
    simp only [CaptureEngine.step, CaptureEngine.handle] at h
    split at h
    · simp [Settled] at h
    · exact h
  | finish =>
    simp only [CaptureEngine.step, CaptureEngine.finish] at h
    split at h
    · simp [Settled] at h
    · exact h

/-- A call of `next` leaves the place where the worker waits for it. -/
theorem next_unsettled {e : CaptureEngine} (result : Next) (hwaiting : e.worker_ = .waiting) :
    ¬ Settled (e.step (.next result)) := by
  cases result <;>
    simp [Settled, CaptureEngine.step, CaptureEngine.next, hwaiting]

/-! ## What holds of a live capture -/

structure Faithful (capacity : Nat) (inetNtop : InetNtop) (w : Live) : Prop where
  lifecycle : Lifecycle w.observed.engine
  accounted : Accounted capacity w.observed
  arrived : come w.observed = w.frames.map (report inetNtop)
  dropped : w.source_.dropped_ = lastSaid w.readings
  spaced : w.readings.Pairwise fun a b => a.1 + 1000000000 ≤ b.1
  dated : ∀ r ∈ w.readings, r.1 ≤ w.source_.lastStats_
  current : Settled w.observed.engine →
    w.observed.engine.counters_.kernelDropped = lastSaid w.readings
  told : ∃ n, w.readings.length ≤ n + 1 ∧
    w.observed.engine.counters_.kernelDropped = lastSaid (w.readings.take n)

variable {capacity : Nat}

theorem faithful_fresh (hpositive : 0 < capacity) :
    Faithful capacity inetNtop { observed := ⟨fresh capacity hpositive, {}⟩ } where
  lifecycle := lifecycle_fresh capacity hpositive
  accounted := accounted_fresh hpositive
  arrived := rfl
  dropped := rfl
  spaced := List.Pairwise.nil
  dated := by simp
  current := fun _ => rfl
  told := ⟨0, Nat.zero_le 1, rfl⟩

/-- A reading is at least a second after those before it, and the next one will be after it. -/
theorem refresh_readings {s : PcapSource} {readings : List (Int × Option UInt32)} (c : Call)
    (hdropped : s.dropped_ = lastSaid readings)
    (hspaced : readings.Pairwise fun a b => a.1 + 1000000000 ≤ b.1)
    (hdated : ∀ r ∈ readings, r.1 ≤ s.lastStats_) :
    let later := readings ++ (s.reading c).toList
    (s.refresh c).dropped_ = lastSaid later ∧
      later.Pairwise (fun a b => a.1 + 1000000000 ≤ b.1) ∧
      ∀ r ∈ later, r.1 ≤ (s.refresh c).lastStats_ := by
  intro later
  by_cases hdue : ¬ c.stopRequested ∧ c.now - s.lastStats_ ≥ 1000000000
  · have hreading : s.reading c = some (c.now, c.stats) := by rw [PcapSource.reading, if_pos hdue]
    have hlater : later = readings ++ [(c.now, c.stats)] := by
      simp only [later, hreading, Option.toList_some]
    have hrefresh : s.refresh c =
        { dropped_ := (c.stats.map UInt32.toUInt64).or s.dropped_, lastStats_ := c.now } := by
      simp only [PcapSource.refresh, hreading]
    rw [hlater, hrefresh]
    refine ⟨?_, ?_, ?_⟩
    · rw [lastSaid_append, hdropped]
    · refine List.pairwise_append.mpr ⟨hspaced, List.pairwise_singleton _ _, ?_⟩
      intro a ha b hb
      have hold := hdated a ha
      rw [List.mem_singleton] at hb
      subst hb
      have hgap := hdue.2
      dsimp only
      omega
    · intro r hr
      rcases List.mem_append.mp hr with hold | hnew
      · have hbefore := hdated r hold
        have hgap := hdue.2
        dsimp only
        omega
      · rw [List.mem_singleton] at hnew
        exact Int.le_of_eq (congrArg Prod.fst hnew)
  · have hreading : s.reading c = none := by rw [PcapSource.reading, if_neg hdue]
    have hlater : later = readings := by
      simp only [later, hreading, Option.toList_none, List.append_nil]
    have hrefresh : s.refresh c = s := by simp only [PcapSource.refresh, hreading]
    rw [hlater, hrefresh]
    exact ⟨hdropped, hspaced, hdated⟩

theorem faithful_next (h : Faithful capacity inetNtop w) (c : Call) :
    Faithful capacity inetNtop (w.next inetNtop c) := by
  unfold Live.next
  split
  · next hwaiting =>
    simp only [next_ok]
    obtain ⟨hdropped, hspaced, hdated⟩ := refresh_readings c h.dropped h.spaced h.dated
    have hcurrent := h.current (.inr (.inr hwaiting))
    have hkept : (w.observed.step (.next (resultOf inetNtop c))).engine.counters_.kernelDropped =
        w.observed.engine.counters_.kernelDropped := kernelDropped_step (by simp)
    exact {
      lifecycle := lifecycle_step h.lifecycle (.next (resultOf inetNtop c))
      accounted := accounted_step h.accounted (.next (resultOf inetNtop c))
      arrived := by
        rw [come_next, brought_result inetNtop c hwaiting, h.arrived, List.map_append]
        cases c.frame <;> rfl
      dropped := hdropped
      spaced := hspaced
      dated := hdated
      current := fun hsettled => absurd hsettled (next_unsettled _ hwaiting)
      told := by
        refine ⟨w.readings.length, ?_, ?_⟩
        · cases w.source_.reading c <;> simp
        · rw [hkept, List.take_left, hcurrent] }
  · exact h

/-- An event of the engine alone, which reads nothing and brings nothing. -/
theorem faithful_engine (h : Faithful capacity inetNtop w) {event : Source.Engine.Event}
    (hnext : ∀ result, event ≠ .next result)
    (hiterate : ∀ kernelDrops, event ≠ .iterate kernelDrops) :
    Faithful capacity inetNtop { w with observed := w.observed.step event } where
  lifecycle := lifecycle_step h.lifecycle event
  accounted := accounted_step h.accounted event
  arrived := by
    have hquiet : brought w.observed.engine event = none := by
      cases event with
      | next result => exact absurd rfl (hnext result)
      | _ => rfl
    have hcome := come_step h.lifecycle event
    rw [hquiet, Option.toList_none, List.append_nil] at hcome
    exact hcome.trans h.arrived
  dropped := h.dropped
  spaced := h.spaced
  dated := h.dated
  current := fun hsettled =>
    (kernelDropped_step hiterate).trans (h.current (settled_step hiterate h.lifecycle hsettled))
  told := by
    obtain ⟨n, hlength, htold⟩ := h.told
    exact ⟨n, hlength, (kernelDropped_step hiterate).trans htold⟩

/-- An iteration takes over what the source knows. -/
theorem faithful_iterate (h : Faithful capacity inetNtop w) :
    Faithful capacity inetNtop
      { w with observed := w.observed.step (.iterate w.source_.dropped_) } := by
  have hkept := kernelDropped_iterate w.observed.engine w.source_.dropped_
  exact {
    lifecycle := lifecycle_step h.lifecycle (.iterate w.source_.dropped_)
    accounted := accounted_step h.accounted (.iterate w.source_.dropped_)
    arrived := (come_iterate w.observed w.source_.dropped_).trans h.arrived
    dropped := h.dropped
    spaced := h.spaced
    dated := h.dated
    current := fun hsettled => by
      rcases hkept with hsame | htaken
      · have hbefore : Settled w.observed.engine := hsame ▸ hsettled
        exact (congrArg (fun e => e.counters_.kernelDropped) hsame).trans (h.current hbefore)
      · exact htaken.trans h.dropped
    told := by
      rcases hkept with hsame | htaken
      · obtain ⟨n, hlength, htold⟩ := h.told
        exact ⟨n, hlength, (congrArg (fun e => e.counters_.kernelDropped) hsame).trans htold⟩
      · refine ⟨w.readings.length, Nat.le_succ _, ?_⟩
        rw [List.take_length]
        exact htaken.trans h.dropped }

theorem faithful_step (h : Faithful capacity inetNtop w) (event : Source.LiveSource.Event) :
    Faithful capacity inetNtop (w.step inetNtop event) := by
  cases event with
  | next c => exact faithful_next h c
  | iterate => exact faithful_iterate h
  | engine event =>
    cases event with
    | next result => exact h
    | iterate kernelDrops => exact h
    | _ => exact faithful_engine h (by simp) (by simp)

theorem faithful_run (hpositive : 0 < capacity) (events : List Source.LiveSource.Event) :
    Faithful capacity inetNtop (live inetNtop capacity hpositive events) :=
  invariant (I := Faithful capacity inetNtop) (P := fun _ => True)
    (fun _ event _ h => faithful_step h event) (faithful_fresh hpositive) fun _ _ => trivial

/-- The frames that were counted, and the one that the worker has in its hands. -/
theorem Faithful.counted (h : Faithful capacity inetNtop w) :
    ∃ counted fetched, w.frames = counted ++ fetched ∧
      counted.map (report inetNtop) = w.observed.ledger.arrivals.map (·.item) ∧
      fetched.map (report inetNtop) = (pending w.observed.engine).toList :=
  List.map_eq_append_iff.mp h.arrived.symm

theorem wireTotal_counted {l : Ledger PacketMetadata} {counted : List CapturedFrame}
    (h : counted.map (report inetNtop) = l.arrivals.map (·.item)) :
    wireTotal l = (counted.map fun f => f.len.toNat).sum := by
  have hsizes : (l.arrivals.map (·.item)).map (fun p => p.wireBytes.toNat) =
      counted.map fun f => f.len.toNat := by
    rw [← h, List.map_map]
    refine List.map_congr_left fun f _ => ?_
    rw [Function.comp_apply, report_wireBytes]
  rw [wireTotal, ← hsizes, List.map_map]
  rfl

/-- Every frame that libpcap gave, but for one that the worker has in its hands, is counted once
and with its size on the wire, and arrived at the queue as what `dissect` makes of it, in the order
of the reads. The drops were asked for at most once a second; the source keeps the last answer, and
the counters show that answer or the one before. -/
theorem live_capture (hpositive : 0 < capacity) (events : List Source.LiveSource.Event) :
    let w := live inetNtop capacity hpositive events
    let counters := w.observed.engine.snapshot
    (∃ counted fetched, w.frames = counted ++ fetched ∧ fetched.length ≤ 1 ∧
      ((∀ packet, w.observed.engine.worker_ ≠ .fetched packet) → fetched = []) ∧
      List.Forall₂ (fun (f : CapturedFrame) arrival =>
          dissect inetNtop f.data f.len f.timestamp = .ok arrival.item)
        counted w.observed.ledger.arrivals ∧
      counters.packets = UInt64.ofNat counted.length ∧
      counters.wireBytes = UInt64.ofNat (counted.map fun f => f.len.toNat).sum) ∧
    w.readings.Pairwise (fun a b => a.1 + 1000000000 ≤ b.1) ∧
    w.source_.dropped_ = lastSaid w.readings ∧
    ∃ n, w.readings.length ≤ n + 1 ∧ counters.kernelDropped = lastSaid (w.readings.take n) := by
  intro w counters
  have h : Faithful capacity inetNtop w := faithful_run hpositive events
  obtain ⟨counted, fetched, hframes, hcounted, hfetched⟩ := h.counted
  have hlength : counted.length = w.observed.ledger.arrivals.length := by
    simpa using congrArg List.length hcounted
  refine ⟨⟨counted, fetched, hframes, ?_, ?_, ?_, ?_, ?_⟩, h.spaced, h.dropped, h.told⟩
  · have hone : fetched.length = (pending w.observed.engine).toList.length := by
      simpa using congrArg List.length hfetched
    rw [hone]
    cases pending w.observed.engine <;> simp
  · intro hidle
    rw [pending_none hidle] at hfetched
    exact List.map_eq_nil_iff.mp hfetched
  · have hitems : List.Forall₂ Eq (counted.map (report inetNtop))
        (w.observed.ledger.arrivals.map (·.item)) := by rw [hcounted]; exact List.forall₂_refl _
    rw [List.forall₂_map_left_iff, List.forall₂_map_right_iff] at hitems
    refine hitems.imp fun f arrival hitem => ?_
    rw [dissect_layers]
    exact congrArg Except.ok hitem
  · rw [hlength]
    exact h.accounted.packets
  · rw [← wireTotal_counted hcounted]
    exact h.accounted.wireBytes

/-- A frame without a single captured byte. -/
def empty : CapturedFrame := { data := [], len := 60, tvSec := 5, tvUsec := 0 }

/-- A frame, a wait and an error of the device. libpcap is asked for its drops at the first call
and at the last one, whose answer the counters do not show. -/
def session : List Source.LiveSource.Event :=
  [.engine .start, .engine .check, .next ⟨false, 1000000000, some 7, .frame empty⟩, .iterate,
    .engine .check, .next ⟨false, 1500000000, some 8, .timeout⟩, .iterate, .engine .check,
    .next ⟨false, 2000000000, some 9, .failed "device is down"⟩, .engine .handle, .engine .finish]

theorem live_capture_session :
    let w := live (fun _ _ => "") 1 Nat.one_pos session
    w.frames.length = 1 ∧ w.readings = [(1000000000, some 7), (2000000000, some 9)] ∧
      w.observed.engine.snapshot.kernelDropped = some 7 ∧ w.source_.dropped_ = some 9 ∧
      w.observed.engine.snapshot.wireBytes = 60 ∧
      w.readings.Pairwise (fun a b => a.1 + 1000000000 ≤ b.1) :=
  ⟨rfl, rfl, rfl, rfl, by decide +kernel, (live_capture Nat.one_pos session).2.1⟩

end Magicbox.Guarantees.LiveCapture
