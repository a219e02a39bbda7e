import Magicbox.Guarantees.SessionReports

/-!
# Traffic totals

The amounts that the samples of a session hand to the store add up to the final
counters of its engine, and the protocol counts to the packets that were not
dropped, once the session was flushed. All of it is arithmetic modulo 2^64, and
exact where the totals of the session fit in 64 bits.
-/

set_option autoImplicit false

namespace Magicbox.Guarantees.TrafficTotals
open Source.Capture Source.Engine Source.Sampling Library Library.BoundedQueue Library.Runs
open Library.Counters CaptureAccounting SessionReports

variable {r : Runtime} {s : Session} {p : Publication}

/-! ## Protocol counts -/

theorem protocols_add (captureInterface : String) (b : Breakdown) (p : PacketMetadata) :
    (b.add captureInterface p).protocols_ =
      b.protocols_.alter (protocolName p.protocol) fun n => n.getD 0 + 1 := by
  have hflow : (b.addFlow captureInterface p).protocols_ = b.protocols_ := by
    simp only [Breakdown.addFlow]
    split
    · rfl
    · split <;> rfl
  have htalker : ∀ c : Breakdown, (c.addTalker p).protocols_ = c.protocols_ := by
    intro c
    simp only [Breakdown.addTalker]
    split
    · rfl
    · split <;> rfl
  rw [Breakdown.add, htalker, Breakdown.addProtocol, hflow]

/-- A count that is incremented adds one to the sum, or wraps. -/
theorem total_increment (m : OrderedMap String UInt64) (key : String) :
    let after := (m.alter key fun n => n.getD 0 + 1).total UInt64.toNat
    after ≤ m.total UInt64.toNat + 1 ∧
      after % UInt64.size = (m.total UInt64.toNat + 1) % UInt64.size := by
  have hsum := m.total_alter key (fun n => n.getD 0 + 1) UInt64.toNat
  have hvalue : ((m.find key).getD 0 + 1).toNat =
      (((m.find key).map UInt64.toNat).getD 0 + 1) % UInt64.size := by
    cases m.find key with
    | none => rfl
    | some n => exact UInt64.toNat_add n 1
  have hlt : ((m.find key).map UInt64.toNat).getD 0 < UInt64.size := by
    cases m.find key with
    | none => decide
    | some n => exact n.toNat_lt_size
  rw [hvalue] at hsum
  simp only [UInt64.size] at *
  omega

theorem total_fold (captureInterface : String) (packets : List PacketMetadata) (b : Breakdown) :
    let after := packets.foldl (Breakdown.add captureInterface) b
    after.protocols_.total UInt64.toNat ≤ b.protocols_.total UInt64.toNat + packets.length ∧
      after.protocols_.total UInt64.toNat % UInt64.size =
        (b.protocols_.total UInt64.toNat + packets.length) % UInt64.size := by
  induction packets generalizing b with
  | nil => exact ⟨Nat.le_refl _, rfl⟩
  | cons p rest ih =>
    obtain ⟨hle, hmod⟩ := ih (b.add captureInterface p)
    obtain ⟨hstep, hstepMod⟩ := total_increment b.protocols_ (protocolName p.protocol)
    rw [protocols_add] at hle hmod
    simp only [List.foldl_cons, List.length_cons, UInt64.size] at *
    omega

/-- The sum of the published protocol counts. -/
def protocolTotal (p : Publication) : Nat := (p.metrics.protocols.map fun e => e.2.toNat).sum

/-- They count the packets that were drained since the publication before. -/
theorem protocolTotal_drained (h : Consistent p) :
    protocolTotal p ≤ (drainedSince p.before p.ledger).length ∧
      protocolTotal p % UInt64.size =
        (drainedSince p.before p.ledger).length % UInt64.size := by
  obtain ⟨captureInterface, hbreakdown⟩ := h.breakdown
  have hfold := total_fold captureInterface (drainedSince p.before p.ledger) {}
  have htotal : protocolTotal p = p.breakdown.protocols_.total UInt64.toNat := by
    rw [protocolTotal, h.protocols]
    rfl
  rw [htotal, hbreakdown]
  simpa using hfold

/-! ## Amounts -/

theorem deltaPackets_arrived (h : Consistent p) :
    p.deltaPackets.toNat =
      (p.ledger.arrivals.length - p.before.arrivals.length) % UInt64.size := by
  rw [Publication.deltaPackets, h.packets, h.previousPackets]
  exact toNat_ofNat_sub h.grew.arrivals.length_le

theorem deltaBytes_arrived (h : Consistent p) :
    p.deltaBytes.toNat = (wireTotal p.ledger - wireTotal p.before) % UInt64.size := by
  rw [Publication.deltaBytes, h.wireBytes, h.previousBytes]
  exact toNat_ofNat_sub (wireTotal_measure.mono _ _ h.grew)

/-- What the samples of a session handed to the store, added up. -/
def sumOf (s : Session) (amount : Publication → Nat) : Nat := (s.publications.map amount).sum

/-- The packets of a session fit in its counter. -/
def PacketsFit (s : Session) : Prop := s.observed.ledger.arrivals.length < UInt64.size

def BytesFit (s : Session) : Prop := wireTotal s.observed.ledger < UInt64.size

/-- The sums of a session that was flushed. -/
structure Conserved (s : Session) : Prop where
  packets : UInt64.ofNat (sumOf s (·.deltaPackets.toNat)) = s.engine.counters_.packets
  bytes : UInt64.ofNat (sumOf s (·.deltaBytes.toNat)) = s.engine.counters_.wireBytes
  protocols : UInt64.ofNat (sumOf s protocolTotal) =
    s.engine.counters_.packets - s.engine.counters_.metadataDropped
  exactPackets : PacketsFit s →
    sumOf s (·.deltaPackets.toNat) = s.engine.counters_.packets.toNat
  exactBytes : BytesFit s → sumOf s (·.deltaBytes.toNat) = s.engine.counters_.wireBytes.toNat
  exactProtocols : PacketsFit s → sumOf s protocolTotal =
    s.engine.counters_.packets.toNat - s.engine.counters_.metadataDropped.toNat

/-- Sums of amounts that stand for the growth of a measure. -/
theorem sum_measure (h : Reported s) {m : Ledger PacketMetadata → Nat} (hm : Measure m)
    (amount : Publication → Nat)
    (hamount : ∀ p ∈ s.publications, amount p ≤ m p.ledger - m p.before ∧
      amount p % UInt64.size = (m p.ledger - m p.before) % UInt64.size) :
    sumOf s amount % UInt64.size = m s.since % UInt64.size ∧
      (m s.since < UInt64.size → sumOf s amount = m s.since) := by
  have htelescopes := h.telescopes m hm
  refine ⟨?_, fun hlt => ?_⟩
  · rw [← htelescopes]
    exact sum_mod fun p hp => (hamount p hp).2
  · rw [← htelescopes]
    exact sum_exact (fun p hp => (hamount p hp).2) (fun p hp => (hamount p hp).1)
      (htelescopes ▸ hlt)

/-- A residue of an amount is one of what it stands for. -/
theorem residue {a n : Nat} (h : a = n % UInt64.size) :
    a ≤ n ∧ a % UInt64.size = n % UInt64.size :=
  ⟨h ▸ Nat.mod_le _ _, by rw [h, Nat.mod_mod]⟩

theorem settled_conserved (h : Reported s) (hsettled : Settled s) : Conserved s := by
  have hledger := hsettled.flushed
  obtain ⟨hpackets, hpacketsExact⟩ := sum_measure h arrivals_measure
    (fun p => p.deltaPackets.toNat)
    fun p hp => residue (deltaPackets_arrived (h.consistent p hp))
  obtain ⟨hbytes, hbytesExact⟩ := sum_measure h wireTotal_measure
    (fun p => p.deltaBytes.toNat)
    fun p hp => residue (deltaBytes_arrived (h.consistent p hp))
  obtain ⟨hprotocols, hprotocolsExact⟩ := sum_measure h drained_measure protocolTotal
    fun p hp => by
      simpa [drainedSince] using protocolTotal_drained (h.consistent p hp)
  rw [hledger] at hpackets hpacketsExact hbytes hbytesExact hprotocols hprotocolsExact
  have hconserved := h.accounted.balanced.conserved
  have hempty : s.observed.engine.queue_ = [] := hsettled.empty
  rw [hempty, List.length_nil, Nat.add_zero] at hconserved
  have hcounter : s.engine.counters_.packets =
      UInt64.ofNat s.observed.ledger.arrivals.length := h.accounted.packets
  have hdropped : s.engine.counters_.metadataDropped =
      UInt64.ofNat s.observed.ledger.dropped := h.accounted.metadataDropped
  have hwire : s.engine.counters_.wireBytes = UInt64.ofNat (wireTotal s.observed.ledger) :=
    h.accounted.wireBytes
  refine ⟨?_, ?_, ?_, fun hfit => ?_, fun hfit => ?_, fun hfit => ?_⟩
  · rw [hcounter]
    exact ofNat_eq_of_mod hpackets
  · rw [hwire]
    exact ofNat_eq_of_mod hbytes
  · rw [hcounter, hdropped, ← UInt64.ofNat_sub (by omega)]
    refine ofNat_eq_of_mod (hprotocols.trans ?_)
    rw [hconserved, Nat.add_sub_cancel]
  · rw [hcounter, UInt64.toNat_ofNat_of_lt' hfit]
    exact hpacketsExact hfit
  · rw [hwire, UInt64.toNat_ofNat_of_lt' hfit]
    exact hbytesExact hfit
  · have hlt : s.observed.ledger.arrivals.length < UInt64.size := hfit
    rw [hcounter, hdropped, UInt64.toNat_ofNat_of_lt' hlt,
      UInt64.toNat_ofNat_of_lt' (show s.observed.ledger.dropped < UInt64.size by omega),
      hprotocolsExact (by omega)]
    omega

/-- Differences of counters that did not wrap do not underflow. -/
theorem differences_fit (h : Reported s) (hp : p ∈ s.publications) :
    (PacketsFit s → p.previousPackets ≤ p.counters.packets) ∧
      (BytesFit s → p.previousBytes ≤ p.counters.wireBytes) := by
  have hconsistent := h.consistent p hp
  have hgrew := hconsistent.grew
  have hearlier := h.earlier p hp
  constructor
  · intro hfit
    have hnow := Nat.lt_of_le_of_lt hearlier.arrivals.length_le hfit
    have hle := hgrew.arrivals.length_le
    rw [hconsistent.previousPackets, hconsistent.packets, UInt64.le_iff_toNat_le,
      UInt64.toNat_ofNat_of_lt' hnow, UInt64.toNat_ofNat_of_lt' (Nat.lt_of_le_of_lt hle hnow)]
    exact hle
  · intro hfit
    have hnow := Nat.lt_of_le_of_lt (wireTotal_measure.mono _ _ hearlier) hfit
    have hle := wireTotal_measure.mono _ _ hgrew
    rw [hconsistent.previousBytes, hconsistent.wireBytes, UInt64.le_iff_toNat_le,
      UInt64.toNat_ofNat_of_lt' hnow, UInt64.toNat_ofNat_of_lt' (Nat.lt_of_le_of_lt hle hnow)]
    exact hle

/-! ## Runs -/

/-- The sessions whose forced sample is over: all that were closed, and the one of an engine that
is about to be dropped or was shut down. -/
def flushed (r : Runtime) : List Session :=
  r.closed ++ match r.control with
    | .closing _ | .halted => r.engine_.toList
    | _ => []

theorem flushed_settled (h : Sound r) (hs : s ∈ flushed r) : Reported s ∧ Settled s := by
  rcases List.mem_append.mp hs with hs | hs
  · exact h.closed s hs
  · cases hcontrol : r.control with
    | closing purpose =>
      have hengine : r.engine_ = some s := Option.mem_toList.mp (by simpa [hcontrol] using hs)
      have hphase := h.phase s hengine
      rw [hcontrol] at hphase
      exact ⟨h.reported s hengine, hphase⟩
    | halted =>
      have hengine : r.engine_ = some s := Option.mem_toList.mp (by simpa [hcontrol] using hs)
      have hphase := h.phase s hengine
      rw [hcontrol] at hphase
      exact ⟨h.reported s hengine, hphase⟩
    | _ => simp [hcontrol] at hs

/-- The totals of every session in every run. -/
theorem traffic_totals (events : List Source.Sampling.Event) :
    let r := run Runtime.step idle events
    (∀ s ∈ r.closed ++ r.engine_.toList, ∀ p ∈ s.publications,
      (PacketsFit s → p.previousPackets ≤ p.counters.packets) ∧
        (BytesFit s → p.previousBytes ≤ p.counters.wireBytes)) ∧
    ∀ s ∈ flushed r, Conserved s := by
  have hsound := sound_run events
  refine ⟨fun s hs p hp => ?_, fun s hs => ?_⟩
  · rcases List.mem_append.mp hs with hs | hs
    · exact differences_fit (hsound.closed s hs).1 hp
    · exact differences_fit (hsound.reported s (Option.mem_toList.mp hs)) hp
  · obtain ⟨hreported, hsettled⟩ := flushed_settled hsound hs
    exact settled_conserved hreported hsettled

/-! ## Counters that wrapped -/

/-- Steps of the capture thread alone. -/
theorem capture_run (h : r.engine_ = some s) {events : List Source.Engine.Event}
    (hworker : ∀ event ∈ events, ofWorker event = true) :
    run Runtime.step r (events.map .capture) =
      { r with engine_ := some { s with observed := run Observed.step s.observed events } } := by
  induction events generalizing r s with
  | nil => simp [← h]
  | cons event rest ih =>
    have hfirst : r.step (.capture event) = { r with engine_ := some (s.step event) } := by
      simp [Runtime.step, Runtime.capture, hworker event List.mem_cons_self, h]
    rw [List.map_cons, run_cons, hfirst,
      ih (s := s.step event) rfl fun e he => hworker e (List.mem_cons_of_mem _ he)]
    rfl

theorem elapsed_due {now : Int} (hdue : 1000000000 ≤ now - r.lastSample_) :
    ¬ r.elapsed now < 1000000000 := by
  unfold Runtime.elapsed
  split <;> omega

/-- A sample that is due. -/
theorem sample_run (h : r.engine_ = some s) (hidle : r.control = .idle) (now : Int)
    (hdue : 1000000000 ≤ now - r.lastSample_) :
    let after := run Runtime.step r [.tick, .finish now 0]
    let p := (r.drain s none).publication (s.step (.drain 8192)) (r.elapsed now) 0
    after.engine_ = some (published (s.step (.drain 8192)) p) ∧ after.control = .idle ∧
      after.lastSample_ = now ∧ after.previousPackets_ = s.engine.counters_.packets := by
  have htick : r.step .tick = r.drain s none := by
    simp [Runtime.step, Runtime.tick, hidle, h]
  have helapsed : ¬ (r.drain s none).elapsed now < 1000000000 := elapsed_due hdue
  have hfinish : (r.drain s none).step (.finish now 0) =
      { (r.drain s none).publish (s.step (.drain 8192)) now 0 with control := .idle } := by
    simp only [Runtime.step, Runtime.finish, Runtime.drain]
    rw [if_neg fun hearly => helapsed hearly.1]
    rfl
  rw [run_cons, run_cons, run_nil, htick, hfinish]
  exact ⟨rfl, rfl, rfl, rfl⟩

theorem deliveries_ofWorker (n : Nat) :
    ∀ event ∈ (List.replicate n (delivery frame)).flatten, ofWorker event = true := by
  intro event hevent
  obtain ⟨events, hdelivery, hmem⟩ := List.mem_flatten.mp hevent
  have hworker : ∀ event ∈ delivery frame, ofWorker event = true := by decide
  rw [List.eq_of_mem_replicate hdelivery] at hmem
  exact hworker event hmem

/-- A capture that counted `n` packets. -/
def counting (n : Nat) : List Source.Sampling.Event :=
  [.put "eth0" true, .conclude true true 0] ++
    (List.replicate n (delivery frame)).flatten.map .capture

/-- It is sampled, counts one more packet and is sampled again. -/
def wrapping (n : Nat) : List Source.Sampling.Event :=
  counting n ++ [.tick, .finish 1000000000 0] ++
    ((delivery frame).map .capture ++ [.tick, .finish 2000000000 0])

theorem counting_run (n : Nat) :
    ∃ s, (run Runtime.step idle (counting n)).engine_ = some s ∧
      (run Runtime.step idle (counting n)).control = .idle ∧
      (run Runtime.step idle (counting n)).lastSample_ = 0 ∧
      s.engine.worker_ = .looping ∧ s.engine.stopRequested = false ∧
      s.observed.ledger.arrivals.length = n ∧
      s.engine.counters_.packets = UInt64.ofNat n := by
  have hopened : (run Runtime.step idle [.put "eth0" true, .conclude true true 0]).engine_ =
      some ⟨⟨(fresh 8192 (by decide)).start, {}⟩, []⟩ := rfl
  have hrun := capture_run hopened (deliveries_ofWorker n)
  obtain ⟨hlooping, hstop, hlength⟩ :=
    deliveries_run (o := ⟨(fresh 8192 (by decide)).start, {}⟩) frame n rfl rfl
  have hsound := sound_run (counting n)
  rw [counting, run_append, hrun] at hsound ⊢
  have hcount := (hsound.reported _ rfl).accounted.packets
  refine ⟨_, rfl, rfl, rfl, hlooping, hstop, hlength.trans (Nat.zero_add n), ?_⟩
  exact hcount.trans (congrArg UInt64.ofNat (hlength.trans (Nat.zero_add n)))

theorem wrapping_run (n : Nat) :
    ∃ s, (run Runtime.step idle (wrapping n)).engine_ = some s ∧ ∃ p ∈ s.publications,
      p.previousPackets = UInt64.ofNat n ∧ p.counters.packets = UInt64.ofNat (n + 1) := by
  obtain ⟨s, hengine, hidle, hlast, hlooping, hstop, hlength, hcount⟩ := counting_run n
  obtain ⟨hsampled, hstill, hsample, hprevious⟩ :=
    sample_run hengine hidle 1000000000 (by rw [hlast]; decide)
  have hworker : ∀ event ∈ delivery frame, ofWorker event = true := by decide
  have hdelivery := capture_run hsampled hworker
  obtain ⟨-, -, harrived⟩ :=
    delivery_run (o := (s.step (.drain 8192)).observed) frame hlooping hstop
  have hsound := sound_run (wrapping n)
  rw [wrapping, run_append, run_append, run_append, hdelivery] at hsound ⊢
  obtain ⟨hlater, -, -, -⟩ := sample_run (r := { (run Runtime.step (run Runtime.step idle
    (counting n)) [.tick, .finish 1000000000 0]) with engine_ := _ }) rfl hstill 2000000000
      (by rw [hsample]; decide)
  refine ⟨_, hlater, _, List.mem_append_right _ List.mem_cons_self, hprevious.trans hcount, ?_⟩
  have hreported := hsound.reported _ hlater
  have hconsistent := hreported.consistent _ (List.mem_append_right _ List.mem_cons_self)
  refine hconsistent.packets.trans (congrArg UInt64.ofNat ?_)
  exact harrived.trans (congrArg (· + 1) hlength)

/-- Where a counter wraps, the difference of its readings underflows. -/
theorem traffic_totals_wrap :
    ¬ ∀ events : List Source.Sampling.Event,
      let r := run Runtime.step idle events
      ∀ s ∈ r.closed ++ r.engine_.toList, ∀ p ∈ s.publications,
        p.previousPackets ≤ p.counters.packets := by
  intro h
  obtain ⟨s, hengine, p, hp, hprevious, hcount⟩ := wrapping_run (UInt64.size - 1)
  have hle := h (wrapping (UInt64.size - 1)) s
    (List.mem_append_right _ (Option.mem_toList.mpr hengine)) p hp
  rw [hprevious, hcount] at hle
  exact absurd hle (by decide)

end Magicbox.Guarantees.TrafficTotals
