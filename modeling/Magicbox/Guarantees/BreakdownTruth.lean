import Magicbox.Guarantees.TrafficTotals

/-!
# Complete breakdowns

A sample drains the queue and takes the counters in two critical sections. A
packet that is counted between them is in the packet delta, and in the breakdown
of the next sample. Where the queue is still empty at the snapshot, a breakdown
that is called complete describes the packets of the delta.
-/

set_option autoImplicit false

namespace Magicbox.Guarantees.BreakdownTruth
open Source.Capture Source.Engine Source.Sampling Library Library.BoundedQueue Library.Runs
open Library.Counters CaptureAccounting SessionReports TrafficTotals

variable {r : Runtime} {s : Session} {p : Publication}

/-! ## Talkers -/

/-- The wire bytes of a source, if it sent a packet. -/
def talkerBytes (ip : String) (packets : List PacketMetadata) : Option UInt64 :=
  let sent := packets.filter fun p => p.sourceIp = ip
  if sent.isEmpty then none
  else some (UInt64.ofNat (sent.map fun p => p.wireBytes.toNat).sum)

theorem talkerBytes_other {ip : String} {p : PacketMetadata} (h : p.sourceIp ≠ ip)
    (past : List PacketMetadata) : talkerBytes ip (past ++ [p]) = talkerBytes ip past := by
  simp [talkerBytes, List.filter_append, h]

theorem talkerBytes_self (past : List PacketMetadata) (p : PacketMetadata) :
    talkerBytes p.sourceIp (past ++ [p]) =
      some ((talkerBytes p.sourceIp past).getD 0 + p.wireBytes.toUInt64) := by
  have hsent : (past ++ [p]).filter (fun q => q.sourceIp = p.sourceIp) =
      past.filter (fun q => q.sourceIp = p.sourceIp) ++ [p] := by
    simp [List.filter_append]
  simp only [talkerBytes, hsent]
  cases past.filter (fun q => q.sourceIp = p.sourceIp) with
  | nil => simp
  | cons q rest =>
    simp only [List.cons_append, List.isEmpty_cons, Bool.false_eq_true, ↓reduceIte,
      Option.getD_some, Option.some.injEq]
    rw [← UInt64.ofNat_uInt32ToNat, ← UInt64.ofNat_add]
    congr 1
    simp [Nat.add_assoc]

theorem talkers_add (captureInterface : String) (b : Breakdown) (p : PacketMetadata) :
    (b.add captureInterface p).talkers_ = (b.addTalker p).talkers_ ∧
      (b.add captureInterface p).talkersOmitted_ = (b.addTalker p).talkersOmitted_ := by
  have hflow : (b.addFlow captureInterface p).talkers_ = b.talkers_ ∧
      (b.addFlow captureInterface p).talkersOmitted_ = b.talkersOmitted_ := by
    simp only [Breakdown.addFlow]
    split
    · exact ⟨rfl, rfl⟩
    · split <;> exact ⟨rfl, rfl⟩
  have hsame : ∀ c : Breakdown, c.talkers_ = b.talkers_ → c.talkersOmitted_ = b.talkersOmitted_ →
      (c.addTalker p).talkers_ = (b.addTalker p).talkers_ ∧
        (c.addTalker p).talkersOmitted_ = (b.addTalker p).talkersOmitted_ := by
    intro c htalkers homitted
    simp only [Breakdown.addTalker, htalkers, homitted]
    split
    · exact ⟨htalkers, homitted⟩
    · split <;> exact ⟨rfl, rfl⟩
  exact hsame _ hflow.1 hflow.2

/-- The breakdown of a list of packets. -/
def breakdownOf (captureInterface : String) (packets : List PacketMetadata) : Breakdown :=
  packets.foldl (Breakdown.add captureInterface) {}

theorem breakdownOf_snoc (captureInterface : String) (past : List PacketMetadata)
    (p : PacketMetadata) : breakdownOf captureInterface (past ++ [p]) =
      (breakdownOf captureInterface past).add captureInterface p := by
  simp [breakdownOf, List.foldl_append]

/-- Where no packet was omitted, every source has its total. -/
theorem talkers_complete (captureInterface : String) (packets : List PacketMetadata) :
    ∃ omitted, omitted ≤ packets.length ∧
      (breakdownOf captureInterface packets).talkersOmitted_ = UInt64.ofNat omitted ∧
      (omitted = 0 → ∀ ip, ip ≠ "" →
        (breakdownOf captureInterface packets).talkers_.find ip = talkerBytes ip packets) := by
  induction packets using List.reverseRecOn with
  | nil => exact ⟨0, Nat.le_refl _, rfl, fun _ _ _ => rfl⟩
  | append_singleton past p ih =>
    obtain ⟨omitted, hle, homitted, htracked⟩ := ih
    obtain ⟨htalkers, hcount⟩ := talkers_add captureInterface (breakdownOf captureInterface past) p
    rw [breakdownOf_snoc, htalkers, hcount, List.length_append, List.length_singleton]
    unfold Breakdown.addTalker
    split
    · next hnone =>
      refine ⟨omitted, by omega, homitted, fun hzero ip hip => ?_⟩
      have hother : p.sourceIp ≠ ip := by
        rw [hnone]
        exact hip.symm
      rw [talkerBytes_other hother]
      exact htracked hzero ip hip
    · next hsome =>
      split
      · refine ⟨omitted, by omega, homitted, fun hzero ip hip => ?_⟩
        by_cases heq : p.sourceIp = ip
        · subst heq
          rw [OrderedMap.find_alter_self, htracked hzero p.sourceIp hip, talkerBytes_self]
        · rw [OrderedMap.find_alter_of_ne _ fun h => heq h.symm, talkerBytes_other heq]
          exact htracked hzero ip hip
      · refine ⟨omitted + 1, by omega, ?_, fun hzero => absurd hzero (by omega)⟩
        simp only [homitted]
        exact (UInt64.ofNat_add omitted 1).symm

/-! ## Publications without loss -/

theorem kept_of_none_dropped {l : Ledger PacketMetadata} (h : l.dropped = 0) :
    l.kept = l.arrivals.map (·.item) := by
  have hall : l.arrivals.filter (fun a => !a.kept) = [] := List.eq_nil_of_length_eq_zero h
  rw [Ledger.kept, List.filter_eq_self.mpr]
  intro a ha
  have hkept := List.filter_eq_nil_iff.mp hall a ha
  simpa using hkept

theorem dropped_mono {before now : Ledger PacketMetadata} (h : Within before now) :
    before.dropped ≤ now.dropped := by
  obtain ⟨rest, hrest⟩ := h.arrivals
  simp [Ledger.dropped, ← hrest, List.filter_append]

/-- The counter of drops is zero only if there were none, where it did not wrap. -/
theorem none_dropped (h : Consistent p) (hfit : p.ledger.arrivals.length < UInt64.size)
    (hzero : p.counters.metadataDropped = 0) : p.ledger.dropped = 0 ∧ p.before.dropped = 0 := by
  have hle := p.ledger.length_arrivals
  have hmono := dropped_mono h.grew
  have hcounter := congrArg UInt64.toNat (h.metadataDropped.symm.trans hzero)
  rw [UInt64.toNat_ofNat_of_lt' (show p.ledger.dropped < UInt64.size by omega)] at hcounter
  have hdropped : p.ledger.dropped = 0 := hcounter
  exact ⟨hdropped, by omega⟩

/-- The number of packets that a ledger's queue holds. -/
def waiting (l : Ledger PacketMetadata) : Nat := l.kept.length - l.taken.flatten.length

theorem protocolTotal_exact (h : Consistent p)
    (hfit : p.ledger.arrivals.length < UInt64.size) :
    protocolTotal p = p.ledger.taken.flatten.length - p.before.taken.flatten.length := by
  obtain ⟨hle, hmod⟩ := protocolTotal_drained h
  obtain ⟨queue, -, horder⟩ := h.waiting
  have hkept := p.ledger.length_arrivals
  rw [← horder, List.length_append] at hkept
  rw [drainedSince, List.length_drop] at hle hmod
  rwa [Nat.mod_eq_of_lt (by omega), Nat.mod_eq_of_lt (by omega)] at hmod

theorem deltaPackets_exact (h : Consistent p)
    (hfit : p.ledger.arrivals.length < UInt64.size) :
    p.deltaPackets.toNat = p.ledger.arrivals.length - p.before.arrivals.length := by
  rw [deltaPackets_arrived h, Nat.mod_eq_of_lt (by omega)]

theorem complete_zero (h : Consistent p) (hcomplete : p.metrics.breakdownComplete = true) :
    p.counters.metadataDropped = 0 ∧ p.breakdown.talkersOmitted_ = 0 := by
  have hboth := h.complete.symm.trans hcomplete
  simpa using hboth

/-- The protocol counts and the packets that wait make up the delta and the packets that waited
before. -/
theorem protocols_waiting (h : Consistent p) (hfit : p.ledger.arrivals.length < UInt64.size)
    (hcomplete : p.metrics.breakdownComplete = true) :
    protocolTotal p + p.counters.queued = p.deltaPackets.toNat + waiting p.before := by
  obtain ⟨hdropped, hbefore⟩ := none_dropped h hfit (complete_zero h hcomplete).1
  obtain ⟨queue, hqueued, horder⟩ := h.waiting
  have htaken := h.grew.taken_le
  have harrivals := h.grew.arrivals.length_le
  have hdrained := h.drained.length_le
  have hnow := congrArg List.length horder
  rw [kept_of_none_dropped hdropped, List.length_append, List.length_map] at hnow
  rw [protocolTotal_exact h hfit, deltaPackets_exact h hfit, hqueued, waiting]
  rw [kept_of_none_dropped hbefore, List.length_map] at hdrained ⊢
  omega

/-! ## Undisturbed samples -/

/-- A breakdown that is called complete describes the packets of the delta. -/
def Truthful (p : Publication) : Prop :=
  p.metrics.breakdownComplete = true →
    protocolTotal p = p.deltaPackets.toNat ∧
      ∀ ip, ip ≠ "" →
        p.breakdown.talkers_.find ip = talkerBytes ip (arrivedSince p.before p.ledger)

/-- A publication with nothing in the queue, now and at the one before. -/
structure Undelayed (p : Publication) : Prop where
  before : p.before.taken.flatten = p.before.kept
  now : p.ledger.taken.flatten = p.ledger.kept
  fit : p.ledger.arrivals.length < UInt64.size

theorem undelayed_truthful (h : Consistent p)
    (hprompt : p.counters.metadataDropped = 0 → Undelayed p) : Truthful p := by
  intro hcomplete
  obtain ⟨hmetadata, homitted⟩ := complete_zero h hcomplete
  have hundelayed := hprompt hmetadata
  obtain ⟨hdropped, hbefore⟩ := none_dropped h hundelayed.fit hmetadata
  have hsame : drainedSince p.before p.ledger = arrivedSince p.before p.ledger := by
    rw [drainedSince, arrivedSince, hundelayed.now, hundelayed.before,
      kept_of_none_dropped hdropped, kept_of_none_dropped hbefore, List.length_map, List.map_drop]
  refine ⟨?_, fun ip hip => ?_⟩
  · have hlength := congrArg List.length hsame
    rw [drainedSince, arrivedSince, List.length_drop, List.length_map, List.length_drop] at hlength
    rw [protocolTotal_exact h hundelayed.fit, deltaPackets_exact h hundelayed.fit, hlength]
  · obtain ⟨captureInterface, hbreakdown⟩ := h.breakdown
    obtain ⟨n, hle, hcount, htracked⟩ :=
      talkers_complete captureInterface (drainedSince p.before p.ledger)
    rw [hbreakdown] at homitted ⊢
    have hlength : (drainedSince p.before p.ledger).length < UInt64.size := by
      have hfit := hundelayed.fit
      rw [hsame, arrivedSince, List.length_map, List.length_drop]
      omega
    have hzero := congrArg UInt64.toNat (hcount.symm.trans homitted)
    rw [UInt64.toNat_ofNat_of_lt' (Nat.lt_of_le_of_lt hle hlength)] at hzero
    rw [← hsame]
    exact htracked hzero ip hip

/-! ## Runs -/

/-- All publications of a run. -/
def Published (r : Runtime) (p : Publication) : Prop :=
  ∃ s ∈ r.closed ++ r.engine_.toList, p ∈ s.publications

theorem published_engine (h : r.engine_ = some s) (hp : p ∈ s.publications) : Published r p :=
  ⟨s, List.mem_append_right _ (Option.mem_toList.mpr h), hp⟩

/-- A sample that publishes `p`. -/
def Publishes (r : Runtime) (event : Source.Sampling.Event) (p : Publication) : Prop :=
  ∃ now wall purpose s, event = .finish now wall ∧ r.control = .sampling purpose ∧
    r.engine_ = some s ∧ ¬ (r.elapsed now < 1000000000 ∧ purpose = none) ∧
    p = r.publication s (r.elapsed now) wall

/-- Where the sessions of a step come from. -/
theorem publications_of_sessions {after : Runtime} (hp : Published after p)
    (hclosed : ∀ s ∈ after.closed, s ∈ r.closed ∨ r.engine_ = some s)
    (hengine : ∀ t, after.engine_ = some t →
      t.publications = [] ∨ ∃ s, r.engine_ = some s ∧ t.publications = s.publications) :
    Published r p := by
  obtain ⟨t, ht, hp⟩ := hp
  rcases List.mem_append.mp ht with ht | ht
  · rcases hclosed t ht with hold | hold
    · exact ⟨t, List.mem_append_left _ hold, hp⟩
    · exact published_engine hold hp
  · rcases hengine t (Option.mem_toList.mp ht) with hnone | ⟨s, hs, hsame⟩
    · simp [hnone] at hp
    · exact published_engine hs (hsame ▸ hp)

theorem stop_publications {purpose : Purpose} (hp : Published (r.stop purpose) p) :
    Published r p := by
  unfold Runtime.stop at hp
  split at hp
  · next hengine => exact hp
  · next s hengine =>
    refine publications_of_sessions hp (fun s hs => Or.inl hs) fun t ht => ?_
    exact Or.inr ⟨s, hengine, by rw [← Option.some.inj ht]; rfl⟩

theorem conclude_publications {starts stores : Bool} {now : Int}
    (hp : Published (r.conclude starts stores now) p) : Published r p := by
  have hretired : ∀ s ∈ r.retire.closed, s ∈ r.closed ∨ r.engine_ = some s := by
    intro s hs
    exact (List.mem_append.mp hs).imp_right Option.mem_toList.mp
  unfold Runtime.conclude at hp
  split at hp
  · split at hp
    · refine publications_of_sessions hp hretired fun t ht => ?_
      exact Or.inl (by rw [← Option.some.inj ht])
    · exact hp
  · refine publications_of_sessions hp hretired fun t ht => ?_
    simp [Runtime.retire] at ht
  · exact hp
  · exact hp

/-- A publication was there before, or the step publishes it. -/
theorem publication_origin {event : Source.Sampling.Event} (hp : Published (r.step event) p) :
    Published r p ∨ Publishes r event p := by
  cases event with
  | capture event =>
    left
    simp only [Runtime.step, Runtime.capture] at hp
    split at hp
    · refine publications_of_sessions hp (fun s hs => Or.inl hs) fun t ht => ?_
      obtain ⟨s, hs, heq⟩ := Option.map_eq_some_iff.mp ht
      exact Or.inr ⟨s, hs, by rw [← heq]; rfl⟩
    · exact hp
  | put name opens =>
    left
    simp only [Runtime.step, Runtime.put] at hp
    split at hp
    · exact stop_publications hp
    · exact hp
  | delete =>
    left
    simp only [Runtime.step, Runtime.delete] at hp
    split at hp
    · exact stop_publications hp
    · exact hp
  | shutdown =>
    left
    simp only [Runtime.step, Runtime.shutdown] at hp
    split at hp
    · exact stop_publications hp
    · exact hp
  | joined =>
    left
    simp only [Runtime.step, Runtime.joined] at hp
    split at hp
    · next purpose s hcontrol hengine =>
      split at hp
      · refine publications_of_sessions hp (fun s hs => Or.inl hs) fun t ht => ?_
        exact Or.inr ⟨s, hengine, by rw [← Option.some.inj ht]; rfl⟩
      · exact hp
    · exact hp
  | tick =>
    left
    simp only [Runtime.step, Runtime.tick] at hp
    split at hp
    · next s hcontrol hengine =>
      refine publications_of_sessions hp (fun s hs => Or.inl hs) fun t ht => ?_
      exact Or.inr ⟨s, hengine, by rw [← Option.some.inj ht]; rfl⟩
    · exact hp
  | flush =>
    left
    simp only [Runtime.step, Runtime.flush] at hp
    split at hp
    · next purpose s hcontrol hengine =>
      refine publications_of_sessions hp (fun s hs => Or.inl hs) fun t ht => ?_
      exact Or.inr ⟨s, hengine, by rw [← Option.some.inj ht]; rfl⟩
    · exact hp
  | conclude starts stores now => exact Or.inl (conclude_publications hp)
  | finish now wall =>
    simp only [Runtime.step, Runtime.finish] at hp
    split at hp
    · next purpose s hcontrol hengine =>
      split at hp
      · exact Or.inl hp
      · next hdue =>
        obtain ⟨t, ht, hp⟩ := hp
        rcases List.mem_append.mp ht with ht | ht
        · exact Or.inl ⟨t, List.mem_append_left _ ht, hp⟩
        · have htaken := Option.some.inj (Option.mem_toList.mp ht)
          rw [← htaken] at hp
          rcases List.mem_append.mp hp with hp | hp
          · exact Or.inl (published_engine hengine hp)
          · exact Or.inr ⟨now, wall, purpose, s, rfl, hcontrol, hengine, hdue,
              List.mem_singleton.mp hp⟩
    · exact Or.inl hp

/-- While a session has dropped nothing, no packet is counted between the drain of a sample that
publishes and its snapshot, and the counters do not wrap. -/
def Undisturbed (r : Runtime) (event : Source.Sampling.Event) : Prop :=
  ∀ p, Publishes r event p → p.counters.metadataDropped = 0 →
    p.counters.queued = 0 ∧ p.ledger.arrivals.length < UInt64.size

/-- The publications of a session that has dropped nothing are undelayed. -/
def Prompt (r : Runtime) : Prop :=
  ∀ p, Published r p → p.counters.metadataDropped = 0 → Undelayed p

theorem since_prompt (hreported : Reported s) (hengine : r.engine_ = some s) (h : Prompt r)
    (hdropped : s.since.dropped = 0) : s.since.taken.flatten = s.since.kept := by
  cases hlast : s.publications.getLast? with
  | none =>
    rw [Session.since, hlast]
    rfl
  | some q =>
    have hq := List.mem_of_getLast? hlast
    have hsince : s.since = q.ledger := by
      rw [Session.since, hlast]
      rfl
    rw [hsince] at hdropped ⊢
    have hzero : q.counters.metadataDropped = 0 := by
      rw [(hreported.consistent q hq).metadataDropped, hdropped]
      rfl
    exact (h q (published_engine hengine hq) hzero).now

theorem prompt_step {event : Source.Sampling.Event} (hundisturbed : Undisturbed r event)
    (hsound : Sound r) (h : Prompt r) : Prompt (r.step event) := by
  intro p hp hzero
  rcases publication_origin hp with hold | hnew
  · exact h p hold hzero
  · obtain ⟨hqueued, hfit⟩ := hundisturbed p hnew hzero
    obtain ⟨now, wall, purpose, s, -, -, hengine, -, rfl⟩ := hnew
    have hreported := hsound.reported s hengine
    have hconsistent := publication_consistent hreported (hsound.pending s hengine)
      (r.elapsed now) wall
    refine ⟨since_prompt hreported hengine h (none_dropped hconsistent hfit hzero).2, ?_, hfit⟩
    obtain ⟨queue, hlength, horder⟩ := hconsistent.waiting
    have hnone : queue = [] := List.eq_nil_of_length_eq_zero (hlength.symm.trans hqueued)
    rw [← horder, hnone, List.append_nil]

theorem prompt_run {events : List Source.Sampling.Event}
    (h : Admissible Runtime.step Undisturbed idle events) :
    Prompt (run Runtime.step idle events) := by
  have keep : ∀ r event, Undisturbed r event → Sound r ∧ Prompt r →
      Sound (Runtime.step r event) ∧ Prompt (Runtime.step r event) :=
    fun r event hundisturbed h => ⟨sound_step h.1 event, prompt_step hundisturbed h.1 h.2⟩
  refine (admissibleInvariant (I := fun r => Sound r ∧ Prompt r) keep ⟨sound_idle, ?_⟩ h).2
  intro p hp
  obtain ⟨s, hs, -⟩ := hp
  simp [idle] at hs

/-- In every run the protocol counts of a breakdown that is called complete differ from the packet
delta by the change in the number of packets that wait; in undisturbed runs such a breakdown
describes the packets of the delta. -/
theorem breakdown_truthful (events : List Source.Sampling.Event) :
    let r := run Runtime.step idle events
    (∀ p, Published r p → p.ledger.arrivals.length < UInt64.size →
      p.metrics.breakdownComplete = true →
      protocolTotal p + p.counters.queued = p.deltaPackets.toNat + waiting p.before) ∧
    (Admissible Runtime.step Undisturbed idle events → ∀ p, Published r p → Truthful p) := by
  have hsound := sound_run events
  have hconsistent : ∀ p, Published (run Runtime.step idle events) p → Consistent p := by
    rintro p ⟨s, hs, hp⟩
    rcases List.mem_append.mp hs with hs | hs
    · exact (hsound.closed s hs).1.consistent p hp
    · exact (hsound.reported s (Option.mem_toList.mp hs)).consistent p hp
  exact ⟨fun p hp hfit hcomplete => protocols_waiting (hconsistent p hp) hfit hcomplete,
    fun h p hp => undelayed_truthful (hconsistent p hp) (prompt_run h p hp)⟩

/-! ## Samples of one packet and of two -/

/-- A capture whose packets are counted before the drain of its sample. -/
def early : List Source.Sampling.Event :=
  counting 1 ++ [.tick, .finish 1000000000 0]

/-- The second packet is counted between the drain and the snapshot. -/
def late : List Source.Sampling.Event :=
  counting 1 ++ [.tick] ++ (delivery frame).map .capture ++ [.finish 1000000000 0]

theorem undisturbed_of_ne {event : Source.Sampling.Event}
    (h : ∀ now wall, event ≠ .finish now wall) : Undisturbed r event := by
  intro p hp
  obtain ⟨now, wall, -, -, hevent, -⟩ := hp
  exact absurd hevent (h now wall)

theorem breakdown_truthful_early :
    ∀ p, Published (run Runtime.step idle early) p → Truthful p := by
  refine (breakdown_truthful early).2 ⟨?_, ?_, ?_, ?_, ?_, ?_, ?_, trivial⟩
  case refine_7 =>
    intro p hp _
    obtain ⟨now, wall, purpose, s, -, -, hengine, -, rfl⟩ := hp
    obtain rfl := Option.some.inj hengine
    exact ⟨rfl, show 1 < UInt64.size by decide⟩
  all_goals exact undisturbed_of_ne (by simp)

/-- A packet that is counted behind the drain is in the delta only, and the breakdown is called
complete all the same. -/
theorem late_packet_missing :
    ¬ ∀ events p, Published (run Runtime.step idle events) p → Truthful p := by
  intro h
  have hrun : ((run Runtime.step idle late).engine_.map fun s => s.publications.map fun p =>
      (p.metrics.breakdownComplete, protocolTotal p, p.deltaPackets.toNat)) =
        some [(true, 1, 2)] := by decide +kernel
  obtain ⟨s, hengine, hpublications⟩ := Option.map_eq_some_iff.mp hrun
  have hmem : (true, 1, 2) ∈ s.publications.map fun p =>
      (p.metrics.breakdownComplete, protocolTotal p, p.deltaPackets.toNat) := by
    rw [hpublications]
    exact List.mem_cons_self
  obtain ⟨p, hp, hfacts⟩ := List.mem_map.mp hmem
  simp only [Prod.mk.injEq] at hfacts
  have htotal := (h late p (published_engine hengine hp) hfacts.1).1
  omega

end Magicbox.Guarantees.BreakdownTruth
