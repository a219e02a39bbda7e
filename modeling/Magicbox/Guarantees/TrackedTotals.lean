import Magicbox.Guarantees.BreakdownTruth
import Magicbox.Library.Tracking

/-!
# Bounded talker and flow maps

The talkers and the flows of an interval under their caps. What is tracked has
its exact totals, as long as these fit the members that hold them, and what is
not tracked is counted.
-/

set_option autoImplicit false

namespace Magicbox.Guarantees.TrackedTotals
open Source.Capture Source.Engine Source.Sampling Library Library.Grouping Library.Tracking
open Library.BoundedQueue Library.Runs CaptureAccounting SessionReports BreakdownTruth

/-- The packets with addresses. -/
def ipPackets (packets : List PacketMetadata) : List PacketMetadata :=
  packets.filter fun p => p.sourceIp ≠ ""

def wireBytesOf (packets : List PacketMetadata) : Nat :=
  (packets.map fun p => p.wireBytes.toNat).sum

/-- The flow that the packets of one key make. -/
def flowOf (captureInterface : String) (packets : List PacketMetadata) : Flow where
  packet := packets.getLast?.getD ⟨0, 0, "", "", none, none, .other, .unknown⟩
  key := (packets.getLast?.map (flowKey captureInterface)).getD ""
  captureInterface
  firstSeen := (packets.head?.map timestampMs).getD 0
  packets := packets.length
  bytes := wireBytesOf packets

/-- A breakdown that is exact for what it tracks. -/
structure Exact (captureInterface : String) (packets : List PacketMetadata) (b : Breakdown) :
    Prop where
  talkers_size : b.talkers_.size ≤ 1024
  flows_size : b.flows_.size ≤ 4096
  talkers : ∀ ip total, b.talkers_.find ip = some total →
    total.toNat = wireBytesOf ((ipPackets packets).filter fun p => p.sourceIp = ip)
  flows : ∀ key flow, b.flows_.find key = some flow →
    flow.packets = ((ipPackets packets).filter fun p => flowKey captureInterface p = key).length ∧
      flow.bytes =
        wireBytesOf ((ipPackets packets).filter fun p => flowKey captureInterface p = key)
  talkersOmitted : b.talkersOmitted_.toNat =
    ((ipPackets packets).filter fun p => (b.talkers_.find p.sourceIp).isNone).length
  flowsOmitted : b.flowsOmitted_.toNat =
    ((ipPackets packets).filter fun p =>
      (b.flows_.find (flowKey captureInterface p)).isNone).length
  accounted : b.flows_.total (fun flow => flow.packets.toNat) + b.flowsOmitted_.toNat =
    (ipPackets packets).length

/-- The greatest of the talkers, in decreasing order. -/
structure Leading (talkers : OrderedMap String UInt64) (listed : List (String × UInt64)) :
    Prop where
  length : listed.length = min 10 talkers.size
  tracked : ∀ e ∈ listed, talkers.find e.1 = some e.2
  nodup : listed.Nodup
  decreasing : listed.Pairwise fun a b => b.2 ≤ a.2
  greatest : ∀ ip total, talkers.find ip = some total → (ip, total) ∉ listed →
    ∀ e ∈ listed, total ≤ e.2

/-- Packets whose totals fit 63 bits. -/
def Small (packets : List PacketMetadata) : Prop :=
  wireBytesOf (ipPackets packets) < 9223372036854775808 ∧
    (ipPackets packets).length < 9223372036854775808

instance (packets : List PacketMetadata) : Decidable (Small packets) :=
  inferInstanceAs (Decidable (_ ∧ _))

/-- The batches of an interval, one after the other. -/
def processed (captureInterface : String) (batches : List (List PacketMetadata)) : Breakdown :=
  batches.foldl (fun b packets => packets.foldl (Breakdown.add captureInterface) b) {}

theorem processed_eq (captureInterface : String) (batches : List (List PacketMetadata)) :
    processed captureInterface batches = breakdownOf captureInterface batches.flatten := by
  rw [processed, breakdownOf, List.foldl_flatten]

theorem ipPackets_snoc (past : List PacketMetadata) (p : PacketMetadata) :
    ipPackets (past ++ [p]) = ipPackets past ++ if p.sourceIp = "" then [] else [p] := by
  by_cases hp : p.sourceIp = "" <;> simp [ipPackets, List.filter_append, hp]

/-! ## The maps -/

section Maps
variable {captureInterface : String}

theorem flows_add (captureInterface : String) (b : Breakdown) (p : PacketMetadata) :
    (b.add captureInterface p).flows_ = (b.addFlow captureInterface p).flows_ ∧
      (b.add captureInterface p).flowsOmitted_ =
        (b.addFlow captureInterface p).flowsOmitted_ := by
  unfold Breakdown.add Breakdown.addTalker
  split
  · exact ⟨rfl, rfl⟩
  · split <;> exact ⟨rfl, rfl⟩

theorem flowOf_snoc {past : List PacketMetadata} {p : PacketMetadata} {flow : Option Flow}
    (h : flow = if past = [] then none else some (flowOf captureInterface past)) :
    ({ packet := p, key := flowKey captureInterface p, captureInterface,
       firstSeen := (flow.map (·.firstSeen)).getD (timestampMs p),
       packets := (flow.map (·.packets)).getD 0 + 1,
       bytes := (flow.map (·.bytes)).getD 0 + p.wireBytes.toNat } : Flow) =
      flowOf captureInterface (past ++ [p]) := by
  have hflow : flowOf captureInterface (past ++ [p]) =
      { packet := p, key := flowKey captureInterface p, captureInterface,
        firstSeen := ((past ++ [p]).head?.map timestampMs).getD 0,
        packets := past.length + 1, bytes := wireBytesOf past + p.wireBytes.toNat } := by
    simp [flowOf, wireBytesOf]
  rw [hflow, h]
  cases past with
  | nil => simp [wireBytesOf]
  | cons first rest => simp [flowOf]

theorem talkerTotal_snoc {past : List PacketMetadata} {p : PacketMetadata} {total : Option UInt64}
    (h : total = if past = [] then none else some (UInt64.ofNat (wireBytesOf past))) :
    total.getD 0 + p.wireBytes.toUInt64 = UInt64.ofNat (wireBytesOf (past ++ [p])) := by
  have hsum : wireBytesOf (past ++ [p]) = wireBytesOf past + p.wireBytes.toNat := by
    simp [wireBytesOf]
  rw [hsum, UInt64.ofNat_add, UInt64.ofNat_uInt32ToNat, h]
  cases past with
  | nil => simp [wireBytesOf]
  | cons first rest => rfl

/-- The flows of a list of packets. -/
theorem flows_tracked (captureInterface : String) (packets : List PacketMetadata) :
    ∃ omitted, Tracks 4096 (flowKey captureInterface) (flowOf captureInterface)
        (ipPackets packets) (breakdownOf captureInterface packets).flows_ omitted ∧
      (breakdownOf captureInterface packets).flowsOmitted_ = UInt64.ofNat omitted := by
  induction packets using List.reverseRecOn with
  | nil => exact ⟨0, Tracks.nil _ _ _, rfl⟩
  | append_singleton past p ih =>
    obtain ⟨omitted, htracks, homitted⟩ := ih
    obtain ⟨hflows, hcount⟩ := flows_add captureInterface (breakdownOf captureInterface past) p
    rw [breakdownOf_snoc, hflows, hcount, ipPackets_snoc]
    simp only [Breakdown.addFlow]
    split
    · rw [List.append_nil]
      exact ⟨omitted, htracks, homitted⟩
    · split
      · next hadmit => exact ⟨omitted, htracks.admit hadmit (flowOf_snoc rfl), homitted⟩
      · next homit =>
        refine ⟨omitted + 1, htracks.omit (Bool.eq_false_iff.mpr homit), ?_⟩
        simp only [homitted]
        exact (UInt64.ofNat_add omitted 1).symm

/-- The talkers of a list of packets. -/
theorem talkers_tracked (captureInterface : String) (packets : List PacketMetadata) :
    ∃ omitted, Tracks 1024 (·.sourceIp) (fun g => UInt64.ofNat (wireBytesOf g))
        (ipPackets packets) (breakdownOf captureInterface packets).talkers_ omitted ∧
      (breakdownOf captureInterface packets).talkersOmitted_ = UInt64.ofNat omitted := by
  induction packets using List.reverseRecOn with
  | nil => exact ⟨0, Tracks.nil _ _ _, rfl⟩
  | append_singleton past p ih =>
    obtain ⟨omitted, htracks, homitted⟩ := ih
    obtain ⟨htalkers, hcount⟩ := talkers_add captureInterface (breakdownOf captureInterface past) p
    rw [breakdownOf_snoc, htalkers, hcount, ipPackets_snoc]
    unfold Breakdown.addTalker
    split
    · rw [List.append_nil]
      exact ⟨omitted, htracks, homitted⟩
    · split
      · next hadmit => exact ⟨omitted, htracks.admit hadmit (talkerTotal_snoc rfl), homitted⟩
      · next homit =>
        refine ⟨omitted + 1, htracks.omit (Bool.eq_false_iff.mpr homit), ?_⟩
        simp only [homitted]
        exact (UInt64.ofNat_add omitted 1).symm

end Maps

/-! ## Exactness -/

theorem wireBytesOf_filter_le (keep : PacketMetadata → Bool) (packets : List PacketMetadata) :
    wireBytesOf (packets.filter keep) ≤ wireBytesOf packets := by
  induction packets with
  | nil => simp
  | cons p rest ih =>
    rw [List.filter_cons]
    unfold wireBytesOf at ih ⊢
    split <;> simp only [List.map_cons, List.sum_cons] <;> omega

/-- The talkers are exact up to 64 bits. -/
theorem talkers_exact (captureInterface : String) {packets : List PacketMetadata}
    (h : wireBytesOf (ipPackets packets) < 18446744073709551616) {ip : String} {total : UInt64}
    (htotal : (breakdownOf captureInterface packets).talkers_.find ip = some total) :
    total.toNat = wireBytesOf ((ipPackets packets).filter fun p => p.sourceIp = ip) := by
  obtain ⟨_, htalkers, -⟩ := talkers_tracked captureInterface packets
  obtain ⟨-, rfl⟩ := htalkers.exact_ ip total htotal
  have hle : wireBytesOf (members (·.sourceIp) (ipPackets packets) ip) ≤
      wireBytesOf (ipPackets packets) := wireBytesOf_filter_le _ _
  exact UInt64.toNat_ofNat_of_lt' (by unfold UInt64.size; omega)

/-- The flows, which are counted in signed numbers, need one bit less. -/
theorem breakdownOf_exact (captureInterface : String) {packets : List PacketMetadata}
    (h : Small packets) :
    Exact captureInterface packets (breakdownOf captureInterface packets) := by
  obtain ⟨hbytes, hlength⟩ := h
  obtain ⟨flowsOmitted, hflows, hflowsOmitted⟩ := flows_tracked captureInterface packets
  obtain ⟨talkersOmitted, htalkers, htalkersOmitted⟩ := talkers_tracked captureInterface packets
  have hflowsLe := List.length_filter_le
    (fun p => ((breakdownOf captureInterface packets).flows_.find
    (flowKey captureInterface p)).isNone) (ipPackets packets)
  have htalkersLe := List.length_filter_le (fun p => ((breakdownOf captureInterface
    packets).talkers_.find p.sourceIp).isNone) (ipPackets packets)
  rw [← hflows.omitted] at hflowsLe
  rw [← htalkers.omitted] at htalkersLe
  have hflowsNat : (breakdownOf captureInterface packets).flowsOmitted_.toNat = flowsOmitted := by
    rw [hflowsOmitted]
    exact UInt64.toNat_ofNat_of_lt' (by unfold UInt64.size; omega)
  have htalkersNat :
      (breakdownOf captureInterface packets).talkersOmitted_.toNat = talkersOmitted := by
    rw [htalkersOmitted]
    exact UInt64.toNat_ofNat_of_lt' (by unfold UInt64.size; omega)
  refine ⟨htalkers.size, hflows.size, fun ip total => talkers_exact captureInterface (by omega),
    fun key flow hflow => ?_, htalkersNat.trans htalkers.omitted,
    hflowsNat.trans hflows.omitted, ?_⟩
  · obtain ⟨-, rfl⟩ := hflows.exact_ key flow hflow
    exact ⟨rfl, rfl⟩
  · rw [hflowsNat]
    exact hflows.accounted fun g => by simp [flowOf]

/-- However the talkers are sorted, the first ten lead. -/
theorem leading_of_sorted {talkers : OrderedMap String UInt64} {sorted : List (String × UInt64)}
    (hperm : sorted.Perm talkers.entries) (hsorted : sorted.Pairwise fun a b => b.2 ≤ a.2) :
    Leading talkers (sorted.take 10) := by
  have hsplit := hsorted
  rw [← List.take_append_drop 10 sorted, List.pairwise_append] at hsplit
  constructor
  · rw [List.length_take, hperm.length_eq]
    rfl
  · exact fun e he => (OrderedMap.mem_entries _).mp (hperm.mem_iff.mp (List.mem_of_mem_take he))
  · exact (hperm.nodup_iff.mpr talkers.entries_nodup).sublist (List.take_sublist 10 sorted)
  · exact hsplit.1
  · intro ip total htotal hunlisted e he
    have hmem := hperm.mem_iff.mpr ((OrderedMap.mem_entries _).mpr htotal)
    rw [← List.take_append_drop 10 sorted, List.mem_append] at hmem
    exact hsplit.2.2 e he _ (hmem.resolve_left hunlisted)

theorem top_leading (talkers : OrderedMap String UInt64) :
    Leading talkers (Runtime.top talkers) := by
  refine leading_of_sorted (List.mergeSort_perm _ _) ?_
  have hsorted : (talkers.entries.mergeSort fun a b => decide (b.2 ≤ a.2)).Pairwise
      fun a b => decide (b.2 ≤ a.2) = true := by
    refine List.pairwise_mergeSort (fun a b c hab hbc => ?_) (fun a b => ?_) talkers.entries
    · simp only [decide_eq_true_eq] at hab hbc ⊢
      exact UInt64.le_trans hbc hab
    · simp only [Bool.or_eq_true, decide_eq_true_eq]
      exact UInt64.le_total b.2 a.2
  exact hsorted.imp of_decide_eq_true

/-! ## Publications -/

/-- What a publication says about its breakdown. -/
structure Reports (p : Publication) : Prop where
  topTalkers : p.metrics.topTalkers = Runtime.top p.breakdown.talkers_
  talkersOmitted : p.metrics.talkersOmitted = p.breakdown.talkersOmitted_
  flowsOmitted : p.metrics.flowsOmitted = p.breakdown.flowsOmitted_

theorem published_reports (events : List Source.Sampling.Event) :
    ∀ p, Published (run Runtime.step idle events) p → Reports p := by
  have keep : ∀ r event, True → (∀ p, Published r p → Reports p) →
      ∀ p, Published (Runtime.step r event) p → Reports p := by
    intro r event _ h p hp
    rcases publication_origin hp with hold | ⟨now, wall, purpose, s, -, -, -, -, rfl⟩
    · exact h p hold
    · exact ⟨rfl, rfl, rfl⟩
  have start : ∀ p, Published idle p → Reports p := by
    rintro p ⟨s, hs, -⟩
    simp [idle] at hs
  exact invariant (P := fun _ => True) (I := fun r => ∀ p, Published r p → Reports p) keep start
    fun _ _ => trivial

/-- In every run the breakdown of a publication is that of the packets that were drained for it. -/
theorem published_breakdown {events : List Source.Sampling.Event} {p : Publication}
    (hp : Published (run Runtime.step idle events) p) :
    ∃ captureInterface,
      p.breakdown = breakdownOf captureInterface (drainedSince p.before p.ledger) := by
  have hsound := sound_run events
  obtain ⟨s, hs, hp⟩ := hp
  rcases List.mem_append.mp hs with hs | hs
  · exact ((hsound.closed s hs).1.consistent p hp).breakdown
  · exact ((hsound.reported s (Option.mem_toList.mp hs)).consistent p hp).breakdown

/-- **Bounded talker and flow maps are exact for what they track.** Over any batches of an interval
whose totals fit 63 bits, the maps keep their bounds, every tracked source and flow has its exact
totals, and the rest is counted; the talkers that are listed lead. In every run a publication has
the breakdown of the packets that were drained for it. -/
theorem breakdown_exact (batches : List (List PacketMetadata)) (h : Small batches.flatten) :
    (∀ captureInterface,
      Exact captureInterface batches.flatten (processed captureInterface batches) ∧
        Leading (processed captureInterface batches).talkers_
          (Runtime.top (processed captureInterface batches).talkers_)) ∧
      ∀ events p, Published (run Runtime.step idle events) p →
        drainedSince p.before p.ledger = batches.flatten →
          Reports p ∧ ∃ captureInterface, p.breakdown = processed captureInterface batches := by
  constructor
  · intro captureInterface
    rw [processed_eq]
    exact ⟨breakdownOf_exact captureInterface h, top_leading _⟩
  · intro events p hp hdrained
    refine ⟨published_reports events p hp, ?_⟩
    obtain ⟨captureInterface, hbreakdown⟩ := published_breakdown hp
    exact ⟨captureInterface, by rw [processed_eq, hbreakdown, hdrained]⟩

/-! ## Totals that fit and totals that do not -/

/-- The largest packet. -/
def maximal : PacketMetadata :=
  { timestamp := 0, wireBytes := 4294967295, sourceIp := "10.0.0.1", destinationIp := "10.0.0.2" }

theorem breakdown_exact_maximal :
    Small [[maximal], [maximal, maximal]].flatten ∧
      Exact "eth0" [maximal, maximal, maximal] (processed "eth0" [[maximal], [maximal, maximal]]) := by
  have hsmall : Small [[maximal], [maximal, maximal]].flatten := by decide +kernel
  exact ⟨hsmall, ((breakdown_exact [[maximal], [maximal, maximal]] hsmall).1 "eth0").1⟩

/-- The total of a source is a number of 64 bits. -/
theorem replicate_not_exact {n : Nat} (h : 18446744073709551616 ≤ n * 4294967295) :
    ¬ Exact "eth0" (List.replicate n maximal)
      (processed "eth0" [List.replicate n maximal]) := by
  intro hexact
  have hip : ipPackets (List.replicate n maximal) = List.replicate n maximal :=
    List.filter_eq_self.mpr fun p hp => by rw [List.eq_of_mem_replicate hp]; decide
  have hsource : (List.replicate n maximal).filter (fun p => p.sourceIp = "10.0.0.1") =
      List.replicate n maximal :=
    List.filter_eq_self.mpr fun p hp => by rw [List.eq_of_mem_replicate hp]; decide
  obtain ⟨omitted, htracks, -⟩ := talkers_tracked "eth0" (List.replicate n maximal)
  rw [hip] at htracks
  have hkeys : ((List.replicate n maximal).map (·.sourceIp)).toFinset ⊆ {"10.0.0.1"} := by
    intro ip hmem
    obtain ⟨p, hp, rfl⟩ := List.mem_map.mp (List.mem_toFinset.mp hmem)
    rw [List.eq_of_mem_replicate hp]
    exact Finset.mem_singleton_self _
  have hfew := (Finset.card_le_card hkeys).trans (Finset.card_singleton "10.0.0.1").le
  have hfind := congrArg (OrderedMap.find · "10.0.0.1") (htracks.few (by omega))
  have hsome : List.replicate n maximal ≠ [] := by
    cases n with
    | zero => simp at h
    | succ n => exact List.cons_ne_nil _ _
  simp only [OrderedMap.find_mapValues, find_group, members, hsource, if_neg hsome,
    Option.map_some] at hfind
  rw [processed_eq, List.flatten_singleton] at hexact
  have htotal := hexact.talkers _ _ hfind
  rw [hip, hsource, wireBytesOf, List.map_replicate, List.sum_replicate_nat] at htotal
  have hlt := (UInt64.ofNat (n * maximal.wireBytes.toNat)).toNat_lt
  have hwire : maximal.wireBytes.toNat = 4294967295 := rfl
  rw [hwire] at hlt htotal
  omega

theorem maximal_not_exact :
    ¬ Exact "eth0" (List.replicate 4294967298 maximal)
      (processed "eth0" [List.replicate 4294967298 maximal]) :=
  replicate_not_exact (by omega)

end Magicbox.Guarantees.TrackedTotals
