import Magicbox.Guarantees.HistoryRange
import Magicbox.Guarantees.ProtocolHistory
import Magicbox.Guarantees.TrafficTotals
import Magicbox.Source.Publishing

/-!
# What history says about a run

From the source of an engine to the answer of a query: the engines count, the
samples hand the differences of the counters to the store, and history adds them
up. Behind a run whose sessions were all flushed, the rows of a query that covers
it sum up to the packets and bytes that the sources delivered and, with one
sample a second, to the protocols of all packets that were not dropped.
-/

set_option autoImplicit false

namespace Magicbox.Guarantees.RunHistory
open Library Library.Grouping Library.Results Library.Sqlite Library.BoundedQueue Library.Runs
open Source.Capture Source.Json Source.Store Source.Sampling Source.Publishing
open CaptureAccounting SessionReports TrafficTotals HistoryTotals HistoryAggregation
open ProtocolHistory

variable {ρ : Type} {r : Runtime} {s : Session} {p : Publication}

/-! ## Protocols of a publication -/

/-- The packets of a protocol. -/
def ofProtocol (protocol : String) (packets : List PacketMetadata) : List PacketMetadata :=
  packets.filter fun p => protocolName p.protocol = protocol

theorem ofProtocol_snoc (protocol : String) (past : List PacketMetadata) (p : PacketMetadata) :
    ofProtocol protocol (past ++ [p]) =
      if protocolName p.protocol = protocol then ofProtocol protocol past ++ [p]
      else ofProtocol protocol past := by
  by_cases hname : protocolName p.protocol = protocol <;> simp [ofProtocol, hname]

theorem find_protocols (captureInterface : String) (packets : List PacketMetadata)
    (protocol : String) :
    (packets.foldl (Breakdown.add captureInterface) {}).protocols_.find protocol =
      if ofProtocol protocol packets = [] then none
      else some (UInt64.ofNat (ofProtocol protocol packets).length) := by
  induction packets using List.reverseRecOn with
  | nil => rfl
  | append_singleton past p ih =>
    rw [List.foldl_append, List.foldl_cons, List.foldl_nil, protocols_add, ofProtocol_snoc]
    by_cases hname : protocolName p.protocol = protocol
    · subst hname
      rw [OrderedMap.find_alter_self, ih, if_pos rfl]
      by_cases hnone : ofProtocol (protocolName p.protocol) past = []
      · simp [hnone]
      · simp [hnone]
    · rw [OrderedMap.find_alter_of_ne _ fun heq => hname heq.symm, ih, if_neg hname]

theorem get_protocolsJson {counts : List (String × UInt64)} (hnodup : (counts.map Prod.fst).Nodup)
    (protocol : String) :
    (∀ n, (protocol, n) ∈ counts → (protocolsJson counts).get protocol = decimal n) ∧
      (protocol ∉ counts.map Prod.fst → (protocolsJson counts).get protocol = .null) := by
  induction counts using List.reverseRecOn with
  | nil => exact ⟨fun n hn => absurd hn List.not_mem_nil, fun _ => rfl⟩
  | append_singleton past e ih =>
    rw [List.map_append, List.nodup_append] at hnodup
    obtain ⟨hpast, -, hdistinct⟩ := hnodup
    obtain ⟨hsome, hnone⟩ := ih hpast
    have hjson : protocolsJson (past ++ [e]) = (protocolsJson past).set e.1 (decimal e.2) := by
      simp [protocolsJson, List.foldl_append]
    rw [hjson]
    constructor
    · intro n hn
      rcases List.mem_append.mp hn with hn | hn
      · have hne : e.1 ≠ protocol := fun heq =>
          hdistinct protocol (List.mem_map_of_mem hn) e.1 (by simp) heq.symm
        rw [Value.get_set_of_ne _ hne]
        exact hsome n hn
      · obtain rfl := List.mem_singleton.mp hn
        exact Value.get_set_self _ _ _
    · intro hmem
      rw [List.map_append, List.mem_append, not_or] at hmem
      have hne : e.1 ≠ protocol := fun heq => hmem.2 (by simp [heq])
      rw [Value.get_set_of_ne _ hne]
      exact hnone hmem.1

/-- The store counts in a sample what was drained for it. -/
theorem counted_published (h : Consistent p) {protocol : String}
    (hsmall : (ofProtocol protocol (drainedSince p.before p.ledger)).length <
      9223372036854775808) :
    counted protocol (metricsJson (some p.metrics)) =
      some (ofProtocol protocol (drainedSince p.before p.ledger)).length := by
  obtain ⟨captureInterface, hbreakdown⟩ := h.breakdown
  have hfind := find_protocols captureInterface (drainedSince p.before p.ledger) protocol
  rw [← hbreakdown] at hfind
  obtain ⟨hsome, hnone⟩ := get_protocolsJson p.breakdown.protocols_.keys_nodup protocol
  have hget : (metricsJson (some p.metrics)).get "protocols" =
      protocolsJson p.breakdown.protocols_.entries := by
    simp [metricsJson, h.protocols]
  unfold counted
  rw [hget]
  split_ifs at hfind with hempty
  · rw [hnone, hempty]
    · rfl
    · intro hmem
      obtain ⟨e, he, hkey⟩ := List.mem_map.mp hmem
      have hentry := (OrderedMap.mem_entries _).mp he
      rw [hkey, hfind] at hentry
      cases hentry
  · have htext : ∀ n : UInt64, toString n = toString n.toNat := fun _ => rfl
    have hlt : (ofProtocol protocol (drainedSince p.before p.ledger)).length < UInt64.size :=
      Nat.lt_trans hsmall (by decide)
    have hfits :
        fits ((ofProtocol protocol (drainedSince p.before p.ledger)).length : Int) = true :=
      fits_iff.mpr (by omega)
    rw [hsome _ ((OrderedMap.mem_entries _).mpr hfind), decimal, htext,
      UInt64.toNat_ofNat_of_lt' hlt]
    simp only [Decimal.trim_toString, Decimal.integer_toString]
    simp [hfits]

/-! ## A session that was flushed -/

/-- How many packets of a protocol were drained. -/
abbrev drainedOf (protocol : String) (l : Ledger PacketMetadata) : Nat :=
  (ofProtocol protocol l.taken.flatten).length

theorem drainedOf_since {before now : Ledger PacketMetadata} (h : Within before now)
    (protocol : String) :
    drainedOf protocol now = drainedOf protocol before +
      (ofProtocol protocol (drainedSince before now)).length := by
  obtain ⟨rest, hrest⟩ := h.taken
  have hsplit : now.taken.flatten = before.taken.flatten ++ drainedSince before now := by
    rw [drainedSince, ← hrest, List.flatten_append, List.drop_left]
  rw [drainedOf, hsplit, ofProtocol, List.filter_append, List.length_append]
  rfl

theorem drainedOf_measure (protocol : String) : Measure (drainedOf protocol) :=
  ⟨rfl, fun _ _ h => by have hsum := drainedOf_since h protocol; omega⟩

theorem settled_packets (h : Reported s) (hsettled : Settled s) (hfit : PacketsFit s) :
    sumOf s (·.deltaPackets.toNat) = s.observed.ledger.arrivals.length := by
  have hsum := (sum_measure h arrivals_measure (fun p => p.deltaPackets.toNat)
    fun p hp => residue (deltaPackets_arrived (h.consistent p hp))).2
  rw [hsettled.flushed] at hsum
  exact hsum hfit

theorem settled_bytes (h : Reported s) (hsettled : Settled s) (hfit : BytesFit s) :
    sumOf s (·.deltaBytes.toNat) = wireTotal s.observed.ledger := by
  have hsum := (sum_measure h wireTotal_measure (fun p => p.deltaBytes.toNat)
    fun p hp => residue (deltaBytes_arrived (h.consistent p hp))).2
  rw [hsettled.flushed] at hsum
  exact hsum hfit

/-- What the details of a publication count. -/
def protocolCount (protocol : String) (p : Publication) : Nat :=
  countOf protocol (metricsJson (some p.metrics))

theorem settled_protocol (h : Reported s) (hsettled : Settled s)
    (hsmall : s.observed.ledger.kept.length < 9223372036854775808) {protocol : String} :
    sumOf s (protocolCount protocol) = (ofProtocol protocol s.observed.ledger.kept).length ∧
      ∀ p ∈ s.publications, (counted protocol (metricsJson (some p.metrics))).isSome = true := by
  have hdrained : s.observed.ledger.taken.flatten = s.observed.ledger.kept := by
    have horder := h.accounted.balanced.order
    have hempty : s.observed.engine.queue_ = [] := hsettled.empty
    rw [hempty, List.append_nil] at horder
    exact horder
  have hmeasure := drainedOf_measure protocol
  have hcounted : ∀ p ∈ s.publications, counted protocol (metricsJson (some p.metrics)) =
      some (drainedOf protocol p.ledger - drainedOf protocol p.before) := by
    intro p hp
    have hsince := drainedOf_since (h.consistent p hp).grew protocol
    have hearlier := hmeasure.mono _ _ (h.earlier p hp)
    have hall : drainedOf protocol s.observed.ledger ≤ s.observed.ledger.kept.length := by
      rw [drainedOf, hdrained]
      exact List.length_filter_le _ _
    rw [counted_published (h.consistent p hp) (by omega)]
    congr 1
    omega
  constructor
  · have htelescopes := h.telescopes _ hmeasure
    rw [hsettled.flushed, drainedOf, hdrained] at htelescopes
    rw [← htelescopes, sumOf]
    congr 1
    refine List.map_congr_left fun p hp => ?_
    rw [protocolCount, countOf, hcounted p hp]
    rfl
  · intro p hp
    rw [hcounted p hp]
    rfl

/-! ## The calls of a run -/

/-- No session is under way: the engine is gone, or was shut down. -/
def Quiet (r : Runtime) : Prop := r.engine_ = none ∨ r.control = .halted

/-- The packets that the sources delivered. -/
def delivered (r : Runtime) : Nat :=
  ((sessions r).map fun s => s.observed.ledger.arrivals.length).sum

def deliveredBytes (r : Runtime) : Nat :=
  ((sessions r).map fun s => wireTotal s.observed.ledger).sum

/-- The packets of a protocol that no queue dropped. -/
def keptOf (protocol : String) (r : Runtime) : Nat :=
  ((sessions r).map fun s => (ofProtocol protocol s.observed.ledger.kept).length).sum

theorem quiet_settled (h : Sound r) (hquiet : Quiet r) (hs : s ∈ sessions r) :
    Reported s ∧ Settled s := by
  refine flushed_settled h ?_
  rcases hquiet with hnone | hhalted
  · have hclosed : s ∈ r.closed := by simpa [sessions, hnone] using hs
    exact List.mem_append_left _ hclosed
  · simpa [flushed, hhalted, sessions] using hs

/-- A sum over all publications, session by session. -/
theorem sum_publications {f : Publication → Nat} {g : Session → Nat}
    (h : ∀ s ∈ sessions r, sumOf s f = g s) :
    ((publications r).map f).sum = ((sessions r).map g).sum := by
  rw [publications, List.map_flatMap, List.flatMap_def, List.sum_flatten, List.map_map]
  exact congrArg List.sum (List.map_congr_left h)

theorem sum_handed {clock : List Int} (hlength : clock.length = (publications r).length)
    {f : Call → Nat} {g : Publication → Nat} (hf : ∀ p ts, f (sampleCall p ts) = g p) :
    ((handed r clock).map f).sum = ((publications r).map g).sum := by
  have hfirst : ((publications r).zip clock).map (fun e => g e.1) = (publications r).map g := by
    have hzip := List.map_fst_zip (Nat.le_of_eq hlength.symm)
    rw [← congrArg (List.map g) hzip, List.map_map]
    rfl
  rw [handed, List.map_map, ← hfirst]
  refine congrArg List.sum (List.map_congr_left ?_)
  rintro ⟨p, ts⟩ -
  exact hf p ts

/-- What a run delivered fits 63 bits. -/
structure Moderate (r : Runtime) : Prop where
  packets : delivered r < 9223372036854775808
  bytes : deliveredBytes r < 9223372036854775808

/-- Clock readings for the samples of a run, which a range covers. -/
structure Covered (r : Runtime) (clock : List Int) (from_ to_ : Int) : Prop where
  length : clock.length = (publications r).length
  nonneg : ∀ ts ∈ clock, 0 ≤ ts
  ordered : clock.Pairwise (· ≤ ·)
  within : ∀ ts ∈ clock, from_ ≤ ts ∧ ts < to_

section Run
variable {clock : List Int} {from_ to_ interval : Int}

theorem le_sum {α : Type} (f : α → Nat) {l : List α} {x : α} (hx : x ∈ l) :
    f x ≤ (l.map f).sum :=
  List.single_le_sum (by simp) _ (List.mem_map_of_mem hx)

theorem arrivals_le (hs : s ∈ sessions r) :
    s.observed.ledger.arrivals.length ≤ delivered r :=
  le_sum (fun s : Session => s.observed.ledger.arrivals.length) hs

theorem wireTotal_le (hs : s ∈ sessions r) : wireTotal s.observed.ledger ≤ deliveredBytes r :=
  le_sum (fun s : Session => wireTotal s.observed.ledger) hs

theorem kept_le (hs : s ∈ sessions r) : s.observed.ledger.kept.length ≤ delivered r := by
  have harrivals := arrivals_le hs
  have hkept := s.observed.ledger.length_arrivals
  omega

theorem handed_packets (h : Sound r) (hquiet : Quiet r) (hmoderate : Moderate r)
    (hlength : clock.length = (publications r).length) :
    packetsOf (handed r clock) = delivered r := by
  have hfit : ∀ s ∈ sessions r, sumOf s (fun p => p.deltaPackets.toNat) =
      s.observed.ledger.arrivals.length := by
    intro s hs
    obtain ⟨hreported, hsettled⟩ := quiet_settled h hquiet hs
    have hlt := Nat.lt_of_le_of_lt (arrivals_le hs) hmoderate.packets
    exact settled_packets hreported hsettled (Nat.lt_trans hlt (by decide))
  have hsum := sum_handed (f := fun c => c.packets.toNat)
    (g := fun p => p.deltaPackets.toNat) hlength fun _ _ => rfl
  rw [sum_publications hfit] at hsum
  rw [delivered, ← hsum, cast_sum]
  rfl

theorem handed_bytes (h : Sound r) (hquiet : Quiet r) (hmoderate : Moderate r)
    (hlength : clock.length = (publications r).length) :
    bytesOf (handed r clock) = deliveredBytes r := by
  have hfit : ∀ s ∈ sessions r, sumOf s (fun p => p.deltaBytes.toNat) =
      wireTotal s.observed.ledger := by
    intro s hs
    obtain ⟨hreported, hsettled⟩ := quiet_settled h hquiet hs
    have hlt := Nat.lt_of_le_of_lt (wireTotal_le hs) hmoderate.bytes
    exact settled_bytes hreported hsettled (Nat.lt_trans hlt (by decide))
  have hsum := sum_handed (f := fun c => c.bytes.toNat)
    (g := fun p => p.deltaBytes.toNat) hlength fun _ _ => rfl
  rw [sum_publications hfit] at hsum
  rw [deliveredBytes, ← hsum, cast_sum]
  rfl

theorem handed_protocol (h : Sound r) (hquiet : Quiet r) (hmoderate : Moderate r)
    (hlength : clock.length = (publications r).length) (protocol : String) :
    ((handed r clock).map fun c => countOf protocol c.details).sum = keptOf protocol r := by
  rw [sum_handed (g := protocolCount protocol) hlength fun _ _ => rfl, keptOf]
  refine sum_publications fun s hs => ?_
  obtain ⟨hreported, hsettled⟩ := quiet_settled h hquiet hs
  exact (settled_protocol hreported hsettled
    (Nat.lt_of_le_of_lt (kept_le hs) hmoderate.packets)).1

theorem mem_handed {c : Call} (hc : c ∈ handed r clock) :
    c.ts ∈ clock ∧ ∃ s ∈ sessions r, ∃ p ∈ s.publications, c = sampleCall p c.ts := by
  obtain ⟨⟨p, ts⟩, he, rfl⟩ := List.mem_map.mp hc
  obtain ⟨hp, hts⟩ := List.of_mem_zip he
  obtain ⟨s, hs, hp⟩ := List.mem_flatMap.mp hp
  exact ⟨hts, s, hs, p, hp, rfl⟩

theorem handed_counted (h : Sound r) (hquiet : Quiet r) (hmoderate : Moderate r) :
    Counted (handed r clock) := by
  intro c hc protocol _
  obtain ⟨-, s, hs, p, hp, hcall⟩ := mem_handed hc
  obtain ⟨hreported, hsettled⟩ := quiet_settled h hquiet hs
  rw [hcall]
  exact (settled_protocol hreported hsettled
    (Nat.lt_of_le_of_lt (kept_le hs) hmoderate.packets)).2 p hp

theorem handed_times (hlength : clock.length = (publications r).length) :
    (handed r clock).map (·.ts) = clock := by
  rw [handed, List.map_map]
  exact List.map_snd_zip (Nat.le_of_eq hlength)

end Run

/-! ## Queries over counted samples -/

section Query
variable {D : Doubles ρ} {calls : List Call} {from_ to_ interval : Int}

/-- The counts that a query finds in a bucket. -/
theorem bucket_cells (hwithin : WithinRetention calls) (hcounted : Counted calls) {b : Int}
    {l : List (Int × Sample ρ)} (hg : (b, l) ∈ buckets (stored D calls) from_ to_ interval)
    {protocol : String} (hprotocol : protocol ∈ protocols) :
    (l.map fun row => protocolCell D protocol row.2.details) =
      ((secondsIn calls from_ to_ interval b).map fun e =>
        (countOf protocol (latest e.2) : Int)).map .integer := by
  have hcell := congrArg (List.map fun d : Int × Value => protocolCell D protocol d.2)
    (bucket_details hwithin hg)
  rw [List.map_map, List.map_map] at hcell
  rw [List.map_map]
  refine hcell.trans (List.map_congr_left fun e he => ?_)
  exact protocolCell_counted (latest_counted hcounted hprotocol he)

/-- A query over counts that fit 63 bits is answered. -/
theorem counted_answered {from_ to_ : Int64} (hregular : Regular calls)
    (haccepted : checkHistory from_ to_ interval = .ok ())
    (hretained : Retained calls from_.toInt) (hwithin : WithinRetention calls)
    (hfew : Few calls from_.toInt to_.toInt interval) (hcounted : Counted calls)
    (hsmall : ∀ protocol ∈ protocols,
      (calls.map fun c => countOf protocol c.details).sum < 9223372036854775808) :
    ∃ answer, history D (stored D calls) from_ to_ interval = .ok answer := by
  refine (history_returns hregular haccepted hretained hfew).mpr ?_
  rintro ⟨b, l⟩ hg protocol hprotocol
  have hkept := kept_add_lost calls from_.toInt to_.toInt interval b protocol
  have hle := counts_bucket_le (fun c => countOf protocol c.details) calls from_.toInt to_.toInt
    interval b
  rw [← cast_sum, ← cast_sum] at hle
  have hbound := hsmall protocol hprotocol
  have hsum : ((secondsIn calls from_.toInt to_.toInt interval b).map fun e =>
      (countOf protocol (latest e.2) : Int)).sum < 9223372036854775808 := by
    rw [← cast_sum]
    change ((kept calls from_.toInt to_.toInt interval b protocol : Nat) : Int) < _
    omega
  have hnonneg : ∀ n ∈ (secondsIn calls from_.toInt to_.toInt interval b).map fun e =>
      (countOf protocol (latest e.2) : Int), 0 ≤ n := by
    intro n hn
    obtain ⟨e, -, rfl⟩ := List.mem_map.mp hn
    exact Int.natCast_nonneg _
  rw [bucket_cells hwithin hcounted hg hprotocol, Cell.sum_integers D hnonneg hsum]
  rfl

/-- The rows of a range hold what its calls hold. -/
theorem rows_sum (hregular : Regular calls) (hretained : Retained calls from_)
    (hfew : Few calls from_ to_ interval) {rows : List Columns}
    (hrows : select D (stored D calls) from_ to_ interval = .ok rows) :
    (rows.map (·.packets)).sum = packetsOf (ranged calls from_ to_) ∧
      (rows.map (·.bytes)).sum = bytesOf (ranged calls from_ to_) := by
  have htotals := select_totals hregular hretained hfew hrows
  have hsum : ∀ f : Call → Int,
      ((group (fun e => bucket interval e.1) (seconds calls from_ to_)).entries.map
        fun g => (g.2.map fun e => (e.2.map f).sum).sum).sum =
        ((ranged calls from_ to_).map f).sum := by
    intro f
    have hbuckets := sum_selected (fun e : Int × List Call => bucket interval e.1)
      (fun _ => true) (fun e => (e.2.map f).sum) (seconds calls from_ to_)
    simp only [List.filter_true] at hbuckets
    rw [hbuckets]
    exact sum_selected (·.ts) (fun ts => from_ ≤ ts && ts < to_) f calls
  constructor
  · have hpackets := congrArg (List.map (·.packets)) htotals
    rw [tally, List.map_map, List.map_map] at hpackets
    exact (congrArg List.sum hpackets).trans (hsum _)
  · have hbytes := congrArg (List.map (·.bytes)) htotals
    rw [tally, List.map_map, List.map_map] at hbytes
    exact (congrArg List.sum hbytes).trans (hsum _)

/-- The count of a protocol in a row of the answer. -/
def rowCount (protocol : String) (r : Columns) : Int :=
  ((protocols.zip r.protocols).lookup protocol).getD 0

theorem rowCount_map {r : Columns} {f : String → Int} (h : r.protocols = protocols.map f)
    {protocol : String} (hprotocol : protocol ∈ protocols) : rowCount protocol r = f protocol := by
  rw [rowCount, h]
  simp only [protocols, List.mem_cons, List.not_mem_nil, or_false] at hprotocol
  rcases hprotocol with rfl | rfl | rfl | rfl <;> rfl

theorem superseded_nil (h : calls.Pairwise fun a b => a.ts < b.ts) : superseded calls = [] := by
  induction calls with
  | nil => rfl
  | cons c later ih =>
    rw [List.pairwise_cons] at h
    rw [superseded, if_neg, ih h.2]
    intro hany
    obtain ⟨c', hc', hts⟩ := List.any_eq_true.mp hany
    have hlt := h.1 c' hc'
    simp only [decide_eq_true_eq] at hts
    omega

/-- With one call a second the rows of a range count what its calls count. -/
theorem protocol_sum (hregular : Regular calls) (hretained : Retained calls from_)
    (hwithin : WithinRetention calls) (hcounted : Counted calls)
    (hdistinct : calls.Pairwise fun a b => a.ts < b.ts)
    (hfew : Few calls from_ to_ interval) {rows : List Columns}
    (hrows : select D (stored D calls) from_ to_ interval = .ok rows) {protocol : String}
    (hprotocol : protocol ∈ protocols) :
    (rows.map (rowCount protocol)).sum =
      ((ranged calls from_ to_).map fun c => countOf protocol c.details).sum := by
  have hcolumns := hrows
  rw [select, List.take_of_length_le (buckets_length hfew (bucket_listed (D := D) hwithin)),
    mapM_eq_ok] at hcolumns
  -- Every row has the counts of its seconds.
  have hrow : rows.map (rowCount protocol) =
      (buckets (stored D calls) from_ to_ interval).map fun g =>
        ((secondsIn calls from_ to_ interval g.1).map fun e =>
          (countOf protocol (latest e.2) : Int)).sum := by
    refine map_eq_of_forall₂ hcolumns fun g hg r hr => ?_
    have hkept := protocols_kept hwithin hcounted hg hr
    rw [rowCount_map hkept hprotocol, (columns_fields hr).1, kept, cast_sum]
  have hgroups : ((buckets (stored D calls) from_ to_ interval).map fun g =>
      ((secondsIn calls from_ to_ interval g.1).map fun e =>
        (countOf protocol (latest e.2) : Int)).sum) =
      (group (fun e => bucket interval e.1) (seconds calls from_ to_)).entries.map fun g =>
        (g.2.map fun e => (countOf protocol (latest e.2) : Int)).sum := by
    rw [buckets_stored hregular hretained, List.map_map]
    refine List.map_congr_left fun g hg => ?_
    have hmembers : g.2 = secondsIn calls from_ to_ interval g.1 := (mem_group.mp hg).1
    rw [Function.comp_apply, hmembers]
  -- A second has one call, so that its latest is all there is.
  have hsingle : ((seconds calls from_ to_).map fun e => (countOf protocol (latest e.2) : Int)) =
      (seconds calls from_ to_).map fun e =>
        (e.2.map fun c => (countOf protocol c.details : Int)).sum := by
    refine List.map_congr_left fun e he => ?_
    have hmembers : e.2 = members (·.ts) calls e.1 := (mem_group.mp (List.mem_filter.mp he).1).1
    have hlast : e.2.dropLast = [] := by
      rw [hmembers, ← members_superseded, superseded_nil hdistinct]
      rfl
    have hcount := counts_latest protocol e.2
    rw [hlast, List.map_nil, List.sum_nil, Nat.add_zero] at hcount
    rw [← hcount, cast_sum]
  have hbuckets := sum_selected (fun e : Int × List Call => bucket interval e.1) (fun _ => true)
    (fun e => (countOf protocol (latest e.2) : Int)) (seconds calls from_ to_)
  have hseconds := sum_selected (·.ts) (fun ts => from_ ≤ ts && ts < to_)
    (fun c : Call => (countOf protocol c.details : Int)) calls
  simp only [List.filter_true] at hbuckets
  rw [hrow, hgroups, hbuckets, hsingle, cast_sum]
  exact hseconds

end Query

/-! ## The whole way -/

theorem accepted_range {from_ to_ : Int64} {interval : Int}
    (h : checkHistory from_ to_ interval = .ok ()) : to_.toInt - from_.toInt ≤ 604800 := by
  rcases HistoryRange.checkHistory_cases from_ to_ interval with ⟨-, hcheck⟩ | ⟨haccepted, -⟩ |
    ⟨-, hcheck⟩
  · rw [hcheck] at h
    cases h
  · exact haccepted.2.2
  · rw [hcheck] at h
    cases h

section Whole
variable {clock : List Int} {from_ to_ : Int64} {interval : Int}

theorem handed_regular (h : Sound r) (hquiet : Quiet r) (hmoderate : Moderate r)
    (hcovered : Covered r clock from_.toInt to_.toInt) : Regular (handed r clock) := by
  refine ⟨fun c hc => hcovered.nonneg _ (mem_handed hc).1, ?_, ?_, ?_⟩
  · have hordered := hcovered.ordered
    rw [← handed_times hcovered.length, List.pairwise_map] at hordered
    exact hordered
  · rw [handed_packets h hquiet hmoderate hcovered.length]
    exact_mod_cast hmoderate.packets
  · rw [handed_bytes h hquiet hmoderate hcovered.length]
    exact_mod_cast hmoderate.bytes

theorem handed_retained (haccepted : checkHistory from_ to_ interval = .ok ())
    (hcovered : Covered r clock from_.toInt to_.toInt) :
    Retained (handed r clock) from_.toInt ∧ WithinRetention (handed r clock) := by
  have hrange := accepted_range haccepted
  have htimes : ∀ c ∈ handed r clock, from_.toInt ≤ c.ts ∧ c.ts < to_.toInt :=
    fun c hc => hcovered.within _ (mem_handed hc).1
  constructor
  · intro c hc
    have hts := htimes c hc
    unfold retention
    omega
  · refine List.pairwise_of_forall_mem_list fun a ha b hb => ?_
    have hfirst := htimes a ha
    have hsecond := htimes b hb
    unfold retention
    omega

theorem ranged_handed (hcovered : Covered r clock from_.toInt to_.toInt) :
    ranged (handed r clock) from_.toInt to_.toInt = handed r clock := by
  refine List.filter_eq_self.mpr fun c hc => ?_
  have hts := hcovered.within _ (mem_handed hc).1
  simp [hts]

/-- **History says what was captured.** Take any run of captures, switches and
removals whose sessions were all flushed, and a query that covers its samples.
It is answered, with rows that sum up to the packets and bytes that the sources
delivered; with one sample a second they also sum up, for each protocol, to the
packets of it that no queue dropped. -/
theorem history_of_run (D : Doubles ρ) (events : List Source.Sampling.Event)
    (hquiet : Quiet (run Runtime.step idle events))
    (hmoderate : Moderate (run Runtime.step idle events))
    (hcovered : Covered (run Runtime.step idle events) clock from_.toInt to_.toInt)
    (haccepted : checkHistory from_ to_ interval = .ok ())
    (hfew : Few (handed (run Runtime.step idle events) clock) from_.toInt to_.toInt interval) :
    ∃ rows : List Columns,
      history D (stored D (handed (run Runtime.step idle events) clock)) from_ to_ interval =
        .ok (.array (rows.map rowJson)) ∧
      (∀ r ∈ rows, Shows r (rowJson r)) ∧
      (rows.map (·.packets)).sum = delivered (run Runtime.step idle events) ∧
      (rows.map (·.bytes)).sum = deliveredBytes (run Runtime.step idle events) ∧
      (clock.Pairwise (· < ·) → ∀ protocol ∈ protocols,
        (rows.map (rowCount protocol)).sum = keptOf protocol (run Runtime.step idle events)) := by
  have hsound := sound_run events
  generalize run Runtime.step idle events = r at *
  have hregular := handed_regular hsound hquiet hmoderate hcovered
  obtain ⟨hretained, hwithin⟩ := handed_retained haccepted hcovered
  have hcounted : Counted (handed r clock) := handed_counted hsound hquiet hmoderate
  have hprotocols := handed_protocol hsound hquiet hmoderate hcovered.length
  have hsmall : ∀ protocol ∈ protocols,
      ((handed r clock).map fun c => countOf protocol c.details).sum < 9223372036854775808 := by
    intro protocol _
    rw [hprotocols]
    refine Nat.lt_of_le_of_lt (List.sum_le_sum fun s _ => ?_) hmoderate.packets
    have hkept := s.observed.ledger.length_arrivals
    have hfiltered := List.length_filter_le
      (fun p => decide (protocolName p.protocol = protocol)) s.observed.ledger.kept
    unfold ofProtocol
    omega
  obtain ⟨answer, hanswer⟩ :=
    counted_answered (D := D) hregular haccepted hretained hwithin hfew hcounted hsmall
  obtain ⟨rows, hrows, rfl⟩ := (history_ok haccepted).mp hanswer
  obtain ⟨hpackets, hbytes⟩ := rows_sum hregular hretained hfew hrows
  rw [ranged_handed hcovered] at hpackets hbytes
  refine ⟨rows, hanswer, fun r _ => shows_rowJson r, ?_, ?_,
    fun hdistinct protocol hprotocol => ?_⟩
  · rw [hpackets, handed_packets hsound hquiet hmoderate hcovered.length]
  · rw [hbytes, handed_bytes hsound hquiet hmoderate hcovered.length]
  · rw [← handed_times hcovered.length, List.pairwise_map] at hdistinct
    rw [protocol_sum hregular hretained hwithin hcounted hdistinct hfew hrows hprotocol,
      ranged_handed hcovered, hprotocols]

end Whole

/-- A session with one packet. -/
def onePacket : List Source.Sampling.Event :=
  [.put "eth0" true, .conclude true true 0, .capture .check,
    .capture (.next (.packet { timestamp := 0, wireBytes := 60, protocol := .udp })),
    .capture (.iterate none), .delete, .capture .check, .capture .finish, .joined, .flush,
    .finish 2000000000 120, .conclude true true 2000000000]

theorem history_of_run_onePacket :
    ∃ rows : List Columns,
      history .exact (stored .exact (handed (run Runtime.step idle onePacket) [120])) 60 3660 60 =
        .ok (.array (rows.map rowJson)) ∧
      (∀ r ∈ rows, Shows r (rowJson r)) ∧
      (rows.map (·.packets)).sum = 1 ∧ (rows.map (rowCount "udp")).sum = 1 := by
  have hquiet : Quiet (run Runtime.step idle onePacket) :=
    .inl (Option.isNone_iff_eq_none.mp (by decide +kernel))
  have hmoderate : Moderate (run Runtime.step idle onePacket) := by
    constructor <;> decide +kernel
  have hcovered : Covered (run Runtime.step idle onePacket) [120] (60 : Int64).toInt
      (3660 : Int64).toInt := by
    constructor <;> decide +kernel
  obtain ⟨rows, hrows, hshows, hpackets, -, hprotocols⟩ := history_of_run .exact onePacket hquiet hmoderate
    hcovered (by decide +kernel : checkHistory 60 3660 60 = .ok ()) (by decide +kernel)
  have hudp := hprotocols (by decide) "udp" (by decide)
  refine ⟨rows, hrows, hshows, hpackets.trans ?_, hudp.trans ?_⟩
  · decide +kernel
  · decide +kernel

end Magicbox.Guarantees.RunHistory
