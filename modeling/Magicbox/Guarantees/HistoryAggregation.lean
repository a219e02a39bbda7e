import Magicbox.Guarantees.HistoryTotals

/-!
# History aggregates what was sampled

The rows of an accepted query against the calls that the samples came from, for
every sequence of calls and every range that retention has not reached. A query
with a coarser interval groups the rows of the finer one.
-/

set_option autoImplicit false

namespace Magicbox.Guarantees.HistoryAggregation
open Library Library.Grouping Library.Results Library.Sqlite Source.Json Source.Store HistoryTotals

variable {ρ : Type} {D : Doubles ρ} {calls : List Call}

/-- The buckets of a range in which there are calls number at most a thousand. -/
def Few (calls : List Call) (from_ to_ interval : Int) : Prop :=
  ((ranged calls from_ to_).map fun c => bucket interval c.ts).toFinset.card ≤ 1000

instance (calls : List Call) (from_ to_ interval : Int) :
    Decidable (Few calls from_ to_ interval) :=
  inferInstanceAs (Decidable (_ ≤ 1000))

/-- The rows of the buckets with calls, with the totals of these calls. -/
structure Aggregates (calls : List Call) (from_ to_ interval : Int) (rows : List Columns) :
    Prop where
  ordered : rows.Pairwise fun a b => a.timestamp < b.timestamp
  buckets : ∀ b, (∃ r ∈ rows, r.timestamp = b) ↔
    ∃ c ∈ calls, from_ ≤ c.ts ∧ c.ts < to_ ∧ bucket interval c.ts = b
  packets : ∀ r ∈ rows, r.packets = packetsOf (inBucket calls from_ to_ interval r.timestamp)
  bytes : ∀ r ∈ rows, r.bytes = bytesOf (inBucket calls from_ to_ interval r.timestamp)
  samples : ∀ r ∈ rows,
    r.count = ((inBucket calls from_ to_ interval r.timestamp).map (·.ts)).toFinset.card

/-- The members of a row of the answer: the two sums as texts, and one count for each protocol. -/
structure Shows (r : Columns) (row : Value) : Prop where
  timestamp : row.get "timestamp" = .int r.timestamp
  packets : row.get "packets" = .string (toString r.packets)
  wireBytes : row.get "wire_bytes" = .string (toString r.bytes)
  samples : row.get "samples" = .int r.count
  protocols : ∀ entry ∈ protocols.zip r.protocols,
    (row.get "protocols").get entry.1 = .string (toString entry.2)

/-- The rows of a finer query, put together. -/
def regroup (interval : Int) (rows : List Totals) : List Totals :=
  (group (fun r => bucket interval r.timestamp) rows).entries.map fun g =>
    ⟨g.1, (g.2.map (·.packets)).sum, (g.2.map (·.bytes)).sum, (g.2.map (·.samples)).sum⟩

/-- No sum over a protocol's column overflows. -/
def ProtocolsAdd (D : Doubles ρ) (g : Int × List (Int × Sample ρ)) : Prop :=
  ∀ protocol ∈ protocols,
    (Cell.sum D (g.2.map fun row => protocolCell D protocol row.2.details)).isSome = true

/-! ## Rows and totals -/

/-- Counts that are set one behind the other do not get in each other's way. -/
theorem counts_get (names : List String) (counts : List Int) (v : Value)
    (hdistinct : names.Nodup) :
    (∀ entry ∈ names.zip counts, ((names.zip counts).foldl
      (fun v entry => v.set entry.1 (.string (toString entry.2))) v).get entry.1 =
        .string (toString entry.2)) ∧
    ∀ name, name ∉ names → ((names.zip counts).foldl
      (fun v entry => v.set entry.1 (.string (toString entry.2))) v).get name = v.get name := by
  induction names generalizing counts v with
  | nil => simp
  | cons first rest ih =>
    obtain ⟨hfirst, hrest⟩ := List.nodup_cons.mp hdistinct
    cases counts with
    | nil => simp
    | cons n counts =>
      obtain ⟨hmembers, hothers⟩ := ih counts (v.set first (.string (toString n))) hrest
      refine ⟨fun entry hentry => ?_, fun name hname => ?_⟩
      · rcases List.mem_cons.mp hentry with rfl | hlater
        · exact (hothers first hfirst).trans (Value.get_set_self _ _ _)
        · exact hmembers entry hlater
      · have hne : name ≠ first := fun heq => hname (heq ▸ List.mem_cons_self)
        have hlater : name ∉ rest := fun hmem => hname (List.mem_cons_of_mem _ hmem)
        exact (hothers name hlater).trans (Value.get_set_of_ne _ (Ne.symm hne) _)

/-- A row of the answer shows the columns of the query. -/
theorem shows_rowJson (r : Columns) : Shows r (rowJson r) := by
  have hprotocols : (rowJson r).get "protocols" = (protocols.zip r.protocols).foldl
      (fun v entry => v.set entry.1 (.string (toString entry.2))) .null :=
    Value.get_set_self _ _ _
  refine ⟨?_, ?_, ?_, ?_, fun entry hentry => ?_⟩
  · unfold rowJson
    rw [Value.get_set_of_ne _ (by decide), Value.get_set_of_ne _ (by decide),
      Value.get_set_of_ne _ (by decide), Value.get_set_of_ne _ (by decide), Value.get_set_self]
  · unfold rowJson
    rw [Value.get_set_of_ne _ (by decide), Value.get_set_of_ne _ (by decide),
      Value.get_set_of_ne _ (by decide), Value.get_set_self]
  · unfold rowJson
    rw [Value.get_set_of_ne _ (by decide), Value.get_set_of_ne _ (by decide), Value.get_set_self]
  · unfold rowJson
    rw [Value.get_set_of_ne _ (by decide), Value.get_set_self]
  · rw [hprotocols]
    exact (counts_get protocols r.protocols .null (by decide)).1 entry hentry

section Rows
variable {from_ to_ interval : Int}

/-- What a query finds in a bucket. -/
def found (ρ : Type) (calls : List Call) (from_ to_ interval b : Int) :
    Int × List (Int × Sample ρ) :=
  (b, (secondsIn calls from_ to_ interval b).map fun e => (e.1, aggregate e.2))

theorem found_of_mem {g : Int × List (Int × Sample ρ)} (h : Regular calls)
    (hretained : Retained calls from_) (hg : g ∈ buckets (stored D calls) from_ to_ interval) :
    g = found ρ calls from_ to_ interval g.1 := by
  rw [buckets_stored h hretained] at hg
  obtain ⟨e, he, rfl⟩ := List.mem_map.mp hg
  obtain ⟨b, l⟩ := e
  rw [(mem_group.mp he).1]
  rfl

theorem packets_found (h : Regular calls) (b : Int) :
    columnSum D ((found ρ calls from_ to_ interval b).2.map (·.2.packets)) =
      .ok (packetsOf (inBucket calls from_ to_ interval b)) := by
  have hsum := counts_bucket (fun c => c.packets.toNat) calls from_ to_ interval b
  have hle := counts_bucket_le (fun c => c.packets.toNat) calls from_ to_ interval b
  have hp := h.packets
  rw [found, List.map_map, packetsOf, ← hsum]
  refine columnSum_integers (fun _ _ => rfl) (fun e _ => counts_nonneg _ e.2) ?_
  unfold packetsOf at hp
  omega

theorem bytes_found (h : Regular calls) (b : Int) :
    columnSum D ((found ρ calls from_ to_ interval b).2.map (·.2.bytes)) =
      .ok (bytesOf (inBucket calls from_ to_ interval b)) := by
  have hsum := counts_bucket (fun c => c.bytes.toNat) calls from_ to_ interval b
  have hle := counts_bucket_le (fun c => c.bytes.toNat) calls from_ to_ interval b
  have hb := h.bytes
  rw [found, List.map_map, bytesOf, ← hsum]
  refine columnSum_integers (fun _ _ => rfl) (fun e _ => counts_nonneg _ e.2) ?_
  unfold bytesOf at hb
  omega

/-- The sums over the protocols of a bucket. -/
def protocolSums (D : Doubles ρ) (g : Int × List (Int × Sample ρ)) : Except Failure (List Int) :=
  protocols.mapM fun protocol =>
    columnSum D (g.2.map fun row => protocolCell D protocol row.2.details)

/-- A row of a bucket has its totals, if the sums over its protocols do not overflow. -/
theorem columns_found (h : Regular calls) (b : Int) :
    columns D (found ρ calls from_ to_ interval b) =
      (protocolSums D (found ρ calls from_ to_ interval b)).map fun counts =>
        ⟨b, packetsOf (inBucket calls from_ to_ interval b),
          bytesOf (inBucket calls from_ to_ interval b),
          (secondsIn calls from_ to_ interval b).length, counts⟩ := by
  have hlength : ((found ρ calls from_ to_ interval b).2.length : Int) =
      (secondsIn calls from_ to_ interval b).length := by
    rw [found, List.length_map]
  unfold columns
  rw [packets_found h, bytes_found h, hlength]
  change (protocolSums D (found ρ calls from_ to_ interval b) >>= _) = _
  cases protocolSums D (found ρ calls from_ to_ interval b) <;> rfl

theorem protocolSums_returns (g : Int × List (Int × Sample ρ)) :
    (∃ counts, protocolSums D g = .ok counts) ↔ ProtocolsAdd D g := by
  have hsum : ∀ column : List (Cell ρ),
      (∃ n, columnSum D column = .ok n) ↔ (Cell.sum D column).isSome = true := by
    intro column
    unfold columnSum
    cases Cell.sum D column <;> simp
  simp only [protocolSums, ProtocolsAdd, mapM_returns, hsum]

/-- The buckets of a range with calls are those with seconds. -/
theorem bucket_exists (b : Int) :
    (∃ e ∈ seconds calls from_ to_, bucket interval e.1 = b) ↔
      ∃ c ∈ ranged calls from_ to_, bucket interval c.ts = b := by
  simp only [seconds, ranged, List.mem_filter]
  constructor
  · rintro ⟨⟨ts, g⟩, ⟨hgroup, hrange⟩, hb⟩
    obtain ⟨c, hc, rfl⟩ := group_exists.mp ⟨g, hgroup⟩
    exact ⟨c, ⟨hc, hrange⟩, hb⟩
  · rintro ⟨c, ⟨hc, hrange⟩, hb⟩
    have hsecond : ∃ g, (c.ts, g) ∈ (group (·.ts) calls).entries :=
      group_exists.mpr ⟨c, hc, rfl⟩
    obtain ⟨g, hgroup⟩ := hsecond
    exact ⟨(c.ts, g), ⟨hgroup, hrange⟩, hb⟩

/-- A query that finds the buckets with calls finds no more than a thousand. -/
theorem buckets_length {t : Samples ρ} (hfew : Few calls from_ to_ interval)
    (hkeys : ∀ b, (∃ l, (b, l) ∈ buckets t from_ to_ interval) ↔
      ∃ c ∈ ranged calls from_ to_, bucket interval c.ts = b) :
    (buckets t from_ to_ interval).length ≤ 1000 := by
  have hnodup : ((buckets t from_ to_ interval).map (·.1)).Nodup :=
    (group (fun row : Int × Sample ρ => bucket interval row.1) (rowsBetween t from_ to_)).keys_nodup
  have hset : ((buckets t from_ to_ interval).map (·.1)).toFinset =
      ((ranged calls from_ to_).map fun c => bucket interval c.ts).toFinset := by
    ext b
    simp only [List.mem_toFinset, List.mem_map, Prod.exists, exists_and_right, exists_eq_right]
    exact hkeys b
  have hcard := List.toFinset_card_of_nodup hnodup
  rw [hset, List.length_map] at hcard
  rw [← hcard]
  exact hfew

theorem buckets_listed (h : Regular calls) (hretained : Retained calls from_) (b : Int) :
    (∃ l, (b, l) ∈ buckets (stored D calls) from_ to_ interval) ↔
      ∃ c ∈ ranged calls from_ to_, bucket interval c.ts = b := by
  rw [buckets, group_exists, rowsBetween_stored h hretained, ← bucket_exists]
  simp

/-- What a query selects, row by row. -/
theorem select_found (h : Regular calls) (hretained : Retained calls from_)
    (hfew : Few calls from_ to_ interval) {rows : List Columns} :
    select D (stored D calls) from_ to_ interval = .ok rows ↔
      List.Forall₂ (fun g r => columns D g = .ok r)
        (buckets (stored D calls) from_ to_ interval) rows := by
  rw [select, List.take_of_length_le (buckets_length hfew (buckets_listed h hretained)), mapM_eq_ok]

/-- The rows have the totals of their seconds. -/
theorem select_totals (h : Regular calls) (hretained : Retained calls from_)
    (hfew : Few calls from_ to_ interval) {rows : List Columns}
    (hrows : select D (stored D calls) from_ to_ interval = .ok rows) :
    rows.map totals = tally interval (seconds calls from_ to_) := by
  have hcolumns := (select_found h hretained hfew).mp hrows
  rw [buckets_stored h hretained, List.forall₂_map_left_iff] at hcolumns
  refine map_eq_of_forall₂ hcolumns fun g hg r hr => ?_
  obtain ⟨b, l⟩ := g
  obtain ⟨hl, -⟩ := mem_group.mp hg
  have hl' : l = secondsIn calls from_ to_ interval b := hl
  have hpackets := counts_bucket (fun c => c.packets.toNat) calls from_ to_ interval b
  have hbytes := counts_bucket (fun c => c.bytes.toNat) calls from_ to_ interval b
  subst hl'
  change columns D (found ρ calls from_ to_ interval b) = .ok r at hr
  rw [columns_found h] at hr
  cases hcounts : protocolSums D (found ρ calls from_ to_ interval b) with
  | error e =>
    rw [hcounts] at hr
    cases hr
  | ok counts =>
    rw [hcounts] at hr
    cases hr
    simp only [totals, packetsOf, bytesOf, Totals.mk.injEq, true_and, and_true]
    exact ⟨hpackets.symm, hbytes.symm⟩

theorem tally_ordered (interval : Int) (l : List (Int × List Call)) :
    (tally interval l).Pairwise fun a b => a.timestamp < b.timestamp := by
  rw [tally, List.pairwise_map]
  exact (group (fun e => bucket interval e.1) l).ordered

/-- The totals of the calls of a bucket. -/
def totalsOf (calls : List Call) (from_ to_ interval b : Int) : Totals :=
  ⟨b, packetsOf (inBucket calls from_ to_ interval b), bytesOf (inBucket calls from_ to_ interval b),
    ((inBucket calls from_ to_ interval b).map (·.ts)).toFinset.card⟩

theorem tally_seconds {t : Totals} :
    t ∈ tally interval (seconds calls from_ to_) ↔
      (∃ c ∈ ranged calls from_ to_, bucket interval c.ts = t.timestamp) ∧
        t = totalsOf calls from_ to_ interval t.timestamp := by
  have hpackets := counts_bucket (fun c => c.packets.toNat) calls from_ to_ interval
  have hbytes := counts_bucket (fun c => c.bytes.toNat) calls from_ to_ interval
  rw [← bucket_exists, tally, List.mem_map]
  constructor
  · rintro ⟨⟨b, l⟩, hg, rfl⟩
    obtain ⟨hl, -⟩ := mem_group.mp hg
    have hl' : l = secondsIn calls from_ to_ interval b := hl
    subst hl'
    refine ⟨group_exists.mp ⟨_, hg⟩, ?_⟩
    simp only [totalsOf, Totals.mk.injEq, true_and]
    exact ⟨hpackets b, hbytes b, congrArg _ (length_bucket calls from_ to_ interval b)⟩
  · rintro ⟨hexists, ht⟩
    obtain ⟨l, hg⟩ := group_exists.mpr hexists
    refine ⟨(t.timestamp, l), hg, ?_⟩
    obtain ⟨hl, -⟩ := mem_group.mp hg
    have hl' : l = secondsIn calls from_ to_ interval t.timestamp := hl
    subst hl'
    rw [ht]
    simp only [totalsOf, Totals.mk.injEq, true_and]
    exact ⟨hpackets _, hbytes _, congrArg _ (length_bucket calls from_ to_ interval _)⟩

theorem aggregates_of_totals {rows : List Columns}
    (h : rows.map totals = tally interval (seconds calls from_ to_)) :
    Aggregates calls from_ to_ interval rows := by
  have hrow : ∀ r ∈ rows, totals r ∈ tally interval (seconds calls from_ to_) := fun r hr =>
    h ▸ List.mem_map_of_mem hr
  have hranged : ∀ b, (∃ c ∈ ranged calls from_ to_, bucket interval c.ts = b) ↔
      ∃ c ∈ calls, from_ ≤ c.ts ∧ c.ts < to_ ∧ bucket interval c.ts = b := by
    intro b
    simp [ranged, and_assoc]
  have hfields := fun r (hr : r ∈ rows) => (tally_seconds.mp (hrow r hr)).2
  constructor
  · have hordered := tally_ordered interval (seconds calls from_ to_)
    rw [← h, List.pairwise_map] at hordered
    exact hordered
  · intro b
    rw [← hranged]
    constructor
    · rintro ⟨r, hr, rfl⟩
      exact (tally_seconds.mp (hrow r hr)).1
    · intro hexists
      have hmem := (tally_seconds (t := totalsOf calls from_ to_ interval b)).mpr ⟨hexists, rfl⟩
      rw [← h] at hmem
      obtain ⟨r, hr, heq⟩ := List.mem_map.mp hmem
      exact ⟨r, hr, congrArg Totals.timestamp heq⟩
  · exact fun r hr => congrArg Totals.packets (hfields r hr)
  · exact fun r hr => congrArg Totals.bytes (hfields r hr)
  · exact fun r hr => congrArg Totals.samples (hfields r hr)

end Rows

/-! ## Regrouping -/

theorem bucket_minute {interval ts : Int} (hpos : 0 ≤ ts)
    (h : interval = 60 ∨ interval = 300 ∨ interval = 3600) :
    bucket interval (bucket 60 ts) = bucket interval ts := by
  have hminute : (0 : Int) ≤ ts / 60 * 60 := by omega
  rcases h with rfl | rfl | rfl <;>
    simp only [bucket, Int.tdiv_eq_ediv_of_nonneg hpos, Int.tdiv_eq_ediv_of_nonneg hminute] <;>
    omega

/-- The seconds of a bucket are those of its minutes. -/
theorem members_minutes {interval : Int}
    (hinterval : interval = 60 ∨ interval = 300 ∨ interval = 3600) {l : List (Int × List Call)}
    (hpos : ∀ e ∈ l, 0 ≤ e.1) (b : Int) :
    members (fun e => bucket interval (bucket 60 e.1)) l b =
      members (fun e => bucket interval e.1) l b :=
  List.filter_congr fun e he => by simp only [bucket_minute (hpos e he) hinterval]

theorem sum_ones {α : Type} (l : List α) : (l.map fun _ => (1 : Int)).sum = l.length := by
  simp [List.map_const', List.sum_replicate]

/-- The rows of a coarser interval are those of the minutes, put together. -/
theorem regroup_tally {interval : Int}
    (hinterval : interval = 60 ∨ interval = 300 ∨ interval = 3600) {l : List (Int × List Call)}
    (hpos : ∀ e ∈ l, 0 ≤ e.1) : regroup interval (tally 60 l) = tally interval l := by
  have hgroups : (group (fun r => bucket interval r.timestamp) (tally 60 l)).mapValues
        (fun _ rs => ((rs.map (·.packets)).sum, (rs.map (·.bytes)).sum, (rs.map (·.samples)).sum)) =
      (group (fun e => bucket interval e.1) l).mapValues fun _ g =>
        ((g.map fun e => packetsOf e.2).sum, (g.map fun e => bytesOf e.2).sum, (g.length : Int)) := by
    refine OrderedMap.ext_find fun b => ?_
    have hminutes := members_minutes hinterval hpos b
    have hsums (f : Int × List Call → Int) :=
      sum_coarser (fun e => bucket 60 e.1) (bucket interval) f l b
    have hsamples := hsums fun _ => 1
    have hnone := members_group (fun e : Int × List Call => bucket 60 e.1) (bucket interval) l b
    simp only [hminutes, sum_ones] at hsums hsamples hnone
    rw [OrderedMap.find_mapValues, OrderedMap.find_mapValues, tally, find_group, find_group,
      members_map]
    by_cases hempty : members (fun e : Int × List Call => bucket interval e.1) l b = []
    · rw [if_pos hempty, if_pos (by rw [hnone.mpr hempty, List.map_nil])]
      rfl
    · rw [if_neg hempty, if_neg fun hmap => hempty (hnone.mp (List.map_eq_nil_iff.mp hmap))]
      simp only [Option.map_some, List.map_map, Function.comp_def, hsums, hsamples]
  have hentries := congrArg (fun m => m.entries.map fun e => Totals.mk e.1 e.2.1 e.2.2.1 e.2.2.2)
    hgroups
  simp only [OrderedMap.mapValues, List.map_map] at hentries
  exact hentries

/-! ## Queries -/

theorem accepted_interval {from_ to_ : Int64} {interval : Int}
    (h : checkHistory from_ to_ interval = .ok ()) :
    interval = 60 ∨ interval = 300 ∨ interval = 3600 := by
  refine interval_accepted.mp fun hrejected => ?_
  rw [checkHistory, if_pos hrejected] at h
  cases h

/-- The check does not depend on the interval, if this is one of the three. -/
theorem accepted_minute {from_ to_ : Int64} {interval : Int}
    (h : checkHistory from_ to_ interval = .ok ()) : checkHistory from_ to_ 60 = .ok () := by
  rw [checkHistory, if_neg (interval_accepted.mpr (accepted_interval h))] at h
  rw [checkHistory, if_neg (by omega)]
  exact h

theorem history_ok {from_ to_ : Int64} {interval : Int} {t : Samples ρ} {answer : Value}
    (h : checkHistory from_ to_ interval = .ok ()) :
    history D t from_ to_ interval = .ok answer ↔
      ∃ rows, select D t from_.toInt to_.toInt interval = .ok rows ∧
        answer = .array (rows.map rowJson) := by
  unfold history
  rw [h]
  change (select D t from_.toInt to_.toInt interval >>= _) = _ ↔ _
  cases hselect : select D t from_.toInt to_.toInt interval with
  | error e =>
    constructor
    · intro h
      cases h
    · rintro ⟨rows, hrows, -⟩
      cases hrows
  | ok rows =>
    constructor
    · intro h
      cases h
      exact ⟨rows, rfl, rfl⟩
    · rintro ⟨rows', hrows, rfl⟩
      cases hrows
      rfl

/-- A query returns if no sum over a protocol overflows. -/
theorem history_returns {from_ to_ : Int64} {interval : Int} (hregular : Regular calls)
    (haccepted : checkHistory from_ to_ interval = .ok ())
    (hretained : Retained calls from_.toInt)
    (hfew : Few calls from_.toInt to_.toInt interval) :
    (∃ answer, history D (stored D calls) from_ to_ interval = .ok answer) ↔
      ∀ g ∈ buckets (stored D calls) from_.toInt to_.toInt interval, ProtocolsAdd D g := by
  have hcolumns : ∀ g ∈ buckets (stored D calls) from_.toInt to_.toInt interval,
      (∃ r, columns D g = .ok r) ↔ ProtocolsAdd D g := by
    intro g hg
    rw [← protocolSums_returns, found_of_mem hregular hretained hg, columns_found hregular]
    cases protocolSums D (found ρ calls from_.toInt to_.toInt interval g.1) <;>
      simp [Except.map]
  have hlength := buckets_length hfew (buckets_listed (D := D) hregular hretained)
  simp only [history_ok haccepted, select, List.take_of_length_le hlength]
  rw [exists_comm]
  simp only [exists_and_left, exists_eq, and_true, mapM_returns]
  exact forall₂_congr hcolumns

/-- Retention deletes nothing of what lies in the range. -/
theorem stored_unpruned (hregular : Regular calls) {time ts : Int} (hretained : Retained calls time)
    (hts : time ≤ ts) : (stored D calls).find ts = (unpruned D calls).find ts := by
  have hkept : Retained calls ts := fun c hc => Int.le_trans (hretained c hc) hts
  rw [stored_find hregular, unpruned_find hregular]
  by_cases hnone : members (·.ts) calls ts = [] <;> simp [hkept, hnone]

/-- **History aggregates what was sampled.** The rows of an accepted query are the buckets with
calls, with the sums of all calls of the bucket and the range; those of a coarser interval are the
minutes, put together. Retention deletes nothing that the query could see, and only the protocols
can make it fail. -/
theorem history_aggregates (D : Doubles ρ) (calls : List Call) (from_ to_ : Int64) (interval : Int)
    (hregular : Regular calls) (haccepted : checkHistory from_ to_ interval = .ok ())
    (hretained : Retained calls from_.toInt)
    (hfew : Few calls from_.toInt to_.toInt interval) :
    ((∃ answer, history D (stored D calls) from_ to_ interval = .ok answer) ↔
        ∀ g ∈ buckets (stored D calls) from_.toInt to_.toInt interval, ProtocolsAdd D g) ∧
      (∀ answer, history D (stored D calls) from_ to_ interval = .ok answer →
        ∃ rows, answer = .array (rows.map rowJson) ∧ (∀ r ∈ rows, Shows r (rowJson r)) ∧
          Aggregates calls from_.toInt to_.toInt interval rows ∧
          (Few calls from_.toInt to_.toInt 60 →
            ∀ minuteAnswer, history D (stored D calls) from_ to_ 60 = .ok minuteAnswer →
              ∃ minutes, minuteAnswer = .array (minutes.map rowJson) ∧
                Aggregates calls from_.toInt to_.toInt 60 minutes ∧
                rows.map totals = regroup interval (minutes.map totals))) ∧
      ∀ ts, from_.toInt ≤ ts → (stored D calls).find ts = (unpruned D calls).find ts := by
  refine ⟨history_returns hregular haccepted hretained hfew, ?_,
    fun ts hts => stored_unpruned hregular hretained hts⟩
  intro answer hanswer
  obtain ⟨rows, hrows, rfl⟩ := (history_ok haccepted).mp hanswer
  have htotals := select_totals hregular hretained hfew hrows
  refine ⟨rows, rfl, fun r _ => shows_rowJson r, aggregates_of_totals htotals, ?_⟩
  intro hfewMinutes minuteAnswer hminuteAnswer
  obtain ⟨minutes, hminutes, rfl⟩ := (history_ok (accepted_minute haccepted)).mp hminuteAnswer
  have hminuteTotals := select_totals hregular hretained hfewMinutes hminutes
  refine ⟨minutes, rfl, aggregates_of_totals hminuteTotals, ?_⟩
  have hpos : ∀ e ∈ seconds calls from_.toInt to_.toInt, 0 ≤ e.1 := by
    rintro ⟨ts, g⟩ he
    obtain ⟨c, hc, hts⟩ := group_exists.mp ⟨g, (List.mem_filter.mp he).1⟩
    rw [← hts]
    exact hregular.nonneg c hc
  rw [htotals, hminuteTotals, regroup_tally (accepted_interval haccepted) hpos]

/-- Two samples of the first minute, the second in two calls, and one of the next. -/
def twoMinutes : List Call :=
  [⟨120, 2, 100, .null⟩, ⟨121, 3, 200, .null⟩, ⟨121, 1, 60, .null⟩, ⟨185, 4, 300, .null⟩]

theorem history_aggregates_twoMinutes :
    checkHistory 120 420 300 = .ok () ∧
      ∃ answer, history .exact (stored .exact twoMinutes) 120 420 300 = .ok answer ∧
        ∃ rows, answer = .array (rows.map rowJson) ∧ (∀ r ∈ rows, Shows r (rowJson r)) ∧
          Aggregates twoMinutes 120 420 300 rows := by
  have hregular : Regular twoMinutes := by
    constructor <;> decide +kernel
  obtain ⟨-, hrows, -⟩ := history_aggregates .exact twoMinutes 120 420 300 hregular
    (by decide +kernel) (by decide +kernel) (by decide +kernel)
  refine ⟨by decide +kernel, _, rfl, ?_⟩
  obtain ⟨rows, hanswer, hshows, haggregates, -⟩ := hrows _ rfl
  exact ⟨rows, hanswer, hshows, haggregates⟩

end Magicbox.Guarantees.HistoryAggregation
