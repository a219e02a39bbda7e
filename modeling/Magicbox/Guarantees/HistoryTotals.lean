import Magicbox.Library.Results
import Magicbox.Source.Store

/-!
# What history adds up

The table of samples after a sequence of calls, and the rows that a query makes
of it. A sample is a group of calls with one timestamp, and a row is a group of
such groups: both are sums, so that nothing is lost or counted twice.
-/

set_option autoImplicit false

namespace Magicbox.Guarantees.HistoryTotals
open Library Library.Grouping Library.Results Library.Sqlite Source.Json Source.Store

variable {ρ : Type} {D : Doubles ρ} {calls : List Call} {from_ to_ interval : Int}

/-- The table after a sequence of calls. -/
def stored (D : Doubles ρ) (calls : List Call) : Samples ρ := calls.foldl (sample D) .empty

/-- The table that no call had deleted anything from. -/
def unpruned (D : Doubles ρ) (calls : List Call) : Samples ρ :=
  calls.foldl (insertSample D) .empty

def packetsOf (calls : List Call) : Int := (calls.map fun c => (c.packets.toNat : Int)).sum

def bytesOf (calls : List Call) : Int := (calls.map fun c => (c.bytes.toNat : Int)).sum

/-- The row of the calls with one timestamp. -/
def aggregate (g : List Call) : Sample ρ :=
  ⟨.integer (packetsOf g), .integer (bytesOf g), (g.getLast?.map (·.details)).getD .null⟩

/-- Calls with timestamps that are not negative and do not decrease, and totals of 63 bits. -/
structure Regular (calls : List Call) : Prop where
  nonneg : ∀ c ∈ calls, 0 ≤ c.ts
  ordered : calls.Pairwise fun a b => a.ts ≤ b.ts
  packets : packetsOf calls < 9223372036854775808
  bytes : bytesOf calls < 9223372036854775808

/-- No call has deleted what lies behind a time. -/
def Retained (calls : List Call) (time : Int) : Prop := ∀ c ∈ calls, c.ts - retention ≤ time

instance (calls : List Call) (time : Int) : Decidable (Retained calls time) :=
  inferInstanceAs (Decidable (∀ c ∈ calls, _))

/-! ## Sums -/

theorem counts_nonneg (f : Call → Nat) (calls : List Call) :
    0 ≤ (calls.map fun c => (f c : Int)).sum :=
  List.sum_nonneg fun n hn => by
    obtain ⟨c, -, rfl⟩ := List.mem_map.mp hn
    exact Int.natCast_nonneg _

theorem counts_filter_le (f : Call → Nat) (p : Call → Bool) (calls : List Call) :
    ((calls.filter p).map fun c => (f c : Int)).sum ≤ (calls.map fun c => (f c : Int)).sum := by
  induction calls with
  | nil => simp
  | cons c rest ih =>
    rw [List.filter_cons]
    split <;> simp only [List.map_cons, List.sum_cons] <;> omega

/-- The calls of one second do not add up to more than all calls. -/
theorem counts_second_le (f : Call → Nat) (past : List Call) (c : Call) :
    ((members (·.ts) past c.ts).map fun c => (f c : Int)).sum + f c ≤
      ((past ++ [c]).map fun c => (f c : Int)).sum := by
  have hle : ((members (·.ts) past c.ts).map fun c => (f c : Int)).sum ≤
      (past.map fun c => (f c : Int)).sum := counts_filter_le f _ past
  simp only [List.map_append, List.sum_append, List.map_cons, List.map_nil, List.sum_cons,
    List.sum_nil]
  omega

theorem bound_eq {n : UInt64} (h : (n.toNat : Int) < 9223372036854775808) :
    (bound n : Cell ρ) = .integer n.toNat := by
  have hcast : n.toInt64.toInt = n.toNat := by
    have hlt : 2 * n.toNat < 2 ^ 64 := by omega
    exact BitVec.toInt_eq_toNat_of_lt hlt
  rw [bound, hcast]

theorem Regular.past {past : List Call} {c : Call} (h : Regular (past ++ [c])) : Regular past := by
  have hp := h.packets
  have hb := h.bytes
  simp only [packetsOf, bytesOf, List.map_append, List.sum_append, List.map_cons, List.map_nil,
    List.sum_cons, List.sum_nil] at hp hb
  exact ⟨fun b hb => h.nonneg b (List.mem_append_left _ hb), (List.pairwise_append.mp h.ordered).1,
    by unfold packetsOf; omega, by unfold bytesOf; omega⟩

/-! ## The table -/

/-- A call adds itself to the calls of its second. -/
theorem insertSample_find {past : List Call} {c : Call} {t : Samples ρ}
    (h : Regular (past ++ [c])) (ht : t.find c.ts =
      if members (·.ts) past c.ts = [] then none else some (aggregate (members (·.ts) past c.ts))) :
    (insertSample D t c).find c.ts = some (aggregate (members (·.ts) past c.ts ++ [c])) := by
  have hpackets := counts_second_le (fun c => c.packets.toNat) past c
  have hbytes := counts_second_le (fun c => c.bytes.toNat) past c
  have hpackets0 := counts_nonneg (fun c => c.packets.toNat) (members (·.ts) past c.ts)
  have hbytes0 := counts_nonneg (fun c => c.bytes.toNat) (members (·.ts) past c.ts)
  have hp := h.packets
  have hb := h.bytes
  unfold packetsOf at hp
  unfold bytesOf at hb
  rw [insertSample, OrderedMap.find_alter_self, ht, bound_eq (by omega), bound_eq (by omega)]
  by_cases hnone : members (·.ts) past c.ts = []
  · simp [hnone, aggregate, packetsOf, bytesOf]
  · have hfit : fits (packetsOf (members (·.ts) past c.ts) + c.packets.toNat) = true := by
      unfold packetsOf
      exact fits_iff.mpr ⟨by omega, by omega⟩
    have hfit' : fits (bytesOf (members (·.ts) past c.ts) + c.bytes.toNat) = true := by
      unfold bytesOf
      exact fits_iff.mpr ⟨by omega, by omega⟩
    simp only [if_neg hnone, aggregate, Cell.plus_integer D hfit, Cell.plus_integer D hfit']
    simp [packetsOf, bytesOf]

theorem insertSample_other {t : Samples ρ} {c : Call} {ts : Int} (h : ts ≠ c.ts) :
    (insertSample D t c).find ts = t.find ts :=
  OrderedMap.find_alter_of_ne t h _

/-- Every second has the sums of its calls, unless a later call has deleted it. -/
theorem stored_find (h : Regular calls) (ts : Int) :
    (stored D calls).find ts =
      if Retained calls ts ∧ members (·.ts) calls ts ≠ [] then
        some (aggregate (members (·.ts) calls ts))
      else none := by
  induction calls using List.reverseRecOn generalizing ts with
  | nil => simp [stored, members]
  | append_singleton past c ih =>
    have hlast : ∀ b ∈ past, b.ts ≤ c.ts := fun b hb =>
      (List.pairwise_append.mp h.ordered).2.2 b hb c (List.mem_singleton_self c)
    have hstep : stored D (past ++ [c]) = sample D (stored D past) c := by
      simp [stored, List.foldl_append]
    have hretained : Retained (past ++ [c]) ts ↔ Retained past ts ∧ c.ts - retention ≤ ts := by
      simp [Retained, or_imp, forall_and]
    rw [hstep, sample, deleteBefore, OrderedMap.find_filter, members_snoc]
    simp only [hretained]
    by_cases hts : ts = c.ts
    · subst hts
      have hkept : Retained past c.ts := fun b hb => by
        have := hlast b hb
        unfold retention
        omega
      have hkeep : c.ts - retention ≤ c.ts := by
        unfold retention
        omega
      rw [insertSample_find h (by rw [ih h.past]; simp [hkept])]
      simp [hkept, hkeep]
    · rw [insertSample_other hts, ih h.past]
      have hne : ¬ c.ts = ts := fun heq => hts heq.symm
      by_cases hkeep : c.ts - retention ≤ ts <;> simp [hne, hkeep]

theorem unpruned_find (h : Regular calls) (ts : Int) :
    (unpruned D calls).find ts =
      if members (·.ts) calls ts = [] then none
      else some (aggregate (members (·.ts) calls ts)) := by
  induction calls using List.reverseRecOn generalizing ts with
  | nil => rfl
  | append_singleton past c ih =>
    have hstep : unpruned D (past ++ [c]) = insertSample D (unpruned D past) c := by
      simp [unpruned, List.foldl_append]
    rw [hstep, members_snoc]
    by_cases hts : ts = c.ts
    · subst hts
      rw [insertSample_find h (ih h.past c.ts)]
      simp
    · have hne : ¬ c.ts = ts := fun heq => hts heq.symm
      rw [insertSample_other hts, ih h.past]
      simp [hne]

/-- The calls of a range, by their seconds. -/
def seconds (calls : List Call) (from_ to_ : Int) : List (Int × List Call) :=
  (group (·.ts) calls).entries.filter fun e => from_ ≤ e.1 && e.1 < to_

/-- The rows of a range that no call has deleted. -/
theorem rowsBetween_stored (h : Regular calls) (hretained : Retained calls from_) :
    rowsBetween (stored D calls) from_ to_ =
      (seconds calls from_ to_).map fun e => (e.1, aggregate e.2) := by
  have htable : stored D calls =
      ((group (·.ts) calls).mapValues fun _ => aggregate).filter fun ts => Retained calls ts := by
    refine OrderedMap.ext_find fun ts => ?_
    rw [stored_find h, OrderedMap.find_filter, OrderedMap.find_mapValues, find_group]
    by_cases hkept : Retained calls ts <;>
      by_cases hnone : members (·.ts) calls ts = [] <;> simp [hkept, hnone]
  have hkept : ∀ ts, from_ ≤ ts → Retained calls ts := fun ts hts c hc =>
    Int.le_trans (hretained c hc) hts
  rw [rowsBetween, htable, OrderedMap.filter, OrderedMap.mapValues, seconds, List.filter_filter,
    List.filter_map]
  congr 1
  refine List.filter_congr fun e _ => ?_
  by_cases hfrom : from_ ≤ e.1
  · simp [hfrom, hkept e.1 hfrom]
  · simp [hfrom]

/-! ## The rows -/

/-- The totals of a row. -/
structure Totals where
  timestamp : Int
  packets : Int
  bytes : Int
  samples : Int
  deriving DecidableEq, Repr

def totals (r : Columns) : Totals := ⟨r.timestamp, r.packets, r.bytes, r.count⟩

/-- The totals of the buckets of a list of seconds. -/
def tally (interval : Int) (l : List (Int × List Call)) : List Totals :=
  (group (fun e => bucket interval e.1) l).entries.map fun g =>
    ⟨g.1, (g.2.map fun e => packetsOf e.2).sum, (g.2.map fun e => bytesOf e.2).sum, g.2.length⟩

/-- The calls of a range. -/
def ranged (calls : List Call) (from_ to_ : Int) : List Call :=
  calls.filter fun c => from_ ≤ c.ts && c.ts < to_

/-- The calls of a range and a bucket. -/
def inBucket (calls : List Call) (from_ to_ interval b : Int) : List Call :=
  (ranged calls from_ to_).filter fun c => bucket interval c.ts = b

theorem buckets_stored (h : Regular calls) (hretained : Retained calls from_) :
    buckets (stored D calls) from_ to_ interval =
      (group (fun e => bucket interval e.1) (seconds calls from_ to_)).entries.map
        fun g => (g.1, g.2.map fun e => (e.1, aggregate e.2)) := by
  rw [buckets, rowsBetween_stored h hretained, group_map]
  rfl

/-- The seconds of a range and a bucket. -/
def secondsIn (calls : List Call) (from_ to_ interval b : Int) : List (Int × List Call) :=
  members (fun e => bucket interval e.1) (seconds calls from_ to_) b

theorem secondsIn_eq (calls : List Call) (from_ to_ interval b : Int) :
    secondsIn calls from_ to_ interval b =
      (group (·.ts) calls).entries.filter fun e =>
        (from_ ≤ e.1 && e.1 < to_) && bucket interval e.1 = b := by
  rw [secondsIn, members, seconds, List.filter_filter]
  exact List.filter_congr fun e _ => Bool.and_comm _ _

theorem inBucket_eq (calls : List Call) (from_ to_ interval b : Int) :
    inBucket calls from_ to_ interval b = calls.filter fun c =>
      (from_ ≤ c.ts && c.ts < to_) && bucket interval c.ts = b := by
  rw [inBucket, ranged, List.filter_filter]
  exact List.filter_congr fun e _ => Bool.and_comm _ _

theorem counts_bucket (f : Call → Nat) (calls : List Call) (from_ to_ interval b : Int) :
    ((secondsIn calls from_ to_ interval b).map fun e => (e.2.map fun c => (f c : Int)).sum).sum =
        ((inBucket calls from_ to_ interval b).map fun c => (f c : Int)).sum := by
  rw [secondsIn_eq, inBucket_eq]
  exact sum_selected (·.ts) (fun ts => (from_ ≤ ts && ts < to_) && bucket interval ts = b)
    (fun c => (f c : Int)) calls

theorem length_bucket (calls : List Call) (from_ to_ interval b : Int) :
    (secondsIn calls from_ to_ interval b).length =
      ((inBucket calls from_ to_ interval b).map (·.ts)).toFinset.card := by
  rw [secondsIn_eq, inBucket_eq]
  exact length_selected (·.ts) (fun ts => (from_ ≤ ts && ts < to_) && bucket interval ts = b) calls

theorem counts_bucket_le (f : Call → Nat) (calls : List Call) (from_ to_ interval b : Int) :
    ((inBucket calls from_ to_ interval b).map fun c => (f c : Int)).sum ≤
      (calls.map fun c => (f c : Int)).sum := by
  rw [inBucket_eq]
  exact counts_filter_le f _ calls

/-- The sum over a column of sums. -/
theorem columnSum_integers {α : Type} {l : List α} {f : α → Int} {cell : α → Cell ρ}
    (hcell : ∀ x ∈ l, cell x = .integer (f x)) (hpos : ∀ x ∈ l, 0 ≤ f x)
    (hsum : (l.map f).sum < 9223372036854775808) :
    columnSum D (l.map cell) = .ok (l.map f).sum := by
  have hcolumn : l.map cell = (l.map f).map .integer := by
    rw [List.map_map]
    exact List.map_congr_left hcell
  have hpositive : ∀ n ∈ l.map f, 0 ≤ n := fun n hn => by
    obtain ⟨x, hx, rfl⟩ := List.mem_map.mp hn
    exact hpos x hx
  rw [columnSum, hcolumn, Cell.sum_integers D hpositive hsum]
  rfl

end Magicbox.Guarantees.HistoryTotals
