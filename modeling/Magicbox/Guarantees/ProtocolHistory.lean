import Mathlib.Algebra.BigOperators.Ring.Finset
import Magicbox.Guarantees.HistoryAggregation

/-!
# The protocol counts of history

A call adds its packets and bytes to those of its second, but puts its details in
the place of the details that are there. The counts of the calls before it are
lost, so that the counts of a row are complete exactly when there were none.
-/

set_option autoImplicit false

namespace Magicbox.Guarantees.ProtocolHistory
open Library Library.Grouping Library.Results Library.Sqlite Source.Json Source.Store HistoryTotals
open HistoryAggregation

variable {ρ : Type} {D : Doubles ρ} {calls : List Call} {from_ to_ interval : Int}

/-- The count of a protocol in some details: a number or its decimal text, or nothing at all. -/
def counted (protocol : String) (details : Value) : Option Nat :=
  match (details.get "protocols").get protocol with
  | .null => some 0
  | .int n => if 0 ≤ n && fits n then some n.toNat else none
  | .uint n => if fits n then some n else none
  | .string text =>
    match Decimal.integer (Decimal.trim text.toList) with
    | some n => if 0 ≤ n && fits n then some n.toNat else none
    | none => none
  | _ => none

def countOf (protocol : String) (details : Value) : Nat := (counted protocol details).getD 0

/-- Calls whose details have a count for every protocol. -/
def Counted (calls : List Call) : Prop :=
  ∀ c ∈ calls, ∀ protocol ∈ protocols, (counted protocol c.details).isSome = true

/-- No call deletes the row of a call before it. -/
def WithinRetention (calls : List Call) : Prop :=
  calls.Pairwise fun earlier later => later.ts - retention ≤ earlier.ts

instance (calls : List Call) : Decidable (Counted calls) :=
  inferInstanceAs (Decidable (∀ c ∈ calls, _))

instance (calls : List Call) : Decidable (WithinRetention calls) :=
  inferInstanceAs (Decidable (List.Pairwise _ calls))

/-- The calls that a later call of the same second takes the place of. -/
def superseded : List Call → List Call
  | [] => []
  | c :: later => if later.any (·.ts = c.ts) then c :: superseded later else superseded later

/-- The counts of every row are those of all calls of its bucket. -/
def Conserves (calls : List Call) (from_ to_ interval : Int) (rows : List Columns) : Prop :=
  ∀ r ∈ rows, r.protocols = protocols.map fun protocol =>
    ((inBucket calls from_ to_ interval r.timestamp).map
      fun c => (countOf protocol c.details : Int)).sum

instance (calls : List Call) (from_ to_ interval : Int) (rows : List Columns) :
    Decidable (Conserves calls from_ to_ interval rows) :=
  inferInstanceAs (Decidable (∀ r ∈ rows, _))

/-! ## The rows -/

/-- The details that a second has in the end. -/
def latest (g : List Call) : Value := (g.getLast?.map (·.details)).getD .null

theorem protocolCell_counted {protocol : String} {details : Value}
    (h : (counted protocol details).isSome = true) :
    protocolCell D protocol details = .integer (countOf protocol details) := by
  unfold countOf
  unfold counted at h ⊢
  unfold protocolCell
  generalize (details.get "protocols").get protocol = v at h ⊢
  cases v with
  | null => rfl
  | int n =>
    by_cases hn : (0 ≤ n && fits n) = true
    · have hpos : 0 ≤ n ∧ fits n = true := by simpa using hn
      simp [hpos]
    · simp [hn] at h
  | uint n =>
    by_cases hn : fits n = true
    · simp [hn]
    · simp [hn] at h
  | string text =>
    cases htext : Decimal.integer (Decimal.trim text.toList) with
    | none => simp [htext] at h
    | some n =>
      by_cases hn : (0 ≤ n && fits n) = true
      · have hpos : 0 ≤ n ∧ fits n = true := by simpa using hn
        simp [htext, hpos]
      · simp [htext, hn] at h
  | boolean b => cases h
  | real r => cases h
  | array items => cases h
  | object entries => cases h

theorem members_superseded (calls : List Call) (ts : Int) :
    members (·.ts) (superseded calls) ts = (members (·.ts) calls ts).dropLast := by
  induction calls with
  | nil => rfl
  | cons c later ih =>
    have hlater : (later.any (·.ts = c.ts)) = true ↔ members (·.ts) later c.ts ≠ [] := by
      simp [members]
    have hcons : ∀ l : List Call, members (·.ts) (c :: l) ts =
        if c.ts = ts then c :: members (·.ts) l ts else members (·.ts) l ts := fun l => by
      simp [members, List.filter_cons]
    rw [superseded, hcons]
    by_cases hts : c.ts = ts
    · subst hts
      by_cases hnone : members (·.ts) later c.ts = []
      · rw [if_neg fun hany => hlater.mp hany hnone, ih, hnone]
        simp
      · rw [if_pos (hlater.mpr hnone), hcons, if_pos rfl, if_pos rfl, ih,
          List.dropLast_cons_of_ne_nil hnone]
    · rw [if_neg hts, ← ih]
      split
      · rw [hcons, if_neg hts]
      · rfl

theorem superseded_subset {c : Call} (h : c ∈ superseded calls) : c ∈ calls := by
  have hmem : c ∈ members (·.ts) (superseded calls) c.ts :=
    List.mem_filter.mpr ⟨h, decide_eq_true rfl⟩
  rw [members_superseded] at hmem
  exact (List.mem_filter.mp (List.mem_of_mem_dropLast hmem)).1

theorem stored_details (h : WithinRetention calls) (ts : Int) :
    ((stored D calls).find ts).map (·.details) =
      if members (·.ts) calls ts = [] then none else some (latest (members (·.ts) calls ts)) := by
  induction calls using List.reverseRecOn generalizing ts with
  | nil => rfl
  | append_singleton past c ih =>
    have hstep : stored D (past ++ [c]) = sample D (stored D past) c := by
      simp [stored, List.foldl_append]
    obtain ⟨hpast, -, hlast⟩ := List.pairwise_append.mp h
    rw [hstep, sample, deleteBefore, OrderedMap.find_filter, members_snoc]
    by_cases hts : ts = c.ts
    · subst hts
      have hkeep : c.ts - retention ≤ c.ts := by
        unfold retention
        omega
      rw [insertSample, OrderedMap.find_alter_self]
      cases (stored D past).find c.ts <;> simp [hkeep, latest]
    · have hne : ¬ c.ts = ts := fun heq => hts heq.symm
      rw [insertSample_other hts, if_neg hne, List.append_nil, ← ih hpast]
      by_cases hkeep : c.ts - retention ≤ ts
      · simp [hkeep]
      · have hnone : members (·.ts) past ts = [] := by
          refine List.filter_eq_nil_iff.mpr fun d hd hdts => hkeep ?_
          rw [← of_decide_eq_true hdts]
          exact hlast d hd c (List.mem_singleton_self c)
        rw [ih hpast, if_pos hnone]
        simp [hkeep]

theorem rowsBetween_details (D : Doubles ρ) (from_ to_ : Int) (h : WithinRetention calls) :
    (rowsBetween (stored D calls) from_ to_).map (fun row => (row.1, row.2.details)) =
      (seconds calls from_ to_).map fun e => (e.1, latest e.2) := by
  have htable : (stored D calls).mapValues (fun _ row => row.details) =
      (group (·.ts) calls).mapValues fun _ => latest := by
    refine OrderedMap.ext_find fun ts => ?_
    rw [OrderedMap.find_mapValues, OrderedMap.find_mapValues, stored_details h, find_group]
    by_cases hnone : members (·.ts) calls ts = [] <;> simp [hnone]
  have hentries := congrArg (fun m => m.entries.filter fun e => from_ ≤ e.1 && e.1 < to_) htable
  simp only [OrderedMap.mapValues, List.filter_map] at hentries
  exact hentries

/-- The details that a query finds in a bucket. -/
theorem bucket_details (h : WithinRetention calls) {b : Int} {l : List (Int × Sample ρ)}
    (hg : (b, l) ∈ buckets (stored D calls) from_ to_ interval) :
    l.map (fun row => (row.1, row.2.details)) =
      (secondsIn calls from_ to_ interval b).map fun e => (e.1, latest e.2) := by
  obtain ⟨hl, -⟩ := mem_group.mp hg
  have hrows := members_map (fun row : Int × Value => bucket interval row.1)
    (fun row : Int × Sample ρ => (row.1, row.2.details)) (rowsBetween (stored D calls) from_ to_) b
  rw [hl, ← hrows, rowsBetween_details D from_ to_ h, members_map]
  rfl

theorem bucket_listed (h : WithinRetention calls) (b : Int) :
    (∃ l, (b, l) ∈ buckets (stored D calls) from_ to_ interval) ↔
      ∃ c ∈ ranged calls from_ to_, bucket interval c.ts = b := by
  have hkeys : (rowsBetween (stored D calls) from_ to_).map (·.1) =
      (seconds calls from_ to_).map (·.1) := by
    have hrows := congrArg (List.map Prod.fst) (rowsBetween_details D from_ to_ h)
    simpa [List.map_map, Function.comp_def] using hrows
  rw [buckets, group_exists, ← bucket_exists]
  constructor
  · rintro ⟨row, hrow, hb⟩
    have hmem : row.1 ∈ (seconds calls from_ to_).map (·.1) := hkeys ▸ List.mem_map_of_mem hrow
    obtain ⟨e, he, heq⟩ := List.mem_map.mp hmem
    exact ⟨e, he, by rw [heq, hb]⟩
  · rintro ⟨e, he, hb⟩
    have hmem : e.1 ∈ (rowsBetween (stored D calls) from_ to_).map (·.1) :=
      hkeys ▸ List.mem_map_of_mem he
    obtain ⟨row, hrow, heq⟩ := List.mem_map.mp hmem
    exact ⟨row, hrow, by rw [heq, hb]⟩

theorem columnSum_eq {ns : List Int} {total : Int}
    (h : columnSum D (ns.map .integer) = .ok total) : total = ns.sum := by
  unfold columnSum at h
  rw [Cell.sum, Cell.integers_map] at h
  cases hrunning : Cell.running 0 ns with
  | none =>
    simp [hrunning] at h
  | some result =>
    have hresult := Cell.running_sum hrunning
    simp only [hrunning, Option.map_some, Cell.int64, Except.ok.injEq] at h
    omega

theorem columns_fields {g : Int × List (Int × Sample ρ)} {r : Columns} (h : columns D g = .ok r) :
    r.timestamp = g.1 ∧ protocolSums D g = .ok r.protocols := by
  unfold columns at h
  cases hpackets : columnSum D (g.2.map (·.2.packets)) with
  | error e =>
    rw [hpackets] at h
    cases h
  | ok packets =>
    cases hbytes : columnSum D (g.2.map (·.2.bytes)) with
    | error e =>
      rw [hpackets, hbytes] at h
      cases h
    | ok bytes =>
      rw [hpackets, hbytes] at h
      change (protocolSums D g >>= _) = _ at h
      cases hcounts : protocolSums D g with
      | error e =>
        rw [hcounts] at h
        cases h
      | ok counts =>
        rw [hcounts] at h
        cases h
        exact ⟨rfl, rfl⟩

/-! ## What is counted -/

/-- What a row counts of a protocol: the counts of the last call of every second. -/
def kept (calls : List Call) (from_ to_ interval b : Int) (protocol : String) : Nat :=
  ((secondsIn calls from_ to_ interval b).map fun e => countOf protocol (latest e.2)).sum

/-- What it leaves out. -/
def lost (calls : List Call) (from_ to_ interval b : Int) (protocol : String) : Nat :=
  ((secondsIn calls from_ to_ interval b).map fun e =>
    (e.2.dropLast.map fun c => countOf protocol c.details).sum).sum

theorem counts_latest (protocol : String) (g : List Call) :
    (g.map fun c => countOf protocol c.details).sum =
      countOf protocol (latest g) + (g.dropLast.map fun c => countOf protocol c.details).sum := by
  cases g using List.reverseRecOn with
  | nil => rfl
  | append_singleton past c => simp [latest, Nat.add_comm]

theorem kept_add_lost (calls : List Call) (from_ to_ interval b : Int) (protocol : String) :
    kept calls from_ to_ interval b protocol + lost calls from_ to_ interval b protocol =
      ((inBucket calls from_ to_ interval b).map fun c => countOf protocol c.details).sum := by
  have hall := sum_selected (·.ts)
    (fun ts => (from_ ≤ ts && ts < to_) && bucket interval ts = b)
    (fun c => countOf protocol c.details) calls
  rw [← secondsIn_eq, ← inBucket_eq] at hall
  rw [← hall, kept, lost, ← List.sum_map_add]
  simp only [← counts_latest]

/-- Nothing is left out if there is nothing in the calls that were superseded. -/
theorem lost_eq_zero {b : Int} {protocol : String} :
    lost calls from_ to_ interval b protocol = 0 ↔
      ∀ c ∈ superseded calls, from_ ≤ c.ts → c.ts < to_ → bucket interval c.ts = b →
        countOf protocol c.details = 0 := by
  have hsecond : ∀ e ∈ secondsIn calls from_ to_ interval b,
      e.2.dropLast = members (·.ts) (superseded calls) e.1 := by
    intro e he
    rw [secondsIn_eq] at he
    rw [members_superseded, ← (mem_group.mp (List.mem_filter.mp he).1).1]
  unfold lost
  simp only [List.sum_eq_zero_iff, List.forall_mem_map]
  constructor
  · intro h c hc hfrom hto hb
    have hmem : c ∈ members (·.ts) (superseded calls) c.ts :=
      List.mem_filter.mpr ⟨hc, decide_eq_true rfl⟩
    have hgroup : (c.ts, members (·.ts) calls c.ts) ∈ (group (·.ts) calls).entries := by
      refine mem_group.mpr ⟨rfl, fun hnone => ?_⟩
      rw [members_superseded, hnone] at hmem
      cases hmem
    have hsecondsIn : (c.ts, members (·.ts) calls c.ts) ∈
        secondsIn calls from_ to_ interval b := by
      rw [secondsIn_eq]
      exact List.mem_filter.mpr ⟨hgroup, by simp [hfrom, hto, hb]⟩
    exact h _ hsecondsIn c (hsecond _ hsecondsIn ▸ hmem)
  · intro h e he c hc
    rw [hsecond e he] at hc
    obtain ⟨hc, hts⟩ := List.mem_filter.mp hc
    rw [secondsIn_eq] at he
    have hrange := (List.mem_filter.mp he).2
    rw [← of_decide_eq_true hts] at hrange
    simp only [Bool.and_eq_true, decide_eq_true_eq] at hrange
    exact h c hc hrange.1.1 hrange.1.2 hrange.2

theorem latest_counted (hcounted : Counted calls) {protocol : String}
    (hprotocol : protocol ∈ protocols) {b : Int} {e : Int × List Call}
    (he : e ∈ secondsIn calls from_ to_ interval b) :
    (counted protocol (latest e.2)).isSome = true := by
  rw [secondsIn_eq] at he
  obtain ⟨hgroup, hsome⟩ := mem_group.mp (List.mem_filter.mp he).1
  have hlast := List.getLast_mem hsome
  rw [latest, List.getLast?_eq_some_getLast hsome, Option.map_some, Option.getD_some]
  have hmember : e.2.getLast hsome ∈ members (·.ts) calls e.1 := hgroup ▸ hlast
  exact hcounted _ (List.mem_filter.mp hmember).1 protocol hprotocol

theorem cast_sum {α : Type} (f : α → Nat) (l : List α) :
    ((l.map f).sum : Int) = (l.map fun x => (f x : Int)).sum := by
  rw [Nat.cast_list_sum, List.map_map]
  rfl

/-- A row has the counts that are kept. -/
theorem protocols_kept (hwithin : WithinRetention calls) (hcounted : Counted calls)
    {g : Int × List (Int × Sample ρ)} (hg : g ∈ buckets (stored D calls) from_ to_ interval)
    {r : Columns} (hr : columns D g = .ok r) :
    r.protocols = protocols.map fun protocol =>
      (kept calls from_ to_ interval r.timestamp protocol : Int) := by
  obtain ⟨htimestamp, hsums⟩ := columns_fields hr
  obtain ⟨b, l⟩ := g
  have hdetails := bucket_details hwithin hg
  have hcells : ∀ protocol ∈ protocols,
      (l.map fun row => protocolCell D protocol row.2.details) =
        ((secondsIn calls from_ to_ interval b).map fun e =>
          (countOf protocol (latest e.2) : Int)).map .integer := by
    intro protocol hprotocol
    have hcell := congrArg (List.map fun d : Int × Value => protocolCell D protocol d.2) hdetails
    rw [List.map_map, List.map_map] at hcell
    rw [List.map_map]
    refine hcell.trans (List.map_congr_left fun e he => ?_)
    exact protocolCell_counted (latest_counted hcounted hprotocol he)
  have hrows := map_eq_of_forall₂ (g := id) (mapM_eq_ok.mp hsums) fun protocol hprotocol n hn => by
    rw [hcells protocol hprotocol] at hn
    exact columnSum_eq hn
  rw [List.map_id] at hrows
  rw [hrows, htimestamp]
  refine List.map_congr_left fun protocol _ => ?_
  exact (cast_sum _ _).symm

/-- A row is complete if nothing was left out of it. -/
theorem conserves_iff_lost (hwithin : WithinRetention calls) (hcounted : Counted calls)
    {rows : List Columns}
    (hrows : List.Forall₂ (fun g r => columns D g = .ok r)
      (buckets (stored D calls) from_ to_ interval) rows) :
    Conserves calls from_ to_ interval rows ↔
      ∀ r ∈ rows, ∀ protocol ∈ protocols,
        lost calls from_ to_ interval r.timestamp protocol = 0 := by
  have hkept : ∀ r ∈ rows, r.protocols = protocols.map fun protocol =>
      (kept calls from_ to_ interval r.timestamp protocol : Int) := by
    intro r hr
    obtain ⟨g, hg, hcolumns⟩ := exists_of_forall₂ hrows.flip hr
    exact protocols_kept hwithin hcounted hg hcolumns
  refine forall₂_congr fun r hr => ?_
  rw [hkept r hr, List.map_inj_left]
  refine forall₂_congr fun protocol _ => ?_
  rw [← cast_sum, ← kept_add_lost]
  omega

/-- **What the protocol counts of history conserve.** The rows that an accepted query returns
count every observation of their buckets exactly if no call in the range that a later call of the
same second took the place of had any. -/
theorem protocols_conserved (D : Doubles ρ) (calls : List Call) (from_ to_ : Int64)
    (interval : Int) (rows : List Columns) (hwithin : WithinRetention calls)
    (hcounted : Counted calls) (haccepted : checkHistory from_ to_ interval = .ok ())
    (hfew : Few calls from_.toInt to_.toInt interval)
    (hrows : select D (stored D calls) from_.toInt to_.toInt interval = .ok rows) :
    history D (stored D calls) from_ to_ interval = .ok (.array (rows.map rowJson)) ∧
      (∀ r ∈ rows, Shows r (rowJson r)) ∧
      (Conserves calls from_.toInt to_.toInt interval rows ↔
        ∀ c ∈ superseded calls, from_.toInt ≤ c.ts → c.ts < to_.toInt →
          ∀ protocol ∈ protocols, countOf protocol c.details = 0) := by
  have hlength := buckets_length hfew (bucket_listed (D := D) hwithin)
  have hcolumns := hrows
  rw [select, List.take_of_length_le hlength, mapM_eq_ok] at hcolumns
  refine ⟨(history_ok haccepted).mpr ⟨rows, hrows, rfl⟩, fun r _ => shows_rowJson r, ?_⟩
  rw [conserves_iff_lost hwithin hcounted hcolumns]
  constructor
  · intro h c hc hfrom hto protocol hprotocol
    have hbucket : ∃ l, (bucket interval c.ts, l) ∈
        buckets (stored D calls) from_.toInt to_.toInt interval := by
      rw [bucket_listed hwithin]
      exact ⟨c, List.mem_filter.mpr ⟨superseded_subset hc, by simp [hfrom, hto]⟩, rfl⟩
    obtain ⟨l, hl⟩ := hbucket
    obtain ⟨r, hr, hcolumn⟩ := exists_of_forall₂ hcolumns hl
    have hzero := h r hr protocol hprotocol
    rw [(columns_fields hcolumn).1] at hzero
    exact lost_eq_zero.mp hzero c hc hfrom hto rfl
  · intro h r _ protocol hprotocol
    exact lost_eq_zero.mpr fun c hc hfrom hto _ => h c hc hfrom hto protocol hprotocol

/-- Two calls of one second with a packet each. -/
def sameSecond : List Call :=
  [⟨120, 1, 100, Value.null.set "protocols" (Value.null.set "tcp" (.string "1"))⟩,
    ⟨120, 1, 60, Value.null.set "protocols" (Value.null.set "tcp" (.string "1"))⟩]

/-- The row counts two packets, and one observation. -/
theorem sameSecond_not_conserved :
    WithinRetention sameSecond ∧ Counted sameSecond ∧ checkHistory 120 180 60 = .ok () ∧
      ∃ rows, select .exact (stored .exact sameSecond) 120 180 60 = .ok rows ∧
        ¬ Conserves sameSecond 120 180 60 rows := by
  refine ⟨by decide +kernel, by decide +kernel, by decide +kernel, _, rfl, ?_⟩
  decide +kernel

/-- The two seconds of a minute. -/
def twoSeconds : List Call :=
  [⟨120, 1, 100, Value.null.set "protocols" (Value.null.set "tcp" (.string "1"))⟩,
    ⟨121, 1, 60, Value.null.set "protocols" (Value.null.set "tcp" (.string "1"))⟩]

theorem protocols_conserved_twoSeconds :
    ∃ rows, history .exact (stored .exact twoSeconds) 120 180 60 = .ok (.array (rows.map rowJson)) ∧
      (∀ r ∈ rows, Shows r (rowJson r)) ∧ Conserves twoSeconds 120 180 60 rows := by
  have hrows := protocols_conserved .exact twoSeconds 120 180 60 _ (by decide +kernel)
    (by decide +kernel) (by decide +kernel) (by decide +kernel) rfl
  exact ⟨_, hrows.1, hrows.2.1, hrows.2.2.mpr (by decide +kernel)⟩

end Magicbox.Guarantees.ProtocolHistory
