import Magicbox.Library.Results
import Magicbox.Source.FlowTable
import Mathlib.Data.List.Induction

/-!
# Recording flows

What a batch of flows leaves of the table, whatever element, statement or commit
fails: the table as it was, or the whole batch added to it and cut to its bounds.
-/

set_option autoImplicit false

namespace Magicbox.Guarantees.FlowAtomicity
open Library Library.Crash Library.Results Library.Sqlite Source.Json Source.FlowTable

variable {ρ : Type} {db : Database ρ}

/-- The values of an element, if all members convert. -/
def entryOf (db : Database ρ) (flow : Value) : Except Exn Entry := do
  let key ← flow.index "key" >>= db.asString
  let firstSeen ← flow.index "first_seen" >>= Value.asInt64
  let lastSeen ← flow.index "timestamp_ms" >>= Value.asInt64
  let packets ← flow.index "packets" >>= Value.asInt64
  let bytes ← flow.index "bytes" >>= Value.asInt64
  return ⟨key, firstSeen, lastSeen, packets, bytes, flow⟩

/-- A batch added to a table, in its order. -/
def accumulate (D : Doubles ρ) (t : Table ρ) (entries : List Entry) : Table ρ :=
  entries.foldl (upsert D) t

/-- A total to which amounts are added one after the other. The first of them makes it, where there
was none. -/
def added (D : Doubles ρ) (old : Option (Cell ρ)) (amounts : List Int) : Option (Cell ρ) :=
  amounts.foldl (fun total n => some ((total.map fun old => old.plus D (.integer n)).getD
    (.integer n))) old

/-- What the entries of a key make of its row. The time of the first counts only where there was no
row, the last replaces `last_seen` and the members, and all packets and bytes add up. -/
structure Merged (D : Doubles ρ) (old : Option (Row ρ)) (entries : List Entry)
    (new : Option (Row ρ)) : Prop where
  firstSeen : new.map (·.firstSeen) =
    (old.map (·.firstSeen)).or (entries.head?.map (·.firstSeen))
  lastSeen : new.map (·.lastSeen) =
    (entries.getLast?.map (·.lastSeen)).or (old.map (·.lastSeen))
  metadata : new.map (·.metadata) =
    (entries.getLast?.map (·.metadata)).or (old.map (·.metadata))
  packets : new.map (·.packets) = added D (old.map (·.packets)) (entries.map (·.packets))
  bytes : new.map (·.bytes) = added D (old.map (·.bytes)) (entries.map (·.bytes))

/-- What the cap leaves of a table. -/
structure Capped (before after : Table ρ) : Prop where
  size : after.size = min before.size maxFlows
  kept : ∀ key row, after.find key = some row → before.find key = some row
  oldest : ∀ key row, before.find key = some row → after.find key = none →
    ∀ key' row', after.find key' = some row' → row.lastSeen ≤ row'.lastSeen

/-- The table with a batch: what is not older than seven days, and of that the latest flows. -/
structure Recorded (db : Database ρ) (now : Int) (flows : List Value) (before after : Table ρ) :
    Prop where
  intro ::
  recorded : ∃ entries, flows.mapM (entryOf db) = .ok entries ∧
    Capped (deleteOlder now (accumulate db.doubles before entries)) after
  recent : ∀ key row, after.find key = some row → horizon now ≤ row.lastSeen

/-! ## The rows of a batch -/

theorem accumulate_snoc (D : Doubles ρ) (t : Table ρ) (past : List Entry) (e : Entry) :
    accumulate D t (past ++ [e]) = upsert D (accumulate D t past) e := by
  simp [accumulate, List.foldl_append]

theorem added_snoc (D : Doubles ρ) (old : Option (Cell ρ)) (past : List Int) (n : Int) :
    added D old (past ++ [n]) = some (((added D old past).map fun old =>
      old.plus D (.integer n)).getD (.integer n)) := by
  simp [added, List.foldl_append]

/-- The upsert, seen from the row of its key. -/
theorem Merged.snoc {D : Doubles ρ} {t : Table ρ} {old : Option (Row ρ)} {past : List Entry}
    {e : Entry} (h : Merged D old past (t.find e.key)) :
    Merged D old (past ++ [e]) ((upsert D t e).find e.key) := by
  rw [upsert, OrderedMap.find_alter_self]
  constructor
  · rw [List.head?_append, Option.map_or, ← Option.or_assoc, ← h.firstSeen]
    cases t.find e.key <;> rfl
  · rw [List.getLast?_concat]
    cases t.find e.key <;> rfl
  · rw [List.getLast?_concat]
    cases t.find e.key <;> rfl
  · rw [List.map_append, List.map_singleton, added_snoc, ← h.packets]
    cases t.find e.key <;> rfl
  · rw [List.map_append, List.map_singleton, added_snoc, ← h.bytes]
    cases t.find e.key <;> rfl

/-- A batch merges into each row the entries of its key. -/
theorem accumulate_merged (D : Doubles ρ) (t : Table ρ) (entries : List Entry) (key : String) :
    Merged D (t.find key) (entries.filter (·.key = key)) ((accumulate D t entries).find key) := by
  induction entries using List.reverseRecOn with
  | nil => exact ⟨by simp [accumulate], rfl, rfl, rfl, rfl⟩
  | append_singleton past e ih =>
    rw [accumulate_snoc, List.filter_append]
    by_cases hkey : e.key = key
    · subst hkey
      simpa using ih.snoc
    · have hother : [e].filter (·.key = key) = [] := by simp [hkey]
      rw [hother, List.append_nil, upsert, OrderedMap.find_alter_of_ne _ (Ne.symm hkey)]
      exact ih

/-! ## The cap -/

/-- The rows that are not behind the first ones are the first ones. -/
theorem filter_drop {α : Type} {rows : List (String × α)} (h : (rows.map (·.1)).Nodup) (n : Nat) :
    rows.filter (fun e => !((rows.drop n).map (·.1)).contains e.1) = rows.take n := by
  have hsplit : rows.filter (fun e => !((rows.drop n).map (·.1)).contains e.1) =
      (rows.take n).filter (fun e => !((rows.drop n).map (·.1)).contains e.1) ++
        (rows.drop n).filter (fun e => !((rows.drop n).map (·.1)).contains e.1) := by
    rw [← List.filter_append, List.take_append_drop]
  have hdisjoint : ∀ a ∈ (rows.take n).map (·.1), a ∉ (rows.drop n).map (·.1) := by
    rw [← List.take_append_drop n rows, List.map_append, List.nodup_append] at h
    exact fun a ha hdrop => h.2.2 a ha a hdrop rfl
  have htake : (rows.take n).filter (fun e => !((rows.drop n).map (·.1)).contains e.1) =
      rows.take n := by
    refine List.filter_eq_self.mpr fun e he => ?_
    simp only [Bool.not_eq_true', List.contains_eq_mem, decide_eq_false_iff_not]
    exact hdisjoint e.1 (List.mem_map_of_mem he)
  have hdrop : (rows.drop n).filter (fun e => !((rows.drop n).map (·.1)).contains e.1) = [] := by
    refine List.filter_eq_nil_iff.mpr fun e he => ?_
    simp only [Bool.not_eq_true', Bool.not_eq_false, List.contains_eq_mem, decide_eq_true_eq]
    exact List.mem_map_of_mem he
  rw [hsplit, htake, hdrop, List.append_nil]

/-- What the cap keeps are the first rows of the ranking. -/
theorem deleteBeyond_perm (ranking : Ranking ρ) (t : Table ρ) :
    (deleteBeyond ranking t).entries.Perm ((ranking.rank t).take maxFlows) := by
  have hperm := ranking.perm t
  have hnodup : ((ranking.rank t).map (·.1)).Nodup :=
    (hperm.map Prod.fst).nodup_iff.mpr t.keys_nodup
  rw [← filter_drop hnodup maxFlows]
  exact (hperm.filter _).symm

theorem deleteBeyond_capped (ranking : Ranking ρ) (t : Table ρ) :
    Capped t (deleteBeyond ranking t) := by
  have hperm := deleteBeyond_perm ranking t
  have hranked := ranking.ordered t
  rw [← List.take_append_drop maxFlows (ranking.rank t), List.pairwise_append] at hranked
  have hkept : ∀ key row, (deleteBeyond ranking t).find key = some row → t.find key = some row := by
    intro key row hrow
    rw [deleteBeyond, OrderedMap.find_filter] at hrow
    split at hrow
    · exact hrow
    · cases hrow
  constructor
  · have hlength := hperm.length_eq
    rw [List.length_take, (ranking.perm t).length_eq, Nat.min_comm] at hlength
    exact hlength
  · exact hkept
  · intro key row hrow hremoved key' row' hrow'
    have hdropped : (key, row) ∈ (ranking.rank t).drop maxFlows := by
      have hmem := (ranking.perm t).mem_iff.mpr (OrderedMap.mem_entries t |>.mpr hrow)
      rw [← List.take_append_drop maxFlows (ranking.rank t), List.mem_append] at hmem
      rcases hmem with htaken | hdropped
      · have hfound := (OrderedMap.mem_entries _).mp (hperm.mem_iff.mpr htaken)
        rw [hremoved] at hfound
        cases hfound
      · exact hdropped
    have htaken := hperm.mem_iff.mp ((OrderedMap.mem_entries _).mpr hrow')
    exact hranked.2.2 _ htaken _ hdropped

/-! ## The batch -/

/-- A flow is added to the table, if its members convert. -/
theorem recordFlow_inside (flow : Value) :
    Inside (fun _ before after => ∃ e, entryOf db flow = .ok e ∧ after = upsert db.doubles before e)
      (recordFlow db flow) := by
  unfold recordFlow
  refine Inside.imp (Inside.read.bind fun _ => (Inside.liftExcept _).bind fun key =>
    Inside.read.bind fun _ => (Inside.liftExcept _).bind fun firstSeen =>
    Inside.read.bind fun _ => (Inside.liftExcept _).bind fun lastSeen =>
    Inside.read.bind fun _ => (Inside.liftExcept _).bind fun packets =>
    Inside.read.bind fun _ => (Inside.liftExcept _).bind fun bytes =>
    Inside.read.bind fun _ => Inside.read.bind fun _ => Inside.write _ _) ?_
  rintro _ before after ⟨_, _, rfl, key, _, ⟨hkey, rfl⟩, _, _, rfl, firstSeen, _, ⟨hfirst, rfl⟩,
    _, _, rfl, lastSeen, _, ⟨hlast, rfl⟩, _, _, rfl, packets, _, ⟨hpackets, rfl⟩,
    _, _, rfl, bytes, _, ⟨hbytes, rfl⟩, _, _, rfl, _, _, rfl, rfl⟩
  refine ⟨⟨key, firstSeen, lastSeen, packets, bytes, flow⟩, ?_, rfl⟩
  unfold entryOf
  rw [hkey, hfirst, hlast, hpackets, hbytes]
  rfl

theorem recordAll_inside (db : Database ρ) (flows : List Value) :
    Inside (fun _ before after => ∃ entries, flows.mapM (entryOf db) = .ok entries ∧
        after = accumulate db.doubles before entries) (flows.forM (recordFlow db)) := by
  induction flows with
  | nil =>
    refine (Inside.pure ()).imp ?_
    rintro _ before after ⟨-, rfl⟩
    exact ⟨[], rfl, rfl⟩
  | cons flow rest ih =>
    refine ((recordFlow_inside flow).bind fun _ => ih).imp ?_
    rintro _ before after ⟨_, _, ⟨e, he, rfl⟩, entries, hentries, rfl⟩
    refine ⟨e :: entries, ?_, rfl⟩
    rw [List.mapM_cons, he, hentries]
    rfl

/-! ## Without failures -/

section Unfailing

theorem recordFlow_run (committed t : Table ρ) {flow : Value} {e : Entry}
    (h : entryOf db flow = .ok e) :
    recordFlow db flow ⟨committed, some t, []⟩ =
      (.returned (), ⟨committed, some (upsert db.doubles t e), []⟩) := by
  unfold entryOf at h
  obtain ⟨key, hkey, h⟩ := bind_ok_iff.mp h
  obtain ⟨firstSeen, hfirst, h⟩ := bind_ok_iff.mp h
  obtain ⟨lastSeen, hlast, h⟩ := bind_ok_iff.mp h
  obtain ⟨packets, hpackets, h⟩ := bind_ok_iff.mp h
  obtain ⟨bytes, hbytes, h⟩ := bind_ok_iff.mp h
  cases h
  unfold recordFlow
  rw [hkey, hfirst, hlast, hpackets, hbytes]
  rfl

theorem recordAll_run (committed t : Table ρ) {flows : List Value} {entries : List Entry}
    (h : flows.mapM (entryOf db) = .ok entries) :
    flows.forM (recordFlow db) ⟨committed, some t, []⟩ =
      (.returned (), ⟨committed, some (accumulate db.doubles t entries), []⟩) := by
  induction flows generalizing t entries with
  | nil =>
    cases h
    rfl
  | cons flow rest ih =>
    rw [List.mapM_cons] at h
    obtain ⟨e, he, h⟩ := bind_ok_iff.mp h
    obtain ⟨others, hothers, h⟩ := bind_ok_iff.mp h
    cases h
    change (recordFlow db flow >>= fun _ => rest.forM (recordFlow db)) _ = _
    rw [bind_returned (recordFlow_run committed t he)]
    exact ih _ hothers

/-- A batch whose members convert is recorded, if SQLite does not fail. -/
theorem recordFlows_run (now : Int) (t : Table ρ) {flows : List Value} {entries : List Entry}
    (h : flows.mapM (entryOf db) = .ok entries) :
    recordFlows db now (.array flows) ⟨t, none, []⟩ =
      (.returned (), ⟨deleteBeyond db.ranking
        (deleteOlder now (accumulate db.doubles t entries)), none, []⟩) := by
  have hall := recordAll_run t t h
  have hbegin : begin_ Exn.runtimeError (⟨t, none, []⟩ : Connection (Table ρ)) =
      (.returned (), ⟨t, some t, []⟩) := rfl
  unfold recordFlows transaction
  rw [bind_returned hbegin]
  unfold recover
  simp only [Value.elements, bind_run, hall]
  rfl

end Unfailing

/-- **Recording flows is atomic and keeps the table bounded.** Wherever it is made to fail, the
table is the one before the call or the one with the batch, and no transaction stays open. It
returns if all members convert and SQLite does not fail. A batch merges into each row the flows of
its key. -/
theorem recordFlows_atomic (db : Database ρ) (now : Int) (flows : List Value) (t : Table ρ)
    (answers : List Answer) :
    Settled (Recorded db now flows) t
        (recordFlows db now (.array flows) ⟨t, none, answers⟩).1
        (recordFlows db now (.array flows) ⟨t, none, answers⟩).2 ∧
      ((∃ entries, flows.mapM (entryOf db) = .ok entries) →
        (recordFlows db now (.array flows) ⟨t, none, []⟩).1 = .returned ()) ∧
      ∀ entries key, Merged db.doubles (t.find key) (entries.filter (·.key = key))
        ((accumulate db.doubles t entries).find key) := by
  refine ⟨?_, ?_, accumulate_merged db.doubles t⟩
  · have hbody := (recordAll_inside db flows).bind fun _ =>
      (Inside.write Exn.runtimeError (deleteOlder now)).bind fun _ =>
        Inside.write Exn.runtimeError (deleteBeyond db.ranking)
    refine transaction_settled (c := ⟨t, none, answers⟩) (hbody.imp ?_) rfl
    rintro _ before after ⟨_, _, ⟨entries, hentries, rfl⟩, _, _, rfl, rfl⟩
    have hcapped := deleteBeyond_capped db.ranking
      (deleteOlder now (accumulate db.doubles before entries))
    refine ⟨⟨entries, hentries, hcapped⟩, fun key row hrow => ?_⟩
    have hrecent := hcapped.kept key row hrow
    rw [deleteOlder, OrderedMap.find_filterValues, Option.filter_eq_some_iff] at hrecent
    exact of_decide_eq_true hrecent.2
  · rintro ⟨entries, hentries⟩
    rw [recordFlows_run now t hentries]

end Magicbox.Guarantees.FlowAtomicity
