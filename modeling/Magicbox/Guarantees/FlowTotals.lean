import Magicbox.Guarantees.AddressText
import Magicbox.Guarantees.FlowAtomicity
import Magicbox.Guarantees.FlowKeys
import Magicbox.Guarantees.FrameTags
import Magicbox.Guarantees.TrackedTotals
import Magicbox.Source.PacketJson

/-!
# Persistent flow totals

The packets of an interval are added up in memory, and the intervals in the
table. For every way to cut a sequence of packets into intervals the table has
the totals of the whole sequence.
-/

set_option autoImplicit false

namespace Magicbox.Guarantees.FlowTotals
open Source.Capture Source.Sampling Source.Json Source.PacketJson Source.FlowTable
open Library Library.Grouping Library.Tracking Library.Results Library.Sqlite
open BreakdownTruth FlowAtomicity FlowKeys TrackedTotals

variable {ρ : Type} {db : Database ρ} {D : Doubles ρ} {captureInterface : String}

/-- A flush: the time of the database, and the packets drained since the last one. -/
structure Flush where
  now : Int
  packets : List PacketMetadata

/-- The table behind a flush without failures. -/
def flush (db : Database ρ) (captureInterface : String) (t : Table ρ) (f : Flush) : Table ρ :=
  (recordFlows db f.now (flowsJson (breakdownOf captureInterface f.packets))
    ⟨t, none, []⟩).2.committed

/-- The table behind some flushes, from an empty one on. -/
def flushes (db : Database ρ) (captureInterface : String) (fs : List Flush) : Table ρ :=
  fs.foldl (flush db captureInterface) .empty

/-- All packets, in their order. -/
def drained (fs : List Flush) : List PacketMetadata := (fs.map (·.packets)).flatten

/-- The number of flows that some packets belong to. -/
def flowCount (captureInterface : String) (packets : List PacketMetadata) : Nat :=
  ((ipPackets packets).map (flowKey captureInterface)).toFinset.card

def firstMs (packets : List PacketMetadata) : Int := (packets.head?.map timestampMs).getD 0

def lastMs (packets : List PacketMetadata) : Int := (packets.getLast?.map timestampMs).getD 0

/-- A row without its metadata. -/
structure Total (ρ : Type) where
  firstSeen : Int
  lastSeen : Int
  packets : Cell ρ
  bytes : Cell ρ

def totalOf (row : Row ρ) : Total ρ := ⟨row.firstSeen, row.lastSeen, row.packets, row.bytes⟩

/-! ## Chunks of one flow -/

/-- The total of a flow with more packets. -/
def addChunk (D : Doubles ρ) (total : Option (Total ρ)) (g : List PacketMetadata) :
    Option (Total ρ) :=
  if g = [] then total
  else some (match total with
    | none => ⟨firstMs g, lastMs g, .integer g.length, .integer (wireBytesOf g)⟩
    | some old => ⟨old.firstSeen, lastMs g, old.packets.plus D (.integer g.length),
        old.bytes.plus D (.integer (wireBytesOf g))⟩)

theorem addChunk_nil (total : Option (Total ρ)) : addChunk D total [] = total := if_pos rfl

theorem addChunk_none {g : List PacketMetadata} (hg : g ≠ []) :
    addChunk D none g =
      some ⟨firstMs g, lastMs g, .integer g.length, .integer (wireBytesOf g)⟩ := if_neg hg

theorem addChunk_some {g : List PacketMetadata} (hg : g ≠ []) (old : Total ρ) :
    addChunk D (some old) g =
      some ⟨old.firstSeen, lastMs g, old.packets.plus D (.integer g.length),
        old.bytes.plus D (.integer (wireBytesOf g))⟩ := if_neg hg

def addChunks (D : Doubles ρ) (chunks : List (List PacketMetadata)) : Option (Total ρ) :=
  chunks.foldl (addChunk D) none

theorem addChunks_snoc (past : List (List PacketMetadata)) (g : List PacketMetadata) :
    addChunks D (past ++ [g]) = addChunk D (addChunks D past) g := by
  simp [addChunks, List.foldl_append]

theorem wireBytesOf_append (a b : List PacketMetadata) :
    wireBytesOf (a ++ b) = wireBytesOf a + wireBytesOf b := by
  simp [wireBytesOf]

theorem firstMs_append {a : List PacketMetadata} (h : a ≠ []) (b : List PacketMetadata) :
    firstMs (a ++ b) = firstMs a := by
  cases a with
  | nil => exact absurd rfl h
  | cons p rest => rfl

theorem lastMs_append (a : List PacketMetadata) {b : List PacketMetadata} (h : b ≠ []) :
    lastMs (a ++ b) = lastMs b := by
  rw [lastMs, List.getLast?_append_of_ne_nil a h, lastMs]

/-- A flow has its first and last packets' times, in whatever chunks they come. -/
theorem addChunks_times (chunks : List (List PacketMetadata)) :
    (addChunks D chunks).map (fun r => (r.firstSeen, r.lastSeen)) =
      if chunks.flatten = [] then none
      else some (firstMs chunks.flatten, lastMs chunks.flatten) := by
  induction chunks using List.reverseRecOn with
  | nil => rfl
  | append_singleton past g ih =>
    rw [addChunks_snoc, List.flatten_append, List.flatten_singleton]
    by_cases hg : g = []
    · rw [hg, addChunk_nil, List.append_nil, ih]
    · have hall : past.flatten ++ g ≠ [] := List.append_ne_nil_of_right_ne_nil _ hg
      rw [if_neg hall, lastMs_append _ hg]
      cases htotal : addChunks D past with
      | none =>
        rw [htotal, Option.map_none] at ih
        have hpast : past.flatten = [] := by
          by_contra hsome
          rw [if_neg hsome] at ih
          cases ih
        rw [addChunk_none hg, hpast, List.nil_append]
        rfl
      | some old =>
        rw [htotal, Option.map_some] at ih
        have hpast : past.flatten ≠ [] := fun hnone => by
          rw [if_pos hnone] at ih
          cases ih
        rw [if_neg hpast, Option.some.injEq, Prod.mk.injEq] at ih
        rw [addChunk_some hg, firstMs_append hpast, ← ih.1]
        rfl

/-- The totals of a flow, in whatever chunks they come, if they fit. -/
theorem addChunks_totals {chunks : List (List PacketMetadata)}
    (hlength : chunks.flatten.length < 9223372036854775808)
    (hbytes : wireBytesOf chunks.flatten < 9223372036854775808) :
    addChunks D chunks =
      if chunks.flatten = [] then none
      else some ⟨firstMs chunks.flatten, lastMs chunks.flatten,
        .integer chunks.flatten.length, .integer (wireBytesOf chunks.flatten)⟩ := by
  induction chunks using List.reverseRecOn with
  | nil => rfl
  | append_singleton past g ih =>
    rw [List.flatten_append, List.flatten_singleton] at hlength hbytes ⊢
    rw [List.length_append] at hlength ⊢
    rw [wireBytesOf_append] at hbytes ⊢
    rw [addChunks_snoc, ih (by omega) (by omega)]
    by_cases hg : g = []
    · subst hg
      rw [addChunk_nil, List.append_nil]
      rfl
    · have hall : past.flatten ++ g ≠ [] := List.append_ne_nil_of_right_ne_nil _ hg
      rw [if_neg hall, lastMs_append _ hg]
      by_cases hpast : past.flatten = []
      · rw [if_pos hpast, addChunk_none hg, hpast]
        simp [wireBytesOf]
      · have hfits : fits ((past.flatten.length : Int) + g.length) = true :=
          fits_iff.mpr ⟨by omega, by omega⟩
        have hfits' : fits ((wireBytesOf past.flatten : Int) + wireBytesOf g) = true :=
          fits_iff.mpr ⟨by omega, by omega⟩
        rw [if_neg hpast, addChunk_some hg, firstMs_append hpast, Cell.plus_integer D hfits,
          Cell.plus_integer D hfits', Int.natCast_add, Int.natCast_add]

/-! ## A flush -/

/-- What is bound for a flow. -/
def boundFor (f : Flow) : Entry :=
  ⟨f.key, f.firstSeen, timestampMs f.packet, f.packets, f.bytes, flowJson f⟩

theorem entryOf_flowJson (f : Flow) : entryOf db (flowJson f) = .ok (boundFor f) := by
  have hpacket : ((packetJson f.packet).get "timestamp_ms") = .int (timestampMs f.packet) := by
    simp [packetJson]
  simp [entryOf, boundFor, flowJson, hpacket, Database.asString, Value.asInt64]
  rfl

theorem entries_of_breakdown (b : Breakdown) :
    (b.flows_.entries.map fun e => flowJson e.2).mapM (entryOf db) =
      .ok (b.flows_.entries.map fun e => boundFor e.2) := by
  rw [mapM_eq_ok, List.forall₂_map_left_iff, List.forall₂_map_right_iff, List.forall₂_same]
  exact fun e _ => entryOf_flowJson e.2

/-- A flush adds the flows of its breakdown, and cuts the table to its bounds. -/
theorem flush_eq (t : Table ρ) (f : Flush) :
    flush db captureInterface t f =
      deleteBeyond db.ranking (deleteOlder f.now (accumulate db.doubles t
        ((breakdownOf captureInterface f.packets).flows_.entries.map fun e => boundFor e.2))) := by
  rw [flush, flowsJson, recordFlows_run f.now t (entries_of_breakdown _)]

/-- The packets of a flow. -/
def chunk (captureInterface key : String) (packets : List PacketMetadata) : List PacketMetadata :=
  members (flowKey captureInterface) (ipPackets packets) key

theorem flows_few {packets : List PacketMetadata} (h : flowCount captureInterface packets ≤ 4096) :
    (breakdownOf captureInterface packets).flows_ =
      (group (flowKey captureInterface) (ipPackets packets)).mapValues
        fun _ => flowOf captureInterface := by
  obtain ⟨omitted, htracks, -⟩ := flows_tracked captureInterface packets
  exact htracks.few h

theorem lastMs_flowOf {g : List PacketMetadata} (hg : g ≠ []) :
    timestampMs (flowOf captureInterface g).packet = lastMs g := by
  rw [flowOf, lastMs, List.getLast?_eq_some_getLast hg]
  rfl

theorem key_flowOf {g : List PacketMetadata} {key : String}
    (h : ∀ p ∈ g, flowKey captureInterface p = key) (hg : g ≠ []) :
    (flowOf captureInterface g).key = key := by
  rw [flowOf, List.getLast?_eq_some_getLast hg]
  exact h _ (List.getLast_mem hg)

/-- The row of a flow, with what a flush adds to it. -/
def rowWith (D : Doubles ρ) (f : Flow) : Option (Row ρ) → Row ρ
  | none => ⟨f.firstSeen, timestampMs f.packet, .integer f.packets, .integer f.bytes, flowJson f⟩
  | some old => ⟨old.firstSeen, timestampMs f.packet, old.packets.plus D (.integer f.packets),
      old.bytes.plus D (.integer f.bytes), flowJson f⟩

theorem totalOf_rowWith {g : List PacketMetadata} (hg : g ≠ []) (old : Option (Row ρ)) :
    some (totalOf (rowWith D (flowOf captureInterface g) old)) =
      addChunk D (old.map totalOf) g := by
  cases old with
  | none =>
    rw [Option.map_none, addChunk_none hg, rowWith, lastMs_flowOf hg]
    rfl
  | some old =>
    rw [Option.map_some, addChunk_some hg, rowWith, lastMs_flowOf hg]
    rfl

/-- The batch of a flush adds a chunk to every flow. -/
theorem accumulate_chunk {packets : List PacketMetadata}
    (h : flowCount captureInterface packets ≤ 4096) (t : Table ρ) (key : String) :
    ((accumulate D t ((breakdownOf captureInterface packets).flows_.entries.map
        fun e => boundFor e.2)).find key).map totalOf =
      addChunk D ((t.find key).map totalOf) (chunk captureInterface key packets) := by
  have hkey : ∀ e ∈ (breakdownOf captureInterface packets).flows_.entries, e.2.key = e.1 := by
    intro e he
    rw [flows_few h] at he
    obtain ⟨⟨key, g⟩, hg, rfl⟩ := List.mem_map.mp he
    obtain ⟨hmembers, hsome⟩ := mem_group.mp hg
    refine key_flowOf (fun p hp => ?_) hsome
    rw [hmembers] at hp
    exact of_decide_eq_true (List.mem_filter.mp hp).2
  have halter : accumulate D t ((breakdownOf captureInterface packets).flows_.entries.map
        fun e => boundFor e.2) =
      (breakdownOf captureInterface packets).flows_.entries.foldl
        (fun m e => m.alter e.1 (rowWith D e.2)) t := by
    rw [accumulate, List.foldl_map]
    refine List.foldl_ext _ _ _ fun m e he => ?_
    rw [upsert, boundFor, hkey e he]
    rfl
  rw [halter, OrderedMap.find_foldl_alter, flows_few h, OrderedMap.find_mapValues, find_group]
  by_cases hnone : members (flowKey captureInterface) (ipPackets packets) key = []
  · rw [if_pos hnone, chunk, hnone, addChunk_nil]
    rfl
  · rw [if_neg hnone]
    exact totalOf_rowWith hnone (t.find key)

/-! ## The bounds of the table -/

theorem deleteOlder_of_recent {now : Int} {t : Table ρ}
    (h : ∀ key row, t.find key = some row → horizon now ≤ row.lastSeen) :
    deleteOlder now t = t := by
  refine OrderedMap.ext_find fun key => ?_
  rw [deleteOlder, OrderedMap.find_filterValues]
  cases hrow : t.find key with
  | none => rfl
  | some row => simp [h key row hrow]

theorem deleteBeyond_of_few {ranking : Ranking ρ} {t : Table ρ} (h : t.size ≤ maxFlows) :
    deleteBeyond ranking t = t := by
  have hlength : (ranking.rank t).drop maxFlows = [] := by
    rw [List.drop_eq_nil_iff, (ranking.perm t).length_eq]
    exact h
  refine OrderedMap.ext_find fun key => ?_
  rw [deleteBeyond, OrderedMap.find_filter, hlength]
  rfl

/-! ## Runs of flushes -/

/-- Flushes within the bounds of memory and table, of packets of the last seven days. -/
structure Ordinary (captureInterface : String) (fs : List Flush) : Prop where
  few : ∀ f ∈ fs, flowCount captureInterface f.packets ≤ 4096
  stored : flowCount captureInterface (drained fs) ≤ maxFlows
  recent : ∀ f ∈ fs, ∀ p ∈ ipPackets (drained fs), horizon f.now ≤ timestampMs p

theorem drained_snoc (past : List Flush) (f : Flush) :
    drained (past ++ [f]) = drained past ++ f.packets := by
  simp [drained]

theorem ipPackets_append (a b : List PacketMetadata) :
    ipPackets (a ++ b) = ipPackets a ++ ipPackets b := List.filter_append a b

theorem Ordinary.past {past : List Flush} {f : Flush}
    (h : Ordinary captureInterface (past ++ [f])) : Ordinary captureInterface past := by
  have hsubset : ∀ p ∈ ipPackets (drained past), p ∈ ipPackets (drained (past ++ [f])) := by
    intro p hp
    rw [drained_snoc, ipPackets_append]
    exact List.mem_append_left _ hp
  refine ⟨fun g hg => h.few g (List.mem_append_left _ hg), le_trans ?_ h.stored,
    fun g hg p hp => h.recent g (List.mem_append_left _ hg) p (hsubset p hp)⟩
  refine Finset.card_le_card fun key hkey => ?_
  obtain ⟨p, hp, rfl⟩ := List.mem_map.mp (List.mem_toFinset.mp hkey)
  exact List.mem_toFinset.mpr (List.mem_map_of_mem (hsubset p hp))

theorem chunks_flatten (key : String) (fs : List Flush) :
    (fs.map fun f => chunk captureInterface key f.packets).flatten =
      chunk captureInterface key (drained fs) := by
  simp only [chunk, members, ipPackets, drained, List.filter_flatten, List.map_map,
    Function.comp_def]

theorem chunk_mem {key : String} {packets : List PacketMetadata} {p : PacketMetadata} :
    p ∈ chunk captureInterface key packets ↔
      p ∈ ipPackets packets ∧ flowKey captureInterface p = key := by
  simp [chunk, members]

/-- The rows of a table with the totals of some packets. -/
structure Sums (D : Doubles ρ) (captureInterface : String) (fs : List Flush) (t : Table ρ) :
    Prop where
  intro ::
  total : ∀ key, (t.find key).map totalOf =
    addChunks D (fs.map fun f => chunk captureInterface key f.packets)

/-- A row has the time of the last packet of its flow. -/
theorem Sums.row {fs : List Flush} {t : Table ρ} (h : Sums D captureInterface fs t) {key : String}
    {row : Row ρ} (hrow : t.find key = some row) :
    chunk captureInterface key (drained fs) ≠ [] ∧
      row.firstSeen = firstMs (chunk captureInterface key (drained fs)) ∧
      row.lastSeen = lastMs (chunk captureInterface key (drained fs)) := by
  have htimes := addChunks_times (D := D) (fs.map fun f => chunk captureInterface key f.packets)
  rw [← h.total key, hrow, chunks_flatten] at htimes
  by_cases hnone : chunk captureInterface key (drained fs) = []
  · rw [if_pos hnone] at htimes
    cases htimes
  · rw [if_neg hnone] at htimes
    simp only [Option.map_some, Option.some.injEq, Prod.mk.injEq] at htimes
    exact ⟨hnone, htimes⟩

theorem Sums.recent {fs : List Flush} {t : Table ρ} (h : Sums D captureInterface fs t)
    {now : Int} (hrecent : ∀ p ∈ ipPackets (drained fs), horizon now ≤ timestampMs p) :
    ∀ key row, t.find key = some row → horizon now ≤ row.lastSeen := by
  intro key row hrow
  obtain ⟨hsome, -, hlast⟩ := h.row hrow
  rw [hlast, lastMs, List.getLast?_eq_some_getLast hsome]
  exact hrecent _ (chunk_mem.mp (List.getLast_mem hsome)).1

theorem Sums.size {fs : List Flush} {t : Table ρ} (h : Sums D captureInterface fs t) :
    t.size ≤ flowCount captureInterface (drained fs) := by
  rw [OrderedMap.size, ← List.length_map (f := Prod.fst),
    ← List.toFinset_card_of_nodup t.keys_nodup]
  refine Finset.card_le_card fun key hkey => ?_
  obtain ⟨⟨key, row⟩, he, rfl⟩ := List.mem_map.mp (List.mem_toFinset.mp hkey)
  obtain ⟨hsome, -⟩ := h.row ((OrderedMap.mem_entries t).mp he)
  obtain ⟨p, hp⟩ := List.exists_mem_of_ne_nil _ hsome
  obtain ⟨hmem, hkey⟩ := chunk_mem.mp hp
  exact List.mem_toFinset.mpr (List.mem_map.mpr ⟨p, hmem, hkey⟩)

/-- A flush keeps the sums. -/
theorem flush_sums {past : List Flush} {f : Flush} {t : Table ρ}
    (hordinary : Ordinary captureInterface (past ++ [f]))
    (h : Sums db.doubles captureInterface past t) :
    Sums db.doubles captureInterface (past ++ [f]) (flush db captureInterface t f) := by
  have hmem : f ∈ past ++ [f] := List.mem_append_right _ (List.mem_singleton_self f)
  have hsums : Sums db.doubles captureInterface (past ++ [f]) (accumulate db.doubles t
      ((breakdownOf captureInterface f.packets).flows_.entries.map fun e => boundFor e.2)) := by
    refine ⟨fun key => ?_⟩
    rw [accumulate_chunk (hordinary.few f hmem), h.total key, List.map_append, List.map_singleton,
      addChunks_snoc]
  rw [flush_eq, deleteOlder_of_recent (hsums.recent (hordinary.recent f hmem)),
    deleteBeyond_of_few (hsums.size.trans hordinary.stored)]
  exact hsums

theorem flushes_sums (db : Database ρ) {fs : List Flush} (h : Ordinary captureInterface fs) :
    Sums db.doubles captureInterface fs (flushes db captureInterface fs) := by
  induction fs using List.reverseRecOn with
  | nil => exact ⟨fun _ => rfl⟩
  | append_singleton past f ih =>
    have hstep : flushes db captureInterface (past ++ [f]) =
        flush db captureInterface (flushes db captureInterface past) f := by
      simp [flushes, List.foldl_append]
    rw [hstep]
    exact flush_sums h (ih h.past)

/-! ## The totals of the whole sequence -/

/-- The packets of the flow of a packet. -/
def sameFlow (captureInterface : String) (p : PacketMetadata) (packets : List PacketMetadata) :
    List PacketMetadata :=
  (ipPackets packets).filter fun q => tupleOf captureInterface q = tupleOf captureInterface p

/-- A table with one row for every flow, and its totals. -/
structure Conserved (captureInterface : String) (packets : List PacketMetadata) (t : Table ρ) :
    Prop where
  rows : ∀ p ∈ ipPackets packets, ∃ row, t.find (flowKey captureInterface p) = some row ∧
    totalOf row = ⟨firstMs (sameFlow captureInterface p packets),
      lastMs (sameFlow captureInterface p packets),
      .integer (sameFlow captureInterface p packets).length,
      .integer (wireBytesOf (sameFlow captureInterface p packets))⟩
  others : ∀ key row, t.find key = some row →
    ∃ p ∈ ipPackets packets, flowKey captureInterface p = key

/-- Packets none of whose flows has a total of more than 63 bits. -/
def Fitting (captureInterface : String) (packets : List PacketMetadata) : Prop :=
  ∀ p ∈ ipPackets packets,
    (sameFlow captureInterface p packets).length < 9223372036854775808 ∧
      wireBytesOf (sameFlow captureInterface p packets) < 9223372036854775808

theorem chunk_sameFlow {inetNtop : InetNtop} (hinet : ∀ family b, Plain (inetNtop family b))
    (hinterface : validName captureInterface = true) {packets : List PacketMetadata}
    (hdissected : ∀ p ∈ packets, Dissected inetNtop p) {p : PacketMetadata} (hp : p ∈ packets) :
    chunk captureInterface (flowKey captureInterface p) packets =
      sameFlow captureInterface p packets := by
  refine List.filter_congr fun q hq => ?_
  have hqmem : q ∈ packets := (List.mem_filter.mp hq).1
  have hkeys := flowKey_inj (plain_interface hinterface) (plain_interface hinterface)
    (plain_addresses hinet (hdissected q hqmem)) (plain_addresses hinet (hdissected p hp))
  simp only [hkeys]

/-- **Persistent flow totals do not depend on how packets are split into intervals.** However the
packets of an interface are split into flushes, the table has one row for every flow, with the
totals of its packets and the times of the first and the last, as long as these totals fit 63
bits. Distinct flows, also those of different interfaces, never share a key. -/
theorem flows_conserved (db : Database ρ) (inetNtop : InetNtop) (captureInterface : String)
    (fs : List Flush) (hinet : ∀ family b, Plain (inetNtop family b))
    (hinterface : validName captureInterface = true)
    (hdissected : ∀ p ∈ drained fs, Dissected inetNtop p)
    (hordinary : Ordinary captureInterface fs)
    (hfitting : Fitting captureInterface (drained fs)) :
    Conserved captureInterface (drained fs) (flushes db captureInterface fs) ∧
      ∀ other, validName other = true → ∀ p q, Dissected inetNtop p → Dissected inetNtop q →
        (flowKey captureInterface p = flowKey other q ↔
          tupleOf captureInterface p = tupleOf other q) := by
  have hsums := flushes_sums db hordinary
  constructor
  · constructor
    · intro p hp
      have hsame := chunk_sameFlow hinet hinterface hdissected (List.mem_filter.mp hp).1
      obtain ⟨hlength, hbytes⟩ := hfitting p hp
      have hsome : chunk captureInterface (flowKey captureInterface p) (drained fs) ≠ [] :=
        List.ne_nil_of_mem (chunk_mem.mpr ⟨hp, rfl⟩)
      rw [← hsame] at hlength hbytes ⊢
      rw [← chunks_flatten] at hlength hbytes
      have htotal := addChunks_totals (D := db.doubles) hlength hbytes
      rw [← hsums.total, chunks_flatten, if_neg hsome, Option.map_eq_some_iff] at htotal
      exact htotal
    · intro key row hrow
      obtain ⟨p, hp⟩ := List.exists_mem_of_ne_nil _ (hsums.row hrow).1
      exact ⟨p, chunk_mem.mp hp⟩
  · intro other hother p q hp hq
    exact flowKey_inj (plain_interface hinterface) (plain_interface hother)
      (plain_addresses hinet hp) (plain_addresses hinet hq)

/-! ## Totals that fit and totals that do not -/

/-- IPv4 addresses as `inet_ntop` writes them. -/
def inetText : InetNtop
  | .inet, b => AddressText.dotted (b.getD 0 0).toNat (b.getD 1 0).toNat (b.getD 2 0).toNat
      (b.getD 3 0).toNat
  | .inet6, _ => "::"

theorem plain_inetText (family : AddressFamily) (b : Bytes) : Plain (inetText family b) := by
  cases family with
  | inet =>
    intro hbar
    have hdigits : ∀ n : Nat, '|' ∉ Nat.toDigits 10 n := fun n hn =>
      absurd (Nat.isDigit_of_mem_toDigits (by decide) (by decide) hn) (by decide)
    rw [inetText, AddressText.dotted_toList] at hbar
    simp [List.intercalate_cons_cons, hdigits] at hbar
  | inet6 =>
    change '|' ∉ "::".toList
    decide

/-- A database without doubles that round. -/
def exactDatabase : Database Rat where
  doubles := .exact
  ranking :=
    { rank := fun t => t.entries.mergeSort fun a b => b.2.lastSeen ≤ a.2.lastSeen
      perm := fun t => List.mergeSort_perm t.entries _
      ordered := fun t => by
        have hsorted : (t.entries.mergeSort fun a b =>
            decide (b.2.lastSeen ≤ a.2.lastSeen)).Pairwise
              fun a b => decide (b.2.lastSeen ≤ a.2.lastSeen) = true := by
          refine List.pairwise_mergeSort (fun a b c hab hbc => ?_) (fun a b => ?_) t.entries
          · simp only [decide_eq_true_eq] at hab hbc ⊢
            omega
          · simp only [Bool.or_eq_true, decide_eq_true_eq]
            omega
        exact hsorted.imp of_decide_eq_true }
  doubleText _ := ""

/-- A packet of the greatest length. -/
def longest : PacketMetadata := FrameLayers.layers inetText FrameTags.udpFrame 4294967295 0

theorem longest_dissected : Dissected inetText longest :=
  ⟨FrameTags.udpFrame, 4294967295, 0, FrameLayers.dissect_layers _ _ _ _⟩

/-- Three packets of one flow, in two flushes. -/
def twoFlushes : List Flush := [⟨0, [longest]⟩, ⟨1, [longest, longest]⟩]

instance (captureInterface : String) (packets : List PacketMetadata) :
    Decidable (Fitting captureInterface packets) :=
  inferInstanceAs (Decidable (∀ p ∈ _, _))

theorem flows_conserved_twoFlushes :
    Conserved "eth0" [longest, longest, longest] (flushes exactDatabase "eth0" twoFlushes) := by
  have hdissected : ∀ p ∈ drained twoFlushes, Dissected inetText p := by
    intro p hp
    have hall : ∀ q ∈ drained twoFlushes, q = longest := by decide +kernel
    rw [hall p hp]
    exact longest_dissected
  have hordinary : Ordinary "eth0" twoFlushes := by
    constructor <;> decide +kernel
  exact (flows_conserved exactDatabase inetText "eth0" twoFlushes plain_inetText (by decide +kernel)
    hdissected hordinary (by decide +kernel)).1

/-- Flushes of one packet each. -/
def singles (n : Nat) : List Flush := List.replicate n ⟨0, [longest]⟩

theorem drained_singles (n : Nat) : drained (singles n) = List.replicate n longest := by
  rw [drained, singles, List.map_replicate, List.flatten_replicate_singleton]

theorem ipPackets_replicate (n : Nat) :
    ipPackets (List.replicate n longest) = List.replicate n longest := by
  have hsource : longest.sourceIp ≠ "" := by decide +kernel
  exact List.filter_eq_self.mpr fun p hp => by
    rw [List.eq_of_mem_replicate hp]
    exact decide_eq_true hsource

theorem flowCount_replicate (n : Nat) : flowCount "eth0" (List.replicate n longest) ≤ 1 := by
  have hkeys : ((ipPackets (List.replicate n longest)).map (flowKey "eth0")).toFinset ⊆
      {flowKey "eth0" longest} := by
    intro key hmem
    obtain ⟨p, hp, rfl⟩ := List.mem_map.mp (List.mem_toFinset.mp hmem)
    rw [ipPackets_replicate] at hp
    rw [List.eq_of_mem_replicate hp]
    exact Finset.mem_singleton_self _
  exact (Finset.card_le_card hkeys).trans (Finset.card_singleton _).le

theorem singles_ordinary (n : Nat) : Ordinary "eth0" (singles n) := by
  have hrecent : horizon 0 ≤ timestampMs longest := by decide +kernel
  refine ⟨fun f hf => ?_, ?_, fun f hf p hp => ?_⟩
  · rw [List.eq_of_mem_replicate hf]
    exact (flowCount_replicate 1).trans (by decide)
  · rw [drained_singles]
    exact (flowCount_replicate n).trans (by decide)
  · rw [drained_singles, ipPackets_replicate] at hp
    rw [List.eq_of_mem_replicate hf, List.eq_of_mem_replicate hp]
    exact hrecent

/-- The bytes of a flow are a number of 64 bits or a double. -/
theorem addChunks_bounded {chunks : List (List PacketMetadata)} {total : Total Rat}
    (hchunks : ∀ g ∈ chunks, wireBytesOf g < 9223372036854775808)
    (h : addChunks .exact chunks = some total) : total.bytes.Bounded := by
  have hexact : ∀ x n, Doubles.exact.integral x = some n → fits n = true := by
    intro x n hx
    simp only [Doubles.exact, Option.ite_none_right_eq_some, Bool.and_eq_true] at hx
    obtain ⟨⟨-, hfits⟩, hn⟩ := hx
    rw [← Option.some.inj hn]
    exact hfits
  induction chunks using List.reverseRecOn with
  | nil => cases h
  | append_singleton past g ih =>
    have hg := hchunks g (List.mem_append_right _ (List.mem_singleton_self g))
    have hpast := ih fun g' hg' => hchunks g' (List.mem_append_left _ hg')
    rw [addChunks_snoc] at h
    by_cases hnone : g = []
    · rw [hnone, addChunk_nil] at h
      exact hpast h
    · cases hold : addChunks .exact past with
      | none =>
        rw [hold, addChunk_none hnone, Option.some.injEq] at h
        rw [← h]
        exact fits_iff.mpr ⟨by omega, by omega⟩
      | some old =>
        rw [hold, addChunk_some hnone, Option.some.injEq] at h
        rw [← h]
        exact Cell.bounded_plus hexact _ _

/-- A total of more than 63 bits is not what the table says. -/
theorem singles_overflow {n : Nat} (h : 9223372036854775808 ≤ n * 4294967295) :
    ∃ row, (flushes exactDatabase "eth0" (singles n)).find (flowKey "eth0" longest) = some row ∧
      row.bytes.int64 .exact ≠ wireBytesOf (sameFlow "eth0" longest (drained (singles n))) := by
  have hsums := flushes_sums exactDatabase (singles_ordinary n)
  have hwire : longest.wireBytes.toNat = 4294967295 := by decide +kernel
  have hsame : sameFlow "eth0" longest (drained (singles n)) = List.replicate n longest := by
    rw [sameFlow, drained_singles, ipPackets_replicate]
    exact List.filter_eq_self.mpr fun p hp => by
      rw [List.eq_of_mem_replicate hp]
      exact decide_eq_true rfl
  have hchunk : chunk "eth0" (flowKey "eth0" longest) (drained (singles n)) ≠ [] := by
    rw [drained_singles]
    refine List.ne_nil_of_mem (chunk_mem.mpr ⟨?_, rfl⟩)
    rw [ipPackets_replicate]
    exact List.mem_replicate.mpr ⟨by omega, rfl⟩
  have htimes := addChunks_times (D := exactDatabase.doubles)
    ((singles n).map fun f => chunk "eth0" (flowKey "eth0" longest) f.packets)
  rw [← hsums.total, chunks_flatten, if_neg hchunk] at htimes
  cases hrow : (flushes exactDatabase "eth0" (singles n)).find (flowKey "eth0" longest) with
  | none =>
    rw [hrow] at htimes
    cases htimes
  | some row =>
    refine ⟨row, rfl, ?_⟩
    have htotal := hsums.total (flowKey "eth0" longest)
    rw [hrow, Option.map_some] at htotal
    have hbounded := addChunks_bounded (fun g hg => ?_) htotal.symm
    · have hlt := Cell.int64_lt (D := .exact) hbounded
      rw [hsame, wireBytesOf, List.map_replicate, List.sum_replicate_nat, hwire]
      change row.bytes.int64 .exact < _ at hlt
      omega
    · obtain ⟨f, hf, rfl⟩ := List.mem_map.mp hg
      rw [List.eq_of_mem_replicate hf]
      decide +kernel

theorem singles_not_conserved :
    Ordinary "eth0" (singles 2147483649) ∧
      (∀ p ∈ drained (singles 2147483649), Dissected inetText p) ∧
      ∃ row, (flushes exactDatabase "eth0" (singles 2147483649)).find (flowKey "eth0" longest) =
          some row ∧
        row.bytes.int64 .exact ≠
          wireBytesOf (sameFlow "eth0" longest (drained (singles 2147483649))) := by
  refine ⟨singles_ordinary _, fun p hp => ?_, singles_overflow (by omega)⟩
  rw [drained_singles] at hp
  rw [List.eq_of_mem_replicate hp]
  exact longest_dissected

end Magicbox.Guarantees.FlowTotals
