import Magicbox.Guarantees.FlowTotals

/-!
# The listed connections

What GET /api/v1/flows answers behind a sequence of flushes: the flows that were
seen last, each with the totals of all its packets and the addresses and ports of
the last one, however the packets were split into flushes.
-/

set_option autoImplicit false

namespace Magicbox.Guarantees.ConnectionListing
open Source.Capture Source.Sampling Source.Json Source.PacketJson Source.FlowTable
open Library Library.Grouping Library.Results Library.Sqlite
open BreakdownTruth FlowAtomicity TrackedTotals FlowTotals

variable {ρ : Type} {db : Database ρ} {D : Doubles ρ} {captureInterface : String}

/-! ## The metadata of a row -/

theorem accumulate_find {packets : List PacketMetadata}
    (h : flowCount captureInterface packets ≤ 4096) (t : Table ρ) (key : String) :
    (accumulate D t ((breakdownOf captureInterface packets).flows_.entries.map
        fun e => boundFor e.2)).find key =
      if chunk captureInterface key packets = [] then t.find key
      else some (rowWith D (flowOf captureInterface (chunk captureInterface key packets))
        (t.find key)) := by
  have halter : accumulate D t ((breakdownOf captureInterface packets).flows_.entries.map
        fun e => boundFor e.2) =
      (breakdownOf captureInterface packets).flows_.entries.foldl
        (fun m e => m.alter e.1 (rowWith D e.2)) t := by
    rw [accumulate, List.foldl_map]
    refine List.foldl_ext _ _ _ fun m e he => ?_
    rw [flows_few h] at he
    obtain ⟨⟨other, g⟩, hg, rfl⟩ := List.mem_map.mp he
    obtain ⟨hmembers, hsome⟩ := mem_group.mp hg
    have hkey : (flowOf captureInterface g).key = other := by
      refine key_flowOf (fun p hp => ?_) hsome
      rw [hmembers] at hp
      exact of_decide_eq_true (List.mem_filter.mp hp).2
    rw [upsert, boundFor, hkey]
    rfl
  rw [halter, OrderedMap.find_foldl_alter, flows_few h, OrderedMap.find_mapValues, find_group]
  by_cases hnone : members (flowKey captureInterface) (ipPackets packets) key = []
  · rw [if_pos hnone, chunk, hnone, if_pos rfl]
    rfl
  · rw [if_neg hnone, chunk, if_neg hnone]
    rfl

/-- The metadata of a flow: its last packet, its key and the interface. -/
structure Tagged (captureInterface key : String) (last : Option PacketMetadata) (v : Value) :
    Prop where
  intro ::
  flow : ∃ f : Flow, v = flowJson f ∧ some f.packet = last ∧ f.key = key ∧
    f.captureInterface = captureInterface

/-- Every row has the metadata of its flow. -/
def Described (captureInterface : String) (fs : List Flush) (t : Table ρ) : Prop :=
  ∀ key row, t.find key = some row →
    Tagged captureInterface key (chunk captureInterface key (drained fs)).getLast? row.metadata

theorem chunk_snoc (key : String) (past : List Flush) (f : Flush) :
    chunk captureInterface key (drained (past ++ [f])) =
      chunk captureInterface key (drained past) ++ chunk captureInterface key f.packets := by
  rw [drained_snoc, chunk, members, ipPackets_append, List.filter_append]
  rfl

theorem metadata_rowWith (f : Flow) (old : Option (Row ρ)) :
    (rowWith D f old).metadata = flowJson f := by
  cases old <;> rfl

/-- A row that a flush leaves is one that it made or found. -/
theorem find_flush {t : Table ρ} {f : Flush} {key : String} {row : Row ρ}
    (hrow : (flush db captureInterface t f).find key = some row) :
    (accumulate db.doubles t ((breakdownOf captureInterface f.packets).flows_.entries.map
      fun e => boundFor e.2)).find key = some row := by
  rw [flush_eq, deleteBeyond, OrderedMap.find_filter] at hrow
  split at hrow
  · rw [deleteOlder, OrderedMap.find_filterValues] at hrow
    exact (Option.filter_eq_some_iff.mp hrow).1
  · cases hrow

theorem flush_described {past : List Flush} {f : Flush} {t : Table ρ}
    (hfew : flowCount captureInterface f.packets ≤ 4096)
    (h : Described captureInterface past t) :
    Described captureInterface (past ++ [f]) (flush db captureInterface t f) := by
  intro key row hrow
  have hfound := find_flush hrow
  rw [accumulate_find hfew] at hfound
  rw [chunk_snoc]
  by_cases hnone : chunk captureInterface key f.packets = []
  · rw [if_pos hnone] at hfound
    rw [hnone, List.append_nil]
    exact h key row hfound
  · rw [if_neg hnone] at hfound
    obtain rfl := Option.some.inj hfound
    refine ⟨_, metadata_rowWith _ _, ?_, ?_, rfl⟩
    · rw [List.getLast?_append_of_ne_nil _ hnone, flowOf, List.getLast?_eq_some_getLast hnone]
      rfl
    · exact key_flowOf (fun p hp => (chunk_mem.mp hp).2) hnone

theorem flushes_described (db : Database ρ) {fs : List Flush}
    (hfew : ∀ f ∈ fs, flowCount captureInterface f.packets ≤ 4096) :
    Described captureInterface fs (flushes db captureInterface fs) := by
  induction fs using List.reverseRecOn with
  | nil =>
    intro key row hrow
    cases hrow
  | append_singleton past f ih =>
    rw [flushes, List.foldl_append, List.foldl_cons, List.foldl_nil]
    exact flush_described (hfew f (by simp)) (ih fun g hg => hfew g (List.mem_append_left _ hg))

/-! ## Rows of the answer -/

/-- The names of the members that a row has in the place of the flow's. -/
def totalNames : List String := ["first_seen", "last_seen", "packets", "bytes"]

/-- A row for the flow of a packet, which is its last one. -/
structure Describes (captureInterface : String) (packets : List PacketMetadata)
    (p : PacketMetadata) (row : Value) : Prop where
  /-- The addresses, ports and protocols of the last packet, and its time. -/
  packet : ∀ name, name ∉ ["key", "capture_interface"] ++ totalNames →
    row.get name = (packetJson p).get name
  key : row.get "key" = .string (flowKey captureInterface p)
  interface : row.get "capture_interface" = .string captureInterface
  firstSeen : row.get "first_seen" =
    .int (firstMs (chunk captureInterface (flowKey captureInterface p) packets))
  lastSeen : row.get "last_seen" = .int (timestampMs p)
  count : row.get "packets" = .string
    (toString (chunk captureInterface (flowKey captureInterface p) packets).length)
  total : row.get "bytes" = .string
    (toString (wireBytesOf (chunk captureInterface (flowKey captureInterface p) packets)))

theorem assignMember_object {v : Value} (h : v.isObject = true) (name : String) (x : Value) :
    assignMember v name x = .ok (v.set name x) := by
  rw [assignMember, h]
  rfl

/-- What is made of a row that has an object. -/
theorem connectionRow_object {row : Row ρ} (h : row.metadata.isObject = true) :
    connectionRow D row = .ok ((((row.metadata.set "first_seen" (.int row.firstSeen)).set
      "last_seen" (.int row.lastSeen)).set "packets" (.string (toString (row.packets.int64 D)))).set
      "bytes" (.string (toString (row.bytes.int64 D)))) := by
  unfold connectionRow
  rw [assignMember_object h]
  simp only [bind, Except.bind, assignMember_object (Value.isObject_set _ _ _)]

/-- Packets none of whose flows has a total of more than 63 bits. -/
def FlowsFit (captureInterface : String) (packets : List PacketMetadata) : Prop :=
  ∀ p ∈ ipPackets packets,
    (chunk captureInterface (flowKey captureInterface p) packets).length < 9223372036854775808 ∧
      wireBytesOf (chunk captureInterface (flowKey captureInterface p) packets) <
        9223372036854775808

instance (captureInterface : String) (packets : List PacketMetadata) :
    Decidable (FlowsFit captureInterface packets) :=
  inferInstanceAs (Decidable (∀ p ∈ _, _))

/-- The packet that a flow was seen last with. -/
def lastPacket (captureInterface : String) (packets : List PacketMetadata) (key : String) :
    PacketMetadata :=
  (flowOf captureInterface (chunk captureInterface key packets)).packet

theorem lastPacket_spec {packets : List PacketMetadata} {key : String}
    (h : chunk captureInterface key packets ≠ []) :
    (chunk captureInterface key packets).getLast? =
        some (lastPacket captureInterface packets key) ∧
      flowKey captureInterface (lastPacket captureInterface packets key) = key ∧
      lastPacket captureInterface packets key ∈ ipPackets packets := by
  have hlast := List.getLast?_eq_some_getLast h
  have hpacket : lastPacket captureInterface packets key =
      (chunk captureInterface key packets).getLast h := by
    rw [lastPacket, flowOf, hlast]
    rfl
  obtain ⟨hmem, hkey⟩ := chunk_mem.mp (List.getLast_mem h)
  rw [hpacket]
  exact ⟨hlast, hkey, hmem⟩

theorem describes_row {packets : List PacketMetadata} {key : String} {row : Row ρ}
    (hsome : chunk captureInterface key packets ≠ [])
    (htagged : Tagged captureInterface key (chunk captureInterface key packets).getLast?
      row.metadata)
    (htotal : totalOf row = ⟨firstMs (chunk captureInterface key packets),
      lastMs (chunk captureInterface key packets),
      .integer (chunk captureInterface key packets).length,
      .integer (wireBytesOf (chunk captureInterface key packets))⟩) :
    ∃ v, connectionRow D row = .ok v ∧
      Describes captureInterface packets (lastPacket captureInterface packets key) v := by
  obtain ⟨hlast, hkey, -⟩ := lastPacket_spec hsome
  obtain ⟨f, hmetadata, hpacket, hflow, hinterface⟩ := htagged.flow
  rw [hlast, Option.some.injEq] at hpacket
  have htime : lastMs (chunk captureInterface key packets) =
      timestampMs (lastPacket captureInterface packets key) := by
    rw [lastMs, hlast]
    rfl
  simp only [totalOf, Total.mk.injEq] at htotal
  obtain ⟨hfirst, hseen, hpackets, hbytes⟩ := htotal
  have hobject : row.metadata.isObject = true := by
    rw [hmetadata, flowJson]
    exact Value.isObject_set _ _ _
  refine ⟨_, connectionRow_object hobject, ?_⟩
  rw [hmetadata, hfirst, hseen, hpackets, hbytes]
  constructor
  · intro name hname
    simp only [totalNames, List.cons_append, List.nil_append, List.mem_cons, List.not_mem_nil,
      or_false, not_or] at hname
    obtain ⟨hkey', hinterface', hfirst', hlast', hpackets', hbytes'⟩ := hname
    simp [flowJson, hpacket, Ne.symm hkey', Ne.symm hinterface', Ne.symm hfirst',
      Ne.symm hlast', Ne.symm hpackets', Ne.symm hbytes']
  · simp [flowJson, hflow, hkey]
  · simp [flowJson, hinterface]
  · simp [hkey]
  · simp [htime]
  · simp [hkey, Cell.int64]
    rfl
  · simp [hkey, Cell.int64]
    rfl

/-! ## The listing -/

section Listing
variable {fs : List Flush} {t : Table ρ}

/-- A flow has a row exactly if it has a packet. -/
theorem row_exists (h : Sums D captureInterface fs t) {key : String} :
    (∃ row, t.find key = some row) ↔ chunk captureInterface key (drained fs) ≠ [] := by
  constructor
  · rintro ⟨row, hrow⟩
    exact (h.row hrow).1
  · intro hsome
    have htimes := addChunks_times (D := D) (fs.map fun f => chunk captureInterface key f.packets)
    rw [← h.total key, chunks_flatten, if_neg hsome, Option.map_map] at htimes
    obtain ⟨row, hrow, -⟩ := Option.map_eq_some_iff.mp htimes
    exact ⟨row, hrow⟩

theorem length_entries (h : Sums D captureInterface fs t) :
    t.entries.length = flowCount captureInterface (drained fs) := by
  rw [← List.length_map (f := Prod.fst), ← List.toFinset_card_of_nodup t.keys_nodup, flowCount]
  congr 1
  ext key
  have hrow : key ∈ t.entries.map Prod.fst ↔ ∃ row, t.find key = some row := by
    simp [← OrderedMap.mem_entries]
  rw [List.mem_toFinset, List.mem_toFinset, hrow, row_exists h, List.mem_map]
  constructor
  · intro hsome
    obtain ⟨p, hp⟩ := List.exists_mem_of_ne_nil _ hsome
    exact ⟨p, chunk_mem.mp hp⟩
  · rintro ⟨p, hp⟩
    exact List.ne_nil_of_mem (chunk_mem.mpr hp)

/-- The totals of a row whose flow fits. -/
theorem row_totals (h : Sums D captureInterface fs t)
    (hfit : FlowsFit captureInterface (drained fs)) {key : String} {row : Row ρ}
    (hrow : t.find key = some row) :
    totalOf row = ⟨firstMs (chunk captureInterface key (drained fs)),
      lastMs (chunk captureInterface key (drained fs)),
      .integer (chunk captureInterface key (drained fs)).length,
      .integer (wireBytesOf (chunk captureInterface key (drained fs)))⟩ := by
  have hsome := (h.row hrow).1
  obtain ⟨-, hkey, hmem⟩ := lastPacket_spec hsome
  obtain ⟨hlength, hbytes⟩ := hfit _ hmem
  rw [hkey] at hlength hbytes
  have htotal := h.total key
  rw [hrow, addChunks_totals (by rwa [chunks_flatten]) (by rwa [chunks_flatten]), chunks_flatten,
    if_neg hsome] at htotal
  exact Option.some.inj htotal

theorem lastSeen_eq (h : Sums D captureInterface fs t) {key : String} {row : Row ρ}
    (hrow : t.find key = some row) :
    row.lastSeen = timestampMs (lastPacket captureInterface (drained fs) key) := by
  obtain ⟨hsome, -, hseen⟩ := h.row hrow
  rw [hseen, lastMs, (lastPacket_spec hsome).1]
  rfl

end Listing

theorem forall₂_of_exists {α β : Type} {R : α → β → Prop} {l : List α}
    (h : ∀ x ∈ l, ∃ y, R x y) : ∃ ys, List.Forall₂ R l ys := by
  induction l with
  | nil => exact ⟨[], .nil⟩
  | cons x rest ih =>
    obtain ⟨y, hy⟩ := h x List.mem_cons_self
    obtain ⟨ys, hys⟩ := ih fun z hz => h z (List.mem_cons_of_mem x hz)
    exact ⟨y :: ys, .cons hy hys⟩

/-- **The flows that are listed.** However the packets of an interface are split
into flushes, the answer has a row for each of the up to 200 flows that were seen
last, the latest first: its key, the totals of all its packets, the time of its
first, and the members of its last. No flow that is left out was seen later. -/
theorem listing_exact (db : Database ρ) (captureInterface : String) (fs : List Flush)
    (hordinary : Ordinary captureInterface fs) (hfit : FlowsFit captureInterface (drained fs)) :
    ∃ (listed : List PacketMetadata) (rows : List Value),
      connections db (flushes db captureInterface fs) = .ok (.array rows) ∧
      List.Forall₂ (Describes captureInterface (drained fs)) listed rows ∧
      listed.length = min 200 (flowCount captureInterface (drained fs)) ∧
      (∀ p ∈ listed, (chunk captureInterface (flowKey captureInterface p)
        (drained fs)).getLast? = some p) ∧
      (listed.map (flowKey captureInterface)).Nodup ∧
      listed.Pairwise (fun a b => timestampMs b ≤ timestampMs a) ∧
      ∀ p ∈ ipPackets (drained fs),
        flowKey captureInterface p ∉ listed.map (flowKey captureInterface) →
          ∀ q ∈ listed, lastMs (chunk captureInterface (flowKey captureInterface p)
            (drained fs)) ≤ timestampMs q := by
  have hsums := flushes_sums db hordinary
  have hdescribed := flushes_described db hordinary.few
  generalize flushes db captureInterface fs = t at hsums hdescribed ⊢
  have hranked : ∀ e ∈ db.ranking.rank t, t.find e.1 = some e.2 := fun e he =>
    (OrderedMap.mem_entries t).mp ((db.ranking.perm t).mem_iff.mp he)
  have hentry : ∀ e ∈ (db.ranking.rank t).take 200, t.find e.1 = some e.2 := fun e he =>
    hranked e (List.mem_of_mem_take he)
  have hspec : ∀ e ∈ (db.ranking.rank t).take 200, _ := fun e he =>
    lastPacket_spec (hsums.row (hentry e he)).1
  obtain ⟨rows, hrows⟩ := forall₂_of_exists (l := (db.ranking.rank t).take 200)
    (R := fun e v => connectionRow db.doubles e.2 = .ok v ∧ Describes captureInterface
      (drained fs) (lastPacket captureInterface (drained fs) e.1) v)
    fun e he => describes_row (hsums.row (hentry e he)).1 (hdescribed _ _ (hentry e he))
      (row_totals hsums hfit (hentry e he))
  have hkeys : (((db.ranking.rank t).take 200).map
      fun e => lastPacket captureInterface (drained fs) e.1).map (flowKey captureInterface) =
      ((db.ranking.rank t).take 200).map Prod.fst := by
    rw [List.map_map]
    exact List.map_congr_left fun e he => (hspec e he).2.1
  have hsorted := db.ranking.ordered t
  refine ⟨((db.ranking.rank t).take 200).map
    fun e => lastPacket captureInterface (drained fs) e.1, rows, ?_, ?_, ?_, ?_, ?_, ?_, ?_⟩
  · have hanswer := mapM_eq_ok.mpr (hrows.imp fun _ _ h => h.1)
    rw [connections, hanswer]
    rfl
  · exact List.forall₂_map_left_iff.mpr (hrows.imp fun _ _ h => h.2)
  · rw [List.length_map, List.length_take, (db.ranking.perm t).length_eq, length_entries hsums]
  · intro p hp
    obtain ⟨e, he, rfl⟩ := List.mem_map.mp hp
    obtain ⟨hlast, hkey, -⟩ := hspec e he
    rw [hkey]
    exact hlast
  · rw [hkeys]
    have hnodup : ((db.ranking.rank t).map Prod.fst).Nodup :=
      ((db.ranking.perm t).map Prod.fst).nodup_iff.mpr t.keys_nodup
    exact hnodup.sublist ((List.take_sublist 200 _).map _)
  · rw [List.pairwise_map]
    refine (List.Pairwise.and_mem.mp (hsorted.sublist (List.take_sublist 200 _))).imp ?_
    rintro a b ⟨ha, hb, hab⟩
    rwa [← lastSeen_eq hsums (hentry a ha), ← lastSeen_eq hsums (hentry b hb)]
  · intro p hp hunlisted q hq
    obtain ⟨e, he, rfl⟩ := List.mem_map.mp hq
    have hsome : chunk captureInterface (flowKey captureInterface p) (drained fs) ≠ [] :=
      List.ne_nil_of_mem (chunk_mem.mpr ⟨hp, rfl⟩)
    obtain ⟨row, hrow⟩ := (row_exists hsums).mpr hsome
    rw [hkeys] at hunlisted
    have hmem : (flowKey captureInterface p, row) ∈ db.ranking.rank t :=
      (db.ranking.perm t).mem_iff.mpr ((OrderedMap.mem_entries t).mpr hrow)
    rw [← List.take_append_drop 200 (db.ranking.rank t)] at hmem hsorted
    rcases List.mem_append.mp hmem with hmem | hmem
    · exact absurd (List.mem_map_of_mem hmem) hunlisted
    · have hle := (List.pairwise_append.mp hsorted).2.2 e he _ hmem
      rw [← lastSeen_eq hsums (hentry e he), ← (hsums.row hrow).2.2]
      exact hle

/-- Three packets of one flow are listed as one row. -/
theorem listing_exact_twoFlushes :
    ∃ row, connections exactDatabase (flushes exactDatabase "eth0" twoFlushes) =
      .ok (.array [row]) ∧ row.get "packets" = .string "3" := by
  have hordinary : Ordinary "eth0" twoFlushes := by
    constructor <;> decide +kernel
  obtain ⟨listed, rows, hanswer, hrows, hlength, hlast, -⟩ :=
    listing_exact exactDatabase "eth0" twoFlushes hordinary (by decide +kernel)
  have hone : min 200 (flowCount "eth0" (drained twoFlushes)) = 1 := by decide +kernel
  obtain ⟨p, rfl⟩ := List.length_eq_one_iff.mp (hlength.trans hone)
  obtain ⟨row, rfl⟩ := List.length_eq_one_iff.mp (hrows.length_eq.symm.trans rfl)
  have hrow := (List.forall₂_cons.mp hrows).1
  have hall : ∀ q ∈ drained twoFlushes, q = longest := by decide +kernel
  have hmem := (chunk_mem.mp (List.mem_of_getLast? (hlast p (by simp)))).1
  obtain rfl := hall p (List.mem_filter.mp hmem).1
  have hcount : (chunk "eth0" (flowKey "eth0" longest) (drained twoFlushes)).length = 3 := by
    decide +kernel
  refine ⟨row, hanswer, ?_⟩
  rw [hrow.count, hcount]
  rfl

end Magicbox.Guarantees.ConnectionListing
