import Mathlib.Algebra.GroupWithZero.Nat
import Mathlib.Data.String.Basic
import Mathlib.Data.List.Pairwise
import Mathlib.Data.List.Perm.Basic

/-!
# Ordered maps

Finite maps as lists of entries in the order of their keys, each key once.
-/

set_option autoImplicit false

namespace Magicbox.Library

variable {κ α : Type} [LinearOrder κ]

structure OrderedMap (κ α : Type) [LinearOrder κ] where
  entries : List (κ × α)
  ordered : entries.Pairwise fun a b => a.1 < b.1

namespace OrderedMap

def empty : OrderedMap κ α := ⟨[], List.Pairwise.nil⟩

/-! ## Entries -/

def findEntry (key : κ) : List (κ × α) → Option α
  | [] => none
  | (k, v) :: rest => if k = key then some v else findEntry key rest

/-- Replaces the value of a key, or puts the key where it belongs. -/
def alterEntry (f : Option α → α) (key : κ) : List (κ × α) → List (κ × α)
  | [] => [(key, f none)]
  | (k, v) :: rest =>
    if k = key then (key, f (some v)) :: rest
    else if key < k then (key, f none) :: (k, v) :: rest
    else (k, v) :: alterEntry f key rest

theorem key_of_mem_alterEntry {f : Option α → α} {key : κ} {entries : List (κ × α)} {e : κ × α}
    (he : e ∈ alterEntry f key entries) : e.1 = key ∨ e ∈ entries := by
  induction entries with
  | nil => exact Or.inl (by simpa [alterEntry] using congrArg Prod.fst (List.mem_singleton.mp he))
  | cons head rest ih =>
    obtain ⟨k, v⟩ := head
    unfold alterEntry at he
    split at he
    · rcases List.mem_cons.mp he with he | he
      · exact Or.inl (by rw [he])
      · exact Or.inr (List.mem_cons_of_mem _ he)
    · split at he
      · rcases List.mem_cons.mp he with he | he
        · exact Or.inl (by rw [he])
        · exact Or.inr he
      · rcases List.mem_cons.mp he with he | he
        · exact Or.inr (he ▸ List.mem_cons_self)
        · exact (ih he).imp_right (List.mem_cons_of_mem _)

theorem ordered_alterEntry (f : Option α → α) (key : κ) {entries : List (κ × α)}
    (h : entries.Pairwise fun a b => a.1 < b.1) :
    (alterEntry f key entries).Pairwise fun a b => a.1 < b.1 := by
  induction entries with
  | nil => exact List.pairwise_singleton _ _
  | cons head rest ih =>
    obtain ⟨k, v⟩ := head
    obtain ⟨hhead, hrest⟩ := List.pairwise_cons.mp h
    unfold alterEntry
    split
    · next heq => exact List.pairwise_cons.mpr ⟨fun e he => heq ▸ hhead e he, hrest⟩
    · next hne =>
      split
      · next hlt =>
        refine List.pairwise_cons.mpr ⟨fun e he => ?_, h⟩
        rcases List.mem_cons.mp he with he | he
        · rw [he]
          exact hlt
        · exact lt_trans hlt (hhead e he)
      · next hge =>
        refine List.pairwise_cons.mpr ⟨fun e he => ?_, ih hrest⟩
        rcases key_of_mem_alterEntry he with hkey | hold
        · rw [hkey]
          exact lt_of_le_of_ne (not_lt.mp hge) hne
        · exact hhead e hold

/-- A key that is smaller than all keys is not found. -/
theorem findEntry_of_lt {key : κ} {entries : List (κ × α)} (h : ∀ e ∈ entries, key < e.1) :
    findEntry key entries = none := by
  induction entries with
  | nil => rfl
  | cons head rest ih =>
    obtain ⟨k, v⟩ := head
    have hne : k ≠ key := fun heq => lt_irrefl key (heq ▸ h (k, v) List.mem_cons_self)
    rw [findEntry, if_neg hne]
    exact ih fun e he => h e (List.mem_cons_of_mem _ he)

theorem findEntry_alterEntry_self (f : Option α → α) (key : κ) {entries : List (κ × α)}
    (h : entries.Pairwise fun a b => a.1 < b.1) :
    findEntry key (alterEntry f key entries) = some (f (findEntry key entries)) := by
  induction entries with
  | nil => simp [alterEntry, findEntry]
  | cons head rest ih =>
    obtain ⟨k, v⟩ := head
    obtain ⟨hhead, hrest⟩ := List.pairwise_cons.mp h
    by_cases hkey : k = key
    · simp [alterEntry, findEntry, hkey]
    · by_cases hlt : key < k
      · have hnone : findEntry key rest = none :=
          findEntry_of_lt fun e he => lt_trans hlt (hhead e he)
        simp [alterEntry, findEntry, hkey, hlt, hnone]
      · simp [alterEntry, findEntry, hkey, hlt, ih hrest]

theorem findEntry_alterEntry_of_ne (f : Option α → α) {key other : κ} (h : other ≠ key)
    (entries : List (κ × α)) :
    findEntry other (alterEntry f key entries) = findEntry other entries := by
  induction entries with
  | nil => simp [alterEntry, findEntry, h.symm]
  | cons head rest ih =>
    obtain ⟨k, v⟩ := head
    by_cases hkey : k = key
    · simp [alterEntry, findEntry, hkey, h.symm]
    · by_cases hlt : key < k
      · simp [alterEntry, findEntry, hkey, hlt, h.symm]
      · simp [alterEntry, findEntry, hkey, hlt, ih]

theorem sum_alterEntry (f : Option α → α) (key : κ) (w : α → Nat) {entries : List (κ × α)}
    (h : entries.Pairwise fun a b => a.1 < b.1) :
    ((alterEntry f key entries).map fun e => w e.2).sum + ((findEntry key entries).map w).getD 0 =
      (entries.map fun e => w e.2).sum + w (f (findEntry key entries)) := by
  induction entries with
  | nil => simp [alterEntry, findEntry]
  | cons head rest ih =>
    obtain ⟨k, v⟩ := head
    obtain ⟨hhead, hrest⟩ := List.pairwise_cons.mp h
    by_cases hkey : k = key
    · simp [alterEntry, findEntry, hkey]
      omega
    · by_cases hlt : key < k
      · have hnone : findEntry key rest = none :=
          findEntry_of_lt fun e he => lt_trans hlt (hhead e he)
        simp [alterEntry, findEntry, hkey, hlt, hnone]
        omega
      · have := ih hrest
        simp [alterEntry, findEntry, hkey, hlt]
        omega

/-! ## Maps -/

def find (m : OrderedMap κ α) (key : κ) : Option α := findEntry key m.entries

def contains (m : OrderedMap κ α) (key : κ) : Bool := (m.find key).isSome

def size (m : OrderedMap κ α) : Nat := m.entries.length

/-- Sets a key to what `f` makes of its value. -/
def alter (m : OrderedMap κ α) (key : κ) (f : Option α → α) : OrderedMap κ α :=
  ⟨alterEntry f key m.entries, ordered_alterEntry f key m.ordered⟩

/-- The sum of a measure over all values. -/
def total (m : OrderedMap κ α) (w : α → Nat) : Nat := (m.entries.map fun e => w e.2).sum

@[simp] theorem find_empty (key : κ) : (empty : OrderedMap κ α).find key = none := rfl

@[simp] theorem total_empty (w : α → Nat) : (empty : OrderedMap κ α).total w = 0 := rfl

@[simp] theorem find_alter_self (m : OrderedMap κ α) (key : κ) (f : Option α → α) :
    (m.alter key f).find key = some (f (m.find key)) :=
  findEntry_alterEntry_self f key m.ordered

@[simp] theorem find_alter_of_ne (m : OrderedMap κ α) {key other : κ} (h : other ≠ key)
    (f : Option α → α) : (m.alter key f).find other = m.find other :=
  findEntry_alterEntry_of_ne f h m.entries

/-- What an alteration does to a sum. -/
theorem total_alter (m : OrderedMap κ α) (key : κ) (f : Option α → α) (w : α → Nat) :
    (m.alter key f).total w + ((m.find key).map w).getD 0 = m.total w + w (f (m.find key)) :=
  sum_alterEntry f key w m.ordered

theorem size_eq_total (m : OrderedMap κ α) : m.size = m.total fun _ => 1 := by
  simp [size, total]

theorem size_alter_of_mem (m : OrderedMap κ α) {key : κ} (f : Option α → α)
    (h : m.contains key = true) : (m.alter key f).size = m.size := by
  obtain ⟨value, hvalue⟩ := Option.isSome_iff_exists.mp h
  have htotal := m.total_alter key f fun _ => 1
  rw [hvalue, Option.map_some, Option.getD_some] at htotal
  rw [size_eq_total, size_eq_total]
  omega

theorem size_alter_of_not_mem (m : OrderedMap κ α) {key : κ} (f : Option α → α)
    (h : m.find key = none) : (m.alter key f).size = m.size + 1 := by
  have htotal := m.total_alter key f fun _ => 1
  rw [h, Option.map_none, Option.getD_none] at htotal
  rw [size_eq_total, size_eq_total]
  omega

/-! ## Maps by their entries -/

theorem mem_of_findEntry {key : κ} {value : α} {entries : List (κ × α)}
    (h : findEntry key entries = some value) : (key, value) ∈ entries := by
  induction entries with
  | nil => cases h
  | cons head rest ih =>
    obtain ⟨k, v⟩ := head
    rw [findEntry] at h
    split at h
    · next heq =>
      cases h
      rw [heq]
      exact List.mem_cons_self
    · exact List.mem_cons_of_mem _ (ih h)

theorem findEntry_of_mem {key : κ} {value : α} {entries : List (κ × α)}
    (hordered : entries.Pairwise fun a b => a.1 < b.1) (h : (key, value) ∈ entries) :
    findEntry key entries = some value := by
  induction entries with
  | nil => cases h
  | cons head rest ih =>
    obtain ⟨hhead, hrest⟩ := List.pairwise_cons.mp hordered
    rcases List.mem_cons.mp h with rfl | hmem
    · exact if_pos rfl
    · have hne : head.1 ≠ key := ne_of_lt (hhead _ hmem)
      rw [findEntry, if_neg hne]
      exact ih hrest hmem

theorem mem_entries (m : OrderedMap κ α) {key : κ} {value : α} :
    (key, value) ∈ m.entries ↔ m.find key = some value :=
  ⟨findEntry_of_mem m.ordered, mem_of_findEntry⟩

theorem entries_nodup (m : OrderedMap κ α) : m.entries.Nodup :=
  m.ordered.imp fun h heq => absurd (heq ▸ h) (lt_irrefl _)

theorem keys_nodup (m : OrderedMap κ α) : (m.entries.map Prod.fst).Nodup :=
  List.pairwise_map.mpr (m.ordered.imp ne_of_lt)

/-- Two maps that find the same are the same. -/
theorem ext_find {m n : OrderedMap κ α} (h : ∀ key, m.find key = n.find key) : m = n := by
  have hperm : m.entries.Perm n.entries := by
    refine (List.perm_ext_iff_of_nodup m.entries_nodup n.entries_nodup).mpr fun e => ?_
    obtain ⟨key, value⟩ := e
    rw [mem_entries, mem_entries, h]
  have hentries : m.entries = n.entries :=
    hperm.eq_of_pairwise (fun a b _ _ hab hba => absurd hba (lt_asymm hab)) m.ordered n.ordered
  cases m
  cases n
  congr

/-- Alterations by the entries of a map, each of its own key. -/
theorem find_foldl_alter {β : Type} (f : β → Option α → α) (changes : OrderedMap κ β)
    (m : OrderedMap κ α) (key : κ) :
    (changes.entries.foldl (fun m e => m.alter e.1 (f e.2)) m).find key =
      match changes.find key with
      | none => m.find key
      | some b => some (f b (m.find key)) := by
  obtain ⟨entries, hordered⟩ := changes
  unfold find
  induction entries generalizing m with
  | nil => rfl
  | cons head rest ih =>
    obtain ⟨k, b⟩ := head
    obtain ⟨hhead, hrest⟩ := List.pairwise_cons.mp hordered
    rw [List.foldl_cons, ih _ hrest, findEntry]
    by_cases hkey : k = key
    · subst hkey
      have hnone : findEntry k rest = none := findEntry_of_lt hhead
      simp only [hnone, if_pos]
      exact find_alter_self m k (f b)
    · have hsame : findEntry key (m.alter k (f b)).entries = findEntry key m.entries :=
        find_alter_of_ne m (fun heq => hkey heq.symm) (f b)
      rw [if_neg hkey, hsame]

/-- The entries with certain keys. -/
def filter (m : OrderedMap κ α) (keep : κ → Bool) : OrderedMap κ α :=
  ⟨m.entries.filter fun e => keep e.1, m.ordered.filter _⟩

theorem find_filter (m : OrderedMap κ α) (keep : κ → Bool) (key : κ) :
    (m.filter keep).find key = if keep key then m.find key else none := by
  by_cases hkeep : keep key = true
  · rw [if_pos hkeep]
    refine Option.ext fun value => ?_
    rw [← mem_entries, ← mem_entries, filter, List.mem_filter]
    exact and_iff_left hkeep
  · rw [if_neg hkeep, Option.eq_none_iff_forall_not_mem]
    intro value hvalue
    exact hkeep (List.mem_filter.mp ((mem_entries _).mpr hvalue)).2

/-- The entries whose values are to be kept. -/
def filterValues (m : OrderedMap κ α) (keep : α → Bool) : OrderedMap κ α :=
  ⟨m.entries.filter fun e => keep e.2, m.ordered.filter _⟩

theorem find_filterValues (m : OrderedMap κ α) (keep : α → Bool) (key : κ) :
    (m.filterValues keep).find key = (m.find key).filter keep := by
  refine Option.ext fun value => ?_
  rw [← mem_entries, Option.filter_eq_some_iff, ← mem_entries]
  simp [filterValues]

/-- A map with its values replaced. -/
def mapValues {β : Type} (m : OrderedMap κ α) (f : κ → α → β) : OrderedMap κ β :=
  ⟨m.entries.map fun e => (e.1, f e.1 e.2), List.pairwise_map.mpr m.ordered⟩

@[simp] theorem find_mapValues {β : Type} (m : OrderedMap κ α) (f : κ → α → β) (key : κ) :
    (m.mapValues f).find key = (m.find key).map (f key) := by
  have hentries : ∀ entries : List (κ × α),
      findEntry key (entries.map fun e => (e.1, f e.1 e.2)) =
        (findEntry key entries).map (f key) := by
    intro entries
    induction entries with
    | nil => rfl
    | cons head rest ih =>
      rw [List.map_cons, findEntry, findEntry, ih]
      split
      · next heq => rw [heq, Option.map_some]
      · rfl
  exact hentries m.entries

end OrderedMap

end Magicbox.Library
