import Magicbox.Library.Grouping

/-!
# Tracking some keys

A map that takes new keys until it is full, and a count of what came later. A
key that is tracked has been tracked from its first element on: while there is
room nothing is omitted, and a full map takes no key.
-/

set_option autoImplicit false

namespace Magicbox.Library.Tracking
open Grouping

variable {κ α β : Type} [LinearOrder κ]

/-- What a map with a cap has of a list: for some keys the value of all their elements, and the
number of the other elements. -/
structure Tracks (cap : Nat) (key : β → κ) (value : List β → α) (l : List β)
    (m : OrderedMap κ α) (omitted : Nat) : Prop where
  size : m.size ≤ cap
  exact_ : ∀ k v, m.find k = some v → members key l k ≠ [] ∧ v = value (members key l k)
  full : ∀ x ∈ l, m.find (key x) = none → m.size = cap
  omitted : omitted = (l.filter fun x => (m.find (key x)).isNone).length

variable {cap : Nat} {key : β → κ} {value : List β → α} {past l : List β} {m : OrderedMap κ α}
  {omitted : Nat}

theorem Tracks.nil (cap : Nat) (key : β → κ) (value : List β → α) :
    Tracks cap key value [] .empty 0 :=
  ⟨Nat.zero_le cap, fun _ _ h => by simp at h, fun _ h => by simp at h, rfl⟩

/-- While there is room, every key is tracked. -/
theorem Tracks.room (h : Tracks cap key value past m omitted) (hroom : m.size < cap) {x : β}
    (hx : x ∈ past) : (m.find (key x)).isSome = true := by
  cases hfind : m.find (key x) with
  | none =>
    have := h.full x hx hfind
    omega
  | some v => rfl

/-- What a map has of a key that it takes. -/
theorem Tracks.found (h : Tracks cap key value past m omitted) {x : β}
    (hx : (m.contains (key x) || m.size < cap) = true) :
    m.find (key x) = if members key past (key x) = [] then none
      else some (value (members key past (key x))) := by
  cases hfound : m.find (key x) with
  | some v =>
    obtain ⟨hsome, hv⟩ := h.exact_ _ _ hfound
    rw [if_neg hsome, hv]
  | none =>
    have hroom : m.size < cap := by
      simpa [OrderedMap.contains, hfound] using hx
    rw [if_pos]
    refine List.filter_eq_nil_iff.mpr fun y hy hkey => ?_
    have hsome := h.room hroom hy
    rw [of_decide_eq_true hkey, hfound] at hsome
    cases hsome

/-- An element of a tracked key, or of a new one while there is room. -/
theorem Tracks.admit (h : Tracks cap key value past m omitted) {x : β} {f : Option α → α}
    (hx : (m.contains (key x) || m.size < cap) = true)
    (hf : f (if members key past (key x) = [] then none
      else some (value (members key past (key x)))) = value (members key past (key x) ++ [x])) :
    Tracks cap key value (past ++ [x]) (m.alter (key x) f) omitted := by
  have hfind := h.found hx
  have hself := OrderedMap.find_alter_self m (key x) f
  rw [hfind, hf] at hself
  refine ⟨?_, fun k v hk => ?_, fun y hy hnone => ?_, ?_⟩
  · by_cases hcontains : m.contains (key x) = true
    · rw [OrderedMap.size_alter_of_mem m f hcontains]
      exact h.size
    · have hroom : m.size < cap := by simpa [hcontains] using hx
      have hnew : m.find (key x) = none := by simpa [OrderedMap.contains] using hcontains
      rw [OrderedMap.size_alter_of_not_mem m f hnew]
      exact hroom
  · rw [members_snoc]
    by_cases heq : key x = k
    · rw [← heq, hself] at hk
      rw [if_pos heq, ← heq]
      exact ⟨by simp, (Option.some.inj hk).symm⟩
    · rw [OrderedMap.find_alter_of_ne m (fun hne => heq hne.symm)] at hk
      rw [if_neg heq, List.append_nil]
      exact h.exact_ k v hk
  · have hne : key y ≠ key x := fun heq => by
      rw [heq, hself] at hnone
      cases hnone
    rw [OrderedMap.find_alter_of_ne m hne] at hnone
    have hmem : y ∈ past := by
      rcases List.mem_append.mp hy with hold | hnew
      · exact hold
      · exact absurd (congrArg key (List.mem_singleton.mp hnew)) hne
    have hfull := h.full y hmem hnone
    have hcontains : m.contains (key x) = true := by simpa [hfull] using hx
    rw [OrderedMap.size_alter_of_mem m f hcontains]
    exact hfull
  · have hsame : ∀ y ∈ past, ((m.alter (key x) f).find (key y)).isNone =
        (m.find (key y)).isNone := by
      intro y hy
      by_cases heq : key y = key x
      · have hsome : members key past (key x) ≠ [] :=
          List.ne_nil_of_mem (List.mem_filter.mpr ⟨hy, decide_eq_true heq⟩)
        rw [heq, hself, hfind, if_neg hsome]
        rfl
      · rw [OrderedMap.find_alter_of_ne m heq]
    rw [List.filter_append, List.filter_congr hsame, List.length_append, ← h.omitted]
    simp [hself]

/-- An element of a new key where there is no room. -/
theorem Tracks.omit (h : Tracks cap key value past m omitted) {x : β}
    (hx : (m.contains (key x) || m.size < cap) = false) :
    Tracks cap key value (past ++ [x]) m (omitted + 1) := by
  simp only [Bool.or_eq_false_iff, decide_eq_false_iff_not, Nat.not_lt] at hx
  have hnone : m.find (key x) = none := by
    simpa [OrderedMap.contains] using hx.1
  refine ⟨h.size, fun k v hk => ?_, fun y _ _ => Nat.le_antisymm h.size hx.2, ?_⟩
  · have hne : key x ≠ k := fun heq => by
      rw [heq, hk] at hnone
      cases hnone
    rw [members_snoc, if_neg hne, List.append_nil]
    exact h.exact_ k v hk
  · rw [List.filter_append, List.length_append, ← h.omitted]
    simp [hnone]

/-- The map has the groups of the tracked keys. -/
theorem Tracks.eq_groups (h : Tracks cap key value l m omitted) :
    m = ((group key l).filter fun k => (m.find k).isSome).mapValues fun _ => value := by
  refine OrderedMap.ext_find fun k => ?_
  rw [OrderedMap.find_mapValues, OrderedMap.find_filter, find_group]
  cases hk : m.find k with
  | none => rfl
  | some v =>
    obtain ⟨hsome, hv⟩ := h.exact_ k v hk
    rw [Option.isSome_some, if_pos rfl, if_neg hsome, hv]
    rfl

/-- Every element is in the value of a tracked key, or omitted. -/
theorem Tracks.accounted (h : Tracks cap key value l m omitted) {count : α → Nat}
    (hcount : ∀ g, count (value g) = g.length) : m.total count + omitted = l.length := by
  have hgroups := sum_selected key (fun k => (m.find k).isSome) (fun _ => 1) l
  simp only [List.map_const', List.sum_replicate_nat, Nat.mul_one] at hgroups
  have htracked : m.total count = (l.filter fun x => (m.find (key x)).isSome).length := by
    rw [← hgroups]
    conv_lhs => rw [h.eq_groups]
    simp only [OrderedMap.total, OrderedMap.mapValues, OrderedMap.filter, List.map_map,
      Function.comp_def, hcount]
  have hsplit := List.length_eq_length_filter_add (l := l) fun x => (m.find (key x)).isSome
  simp only [Option.not_isSome] at hsplit
  rw [htracked, h.omitted]
  omega

/-- A list with few keys is tracked as a whole. -/
theorem Tracks.few (h : Tracks cap key value l m omitted)
    (hfew : (l.map key).toFinset.card ≤ cap) :
    m = (group key l).mapValues fun _ => value := by
  have hkeys : (m.entries.map Prod.fst).toFinset ⊆ (l.map key).toFinset := by
    intro k hk
    obtain ⟨⟨k, v⟩, he, rfl⟩ := List.mem_map.mp (List.mem_toFinset.mp hk)
    obtain ⟨hsome, -⟩ := h.exact_ k v ((OrderedMap.mem_entries m).mp he)
    obtain ⟨x, hx⟩ := List.exists_mem_of_ne_nil _ hsome
    obtain ⟨hmem, hkey⟩ := List.mem_filter.mp hx
    exact List.mem_toFinset.mpr (List.mem_map.mpr ⟨x, hmem, of_decide_eq_true hkey⟩)
  have hall : ∀ x ∈ l, (m.find (key x)).isSome = true := by
    intro x hx
    by_contra huntracked
    have hnone : m.find (key x) = none := by simpa using huntracked
    have herase : (m.entries.map Prod.fst).toFinset ⊆ (l.map key).toFinset.erase (key x) := by
      intro k hk
      refine Finset.mem_erase.mpr ⟨fun hkey => ?_, hkeys hk⟩
      obtain ⟨⟨k, v⟩, he, rfl⟩ := List.mem_map.mp (List.mem_toFinset.mp hk)
      have hfound := (OrderedMap.mem_entries m).mp he
      rw [show k = key x from hkey, hnone] at hfound
      cases hfound
    have hle := Finset.card_le_card herase
    have hmem : key x ∈ (l.map key).toFinset := List.mem_toFinset.mpr (List.mem_map_of_mem hx)
    have hpos := Finset.card_pos.mpr ⟨key x, hmem⟩
    have hfull := h.full x hx hnone
    rw [Finset.card_erase_of_mem hmem, List.toFinset_card_of_nodup m.keys_nodup,
      List.length_map] at hle
    unfold OrderedMap.size at hfull
    omega
  refine h.eq_groups.trans (OrderedMap.ext_find fun k => ?_)
  rw [OrderedMap.find_mapValues, OrderedMap.find_mapValues, OrderedMap.find_filter]
  by_cases hk : (m.find k).isSome = true
  · rw [if_pos hk]
  · rw [if_neg hk, find_group, if_pos]
    refine List.filter_eq_nil_iff.mpr fun x hx hkey => hk ?_
    rw [← of_decide_eq_true hkey]
    exact hall x hx

end Magicbox.Library.Tracking
