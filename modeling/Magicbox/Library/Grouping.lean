import Mathlib.Algebra.BigOperators.Group.List.Basic
import Mathlib.Data.Finset.Card
import Mathlib.Data.List.Induction
import Magicbox.Library.OrderedMap

/-!
# Grouping by a key

The elements of a list, sorted into groups by a key, in the order of the keys
and within a group in the order of the list. A sum over everything is the sum
of the sums over the groups, and a coarser grouping is a grouping of groups.
-/

set_option autoImplicit false

namespace Magicbox.Library.Grouping

variable {α κ : Type} [LinearOrder κ]

def add (key : α → κ) (m : OrderedMap κ (List α)) (x : α) : OrderedMap κ (List α) :=
  m.alter (key x) fun g => g.getD [] ++ [x]

def group (key : α → κ) (l : List α) : OrderedMap κ (List α) := l.foldl (add key) .empty

/-- The elements of one key. -/
def members (key : α → κ) (l : List α) (k : κ) : List α := l.filter fun x => key x = k

variable {key : α → κ} {l : List α}

theorem group_snoc (past : List α) (x : α) :
    group key (past ++ [x]) = add key (group key past) x := by
  simp [group, List.foldl_append]

theorem members_snoc (past : List α) (x : α) (k : κ) :
    members key (past ++ [x]) k = members key past k ++ if key x = k then [x] else [] := by
  by_cases h : key x = k <;> simp [members, List.filter_append, h]

theorem find_group (l : List α) (k : κ) :
    (group key l).find k = if members key l k = [] then none else some (members key l k) := by
  induction l using List.reverseRecOn with
  | nil => rfl
  | append_singleton past x ih =>
    rw [group_snoc, add, members_snoc]
    by_cases h : key x = k
    · rw [h, OrderedMap.find_alter_self, ih]
      cases members key past k <;> simp
    · rw [OrderedMap.find_alter_of_ne _ fun heq => h heq.symm, ih]
      simp [h]

theorem mem_group {k : κ} {g : List α} :
    (k, g) ∈ (group key l).entries ↔ g = members key l k ∧ g ≠ [] := by
  rw [OrderedMap.mem_entries, find_group]
  split
  · next hnone =>
    simp only [reduceCtorEq, false_iff, not_and, not_not]
    exact fun hg => hg.trans hnone
  · next hsome =>
    rw [Option.some.injEq]
    constructor
    · rintro rfl
      exact ⟨rfl, hsome⟩
    · exact fun hg => hg.1.symm

theorem group_exists {k : κ} :
    (∃ g, (k, g) ∈ (group key l).entries) ↔ ∃ x ∈ l, key x = k := by
  simp only [mem_group]
  constructor
  · rintro ⟨g, rfl, hsome⟩
    obtain ⟨x, hx⟩ := List.exists_mem_of_ne_nil _ hsome
    obtain ⟨hmem, hkey⟩ := List.mem_filter.mp hx
    exact ⟨x, hmem, of_decide_eq_true hkey⟩
  · rintro ⟨x, hmem, hkey⟩
    exact ⟨_, rfl, List.ne_nil_of_mem (List.mem_filter.mpr ⟨hmem, decide_eq_true hkey⟩)⟩

theorem members_map {β : Type} (key : β → κ) (f : α → β) (l : List α) (k : κ) :
    members key (l.map f) k = (members (fun x => key (f x)) l k).map f := by
  rw [members, members, List.filter_map]
  rfl

theorem group_map {β : Type} (key : β → κ) (f : α → β) (l : List α) :
    group key (l.map f) = (group (fun x => key (f x)) l).mapValues fun _ g => g.map f := by
  refine OrderedMap.ext_find fun k => ?_
  rw [OrderedMap.find_mapValues, find_group, find_group, members_map]
  by_cases hnone : members (fun x => key (f x)) l k = [] <;> simp [hnone]

/-- The keys of some groups are those of the elements. -/
theorem keys_toFinset (keep : κ → Bool) (l : List α) :
    (((group key l).entries.filter fun e => keep e.1).map Prod.fst).toFinset =
      ((l.filter fun x => keep (key x)).map key).toFinset := by
  ext k
  simp only [List.mem_toFinset, List.mem_map, List.mem_filter, Prod.exists, exists_and_right,
    exists_eq_right]
  constructor
  · rintro ⟨hgroup, hkeep⟩
    obtain ⟨x, hx, rfl⟩ := group_exists.mp hgroup
    exact ⟨x, ⟨hx, hkeep⟩, rfl⟩
  · rintro ⟨x, ⟨hx, hkeep⟩, rfl⟩
    exact ⟨group_exists.mpr ⟨x, hx, rfl⟩, hkeep⟩

/-- There are as many groups as keys. -/
theorem length_selected (key : α → κ) (keep : κ → Bool) (l : List α) :
    ((group key l).entries.filter fun e => keep e.1).length =
      ((l.filter fun x => keep (key x)).map key).toFinset.card := by
  have hnodup : (((group key l).entries.filter fun e => keep e.1).map Prod.fst).Nodup :=
    ((group key l).filter keep).keys_nodup
  rw [← keys_toFinset, List.toFinset_card_of_nodup hnodup, List.length_map]

/-! ## Sums -/

theorem alterEntry_perm (k : κ) (x : α) (entries : List (κ × List α)) :
    ((OrderedMap.alterEntry (fun g => g.getD [] ++ [x]) k entries).flatMap Prod.snd).Perm
      (x :: entries.flatMap Prod.snd) := by
  induction entries with
  | nil => simp [OrderedMap.alterEntry]
  | cons head rest ih =>
    obtain ⟨k', g⟩ := head
    unfold OrderedMap.alterEntry
    split
    · simp
    · split
      · simp
      · simp only [List.flatMap_cons]
        exact (ih.append_left g).trans List.perm_middle

/-- The groups hold every element once. -/
theorem group_perm (key : α → κ) (l : List α) :
    ((group key l).entries.flatMap Prod.snd).Perm l := by
  induction l using List.reverseRecOn with
  | nil => exact List.Perm.refl _
  | append_singleton past x ih =>
    rw [group_snoc]
    have hmiddle := (List.perm_append_singleton x past).symm
    exact (alterEntry_perm (key x) x _).trans ((ih.cons x).trans hmiddle)

/-- The groups of some keys hold the elements of these keys. -/
theorem selected_perm (keep : κ → Bool) (l : List α) :
    (((group key l).entries.filter fun e => keep e.1).flatMap Prod.snd).Perm
      (l.filter fun x => keep (key x)) := by
  refine List.Perm.trans (List.Perm.of_eq ?_) ((group_perm key l).filter _)
  have hkeys : ∀ e ∈ (group key l).entries, ∀ x ∈ e.2, key x = e.1 := by
    intro e he x hx
    rw [(mem_group.mp he).1] at hx
    exact of_decide_eq_true (List.mem_filter.mp hx).2
  generalize (group key l).entries = entries at hkeys
  induction entries with
  | nil => rfl
  | cons head rest ih =>
    have hhead := hkeys head List.mem_cons_self
    have hrest := ih fun e he => hkeys e (List.mem_cons_of_mem _ he)
    rw [List.flatMap_cons, List.filter_append, ← hrest]
    by_cases hkeep : keep head.1 = true
    · have hall : head.2.filter (fun x => keep (key x)) = head.2 := by
        refine List.filter_eq_self.mpr fun x hx => ?_
        rw [hhead x hx]
        exact hkeep
      simp only [List.filter_cons, hkeep, if_true, List.flatMap_cons, hall]
    · have hnone : head.2.filter (fun x => keep (key x)) = [] := by
        refine List.filter_eq_nil_iff.mpr fun x hx => ?_
        rw [hhead x hx]
        exact hkeep
      simp [hkeep, hnone]

theorem sum_selected {M : Type} [AddCommMonoid M] (key : α → κ) (keep : κ → Bool) (f : α → M)
    (l : List α) :
    (((group key l).entries.filter fun e => keep e.1).map fun e => (e.2.map f).sum).sum =
      ((l.filter fun x => keep (key x)).map f).sum := by
  rw [← ((selected_perm keep l).map f).sum_eq]
  induction (group key l).entries.filter fun e => keep e.1 with
  | nil => rfl
  | cons head rest ih =>
    rw [List.map_cons, List.sum_cons, List.flatMap_cons, List.map_append, List.sum_append, ih]

/-- The groups of a coarser key are the groups of the groups. -/
theorem members_group {κ' : Type} [LinearOrder κ'] (key : α → κ) (coarse : κ → κ') (l : List α)
    (k : κ') :
    members (fun e : κ × List α => coarse e.1) (group key l).entries k = [] ↔
      members (fun x => coarse (key x)) l k = [] := by
  simp only [members, List.filter_eq_nil_iff, decide_eq_true_eq]
  constructor
  · intro h x hx
    have hgroup : ∃ g, (key x, g) ∈ (group key l).entries := group_exists.mpr ⟨x, hx, rfl⟩
    obtain ⟨g, hg⟩ := hgroup
    exact h (key x, g) hg
  · rintro h ⟨k', g⟩ hg
    obtain ⟨x, hx, rfl⟩ := group_exists.mp ⟨g, hg⟩
    exact h x hx

theorem sum_coarser {M κ' : Type} [AddCommMonoid M] [LinearOrder κ'] (key : α → κ)
    (coarse : κ → κ') (f : α → M) (l : List α) (k : κ') :
    ((members (fun e : κ × List α => coarse e.1) (group key l).entries k).map
        fun e => (e.2.map f).sum).sum =
      ((members (fun x => coarse (key x)) l k).map f).sum :=
  sum_selected key (fun k' => coarse k' = k) f l

end Magicbox.Library.Grouping
