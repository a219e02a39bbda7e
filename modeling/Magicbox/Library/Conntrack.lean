import Magicbox.Library.Runs

/-!
# Connection tracking

Address translation as a stateful packet filter does it. The translation rules
are asked once, for the packet that opens a connection. What they choose is kept
with the connection, applied to its later packets and inverted on the answers.
The forward rules see every packet, with its destination already translated and
its source not yet.
-/

set_option autoImplicit false

namespace Magicbox.Library.Conntrack
open Library.Runs

/-- An address, and what tells the flows of one address apart. -/
structure Endpoint (α π : Type) where
  address : α
  port : π
  deriving DecidableEq, Repr

structure Tuple (α π : Type) where
  src : Endpoint α π
  dst : Endpoint α π
  deriving DecidableEq, Repr

/-- The tuple of the opening packet, and the one that its answers will carry. -/
structure Connection (α π : Type) where
  original : Tuple α π
  reply : Tuple α π
  deriving DecidableEq, Repr

inductive Direction where
  | original | reply
  deriving DecidableEq, Repr

/-- The rules at the hooks, and where routing sends a destination. A translation rule that
applies gives the address to translate to. -/
structure Hooks (α ι : Type) where
  prerouting : ι → α → α → Option α
  route : ι → α → ι
  forward : ι → ι → α → α → Bool
  postrouting : ι → ι → α → α → Option α

/-- A packet that comes in. `way` is the interface the remaining routes lead to, and `port` the
source port the translation picks should it change the source. -/
structure Arrival (α π ι : Type) where
  iif : ι
  tuple : Tuple α π
  way : ι
  port : π
  deriving DecidableEq, Repr

structure Departure (α π ι : Type) where
  oif : ι
  tuple : Tuple α π
  deriving DecidableEq, Repr

variable {α π ι : Type}

def Tuple.swap (t : Tuple α π) : Tuple α π := ⟨t.dst, t.src⟩

/-- What the packets of one direction carry when they come in. -/
def Connection.arriving (k : Connection α π) : Direction → Tuple α π
  | .original => k.original
  | .reply => k.reply

/-- What they carry when they go out: the answers to the other direction, turned round. -/
def Connection.departing (k : Connection α π) : Direction → Tuple α π
  | .original => k.reply.swap
  | .reply => k.original.swap

/-- The connection a packet opens. -/
def opened (H : Hooks α ι) (a : Arrival α π ι) : Connection α π :=
  let src := a.tuple.src
  let dst := match H.prerouting a.iif src.address a.tuple.dst.address with
    | some address => { a.tuple.dst with address }
    | none => a.tuple.dst
  let source := match H.postrouting a.iif (H.route a.way dst.address) src.address dst.address with
    | some address => ⟨address, a.port⟩
    | none => src
  ⟨a.tuple, ⟨dst, source⟩⟩

section Opened
variable {H : Hooks α ι} {a : Arrival α π ι}

theorem opened_dst_some {address : α}
    (h : H.prerouting a.iif a.tuple.src.address a.tuple.dst.address = some address) :
    (opened H a).reply.src = { a.tuple.dst with address } := by
  simp [opened, h]

theorem opened_dst_none
    (h : H.prerouting a.iif a.tuple.src.address a.tuple.dst.address = none) :
    (opened H a).reply.src = a.tuple.dst := by
  simp [opened, h]

theorem opened_src_some {address : α}
    (h : H.postrouting a.iif (H.route a.way (opened H a).reply.src.address) a.tuple.src.address
      (opened H a).reply.src.address = some address) :
    (opened H a).reply.dst = ⟨address, a.port⟩ := by
  simp only [opened] at h ⊢
  rw [h]

theorem opened_src_none
    (h : H.postrouting a.iif (H.route a.way (opened H a).reply.src.address) a.tuple.src.address
      (opened H a).reply.src.address = none) :
    (opened H a).reply.dst = a.tuple.src := by
  simp only [opened] at h ⊢
  rw [h]

end Opened

section Tracking
variable [DecidableEq α] [DecidableEq π]

/-- The tracked connection a tuple belongs to. -/
def find (t : List (Connection α π)) (tuple : Tuple α π) : Option (Connection α π × Direction) :=
  t.findSome? fun k =>
    if k.original = tuple then some (k, .original)
    else if k.reply = tuple then some (k, .reply)
    else none

/-- The connection of a packet, and its direction. One that belongs to none opens one. -/
def entry (H : Hooks α ι) (t : List (Connection α π)) (a : Arrival α π ι) :
    Connection α π × Direction :=
  (find t a.tuple).getD (opened H a, .original)

def departing (H : Hooks α ι) (t : List (Connection α π)) (a : Arrival α π ι) : Tuple α π :=
  (entry H t a).1.departing (entry H t a).2

def outgoing (H : Hooks α ι) (t : List (Connection α π)) (a : Arrival α π ι) : ι :=
  H.route a.way (departing H t a).dst.address

/-- The forward rules let the packet pass. -/
def passes (H : Hooks α ι) (t : List (Connection α π)) (a : Arrival α π ι) : Bool :=
  H.forward a.iif (outgoing H t a) a.tuple.src.address (departing H t a).dst.address

/-- What becomes of a packet. It has a connection here or opens one: packets that the filter tracks
under no connection, and so never translates, are not covered. -/
def deliver (H : Hooks α ι) (t : List (Connection α π)) (a : Arrival α π ι) :
    Option (Departure α π ι) :=
  if passes H t a then some ⟨outgoing H t a, departing H t a⟩ else none

/-- A connection is kept once the packet that opens it has passed. -/
def track (H : Hooks α ι) (t : List (Connection α π)) (a : Arrival α π ι) :
    List (Connection α π) :=
  if passes H t a ∧ find t a.tuple = none then t ++ [opened H a] else t

/-- The connections tracked after a list of packets. -/
def tracked (H : Hooks α ι) (arrivals : List (Arrival α π ι)) : List (Connection α π) :=
  run (track H) [] arrivals

variable {H : Hooks α ι} {t : List (Connection α π)} {a : Arrival α π ι}

theorem find_some {tuple : Tuple α π} {k : Connection α π} {d : Direction}
    (h : find t tuple = some (k, d)) : k ∈ t ∧ k.arriving d = tuple := by
  obtain ⟨k', hmem, hk⟩ := List.exists_of_findSome?_eq_some h
  split at hk
  · rename_i horiginal
    cases hk
    exact ⟨hmem, horiginal⟩
  · split at hk
    · rename_i hreply
      cases hk
      exact ⟨hmem, hreply⟩
    · cases hk

theorem entry_known {k : Connection α π} {d : Direction} (h : find t a.tuple = some (k, d)) :
    entry H t a = (k, d) := by
  simp [entry, h]

theorem entry_new (h : find t a.tuple = none) : entry H t a = (opened H a, .original) := by
  simp [entry, h]

theorem find_of_entry_reply (h : (entry H t a).2 = .reply) :
    find t a.tuple = some (entry H t a) := by
  cases hfind : find t a.tuple with
  | none =>
    rw [entry_new hfind] at h
    cases h
  | some found => rw [entry_known hfind]

theorem departing_new (h : find t a.tuple = none) : departing H t a = departing H [] a := by
  unfold departing
  rw [entry_new h]
  rfl

theorem outgoing_new (h : find t a.tuple = none) : outgoing H t a = outgoing H [] a := by
  unfold outgoing
  rw [departing_new h]

theorem passes_new (h : find t a.tuple = none) : passes H t a = passes H [] a := by
  unfold passes
  rw [outgoing_new h, departing_new h]

theorem deliver_eq_some {d : Departure α π ι} :
    deliver H t a = some d ↔
      passes H t a = true ∧ outgoing H t a = d.oif ∧ departing H t a = d.tuple := by
  cases d
  unfold deliver
  split <;> simp [*]

theorem deliver_eq_none : deliver H t a = none ↔ passes H t a = false := by
  unfold deliver
  split <;> simp [*]

theorem mem_track {k : Connection α π} (h : k ∈ track H t a) :
    k ∈ t ∨ (k = opened H a ∧ passes H [] a = true) := by
  unfold track at h
  split at h
  · rename_i hnew
    obtain ⟨hpasses, hfind⟩ := hnew
    rcases List.mem_append.mp h with hold | hopened
    · exact .inl hold
    · rw [passes_new hfind] at hpasses
      exact .inr ⟨List.mem_singleton.mp hopened, hpasses⟩
  · exact .inl h

/-- What holds of the connection of every packet that may open one, holds of every tracked
connection. -/
theorem tracked_satisfies {P : Arrival α π ι → Prop} {Q : Connection α π → Prop}
    (hopened : ∀ a, P a → passes H [] a = true → Q (opened H a))
    {arrivals : List (Arrival α π ι)} (h : ∀ a ∈ arrivals, P a) :
    ∀ k ∈ tracked H arrivals, Q k := by
  refine invariant (P := P) (I := fun t => ∀ k ∈ t, Q k) (fun t a ha ht k hk => ?_) (by simp) h
  rcases mem_track hk with hold | ⟨rfl, hpasses⟩
  · exact ht k hold
  · exact hopened a ha hpasses

/-- The same for the connection a packet belongs to, be it tracked or new. -/
theorem entry_satisfies {Q : Connection α π → Prop} (ht : ∀ k ∈ t, Q k)
    (hnew : find t a.tuple = none → Q (opened H a)) : Q (entry H t a).1 := by
  cases h : find t a.tuple with
  | none =>
    rw [entry_new h]
    exact hnew h
  | some found =>
    rw [entry_known h]
    exact ht _ (find_some h).1

/-- Two rule sets that open the same connection for a packet, route alike and both let it pass
treat it alike. -/
theorem treated_alike {G : Hooks α ι}
    (hopened : find t a.tuple = none → opened H a = opened G a)
    (hroute : H.route = G.route) (hH : passes H t a = true) (hG : passes G t a = true) :
    deliver H t a = deliver G t a ∧ track H t a = track G t a := by
  have hentry : entry H t a = entry G t a := by
    cases hfind : find t a.tuple with
    | none => rw [entry_new hfind, entry_new hfind, hopened hfind]
    | some found => rw [entry_known hfind, entry_known hfind]
  have hdeparting : departing H t a = departing G t a := by
    unfold departing
    rw [hentry]
  have houtgoing : outgoing H t a = outgoing G t a := by
    unfold outgoing
    rw [hdeparting, hroute]
  constructor
  · unfold deliver
    rw [hH, hG, houtgoing, hdeparting]
  · unfold track
    rw [hH, hG]
    split
    · rename_i hnew
      rw [hopened hnew.2]
    · rfl

end Tracking

end Magicbox.Library.Conntrack
