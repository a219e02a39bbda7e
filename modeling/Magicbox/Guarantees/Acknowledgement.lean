import Magicbox.Guarantees.SnapshotProtocol

/-!
# Snapshots and acknowledgements

A snapshot answers the acknowledgement of the one before it exactly when none was
sent between the comparison of its message and the exchange of `busy`. The two
are separate accesses: a reply that ends between them leaves `busy` clear for a
message whose ack was compared with the old sequence.
-/

set_option autoImplicit false

namespace Magicbox.Guarantees.Acknowledgement
open Source.Json Source.LiveSocket LiveMoves SnapshotProtocol Library.Runs

variable {s t : System} {event : Event}

/-- The ack that asks for a snapshot after `n` others. -/
def ackOf (n : Nat) : String := toString (UInt64.ofNat n)

/-- A snapshot that answers an ack of the `n` before it, compared after they were sent. -/
def Acknowledges (n : Nat) (x : Metrics) : Prop :=
  x.request.ack = ackOf n ∧ n ≤ x.request.comparedAt

/-- A request whose `busy` was exchanged after `n` snapshots. -/
structure Traced (n : Nat) (r : Request) : Prop where
  exchanged : r.exchangedAt = n
  compared : r.comparedAt ≤ n
  ack : r.comparedAt = n → r.ack = ackOf n

theorem Traced.acknowledges {n : Nat} {x : Metrics} (h : Traced n x.request) :
    Acknowledges n x ↔ x.request.comparedAt = x.request.exchangedAt := by
  have hcompared := h.compared
  rw [h.exchanged]
  constructor
  · intro hack
    exact Nat.le_antisymm hcompared hack.2
  · intro hprompt
    exact ⟨h.ack hprompt, Nat.le_of_eq hprompt.symm⟩

/-- Where the requests of a connection come from. -/
structure Answered (s : System) : Prop where
  comparing : s.connected = true → ∀ r, s.handler = .compared r →
    r.comparedAt ≤ s.sent.length ∧
      (r.comparedAt = s.sent.length → counting s = 0 → r.ack = ackOf s.sent.length)
  pending : s.connected = true → ∀ a ∈ inProgress s, a.2 ≠ .sent → Traced s.sent.length a.1
  sent : ∀ n x, s.sent[n]? = some x → Traced n x.request

theorem answered_opened (token : String) : Answered (opened token) := by
  constructor
  · simp [opened]
  · simp [opened, inProgress, handlerReplies, workerReplies]
  · simp [opened]

theorem answered_move (hexclusive : Exclusive s) (h : Answered s) (hmove : Move s event t) :
    Answered t := by
  cases hmove with
  | frame hbusy hsequence hsent hconnected hreplies hcompared =>
    refine ⟨fun hopen r hr => ?_, fun hopen a ha => ?_, ?_⟩
    · rw [hsent, counting, hreplies.countP_eq]
      rcases hcompared r hr with hold | ⟨hack, hat⟩
      · exact h.comparing (hconnected hopen) r hold
      · refine ⟨Nat.le_of_eq hat, fun _ hnone => ?_⟩
        rw [hack, hexclusive.counter (hconnected hopen), counting, hnone]
        rfl
    · rw [hsent]
      exact h.pending (hconnected hopen) a (hreplies.mem_iff.mp ha)
    · rw [hsent]
      exact h.sent
  | accepted r hevent hr hfree hbusy hsequence hsent hconnected hreplies hcompared =>
    have hnone := hexclusive.none hfree
    rw [hnone] at hreplies
    have hone := List.perm_singleton.mp hreplies
    refine ⟨fun _ r hr => absurd hr (hcompared r), fun hopen a ha _ => ?_, ?_⟩
    · obtain ⟨hle, hack⟩ := h.comparing (hconnected ▸ hopen) r hr
      rw [hone, List.mem_singleton] at ha
      rw [hsent, ha]
      exact ⟨rfl, hle, fun heq => hack heq (by simp [counting, hnone])⟩
    · rw [hsent]
      exact h.sent
  | counted r others hbefore hafter hbusy hsequence hsent hconnected hcompared =>
    obtain ⟨hbegun, hothers, -⟩ := hexclusive.alone hbefore
    rw [hothers] at hafter
    have hone := List.perm_singleton.mp hafter
    refine ⟨fun hopen r hr => ?_, fun hopen a ha _ => ?_, ?_⟩
    · rw [hsent]
      refine ⟨(h.comparing (hconnected ▸ hopen) r (hcompared r hr)).1, fun _ hnone => ?_⟩
      simp [counting, hone, isCounted] at hnone
    · rw [hone, List.mem_singleton] at ha
      rw [hsent, ha]
      exact h.pending (hconnected ▸ hopen) (r, .begun) (by simp [hbegun]) (by simp)
    · rw [hsent]
      exact h.sent
  | sent x others hbefore hafter hbusy hsequence hsent hconnected hcompared =>
    obtain ⟨hcounted, hothers, -⟩ := hexclusive.alone hbefore
    rw [hothers] at hafter
    have hone := List.perm_singleton.mp hafter
    refine ⟨fun hopen r hr => ?_, fun hopen a ha hunsent => ?_, fun n y hy => ?_⟩
    · have hle := (h.comparing (hconnected ▸ hopen) r (hcompared r hr)).1
      rw [hsent, if_pos (hconnected ▸ hopen), List.length_append, List.length_singleton]
      exact ⟨by omega, fun heq => by omega⟩
    · rw [hone, List.mem_singleton] at ha
      exact absurd (by rw [ha]) hunsent
    · rw [hsent] at hy
      split at hy
      · next hopen =>
        rcases Nat.lt_trichotomy n s.sent.length with hlt | heq | hgt
        · rw [List.getElem?_append_left hlt] at hy
          exact h.sent n y hy
        · rw [heq, List.getElem?_append_right (Nat.le_refl _), Nat.sub_self] at hy
          obtain rfl : x = y := by simpa using hy
          rw [heq]
          exact h.pending hopen (x.request, .counted x.sequence) (by simp [hcounted]) (by simp)
        · rw [List.getElem?_eq_none (by simp; omega)] at hy
          cases hy
      · exact h.sent n y hy
  | finished r others hbefore hafter hbusy hsequence hsent hconnected hcompared =>
    obtain ⟨hlast, hothers, -⟩ := hexclusive.alone hbefore
    rw [hothers] at hafter
    have hnone := List.perm_nil.mp hafter
    refine ⟨fun hopen r hr => ?_, ?_, ?_⟩
    · obtain ⟨hle, hack⟩ := h.comparing (hconnected ▸ hopen) r (hcompared r hr)
      rw [hsent]
      exact ⟨hle, fun heq _ => hack heq (by simp [counting, hlast, isCounted])⟩
    · simp [hnone]
    · rw [hsent]
      exact h.sent

theorem answered_run (token : String) (events : List Event) :
    Answered (run System.step (opened token) events) := by
  have keep : ∀ s event, True → Exclusive s ∧ Answered s →
      Exclusive (System.step s event) ∧ Answered (System.step s event) :=
    fun s event _ h => ⟨exclusive_move h.1 (step_move s event),
      answered_move h.1 h.2 (step_move s event)⟩
  exact (invariant keep ⟨exclusive_opened token, answered_opened token⟩
    fun _ _ => trivial).2

/-! ## Prompt exchanges -/

/-- A message that finds `busy` clear was compared after the last snapshot was sent. -/
def Prompt (s : System) (event : Event) : Prop :=
  event = .exchange → ∀ r, s.handler = .compared r → s.busy = false →
    r.comparedAt = s.sent.length

/-- All requests that were let through were let through promptly. -/
structure Prompted (s : System) : Prop where
  pending : ∀ a ∈ inProgress s, a.1.comparedAt = a.1.exchangedAt
  sent : ∀ x ∈ s.sent, x.request.comparedAt = x.request.exchangedAt

theorem prompted_move (hprompt : Prompt s event) (h : Prompted s) (hmove : Move s event t) :
    Prompted t := by
  cases hmove with
  | frame hbusy hsequence hsent hconnected hreplies hcompared =>
    exact ⟨fun a ha => h.pending a (hreplies.mem_iff.mp ha), hsent ▸ h.sent⟩
  | accepted r hevent hr hfree hbusy hsequence hsent hconnected hreplies hcompared =>
    refine ⟨fun a ha => ?_, hsent ▸ h.sent⟩
    rcases List.mem_cons.mp (hreplies.mem_iff.mp ha) with hnew | hold
    · rw [hnew]
      exact hprompt hevent r hr hfree
    · exact h.pending a hold
  | counted r others hbefore hafter hbusy hsequence hsent hconnected hcompared =>
    refine ⟨fun a ha => ?_, hsent ▸ h.sent⟩
    rcases List.mem_cons.mp (hafter.mem_iff.mp ha) with hnew | hold
    · rw [hnew]
      exact h.pending (r, .begun) (hbefore.mem_iff.mpr List.mem_cons_self)
    · exact h.pending a (hbefore.mem_iff.mpr (List.mem_cons_of_mem _ hold))
  | sent x others hbefore hafter hbusy hsequence hsent hconnected hcompared =>
    have hx := h.pending (x.request, .counted x.sequence)
      (hbefore.mem_iff.mpr List.mem_cons_self)
    refine ⟨fun a ha => ?_, fun y hy => ?_⟩
    · rcases List.mem_cons.mp (hafter.mem_iff.mp ha) with hnew | hold
      · rw [hnew]
        exact hx
      · exact h.pending a (hbefore.mem_iff.mpr (List.mem_cons_of_mem _ hold))
    · rw [hsent] at hy
      split at hy
      · rcases List.mem_append.mp hy with hold | hnew
        · exact h.sent y hold
        · rw [List.mem_singleton.mp hnew]
          exact hx
      · exact h.sent y hy
  | finished r others hbefore hafter hbusy hsequence hsent hconnected hcompared =>
    refine ⟨fun a ha => ?_, hsent ▸ h.sent⟩
    exact h.pending a (hbefore.mem_iff.mpr (List.mem_cons_of_mem _ (hafter.mem_iff.mp ha)))

theorem prompted_run (token : String) {events : List Event}
    (h : Admissible System.step Prompt (opened token) events) :
    Prompted (run System.step (opened token) events) := by
  have hopened : Prompted (opened token) :=
    ⟨by simp [opened, inProgress, handlerReplies, workerReplies], by simp [opened]⟩
  exact admissibleInvariant (fun s event hprompt h => prompted_move hprompt h (step_move s event))
    hopened h

/-- In any run a snapshot answers the ack of the one before it if and only if its message was let
through promptly; where every exchange is prompt, all snapshots do. -/
theorem acknowledged_snapshots (token : String) (events : List Event) :
    let s := run System.step (opened token) events
    (∀ n x, s.sent[n]? = some x → x.sequence = numeral n ∧
      (Acknowledges n x ↔ x.request.comparedAt = x.request.exchangedAt)) ∧
    (Admissible System.step Prompt (opened token) events →
      ∀ n x, s.sent[n]? = some x → Acknowledges n x) := by
  have hanswered := answered_run token events
  have hnumbered := (exclusive_run token events).numbered
  refine ⟨fun n x hx => ⟨?_, (hanswered.sent n x hx).acknowledges⟩, fun hprompt n x hx => ?_⟩
  · have hn := congrArg (·[n]?) hnumbered
    obtain ⟨hlt, hget⟩ := List.getElem?_eq_some_iff.mp hx
    rw [← hget]
    simpa [hlt] using hn
  · exact (hanswered.sent n x hx).acknowledges.mpr
      ((prompted_run token hprompt).sent x (List.mem_of_getElem? hx))

theorem acknowledged_snapshots_round :
    ∀ n x, (run System.step (opened "secret") roundTrip).sent[n]? = some x →
      Acknowledges n x := by
  have hexchange : (run System.step (opened "secret") [.refresh, .receive]).handler =
      .compared { ack := "0", comparedAt := 0 } := by decide +kernel
  refine (acknowledged_snapshots "secret" roundTrip).2
    ⟨?_, ?_, ?_, ?_, ?_, ?_, ?_, ?_, ?_, ?_, trivial⟩
  case refine_3 =>
    intro _ r hr _
    obtain rfl : { ack := "0", comparedAt := 0 } = r := by
      rw [run_cons, run_cons, run_nil, hr] at hexchange
      exact (Handler.compared.inj hexchange).symm
    rfl
  all_goals
    intro h
    cases h

/-! ## An ack that counts twice -/

/-- Two refreshes with the same ack. The second is compared while the reply to the first is in
progress, and exchanges `busy` when that reply is over. -/
def repeatedAck : List Event :=
  [.refresh, .refresh, .receive, .exchange, .submit, .pop, .work false, .receive, .workerReply,
    .workerReply, .workerReply, .exchange, .submit, .pop, .work false, .workerReply, .workerReply]

theorem repeated_ack_answered :
    ¬ ∀ (token : String) (events : List Event) (n : Nat) (x : Metrics),
      (run System.step (opened token) events).sent[n]? = some x → Acknowledges n x := by
  intro h
  have hsent : (run System.step (opened "secret") repeatedAck).sent =
      [⟨"1", false, ⟨"0", 0, 0⟩⟩, ⟨"2", false, ⟨"0", 0, 1⟩⟩] := by decide +kernel
  have hack := (h "secret" repeatedAck 1 ⟨"2", false, ⟨"0", 0, 1⟩⟩ (by rw [hsent]; rfl)).2
  exact absurd hack (by decide)

end Magicbox.Guarantees.Acknowledgement
