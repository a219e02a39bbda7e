import Magicbox.Guarantees.LiveMoves

/-!
# The snapshot protocol

At most one reply of a connection is in progress, and `busy` says whether there
is one. The snapshots carry the successive values of the 64-bit sequence. When
nothing is in flight the dashboard has acknowledged the last of them, so that its
next refresh is answered.
-/

set_option autoImplicit false

namespace Magicbox.Guarantees.SnapshotProtocol
open Source.Json Source.LiveSocket LiveMoves Library.Runs

variable {s t : System} {event : Event}

/-! ## One reply at a time -/

def isCounted (a : Answering) : Bool :=
  match a.2 with
  | .counted _ => true
  | _ => false

/-- Replies that took a number and did not send it yet. -/
def counting (s : System) : Nat := (inProgress s).countP isCounted

/-- The number of the snapshot after `k` others. -/
def numeral (k : Nat) : String := toString (UInt64.ofNat (k + 1))

structure Exclusive (s : System) : Prop where
  single : (inProgress s).length = s.busy.toNat
  text : ∀ r sequence, (r, .counted sequence) ∈ inProgress s → sequence = toString s.sequence
  counter : s.connected = true → s.sequence = UInt64.ofNat (s.sent.length + counting s)
  numbered : s.sent.map (·.sequence) = (List.range s.sent.length).map numeral

/-- A reply in progress is the only one. -/
theorem Exclusive.alone (h : Exclusive s) {a : Answering} {others : List Answering}
    (ha : (inProgress s).Perm (a :: others)) :
    inProgress s = [a] ∧ others = [] ∧ s.busy = true := by
  have hlength := ha.length_eq
  rw [h.single, List.length_cons] at hlength
  have hbound := Bool.toNat_le s.busy
  have hothers : others = [] := List.eq_nil_of_length_eq_zero (by omega)
  rw [hothers] at ha
  refine ⟨List.perm_singleton.mp ha, hothers, ?_⟩
  cases hbusy : s.busy with
  | true => rfl
  | false => simp [hbusy] at hlength

theorem Exclusive.none (h : Exclusive s) (hfree : s.busy = false) : inProgress s = [] :=
  List.eq_nil_of_length_eq_zero (by rw [h.single, hfree]; rfl)

theorem exclusive_opened (token : String) : Exclusive (opened token) :=
  ⟨rfl, by simp [opened, inProgress, handlerReplies, workerReplies], fun _ => rfl, rfl⟩

theorem numbered_append {x : Metrics} {sent : List Metrics}
    (hsent : sent.map (·.sequence) = (List.range sent.length).map numeral)
    (hx : x.sequence = numeral sent.length) :
    (sent ++ [x]).map (·.sequence) = (List.range (sent ++ [x]).length).map numeral := by
  rw [List.map_append, hsent, List.length_append, List.length_singleton, List.range_succ,
    List.map_append, List.map_singleton, List.map_singleton, hx]

theorem exclusive_move (h : Exclusive s) (hmove : Move s event t) : Exclusive t := by
  cases hmove with
  | frame hbusy hsequence hsent hconnected hreplies _ =>
    refine ⟨?_, fun r sequence hr => ?_, fun hopen => ?_, ?_⟩
    · rw [hreplies.length_eq, h.single, hbusy]
    · rw [hsequence]
      exact h.text r sequence (hreplies.mem_iff.mp hr)
    · rw [hsequence, hsent, counting, hreplies.countP_eq]
      exact h.counter (hconnected hopen)
    · rw [hsent]
      exact h.numbered
  | accepted r _ _ hfree hbusy hsequence hsent hconnected hreplies _ =>
    rw [h.none hfree] at hreplies
    have hone := List.perm_singleton.mp hreplies
    refine ⟨?_, ?_, fun hopen => ?_, ?_⟩
    · rw [hone, hbusy]
      rfl
    · simp [hone]
    · have hcounter := h.counter (hconnected ▸ hopen)
      rw [counting, h.none hfree] at hcounter
      rw [hsequence, hcounter, hsent, counting, hone]
      rfl
    · rw [hsent]
      exact h.numbered
  | counted r others hbefore hafter hbusy hsequence hsent hconnected _ =>
    obtain ⟨hbegun, hothers, hset⟩ := h.alone hbefore
    rw [hothers] at hafter
    have hone := List.perm_singleton.mp hafter
    refine ⟨?_, ?_, fun hopen => ?_, ?_⟩
    · rw [hone, hbusy, hset]
      rfl
    · simp [hone]
    · have hcounter := h.counter (hconnected ▸ hopen)
      rw [counting, hbegun] at hcounter
      rw [hsequence, hcounter, hsent, counting, hone]
      exact (UInt64.ofNat_add _ 1).symm
    · rw [hsent]
      exact h.numbered
  | sent x others hbefore hafter hbusy hsequence hsent hconnected _ =>
    obtain ⟨hcounted, hothers, hset⟩ := h.alone hbefore
    rw [hothers] at hafter
    have hone := List.perm_singleton.mp hafter
    have htext := h.text x.request x.sequence (by simp [hcounted])
    refine ⟨?_, ?_, fun hopen => ?_, ?_⟩
    · rw [hone, hbusy, hset]
      rfl
    · simp [hone]
    · have hcounter := h.counter (hconnected ▸ hopen)
      rw [counting, hcounted] at hcounter
      rw [hsequence, hcounter, hsent, counting, hone, if_pos (hconnected ▸ hopen),
        List.length_append]
      rfl
    · rw [hsent]
      split
      · next hopen =>
        refine numbered_append h.numbered ?_
        have hcounter := h.counter hopen
        rw [counting, hcounted] at hcounter
        rw [htext, hcounter]
        rfl
      · exact h.numbered
  | finished r others hbefore hafter hbusy hsequence hsent hconnected _ =>
    obtain ⟨hlast, hothers, hset⟩ := h.alone hbefore
    rw [hothers] at hafter
    have hnone := List.perm_nil.mp hafter
    refine ⟨?_, ?_, fun hopen => ?_, ?_⟩
    · rw [hnone, hbusy]
      rfl
    · simp [hnone]
    · have hcounter := h.counter (hconnected ▸ hopen)
      rw [counting, hlast] at hcounter
      rw [hsequence, hcounter, hsent, counting, hnone]
      rfl
    · rw [hsent]
      exact h.numbered

theorem exclusive_run (token : String) (events : List Event) :
    Exclusive (run System.step (opened token) events) :=
  invariant (P := fun _ => True) (fun s event _ h => exclusive_move h (step_move s event))
    (exclusive_opened token) fun _ _ => trivial

/-! ## The dashboard -/

/-- Schedules of a connection that stays open, with the dashboard at its other end. -/
def dashboard : Event → Prop
  | .say _ | .disconnect => False
  | _ => True

/-- What reached the dashboard. -/
structure Delivered (s : System) : Prop where
  connected : s.connected = true
  calm : s.shutdown = false
  messages : ∀ m ∈ s.inbound, ∃ ack, readMessage (bytes s.token_) m = .asks ack
  received : ∃ got, s.sent = got ++ s.outbound ∧
    s.ack = (got.getLast?.map (·.sequence)).getD "0"

theorem delivered_opened (token : String) : Delivered (opened token) :=
  ⟨rfl, rfl, by simp [opened], [], rfl, rfl⟩

theorem readMessage_refresh (token ack : String) :
    readMessage (bytes token) (refreshMessage token ack) = .asks ack := by
  simp [readMessage, refreshMessage, spells, tokenEqual_iff.mpr, ackText, Value.index, Value.get,
    Value.isMember, Value.lookup]

/-- Events that no message and no snapshot is part of. -/
theorem Delivered.of_same (h : Delivered s) (hconnected : t.connected = s.connected)
    (hshutdown : t.shutdown = s.shutdown) (hinbound : t.inbound = s.inbound)
    (htoken : t.token_ = s.token_) (hsent : t.sent = s.sent) (houtbound : t.outbound = s.outbound)
    (hack : t.ack = s.ack) : Delivered t := by
  obtain ⟨hopen, hcalm, hmessages, hreceived⟩ := h
  refine ⟨hconnected ▸ hopen, hshutdown ▸ hcalm, ?_, ?_⟩
  · rw [hinbound, htoken]
    exact hmessages
  · rw [hsent, houtbound, hack]
    exact hreceived

theorem delivered_reply (h : Delivered s) (r : Reply) : Delivered (s.reply r).1 := by
  unfold System.reply
  cases r.stage with
  | begun => exact h.of_same rfl rfl rfl rfl rfl rfl rfl
  | sent => exact h.of_same rfl rfl rfl rfl rfl rfl rfl
  | counted sequence =>
    obtain ⟨hopen, hcalm, hmessages, got, hsent, hack⟩ := h
    simp only [hopen, ↓reduceIte]
    exact ⟨rfl, hcalm, hmessages, got, by rw [hsent, List.append_assoc], hack⟩

theorem delivered_receive (h : Delivered s) : Delivered s.receive := by
  unfold System.receive
  split
  · next m rest hhandler hinbound =>
    obtain ⟨ack, hack⟩ := h.messages m (by simp [hinbound])
    have hrest : ∀ m ∈ rest, ∃ ack, readMessage (bytes s.token_) m = .asks ack :=
      fun m hm => h.messages m (by simp [hinbound, hm])
    simp only [hack]
    split
    · exact ⟨h.connected, h.calm, hrest, h.received⟩
    · exact ⟨h.connected, h.calm, hrest, h.received⟩
  · exact h

theorem delivered_deliver (h : Delivered s) : Delivered s.deliver := by
  unfold System.deliver
  split
  · next metrics rest houtbound =>
    obtain ⟨hopen, hcalm, hmessages, got, hsent, hack⟩ := h
    refine ⟨hopen, hcalm, hmessages, got ++ [metrics], ?_, ?_⟩
    · simp [hsent, houtbound]
    · simp
  · exact h

theorem delivered_step (hdashboard : dashboard event) (h : Delivered s) :
    Delivered (s.step event) := by
  cases event with
  | say m => exact hdashboard.elim
  | disconnect => exact hdashboard.elim
  | refresh =>
    obtain ⟨hopen, hcalm, hmessages, hreceived⟩ := h
    refine ⟨hopen, hcalm, fun m hm => ?_, hreceived⟩
    simp only [System.step, System.refresh, System.say, List.mem_append,
      List.mem_singleton] at hm
    rcases hm with hm | hm
    · exact hmessages m hm
    · exact ⟨s.ack, hm ▸ readMessage_refresh s.token_ s.ack⟩
  | receive => exact delivered_receive h
  | deliver => exact delivered_deliver h
  | exchange =>
    simp only [System.step, System.exchange]
    split
    · split <;> exact h.of_same rfl rfl rfl rfl rfl rfl rfl
    · exact h
  | submit =>
    simp only [System.step, System.submit]
    split
    · split <;> exact h.of_same rfl rfl rfl rfl rfl rfl rfl
    · exact h
  | handlerReply =>
    simp only [System.step, System.handlerReply]
    split
    · exact (delivered_reply h _).of_same rfl rfl rfl rfl rfl rfl rfl
    · exact h
  | enqueueOther =>
    simp only [System.step, System.enqueueOther]
    split <;> exact h.of_same rfl rfl rfl rfl rfl rfl rfl
  | pop =>
    simp only [System.step, System.pop]
    split
    · split <;> exact h.of_same rfl rfl rfl rfl rfl rfl rfl
    · exact h
  | work failed =>
    simp only [System.step, System.work]
    split <;> exact h.of_same rfl rfl rfl rfl rfl rfl rfl
  | workerReply =>
    simp only [System.step, System.workerReply]
    split
    · exact (delivered_reply h _).of_same rfl rfl rfl rfl rfl rfl rfl
    · exact h

theorem delivered_run (token : String) {events : List Event}
    (hdashboard : ∀ event ∈ events, dashboard event) :
    Delivered (run System.step (opened token) events) :=
  invariant (fun _ _ => delivered_step) (delivered_opened token) hdashboard

/-! ## Nothing in flight -/

/-- No job, no message and no snapshot of the connection is under way. -/
structure Quiet (s : System) : Prop where
  replies : inProgress s = []
  handler : s.handler = .idle
  inbound : s.inbound = []
  outbound : s.outbound = []

theorem last_numeral {sent : List Metrics}
    (h : sent.map (·.sequence) = (List.range sent.length).map numeral) :
    (sent.getLast?.map (·.sequence)).getD "0" = toString (UInt64.ofNat sent.length) := by
  rw [← List.getLast?_map, h, List.getLast?_map, List.getLast?_range]
  cases sent.length with
  | zero => rfl
  | succ n => rfl

theorem quiet_acknowledged (hquiet : Quiet s) (hexclusive : Exclusive s) (h : Delivered s) :
    s.busy = false ∧ s.sequence = UInt64.ofNat s.sent.length ∧ s.ack = toString s.sequence := by
  have hbusy : s.busy = false := by
    have hsingle := hexclusive.single
    rw [hquiet.replies] at hsingle
    cases hset : s.busy with
    | false => rfl
    | true => simp [hset] at hsingle
  have hcounter := hexclusive.counter h.connected
  rw [counting, hquiet.replies] at hcounter
  obtain ⟨got, hsent, hack⟩ := h.received
  rw [hquiet.outbound, List.append_nil] at hsent
  refine ⟨hbusy, hcounter, ?_⟩
  rw [hack, ← hsent, last_numeral hexclusive.numbered, hcounter]
  rfl

/-- A refresh that finds nothing in flight goes through. -/
theorem quiet_accepts (hquiet : Quiet s) (hbusy : s.busy = false)
    (hack : s.ack = toString s.sequence) :
    (run System.step s [.refresh, .receive, .exchange]).handler =
      .exchanged ⟨toString s.sequence, s.sent.length, s.sent.length⟩ := by
  have hreceived : s.refresh.receive =
      { s with handler :=
          .compared { ack := toString s.sequence, comparedAt := s.sent.length } } := by
    simp [System.receive, System.refresh, System.say, hquiet.handler, hquiet.inbound,
      readMessage_refresh, hack]
  simp only [run_cons, run_nil, System.step, hreceived]
  simp [System.exchange, hbusy]

/-- The snapshot protocol under every schedule. -/
theorem snapshot_protocol (token : String) (events : List Event)
    (hdashboard : ∀ event ∈ events, dashboard event) :
    let s := run System.step (opened token) events
    (inProgress s).length ≤ 1 ∧ (s.busy = true ↔ inProgress s ≠ []) ∧
    s.sent.map (·.sequence) = (List.range s.sent.length).map numeral ∧
    (Quiet s → s.busy = false ∧ s.sequence = UInt64.ofNat s.sent.length ∧
      s.ack = toString s.sequence ∧ s.shutdown = false ∧
      (run System.step s [.refresh, .receive, .exchange]).handler =
        .exchanged ⟨toString s.sequence, s.sent.length, s.sent.length⟩) := by
  have hexclusive := exclusive_run token events
  have hdelivered := delivered_run token hdashboard
  refine ⟨?_, ?_, hexclusive.numbered, fun hquiet => ?_⟩
  · rw [hexclusive.single]
    exact Bool.toNat_le _
  · rw [← List.length_pos_iff, hexclusive.single]
    cases (run System.step (opened token) events).busy <;> simp
  · obtain ⟨hbusy, hsequence, hack⟩ := quiet_acknowledged hquiet hexclusive hdelivered
    exact ⟨hbusy, hsequence, hack, hdelivered.calm, quiet_accepts hquiet hbusy hack⟩

/-- A refresh that is answered by a snapshot. -/
def roundTrip : List Event :=
  [.refresh, .receive, .exchange, .submit, .pop, .work false, .workerReply, .workerReply,
    .workerReply, .deliver]

theorem snapshot_protocol_round :
    let s := run System.step (opened "secret") (roundTrip ++ [.refresh])
    (inProgress s).length ≤ 1 ∧ s.sent.map (·.sequence) = ["1"] := by
  obtain ⟨hsingle, -, hnumbered, -⟩ :=
    snapshot_protocol "secret" (roundTrip ++ [.refresh]) (by simp [roundTrip, dashboard])
  exact ⟨hsingle, hnumbered⟩

/-! ## The end of the numbers -/

/-- A connection that waits for the dashboard's next refresh. -/
structure Ready (s : System) : Prop where
  handler : s.handler = .idle
  free : s.busy = false
  tasks : s.tasks_ = []
  worker : s.worker = .waiting
  connected : s.connected = true
  inbound : s.inbound = []
  outbound : s.outbound = []
  acknowledged : s.ack = toString s.sequence

theorem roundTrip_ready (h : Ready s) :
    Ready (run System.step s roundTrip) ∧
      (run System.step s roundTrip).sent.length = s.sent.length + 1 := by
  obtain ⟨hhandler, hfree, htasks, hworker, hconnected, hinbound, houtbound, hack⟩ := h
  have hreceived : s.refresh.receive = { s with
      handler := .compared { ack := toString s.sequence, comparedAt := s.sent.length } } := by
    simp [System.receive, System.refresh, System.say, hhandler, hinbound, readMessage_refresh, hack]
  have hround : run System.step s roundTrip =
      { s with
        sequence := s.sequence + 1,
        sent := s.sent ++ [⟨toString (s.sequence + 1), false,
          ⟨toString s.sequence, s.sent.length, s.sent.length⟩⟩],
        ack := toString (s.sequence + 1) } := by
    simp only [roundTrip, run_cons, run_nil, System.step, hreceived]
    simp [System.exchange, System.submit, System.pop, System.work, System.workerReply,
      System.reply, System.deliver, System.locked, hhandler, hfree, htasks, hworker, hconnected,
      hinbound, houtbound]
  rw [hround]
  exact ⟨⟨hhandler, hfree, htasks, hworker, hconnected, hinbound, houtbound, rfl⟩, by simp⟩

theorem roundTrips_ready (n : Nat) (h : Ready s) :
    (run System.step s (List.replicate n roundTrip).flatten).sent.length = s.sent.length + n := by
  induction n generalizing s with
  | zero => rfl
  | succ n ih =>
    obtain ⟨hready, hlength⟩ := roundTrip_ready h
    rw [List.replicate_succ, List.flatten_cons, run_append, ih hready, hlength]
    omega

theorem roundTrips_dashboard (n : Nat) :
    ∀ event ∈ (List.replicate n roundTrip).flatten, dashboard event := by
  intro event hevent
  obtain ⟨events, hround, hmem⟩ := List.mem_flatten.mp hevent
  rw [List.eq_of_mem_replicate hround] at hmem
  simp only [roundTrip, List.mem_cons, List.not_mem_nil, or_false] at hmem
  rcases hmem with h | h | h | h | h | h | h | h | h | h <;> simp [h, dashboard]

/-- The text of 2^64 is not the text of the 64-bit number it wraps to. -/
theorem numeral_wraps : numeral (UInt64.size - 1) ≠ toString (UInt64.size - 1 + 1) := by
  decide +kernel

theorem sent_rounds (n : Nat) :
    (run System.step (opened "") (List.replicate n roundTrip).flatten).sent.length = n := by
  rw [roundTrips_ready n ⟨rfl, rfl, rfl, rfl, rfl, rfl, rfl, rfl⟩]
  exact Nat.zero_add n

/-- After 2^64 snapshots the numbers start again. -/
theorem snapshot_protocol_wraps :
    ¬ ∀ (token : String) (events : List Event), (∀ event ∈ events, dashboard event) →
      let s := run System.step (opened token) events
      s.sent.map (·.sequence) = (List.range s.sent.length).map fun k => toString (k + 1) := by
  intro h
  have hclaim := h "" _ (roundTrips_dashboard UInt64.size)
  have hnumbered := (exclusive_run "" (List.replicate UInt64.size roundTrip).flatten).numbered
  simp only [sent_rounds] at hclaim hnumbered
  have hall := List.map_inj_left.mp (hnumbered.symm.trans hclaim)
  exact numeral_wraps (hall (UInt64.size - 1) (List.mem_range.mpr (by decide)))

end Magicbox.Guarantees.SnapshotProtocol
