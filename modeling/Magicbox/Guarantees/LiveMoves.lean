import Magicbox.Source.LiveSocket

/-!
# Moves of a live connection

What an event can do to a connection, seen from its replies: nothing, let a
compared message through, or take one of the three steps of a reply. The replies
in progress are those of the handler, of the queued jobs and of the worker.
-/

set_option autoImplicit false

namespace Magicbox.Guarantees.LiveMoves
open Source.LiveSocket

variable {s t : System} {event : Event}

/-! ## Replies in progress -/

/-- A request whose `busy` is set, and how far its reply is. -/
abbrev Answering := Request × Stage

def Reply.answering (r : Reply) : Answering := (r.request, r.stage)

def jobReplies : Job → List Answering
  | .snapshot request => [(request, .begun)]
  | .other => []

def handlerReplies : Handler → List Answering
  | .exchanged request => [(request, .begun)]
  | .refused reply => [Reply.answering reply]
  | _ => []

def workerReplies : Worker → List Answering
  | .waiting => []
  | .working job => jobReplies job
  | .replying reply => [Reply.answering reply]

def inProgress (s : System) : List Answering :=
  handlerReplies s.handler ++ s.tasks_.flatMap jobReplies ++ workerReplies s.worker

/-- A message whose ack is the sequence, with the number of snapshots sent. -/
def Matches (s : System) (r : Request) : Prop :=
  r.ack = toString s.sequence ∧ r.comparedAt = s.sent.length

/-- What an event does. -/
inductive Move (s : System) (event : Event) (t : System) : Prop where
  | frame (hbusy : t.busy = s.busy) (hsequence : t.sequence = s.sequence)
      (hsent : t.sent = s.sent) (hconnected : t.connected = true → s.connected = true)
      (hreplies : (inProgress t).Perm (inProgress s))
      (hcompared : ∀ r, t.handler = .compared r → s.handler = .compared r ∨ Matches s r)
  | accepted (r : Request) (hevent : event = .exchange) (hr : s.handler = .compared r)
      (hfree : s.busy = false) (hbusy : t.busy = true) (hsequence : t.sequence = s.sequence)
      (hsent : t.sent = s.sent) (hconnected : t.connected = s.connected)
      (hreplies : (inProgress t).Perm
        (({ r with exchangedAt := s.sent.length }, .begun) :: inProgress s))
      (hcompared : ∀ r, t.handler ≠ .compared r)
  | counted (r : Request) (others : List Answering)
      (hbefore : (inProgress s).Perm ((r, .begun) :: others))
      (hafter : (inProgress t).Perm ((r, .counted (toString t.sequence)) :: others))
      (hbusy : t.busy = s.busy) (hsequence : t.sequence = s.sequence + 1)
      (hsent : t.sent = s.sent) (hconnected : t.connected = s.connected)
      (hcompared : ∀ r, t.handler = .compared r → s.handler = .compared r)
  | sent (x : Metrics) (others : List Answering)
      (hbefore : (inProgress s).Perm ((x.request, .counted x.sequence) :: others))
      (hafter : (inProgress t).Perm ((x.request, .sent) :: others))
      (hbusy : t.busy = s.busy) (hsequence : t.sequence = s.sequence)
      (hsent : t.sent = if s.connected then s.sent ++ [x] else s.sent)
      (hconnected : t.connected = s.connected)
      (hcompared : ∀ r, t.handler = .compared r → s.handler = .compared r)
  | finished (r : Request) (others : List Answering)
      (hbefore : (inProgress s).Perm ((r, .sent) :: others))
      (hafter : (inProgress t).Perm others)
      (hbusy : t.busy = false) (hsequence : t.sequence = s.sequence)
      (hsent : t.sent = s.sent) (hconnected : t.connected = s.connected)
      (hcompared : ∀ r, t.handler = .compared r → s.handler = .compared r)

/-- An event that touches neither replies nor handler. -/
theorem Move.idle (hbusy : t.busy = s.busy) (hsequence : t.sequence = s.sequence)
    (hsent : t.sent = s.sent) (hconnected : t.connected = true → s.connected = true)
    (hreplies : inProgress t = inProgress s) (hhandler : t.handler = s.handler) : Move s event t :=
  .frame hbusy hsequence hsent hconnected (hreplies ▸ List.Perm.refl _)
    fun _ h => Or.inl (hhandler ▸ h)

/-! ## Every event is a move -/

theorem receive_move (s : System) : Move s .receive s.receive := by
  unfold System.receive
  split
  · next m rest hhandler hinbound =>
    have hreplies : ∀ h, handlerReplies h = [] →
        inProgress { s with inbound := rest, handler := h } = inProgress s := by
      intro h hnone
      have hidle : handlerReplies .idle = [] := rfl
      simp [inProgress, hhandler, hnone, hidle]
    cases readMessage (bytes s.token_) m with
    | ignored => exact .idle rfl rfl rfl id rfl rfl
    | violation => exact .idle rfl rfl rfl id rfl rfl
    | invalidMessage => exact .idle rfl rfl rfl id rfl rfl
    | asks ack =>
      by_cases hack : ack = toString s.sequence
      · simp only [if_pos hack]
        refine .frame rfl rfl rfl id (List.Perm.of_eq (hreplies _ rfl)) fun r hr => ?_
        simp only [Handler.compared.injEq] at hr
        exact Or.inr (hr ▸ ⟨hack, rfl⟩)
      · simp only [if_neg hack]
        exact .idle rfl rfl rfl id rfl rfl
  · exact .idle rfl rfl rfl id rfl rfl

theorem exchange_move (s : System) : Move s .exchange s.exchange := by
  unfold System.exchange
  split
  · next request hhandler =>
    by_cases hbusy : s.busy = true
    · rw [if_pos hbusy]
      refine .frame rfl rfl rfl id (List.Perm.of_eq ?_) (by simp)
      simp [inProgress, hhandler, handlerReplies]
    · rw [if_neg hbusy]
      refine .accepted request rfl hhandler (Bool.eq_false_iff.mpr hbusy) rfl rfl rfl rfl
        (List.Perm.of_eq ?_) (by simp)
      simp [inProgress, hhandler, handlerReplies]
  · exact .idle rfl rfl rfl id rfl rfl

theorem submit_move (s : System) : Move s .submit s.submit := by
  unfold System.submit
  split
  · next request hhandler =>
    split
    · refine .frame rfl rfl rfl id (List.Perm.of_eq ?_) (by simp)
      simp [inProgress, hhandler, handlerReplies, Reply.answering]
    · refine .frame rfl rfl rfl id ?_ (by simp)
      simp only [inProgress, hhandler, handlerReplies, List.nil_append, List.flatMap_append,
        List.flatMap_singleton, jobReplies, List.append_assoc]
      exact List.perm_append_comm_assoc _ _ _
  · exact .idle rfl rfl rfl id rfl rfl

theorem pop_move (s : System) : Move s .pop s.pop := by
  unfold System.pop
  split
  · next job rest hworker htasks =>
    split
    · exact .idle rfl rfl rfl id rfl rfl
    · refine .frame rfl rfl rfl id ?_ fun r h => Or.inl h
      simp only [inProgress, hworker, htasks, workerReplies, List.flatMap_cons, List.append_assoc,
        List.append_nil]
      exact List.Perm.append_left _ List.perm_append_comm
  · exact .idle rfl rfl rfl id rfl rfl

theorem work_move (s : System) (failed : Bool) : Move s (.work failed) (s.work failed) := by
  unfold System.work
  split
  · next request hworker =>
    refine .idle rfl rfl rfl id ?_ rfl
    simp [inProgress, hworker, workerReplies, jobReplies, Reply.answering]
  · next hworker =>
    refine .idle rfl rfl rfl id ?_ rfl
    simp [inProgress, hworker, workerReplies, jobReplies]
  · exact .idle rfl rfl rfl id rfl rfl

/-- A step of a reply, wherever it runs. -/
theorem reply_move {r : Reply} (others : List Answering)
    (hbefore : (inProgress s).Perm (Reply.answering r :: others))
    (hafter : (inProgress t).Perm ((s.reply r).2.toList.map Reply.answering ++ others))
    (hbusy : t.busy = (s.reply r).1.busy) (hsequence : t.sequence = (s.reply r).1.sequence)
    (hsent : t.sent = (s.reply r).1.sent) (hconnected : t.connected = (s.reply r).1.connected)
    (hcompared : ∀ r, t.handler = .compared r → s.handler = .compared r) : Move s event t := by
  cases hstage : r.stage with
  | begun =>
    simp only [System.reply, hstage, Reply.answering, Option.toList_some, List.map_cons,
      List.map_nil, List.singleton_append] at *
    exact .counted r.request others hbefore (hsequence ▸ hafter) hbusy hsequence hsent hconnected
      hcompared
  | counted sequence =>
    simp only [System.reply, hstage, Reply.answering, Option.toList_some, List.map_cons,
      List.map_nil, List.singleton_append] at hbefore hafter hbusy hsequence hsent hconnected
    refine .sent ⟨sequence, r.failed, r.request⟩ others hbefore hafter ?_ ?_ ?_ ?_ hcompared
    · rw [hbusy]; split <;> rfl
    · rw [hsequence]; split <;> rfl
    · rw [hsent]; split <;> rfl
    · rw [hconnected]; split <;> rfl
  | sent =>
    simp only [System.reply, hstage, Reply.answering, Option.toList_none, List.map_nil,
      List.nil_append] at *
    exact .finished r.request others hbefore hafter hbusy hsequence hsent hconnected hcompared

theorem reply_frame (s : System) (r : Reply) :
    (s.reply r).1.handler = s.handler ∧ (s.reply r).1.worker = s.worker ∧
      (s.reply r).1.tasks_ = s.tasks_ := by
  unfold System.reply
  cases r.stage with
  | begun => exact ⟨rfl, rfl, rfl⟩
  | counted sequence => cases s.connected <;> simp
  | sent => exact ⟨rfl, rfl, rfl⟩

theorem handlerReply_move (s : System) : Move s .handlerReply s.handlerReply := by
  unfold System.handlerReply
  split
  · next r hhandler =>
    have hframe := reply_frame s r
    refine reply_move (r := r) (s.tasks_.flatMap jobReplies ++ workerReplies s.worker)
      ?_ ?_ rfl rfl rfl rfl ?_
    · simp [inProgress, hhandler, handlerReplies]
    · cases hleft : (s.reply r).2 with
      | none => simp [inProgress, handlerReplies, hframe]
      | some left => simp [inProgress, handlerReplies, hframe]
    · cases hleft : (s.reply r).2 <;> simp
  · exact .idle rfl rfl rfl id rfl rfl

theorem workerReply_move (s : System) : Move s .workerReply s.workerReply := by
  unfold System.workerReply
  split
  · next r hworker =>
    obtain ⟨hhandler, -, htasks⟩ := reply_frame s r
    refine reply_move (r := r) (handlerReplies s.handler ++ s.tasks_.flatMap jobReplies)
      ?_ ?_ rfl rfl rfl rfl ?_
    · simp only [inProgress, hworker, workerReplies]
      exact List.perm_append_singleton _ _
    · cases hleft : (s.reply r).2 with
      | none => simp [inProgress, workerReplies, hhandler, htasks]
      | some left =>
        simp only [inProgress, workerReplies, hhandler, htasks, Option.elim_some,
          Option.toList_some, List.map_cons, List.map_nil, List.singleton_append]
        exact List.perm_append_singleton _ _
    · intro r h
      exact hhandler ▸ h
  · exact .idle rfl rfl rfl id rfl rfl

theorem step_move (s : System) (event : Event) : Move s event (s.step event) := by
  cases event with
  | say m => exact .idle rfl rfl rfl id rfl rfl
  | refresh => exact .idle rfl rfl rfl id rfl rfl
  | receive => exact receive_move s
  | exchange => exact exchange_move s
  | submit => exact submit_move s
  | handlerReply => exact handlerReply_move s
  | enqueueOther =>
    simp only [System.step, System.enqueueOther]
    split
    · exact .idle rfl rfl rfl id rfl rfl
    · exact .idle rfl rfl rfl id (by simp [inProgress, jobReplies]) rfl
  | pop => exact pop_move s
  | work failed => exact work_move s failed
  | workerReply => exact workerReply_move s
  | deliver =>
    simp only [System.step, System.deliver]
    split <;> exact .idle rfl rfl rfl id rfl rfl
  | disconnect => exact .idle rfl rfl rfl (by simp [System.step]) rfl rfl

end Magicbox.Guarantees.LiveMoves
