import Magicbox.Library.Runs
import Magicbox.Source.Json

/-!
# The live socket

server.cpp, `token_equal`, `LiveSocket::handleNewMessage` and
`ApplianceRuntime::submit`, and the dashboard's end of the connection in app.js.
One connection is followed. What other requests put into the control queue are
other jobs.

The event loop and the worker are cut at their accesses to the atomics and to
the control queue. An event that a thread is not ready for changes nothing, so
that a list of events is a schedule of both threads, of the client and of the
two channels.

Nothing in the program reads `Request`: it says which message a job answers.
The list `sent` is read by nothing either.
-/

set_option autoImplicit false

namespace Magicbox.Source.LiveSocket
open Json Library.Runs

/-! ## Tokens -/

/-- The bytes of a text. -/
def bytes (text : String) : List UInt8 := text.toUTF8.data.toList

/-- The loop of `token_equal`: the differences of all bytes, combined. -/
def difference : UInt32 → List UInt8 → List UInt8 → UInt32
  | seen, a :: as, b :: bs => difference (seen ||| (a ^^^ b).toUInt32) as bs
  | seen, _, _ => seen

def tokenEqual (a b : List UInt8) : Bool :=
  if a.length ≠ b.length then false else difference 0 a b = 0

theorem xor_toUInt32_eq_zero {a b : UInt8} : (a ^^^ b).toUInt32 = 0 ↔ a = b := by
  have hzero : (a ^^^ b).toUInt32 = (0 : UInt8).toUInt32 ↔ a ^^^ b = 0 := UInt8.toUInt32_inj
  exact hzero.trans UInt8.xor_eq_zero_iff

/-- The loop combines to nothing exactly for equal bytes. -/
theorem difference_eq_zero {seen : UInt32} {a b : List UInt8} (h : a.length = b.length) :
    difference seen a b = 0 ↔ seen = 0 ∧ a = b := by
  induction a generalizing seen b with
  | nil =>
    obtain rfl := List.length_eq_zero_iff.mp h.symm
    simp [difference]
  | cons x xs ih =>
    cases b with
    | nil => cases h
    | cons y ys =>
      rw [difference, ih (by simpa using h), UInt32.or_eq_zero_iff, xor_toUInt32_eq_zero,
        List.cons.injEq, and_assoc]

theorem tokenEqual_iff {a b : List UInt8} : tokenEqual a b = true ↔ a = b := by
  unfold tokenEqual
  split
  · next hlength =>
    simp only [Bool.false_eq_true, false_iff]
    exact fun heq => hlength (heq ▸ rfl)
  · next hlength =>
    rw [decide_eq_true_eq, difference_eq_zero (not_not.mp hlength)]
    exact and_iff_right rfl

/-! ## Messages -/

/-- A message as the handler finds it: its type, and the value that `parse_json` makes of it,
which throws on anything else. The text that jsoncpp has for a double comes with the message. -/
structure Message where
  text : Bool := true
  body : Option Value
  doubleText : String := ""

/-- The value is a text, and it is the token. -/
def spells (token_ : List UInt8) : Value → Bool
  | .string text => tokenEqual token_ (bytes text)
  | _ => false

/-- `body.get("ack", "0").asString()`. -/
def ackText (m : Message) (body : Value) : Except Exn String :=
  if body.isMember "ack" then
    match body.get "ack" with
    | .real _ => .ok m.doubleText
    | ack => ack.asString
  else (Value.string "0").asString

/-- What the handler makes of a message before it looks at the connection's state. -/
inductive Reading where
  | ignored
  | violation
  | invalidMessage
  | asks (ack : String)
  deriving DecidableEq, Repr

def readMessage (token_ : List UInt8) (m : Message) : Reading :=
  if m.text then
    match m.body with
    | none => .invalidMessage
    | some body =>
      match body.index "token" with
      | .error _ => .invalidMessage
      | .ok token =>
        if spells token_ token then
          match ackText m body with
          | .error _ => .invalidMessage
          | .ok ack => .asks ack
        else .violation
  else .ignored

/-- The message that a job answers: its ack, the number of snapshots that had been sent when the
ack was compared, and the number when `busy` was exchanged. -/
structure Request where
  ack : String
  comparedAt : Nat
  exchangedAt : Nat := 0
  deriving DecidableEq, Repr

/-- How far a reply is: before the increment, before `send` with the text of the incremented
sequence, or before `busy` is cleared. -/
inductive Stage where
  | begun
  | counted (sequence : String)
  | sent
  deriving DecidableEq, Repr

/-- A run of the reply function. -/
structure Reply where
  request : Request
  failed : Bool
  stage : Stage := .begun
  deriving DecidableEq, Repr

inductive Job where
  | snapshot (request : Request)
  | other
  deriving DecidableEq, Repr

/-- Where the event loop is in `handleNewMessage`. -/
inductive Handler where
  | idle
  /-- The comparison went through. -/
  | compared (request : Request)
  /-- `busy` was clear. -/
  | exchanged (request : Request)
  /-- The queue was full: the reply runs inside `submit`, under its lock. -/
  | refused (reply : Reply)
  deriving DecidableEq, Repr

inductive Worker where
  | waiting
  | working (job : Job)
  | replying (reply : Reply)
  deriving DecidableEq, Repr

/-- A snapshot on its way to the client, or the error that stands in for it. -/
structure Metrics where
  sequence : String
  failed : Bool
  request : Request
  deriving DecidableEq, Repr

structure System where
  token_ : String
  busy : Bool := false
  sequence : UInt64 := 0
  handler : Handler := .idle
  tasks_ : List Job := []
  worker : Worker := .waiting
  connected : Bool := true
  shutdown : Bool := false
  inbound : List Message := []
  outbound : List Metrics := []
  sent : List Metrics := []
  /-- `ack` of the dashboard. -/
  ack : String := "0"

inductive Event where
  | say (m : Message)
  | refresh
  | receive
  | exchange
  | submit
  | handlerReply
  | enqueueOther
  | pop
  | work (failed : Bool)
  | workerReply
  | deliver
  | disconnect

/-- What `refresh` sends. -/
def refreshMessage (token ack : String) : Message :=
  { body := some (.object [("ack", .string ack), ("token", .string token)]) }

namespace System

/-- Any client's message. -/
def say (s : System) (m : Message) : System := { s with inbound := s.inbound ++ [m] }

def refresh (s : System) : System := s.say (refreshMessage s.token_ s.ack)

/-- `handleNewMessage` up to the comparison with the loaded sequence. -/
def receive (s : System) : System :=
  match s.handler, s.inbound with
  | .idle, m :: rest =>
    match readMessage (bytes s.token_) m with
    | .ignored => { s with inbound := rest }
    | .violation => { s with inbound := rest, shutdown := true }
    | .invalidMessage => { s with inbound := rest, shutdown := true }
    | .asks ack =>
      if ack = toString s.sequence then
        { s with inbound := rest, handler := .compared { ack, comparedAt := s.sent.length } }
      else { s with inbound := rest }
  | _, _ => s

/-- `busy.exchange(true)`. -/
def exchange (s : System) : System :=
  match s.handler with
  | .compared request =>
    if s.busy then { s with handler := .idle }
    else { s with busy := true,
                  handler := .exchanged { request with exchangedAt := s.sent.length } }
  | _ => s

/-- Whether the event loop holds the lock of the control queue. -/
def locked (s : System) : Bool :=
  match s.handler with
  | .refused _ => true
  | _ => false

def submit (s : System) : System :=
  match s.handler with
  | .exchanged request =>
    if 64 ≤ s.tasks_.length then { s with handler := .refused { request, failed := true } }
    else { s with handler := .idle, tasks_ := s.tasks_ ++ [.snapshot request] }
  | _ => s

/-- The next access of a reply, and what is left of it. -/
def reply (s : System) (r : Reply) : System × Option Reply :=
  match r.stage with
  | .begun =>
    ({ s with sequence := s.sequence + 1 },
      some { r with stage := .counted (toString (s.sequence + 1)) })
  | .counted sequence =>
    let metrics := ⟨sequence, r.failed, r.request⟩
    (if s.connected then
        { s with outbound := s.outbound ++ [metrics], sent := s.sent ++ [metrics] }
      else s,
      some { r with stage := .sent })
  | .sent => ({ s with busy := false }, none)

def handlerReply (s : System) : System :=
  match s.handler with
  | .refused r => { (s.reply r).1 with handler := (s.reply r).2.elim .idle .refused }
  | _ => s

def enqueueOther (s : System) : System :=
  if s.locked || 64 ≤ s.tasks_.length then s else { s with tasks_ := s.tasks_ ++ [.other] }

/-- The worker takes the next job. -/
def pop (s : System) : System :=
  match s.worker, s.tasks_ with
  | .waiting, job :: rest =>
    if s.locked then s else { s with worker := .working job, tasks_ := rest }
  | _, _ => s

/-- The task of the job, with the reply to come. -/
def work (s : System) (failed : Bool) : System :=
  match s.worker with
  | .working (.snapshot request) => { s with worker := .replying { request, failed } }
  | .working .other => { s with worker := .waiting }
  | _ => s

def workerReply (s : System) : System :=
  match s.worker with
  | .replying r => { (s.reply r).1 with worker := (s.reply r).2.elim .waiting .replying }
  | _ => s

/-- `onmessage` of the dashboard. -/
def deliver (s : System) : System :=
  match s.outbound with
  | metrics :: rest => { s with ack := metrics.sequence, outbound := rest }
  | [] => s

def step (s : System) : Event → System
  | .say m => s.say m
  | .refresh => s.refresh
  | .receive => s.receive
  | .exchange => s.exchange
  | .submit => s.submit
  | .handlerReply => s.handlerReply
  | .enqueueOther => s.enqueueOther
  | .pop => s.pop
  | .work failed => s.work failed
  | .workerReply => s.workerReply
  | .deliver => s.deliver
  | .disconnect => { s with connected := false }

end System

/-- A connection that was just opened. -/
def opened (token_ : String) : System := { token_ }

end Magicbox.Source.LiveSocket
