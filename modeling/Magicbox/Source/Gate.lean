import Magicbox.Source.ControlQueue
import Magicbox.Source.LiveSocket

/-!
# The gate

server.cpp: what stands between the clients and the control queue.
`valid_origin`, the handler that `run_appliance` registers, and the handlers of
`LiveSocket` for any number of connections, with the queue behind them.

A header is a list of bytes, and one that a request does not have is empty. The
event loop is cut at its accesses to the state of a socket and to the queue, as
the worker is; the messages of one connection are handled one at a time. A reply
of a socket is one event here: LiveSocket has its stages.
-/

set_option autoImplicit false

namespace Magicbox.Source.Gate
open Json LiveSocket

/-- A request: its headers, and what `request` reads of it. -/
structure HttpRequest (κ : Type) where
  header : String → List UInt8
  content : κ

variable {κ σ ε : Type}

def validOrigin (r : HttpRequest κ) : Bool :=
  r.header "origin" = [] ||
    r.header "origin" = bytes "http://" ++ r.header "host" ||
    r.header "origin" = bytes "https://" ++ r.header "host"

/-- The check of the handler for requests. -/
def authorized (token_ : List UInt8) (r : HttpRequest κ) : Bool :=
  validOrigin r && (bytes "Bearer ").isPrefixOf (r.header "authorization") &&
    tokenEqual token_ ((r.header "authorization").drop 7)

def unauthorized : Value × Nat := (ControlQueue.errorJson "Unauthorized", 401)

/-- What the runtime does for the clients. -/
structure App (κ σ ε : Type) where
  token_ : List UInt8
  parts : ControlQueue.Parts σ ε
  request : κ → ControlQueue.Task σ ε
  snapshot : ControlQueue.Task σ ε

/-- Where the event loop is with a message. -/
inductive Stage where
  | idle
  | compared
  | exchanged
  deriving DecidableEq

/-- A connection with its `SocketState`. -/
structure Socket where
  connected : Bool := true
  busy : Bool := false
  sequence : UInt64 := 0
  stage : Stage := .idle
  sent : List Value := []

/-- Whose reply a job calls. -/
inductive Client where
  | http (client : Nat)
  | socket (k : Nat)
  deriving DecidableEq

/-- The queue and what hangs on it. -/
structure Core (σ ε : Type) where
  queue : ControlQueue.System σ ε
  clients : List Client := []
  answers : List (Nat × (Value × Nat)) := []
  sockets : Nat → Option Socket := fun _ => none

structure Front (σ ε : Type) where
  core : Core σ ε
  /-- What the handler for requests answered itself. -/
  refused : List (Nat × (Value × Nat)) := []
  /-- The connections that a handler has shut down. -/
  shutdown : List Nat := []

inductive Event (κ σ ε : Type) where
  | http (client : Nat) (request : HttpRequest κ)
  | connect (k : Nat) (request : HttpRequest κ)
  | message (k : Nat) (m : Message)
  | exchange (k : Nat)
  | enqueue (k : Nat)
  | disconnect (k : Nat)
  /-- Whatever happens at the queue, submissions apart. -/
  | queue (event : ControlQueue.Event σ ε)

namespace Core

def put (c : Core σ ε) (k : Nat) (socket : Socket) : Core σ ε :=
  { c with sockets := Function.update c.sockets k (some socket) }

/-- The reply of a socket. -/
def send (socket : Socket) (value : Value) : Socket :=
  { socket with
    sequence := socket.sequence + 1
    busy := false
    sent := if socket.connected then
        socket.sent ++ [value.set "sequence" (.string (toString (socket.sequence + 1)))]
      else socket.sent }

/-- The reply of a job is called. -/
def deliver (c : Core σ ε) : ControlQueue.Act → Core σ ε
  | .answered id reply =>
    match c.clients[id]? with
    | none => c
    | some (.http client) => { c with answers := c.answers ++ [(client, reply)] }
    | some (.socket k) =>
      match c.sockets k with
      | none => c
      | some socket => c.put k (send socket reply.1)
  | _ => c

/-- A step of the queue, with the replies that it calls. -/
def advance (app : App κ σ ε) (c : Core σ ε) (event : ControlQueue.Event σ ε) : Core σ ε :=
  let queue := c.queue.step app.parts event
  (queue.trace.drop c.queue.trace.length).foldl deliver { c with queue }

/-- `submit`. The job gets the number of the call. -/
def submit (app : App κ σ ε) (c : Core σ ε) (client : Client) (task : ControlQueue.Task σ ε) :
    Core σ ε :=
  if c.queue.locked then c
  else advance app { c with clients := c.clients ++ [client] } (.submit task)

/-- A message with the token, up to the comparison with the loaded sequence. -/
def compare (c : Core σ ε) (k : Nat) (ack : String) : Core σ ε :=
  match c.sockets k with
  | none => c
  | some socket =>
    if socket.stage = .idle ∧ ack = toString socket.sequence then
      c.put k { socket with stage := .compared }
    else c

/-- `busy.exchange(true)`. -/
def exchange (c : Core σ ε) (k : Nat) : Core σ ε :=
  match c.sockets k with
  | none => c
  | some socket =>
    if socket.stage = .compared then
      if socket.busy then c.put k { socket with stage := .idle }
      else c.put k { socket with stage := .exchanged, busy := true }
    else c

def enqueue (app : App κ σ ε) (c : Core σ ε) (k : Nat) : Core σ ε :=
  match c.sockets k with
  | none => c
  | some socket =>
    if socket.stage = .exchanged ∧ ¬ c.queue.locked then
      submit app (c.put k { socket with stage := .idle }) (.socket k) app.snapshot
    else c

def disconnect (c : Core σ ε) (k : Nat) : Core σ ε :=
  match c.sockets k with
  | none => c
  | some socket => c.put k { socket with connected := false }

end Core

namespace Front

/-- The handler for requests. -/
def http (app : App κ σ ε) (s : Front σ ε) (client : Nat) (r : HttpRequest κ) : Front σ ε :=
  if authorized app.token_ r then
    { s with core := s.core.submit app (.http client) (app.request r.content) }
  else { s with refused := s.refused ++ [(client, unauthorized)] }

/-- `handleNewConnection`. -/
def connect (s : Front σ ε) (k : Nat) (r : HttpRequest κ) : Front σ ε :=
  if validOrigin r then
    match s.core.sockets k with
    | none => { s with core := s.core.put k {} }
    | some _ => s
  else { s with shutdown := s.shutdown ++ [k] }

/-- `handleNewMessage`, up to the comparison. -/
def message (app : App κ σ ε) (s : Front σ ε) (k : Nat) (m : Message) : Front σ ε :=
  match readMessage app.token_ m with
  | .ignored => s
  | .asks ack => { s with core := s.core.compare k ack }
  | .violation | .invalidMessage =>
    match s.core.sockets k with
    | none => s
    | some socket =>
      if socket.stage = .idle then { s with shutdown := s.shutdown ++ [k] } else s

def step (app : App κ σ ε) (s : Front σ ε) (event : Event κ σ ε) : Front σ ε :=
  if s.core.queue.alive then
    match event with
    | .http client r => s.http app client r
    | .connect k r => s.connect k r
    | .message k m => s.message app k m
    | .exchange k => { s with core := s.core.exchange k }
    | .enqueue k => { s with core := s.core.enqueue app k }
    | .disconnect k => { s with core := s.core.disconnect k }
    | .queue (.submit _) => s
    | .queue event => { s with core := s.core.advance app event }
  else s

end Front

/-! ## What an event does to the queue -/

section Queue
variable {app : App κ σ ε} {c : Core σ ε} {s : Front σ ε}

theorem deliver_queue (act : ControlQueue.Act) : (c.deliver act).queue = c.queue := by
  cases act with
  | answered id reply =>
    simp only [Core.deliver]
    split
    · rfl
    · rfl
    · split <;> rfl
  | _ => rfl

theorem advance_queue (event : ControlQueue.Event σ ε) :
    (c.advance app event).queue = c.queue.step app.parts event := by
  have hdeliver : ∀ (acts : List ControlQueue.Act) (d : Core σ ε),
      (acts.foldl Core.deliver d).queue = d.queue := by
    intro acts
    induction acts with
    | nil => exact fun _ => rfl
    | cons act rest ih => exact fun d => (ih _).trans (deliver_queue act)
  exact hdeliver _ _

theorem submit_queue (client : Client) (task : ControlQueue.Task σ ε) :
    (c.submit app client task).queue = c.queue.step app.parts (.submit task) := by
  unfold Core.submit
  split
  · next hlocked =>
    unfold ControlQueue.System.step
    split
    · simp
    · rfl
  · exact advance_queue _

/-- The queue stays, takes a step of its own, or gets the task of a request with the token or the
snapshot for a socket. -/
inductive Moves (app : App κ σ ε) (s : Front σ ε) :
    Event κ σ ε → ControlQueue.System σ ε → Prop
  | same {event : Event κ σ ε} : Moves app s event s.core.queue
  | queue {event : ControlQueue.Event σ ε} (h : ∀ task, event ≠ .submit task) :
    Moves app s (.queue event) (s.core.queue.step app.parts event)
  | request {client : Nat} {r : HttpRequest κ} (h : authorized app.token_ r = true) :
    Moves app s (.http client r) (s.core.queue.step app.parts (.submit (app.request r.content)))
  | snapshot {k : Nat} :
    Moves app s (.enqueue k) (s.core.queue.step app.parts (.submit app.snapshot))

theorem step_moves (app : App κ σ ε) (s : Front σ ε) (event : Event κ σ ε) :
    Moves app s event (s.step app event).core.queue := by
  unfold Front.step
  split
  · cases event with
    | http client r =>
      simp only [Front.http]
      split
      · next hauthorized =>
        rw [submit_queue]
        exact .request hauthorized
      · exact .same
    | connect k r =>
      simp only [Front.connect]
      split
      · split <;> exact .same
      · exact .same
    | message k m =>
      simp only [Front.message]
      split
      · exact .same
      · simp only [Core.compare]
        split
        · exact .same
        · split <;> exact .same
      · split
        · exact .same
        · split <;> exact .same
      · split
        · exact .same
        · split <;> exact .same
    | exchange k =>
      simp only [Core.exchange]
      split
      · exact .same
      · split
        · split <;> exact .same
        · exact .same
    | enqueue k =>
      simp only [Core.enqueue]
      split
      · exact .same
      · split
        · rw [submit_queue]
          exact .snapshot
        · exact .same
    | disconnect k =>
      simp only [Core.disconnect]
      split <;> exact .same
    | queue event =>
      cases event with
      | submit task => exact .same
      | _ =>
        simp only [advance_queue]
        refine .queue ?_
        rintro _ ⟨⟩
  · exact .same

end Queue

/-- The appliance as it begins to serve, and then a schedule of all threads and clients. -/
def serve (app : App κ σ ε) (runtime : σ) (events : List (Event κ σ ε)) : Front σ ε :=
  Library.Runs.run (Front.step app) { core := { queue := ControlQueue.started runtime } } events

end Magicbox.Source.Gate
