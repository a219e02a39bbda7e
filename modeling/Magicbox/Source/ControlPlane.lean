import Magicbox.Source.Gate
import Magicbox.Source.Requests
import Magicbox.Source.Worker

/-!
# The control plane

server.cpp: `ApplianceRuntime::request` with all its endpoints, and what `work`
calls of the controller. Of the runtime the controller is here as it is; the
other members, of type `τ`, are those of the capture, and what the runtime does
with them is a parameter, which RuntimeMembers fills in. `ρ` is what the
environment contributes to that.
-/

set_option autoImplicit false

namespace Magicbox.Source.ControlPlane
open Library.Crash Json Config ConfigJson NetworkController Worker

inductive Method where
  | get
  | post
  | put
  | delete
  deriving DecidableEq, Repr

/-- What `request` reads of a request. A parameter that it does not have is empty. -/
structure Content where
  path : String
  method : Method
  body : String := ""
  parameter : String → String := fun _ => ""

inductive Endpoint where
  | status
  | interfaces
  | config
  | validate
  | apply
  | confirm
  | rollback
  | startCapture
  | removeCapture
  | metrics
  | packets
  | flows
  | history
  deriving DecidableEq, Repr

def endpoint (path : String) : Method → Option Endpoint
  | .get =>
    if path = "/api/v1/status" then some .status
    else if path = "/api/v1/interfaces" then some .interfaces
    else if path = "/api/v1/config" then some .config
    else if path = "/api/v1/metrics" then some .metrics
    else if path = "/api/v1/packets" then some .packets
    else if path = "/api/v1/flows" then some .flows
    else if path = "/api/v1/history" then some .history
    else none
  | .post =>
    if path = "/api/v1/config/validate" then some .validate
    else if path = "/api/v1/config/confirm" then some .confirm
    else if path = "/api/v1/config/rollback" then some .rollback
    else none
  | .put =>
    if path = "/api/v1/config" then some .apply
    else if path = "/api/v1/capture" then some .startCapture
    else none
  | .delete => if path = "/api/v1/capture" then some .removeCapture else none

/-- What the environment answers while the worker is at one thing: to its first call of the
controller, to its second, and to everything else. -/
structure Answers (ρ : Type) where
  first : Supply := {}
  second : Supply := {}
  rest : ρ

/-- The runtime. -/
structure Runtime (τ : Type) where
  network_ : World
  rest : τ

/-- The texts that `status` reports. -/
structure Texts where
  captureInterface_ : String
  captureError_ : String
  storageError_ : String

/-- What the runtime does with its other members. -/
structure Rest (τ ρ : Type) where
  sample : Bool → ρ → Program τ Exn Unit
  noteCaptureError : String → τ → τ
  stopEngine : τ → τ
  texts : τ → Texts
  /-- `snapshot`, with the state of the controller. -/
  snapshot : τ → Value → Value
  /-- `interfaces` asks `ip` and reads no member of the controller. -/
  interfaces : ρ → Except Exn Value
  startCapture : String → ρ → Program τ Exn Unit
  removeCapture : ρ → Program τ Exn Unit
  recent_ : τ → Value
  connections : ρ → Program τ Exn Value
  evaluation : ρ → Requests.Evaluation
  history : Int64 → Int64 → Int64 → ρ → Program τ Exn Value
  reader : String → Requests.Parsed

variable {τ ρ α : Type}

/-- A call of the controller. -/
def controller (supply : Supply) (m : Controller α) : Program (Runtime τ) Exn α := fun s =>
  ((m (supplied s.network_ supply)).1,
    { s with network_ := (m (supplied s.network_ supply)).2 })

/-- What does not reach the controller. -/
def others (m : Program τ Exn α) : Program (Runtime τ) Exn α := fun s =>
  ((m s.rest).1, { s with rest := (m s.rest).2 })

variable (parts : Rest τ ρ)

def snapshot (supply : Supply) : Program (Runtime τ) Exn Value := do
  let network ← controller supply state
  read fun s => parts.snapshot s.rest network

def statusJson (texts : Texts) (network metrics : Value) : Value :=
  Value.null.set "version" (.string "0.2.0")
    |>.set "network" network
    |>.set "capture_interface" (.string texts.captureInterface_)
    |>.set "capture_error" (.string texts.captureError_)
    |>.set "storage_error" (.string texts.storageError_)
    |>.set "metrics" metrics

def statusRequest (answers : Answers ρ) : Program (Runtime τ) Exn Value := do
  let network ← controller answers.first state
  let texts ← read fun s => parts.texts s.rest
  let metrics ← snapshot parts answers.second
  pure (statusJson texts network metrics)

def historyRequest (content : Content) (answers : Answers ρ) : Program (Runtime τ) Exn Value := do
  let interval ← liftExcept (Requests.intervalNumber (content.parameter "interval"))
  let range ← liftExcept (Requests.range (parts.evaluation answers.rest) (content.parameter "from")
    (content.parameter "to"))
  others (parts.history range.1 range.2 interval answers.rest)

/-- What an endpoint does. -/
def serve (content : Content) (answers : Answers ρ) : Endpoint → Program (Runtime τ) Exn Value
  | .status => statusRequest parts answers
  | .interfaces => liftExcept (parts.interfaces answers.rest)
  | .config => controller answers.first state
  | .validate => do
    let c ← liftExcept (Requests.configBody parts.reader content.body)
    pure (Requests.validAnswer c)
  | .apply => do
    let c ← liftExcept (Requests.configBody parts.reader content.body)
    controller answers.first (apply c)
    controller answers.second state
  | .confirm => do
    controller answers.first confirm
    controller answers.second state
  | .rollback => do
    controller answers.first rollback
    controller answers.second state
  | .startCapture => do
    let name ← liftExcept (Requests.captureBody parts.reader content.body)
    others (parts.startCapture name answers.rest)
    snapshot parts answers.first
  | .removeCapture => do
    others (parts.removeCapture answers.rest)
    snapshot parts answers.first
  | .metrics => snapshot parts answers.first
  | .packets => read fun s => parts.recent_ s.rest
  | .flows => others (parts.connections answers.rest)
  | .history => historyRequest parts content answers

def request (content : Content) : ControlQueue.Task (Runtime τ) (Answers ρ) := fun answers =>
  match endpoint content.path content.method with
  | some e => serve parts content answers e
  | none => raise (.invalidArgument "Unknown endpoint or unsupported method")

/-- The worker's own work. -/
def work : ControlQueue.Parts (Runtime τ) (Answers ρ) where
  tick := fun answers => controller answers.first tick
  sample := fun force answers => others (parts.sample force answers.rest)
  noteCaptureError := fun what s => { s with rest := parts.noteCaptureError what s.rest }
  stopEngine := fun s => { s with rest := parts.stopEngine s.rest }
  rollBackPending := fun answers => controller answers.first Worker.shutdown

/-- The appliance. -/
def app (token_ : List UInt8) : Gate.App Content (Runtime τ) (Answers ρ) where
  token_
  parts := work parts
  request := request parts
  snapshot := fun answers => snapshot parts answers.first

end Magicbox.Source.ControlPlane
