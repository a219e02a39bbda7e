import Magicbox.Source.ControlPlane
import Magicbox.Source.FlowTable
import Magicbox.Source.Publishing

/-!
# The other members of the runtime

server.cpp: what `ControlPlane` leaves open of `ApplianceRuntime`, made of the
models of its parts: the capture and its samples, the tables of the store, and
the JSON of what is published.

The steps of the capture thread are among what the environment contributes. The
worker meets them where it waits for the thread, between a drain and the
snapshot, and behind all else that it does; what comes between that and its next
look at the engine commutes with it. A thread that does not end keeps the worker
in `stop` for good, which is the end of the process here.
-/

set_option autoImplicit false

namespace Magicbox.Source.RuntimeMembers
open Library Library.Crash Json Sampling PacketJson Publishing

/-- The members besides the controller, with the tables of the store. -/
structure Members (ρ : Type) where
  capture : Sampling.Runtime := idle
  captureError_ : String := ""
  storageError_ : String := ""
  samples : Store.Samples ρ := .empty
  flows : FlowTable.Table ρ := .empty

/-- What the environment contributes while the worker is at one thing. -/
structure Outside where
  /-- Steps of the capture thread: in `stop`, behind a drain, and behind the rest. -/
  stopping : List Engine.Event := []
  drained : List Engine.Event := []
  after : List Engine.Event := []
  /-- How `live_capture`, the start of the thread and the write of the setting end. -/
  opens : Except Exn Unit := .ok ()
  starts : Except Exn Unit := .ok ()
  stores : Except Exn Unit := .ok ()
  /-- The steady clock, two readings of `now_seconds`, and the clock of SQLite. -/
  now : Int := 0
  published : Int := 0
  sampled : Int := 0
  recorded : Int := 0
  /-- How the statements of `Store::sample` and of `Store::record_flows` end. -/
  inserts : Except Exn Unit := .ok ()
  deletes : Except Exn Unit := .ok ()
  records : List Sqlite.Answer := []
  interfaces : Except Exn Value := .ok (.array [])
  evaluation : Requests.Evaluation := ⟨0, 0, true⟩

variable {ρ : Type} (db : FlowTable.Database ρ)

def crash {σ ε α : Type} : Program σ ε α := fun s => (.crashed, s)

/-- Steps of the worker and of the capture thread. -/
def play (events : List Sampling.Event) : Program (Members ρ) Exn Unit :=
  update fun s => { s with capture := Runs.run Runtime.step s.capture events }

def thread (events : List Engine.Event) : Program (Members ρ) Exn Unit :=
  play (events.map .capture)

/-- The rest of `stop`, from the request on. -/
def join (outside : Outside) : Program (Members ρ) Exn Unit := do
  thread outside.stopping
  play [.joined]
  match ← read fun s : Members ρ => s.capture.control with
  | .stopping _ => crash
  | _ => pure ()

/-! ## sample -/

/-- What a sample publishes, if it is due. -/
def due (r : Sampling.Runtime) (outside : Outside) : Option Publication :=
  match r.control, r.engine_ with
  | .sampling purpose, some s =>
    if r.elapsed outside.now < 1000000000 ∧ purpose = none then none
    else some (r.publication s (r.elapsed outside.now) outside.published)
  | _, _ => none

/-- `store_.sample`. -/
def storeSample (outside : Outside) (c : Store.Call) : Program (Members ρ) Exn Unit := do
  liftExcept outside.inserts
  update fun s => { s with samples := Store.insertSample db.doubles s.samples c }
  liftExcept outside.deletes
  update fun s => { s with samples := Store.deleteBefore s.samples (c.ts - Store.retention) }

/-- `store_.record_flows`. -/
def storeFlows (outside : Outside) (b : Breakdown) : Program (Members ρ) Exn Unit := fun s =>
  let ending := FlowTable.recordFlows db outside.recorded (flowsJson b)
    ⟨s.flows, none, outside.records⟩
  (ending.1, { s with flows := ending.2.committed })

/-- The try block, and what it catches. -/
def store (outside : Outside) (p : Publication) : Program (Members ρ) Exn Unit :=
  recover (do
    storeSample db outside (sampleCall p outside.sampled)
    storeFlows db outside p.breakdown
    update fun s => { s with storageError_ := "" }) fun e =>
      update fun s => { s with storageError_ := e.what }

/-- `sample` from the clock on. -/
def finish (outside : Outside) : Program (Members ρ) Exn Unit := do
  let published ← read fun s : Members ρ => due s.capture outside
  play [.finish outside.now outside.published]
  match published with
  | some p => store db outside p
  | none => pure ()

/-- `sample`. Behind the loop of the worker it is forced, and the engine has been told to stop. -/
def sample (force : Bool) (outside : Outside) : Program (Members ρ) Exn Unit :=
  if force then do
    join outside
    play [.flush]
    finish db outside
    play [.conclude true true outside.now]
  else do
    play [.tick]
    thread outside.drained
    finish db outside
    thread outside.after

/-! ## Requests -/

/-- `engine_->stop(); sample(true)`, if there is an engine. -/
def closeEngine (request : Sampling.Event) (outside : Outside) : Program (Members ρ) Exn Unit := do
  play [request]
  join outside
  play [.flush]
  finish db outside

def startCapture (name : String) (outside : Outside) : Program (Members ρ) Exn Unit :=
  if !validName name then raise (.invalidArgument "Invalid capture interface")
  else do
    liftExcept outside.opens
    closeEngine db (.put name true) outside
    play [.conclude outside.starts.isOk outside.stores.isOk outside.now]
    liftExcept outside.starts
    liftExcept outside.stores
    update fun s => { s with captureError_ := "" }
    thread outside.after

def removeCapture (outside : Outside) : Program (Members ρ) Exn Unit := do
  closeEngine db .delete outside
  play [.conclude true outside.stores.isOk outside.now]
  liftExcept outside.stores

def connections : Program (Members ρ) Exn Value := do
  let flows ← read Members.flows
  liftExcept (FlowTable.connections db flows)

/-- A signed overflow, whose behaviour is undefined, is the end of the process here. -/
def history (from_ to_ interval : Int64) : Program (Members ρ) Exn Value := do
  let samples ← read Members.samples
  match Store.history db.doubles samples from_ to_ interval.toInt with
  | .ok value => pure value
  | .error (.threw e) => raise e
  | .error .undefined => crash

/-- What `ControlPlane` leaves open. -/
def members (reader : String → Requests.Parsed) : ControlPlane.Rest (Members ρ) Outside where
  sample := sample db
  noteCaptureError := fun what s => { s with captureError_ := what }
  stopEngine := fun s => { s with capture := s.capture.step .shutdown }
  texts := fun s => ⟨s.capture.captureInterface_, s.captureError_, s.storageError_⟩
  snapshot := fun s network => Publishing.snapshot s.capture network
  interfaces := Outside.interfaces
  startCapture := startCapture db
  removeCapture := removeCapture db
  recent_ := fun s => .array (s.capture.recent_.map packetJson)
  connections := fun _ => connections db
  evaluation := Outside.evaluation
  history := fun from_ to_ interval _ => history db from_ to_ interval
  reader

end Magicbox.Source.RuntimeMembers
