import Magicbox.Library.OrderedMap
import Magicbox.Source.Engine

/-!
# Sampling

server.cpp: `ApplianceRuntime::sample`, `start_capture`, the requests on
/api/v1/capture and the shutdown, as the control worker runs them. The worker is
cut at its calls of the engine: where it stops it, where it drains it and where
it takes the snapshot. The capture thread may run between any two of them. The
outcomes of calls that can fail are part of the events.

Times are in nanoseconds. Rates are the rationals that the doubles stand for.
Nothing in the program reads a ledger, the publications or the closed sessions.
-/

set_option autoImplicit false

namespace Magicbox.Source.Sampling
open Capture Engine Library Library.BoundedQueue Library.Runs

/-! ## What a packet adds -/

/-- `protocol` of `packet_json`. -/
def protocolName : Protocol → String
  | .other => "other"
  | .tcp => "tcp"
  | .udp => "udp"
  | .icmp => "icmp"

/-- `timestamp_ms` of `packet_json`. -/
def timestampMs (p : PacketMetadata) : Int := p.timestamp.tdiv 1000000

/-- A port as `asString` gives it, where a port that is absent is null. -/
def portText : Option UInt16 → String
  | none => ""
  | some port => toString port

def flowKey (captureInterface : String) (p : PacketMetadata) : String :=
  captureInterface ++ "|" ++ p.sourceIp ++ "|" ++ p.destinationIp ++ "|" ++
    protocolName p.protocol ++ "|" ++ portText p.sourcePort ++ "|" ++ portText p.destinationPort

/-- A flow: its last packet and what was added to it. -/
structure Flow where
  packet : PacketMetadata
  key : String
  captureInterface : String
  firstSeen : Int
  packets : Int
  bytes : Int
  deriving DecidableEq, Repr

/-- The members that `sample` clears when it has published them. -/
structure Breakdown where
  protocols_ : OrderedMap String UInt64 := .empty
  talkers_ : OrderedMap String UInt64 := .empty
  talkersOmitted_ : UInt64 := 0
  flows_ : OrderedMap String Flow := .empty
  flowsOmitted_ : UInt64 := 0

namespace Breakdown

def addFlow (captureInterface : String) (b : Breakdown) (p : PacketMetadata) : Breakdown :=
  let key := flowKey captureInterface p
  if p.sourceIp = "" then b
  else if b.flows_.contains key || b.flows_.size < 4096 then
    { b with flows_ := b.flows_.alter key fun flow =>
        { packet := p, key, captureInterface,
          firstSeen := (flow.map (·.firstSeen)).getD (timestampMs p),
          packets := (flow.map (·.packets)).getD 0 + 1,
          bytes := (flow.map (·.bytes)).getD 0 + p.wireBytes.toNat } }
  else { b with flowsOmitted_ := b.flowsOmitted_ + 1 }

def addProtocol (b : Breakdown) (p : PacketMetadata) : Breakdown :=
  { b with protocols_ := b.protocols_.alter (protocolName p.protocol) fun n => n.getD 0 + 1 }

def addTalker (b : Breakdown) (p : PacketMetadata) : Breakdown :=
  if p.sourceIp = "" then b
  else if b.talkers_.contains p.sourceIp || b.talkers_.size < 1024 then
    { b with talkers_ := b.talkers_.alter p.sourceIp fun n => n.getD 0 + p.wireBytes.toUInt64 }
  else { b with talkersOmitted_ := b.talkersOmitted_ + 1 }

/-- The body of the loop over the drained packets. -/
def add (captureInterface : String) (b : Breakdown) (p : PacketMetadata) : Breakdown :=
  ((b.addFlow captureInterface p).addProtocol p).addTalker p

end Breakdown

/-! ## The runtime -/

/-- `metrics_` as `sample` leaves it. -/
structure Metrics where
  timestamp : Int
  bitsPerSecond : Rat
  packetsPerSecond : Rat
  elapsedSeconds : Rat
  protocols : List (String × UInt64)
  topTalkers : List (String × UInt64)
  talkersOmitted : UInt64
  flowsOmitted : UInt64
  breakdownComplete : Bool

/-- What a sample hands to the store, with what it was computed from. -/
structure Publication where
  previousPackets : UInt64
  previousBytes : UInt64
  counters : CaptureSnapshot
  breakdown : Breakdown
  metrics : Metrics
  /-- The ledgers of the engine at the previous publication and at this one. -/
  before : Ledger PacketMetadata
  ledger : Ledger PacketMetadata

def Publication.deltaPackets (p : Publication) : UInt64 := p.counters.packets - p.previousPackets

def Publication.deltaBytes (p : Publication) : UInt64 := p.counters.wireBytes - p.previousBytes

/-- An engine, with what was published about it. -/
structure Session where
  observed : Observed
  publications : List Publication := []

namespace Session

def engine (s : Session) : CaptureEngine := s.observed.engine

def step (s : Session) (event : Engine.Event) : Session :=
  { s with observed := s.observed.step event }

/-- The ledger at the last publication. -/
def since (s : Session) : Ledger PacketMetadata := (s.publications.getLast?.map (·.ledger)).getD {}

end Session

/-- What the worker stops an engine for. -/
inductive Purpose where
  | replace (name : String)
  | remove
  | exit
  deriving DecidableEq, Repr

/-- Where the control worker is. -/
inductive Control where
  | idle
  /-- In `stop`. -/
  | stopping (purpose : Purpose)
  /-- Before the forced sample. -/
  | flushing (purpose : Purpose)
  /-- In a sample, behind its drain. A sample with a purpose is forced. -/
  | sampling (purpose : Option Purpose)
  /-- Behind the forced sample. -/
  | closing (purpose : Purpose)
  | halted
  deriving DecidableEq, Repr

structure Runtime where
  engine_ : Option Session := none
  captureInterface_ : String := ""
  /-- The setting `capture_interface` of the store. -/
  stored : String := ""
  breakdown : Breakdown := {}
  recent_ : List PacketMetadata := []
  metrics_ : Option Metrics := none
  previousPackets_ : UInt64 := 0
  previousBytes_ : UInt64 := 0
  lastSample_ : Int := 0
  control : Control := .idle
  closed : List Session := []

inductive Event where
  /-- A step of the capture thread. -/
  | capture (event : Engine.Event)
  | put (name : String) (opens : Bool)
  | delete
  | shutdown
  | joined
  | tick
  | flush
  | finish (now wall : Int)
  | conclude (starts stores : Bool) (now : Int)

/-- The steps of an engine that its own thread takes. -/
def ofWorker : Engine.Event → Bool
  | .check | .next _ | .iterate _ | .handle | .finish => true
  | _ => false

/-- The check of an interface name. -/
def validName (name : String) : Bool :=
  !name.isEmpty && name.utf8ByteSize ≤ 15 &&
    name.toList.all fun c => c.isAlphanum || "_.-".toList.contains c

namespace Runtime

def capture (r : Runtime) (event : Engine.Event) : Runtime :=
  if ofWorker event then { r with engine_ := r.engine_.map fun s => s.step event } else r

/-- `engine_->stop()`, if there is an engine. -/
def stop (r : Runtime) (purpose : Purpose) : Runtime :=
  match r.engine_ with
  | none => { r with control := .closing purpose }
  | some s => { r with engine_ := some (s.step .requestStop), control := .stopping purpose }

/-- PUT: the beginning of `start_capture`, which opens the interface first. -/
def put (r : Runtime) (name : String) (opens : Bool) : Runtime :=
  if r.control = .idle ∧ validName name ∧ opens then r.stop (.replace name) else r

def delete (r : Runtime) : Runtime := if r.control = .idle then r.stop .remove else r

def shutdown (r : Runtime) : Runtime := if r.control = .idle then r.stop .exit else r

/-- The end of `stop`. -/
def joined (r : Runtime) : Runtime :=
  match r.control, r.engine_ with
  | .stopping purpose, some s =>
    if s.engine.worker_ = .finished then
      { r with engine_ := some (s.step .join), control := .flushing purpose }
    else r
  | _, _ => r

/-- `sample` up to the clock. -/
def drain (r : Runtime) (s : Session) (purpose : Option Purpose) : Runtime :=
  let packets := (s.engine.drain 8192).1
  let recent := r.recent_ ++ packets
  { r with engine_ := some (s.step (.drain 8192)),
           breakdown := packets.foldl (Breakdown.add r.captureInterface_) r.breakdown,
           recent_ := recent.drop (recent.length - 200),
           control := .sampling purpose }

/-- The sample of the worker's loop. -/
def tick (r : Runtime) : Runtime :=
  match r.control, r.engine_ with
  | .idle, some s => r.drain s none
  | _, _ => r

/-- The forced sample. -/
def flush (r : Runtime) : Runtime :=
  match r.control, r.engine_ with
  | .flushing purpose, some s => r.drain s (some purpose)
  | _, _ => r

/-- The time since the last sample, at least a microsecond. -/
def elapsed (r : Runtime) (now : Int) : Int :=
  if now - r.lastSample_ < 1000 then 1000 else now - r.lastSample_

/-- The entries with the ten greatest values. Where `std::sort` leaves the order open it is the
order of the keys. -/
def top (talkers : OrderedMap String UInt64) : List (String × UInt64) :=
  (talkers.entries.mergeSort fun a b => b.2 ≤ a.2).take 10

def publication (r : Runtime) (s : Session) (elapsed wall : Int) : Publication :=
  let counters := s.engine.snapshot
  { previousPackets := r.previousPackets_
    previousBytes := r.previousBytes_
    counters
    breakdown := r.breakdown
    metrics :=
      { timestamp := wall
        bitsPerSecond :=
          mkRat ((counters.wireBytes - r.previousBytes_).toNat * 8 * 1000000000) elapsed.toNat
        packetsPerSecond :=
          mkRat ((counters.packets - r.previousPackets_).toNat * 1000000000) elapsed.toNat
        elapsedSeconds := mkRat elapsed 1000000000
        protocols := r.breakdown.protocols_.entries
        topTalkers := top r.breakdown.talkers_
        talkersOmitted := r.breakdown.talkersOmitted_
        flowsOmitted := r.breakdown.flowsOmitted_
        breakdownComplete := counters.metadataDropped = 0 && r.breakdown.talkersOmitted_ = 0 }
    before := s.since
    ledger := s.observed.ledger }

/-- The rest of a sample that is due. What the store says changes none of these members. -/
def publish (r : Runtime) (s : Session) (now wall : Int) : Runtime :=
  let p := r.publication s (r.elapsed now) wall
  { r with engine_ := some { s with publications := s.publications ++ [p] },
           metrics_ := some p.metrics,
           previousPackets_ := p.counters.packets,
           previousBytes_ := p.counters.wireBytes,
           lastSample_ := now,
           breakdown := {} }

/-- `sample` from the clock on. -/
def finish (r : Runtime) (now wall : Int) : Runtime :=
  match r.control, r.engine_ with
  | .sampling purpose, some s =>
    if r.elapsed now < 1000000000 ∧ purpose = none then { r with control := .idle }
    else { r.publish s now wall with control := purpose.elim .idle .closing }
  | _, _ => r

/-- The engine is gone. -/
def retire (r : Runtime) : Runtime :=
  { r with engine_ := none, closed := r.closed ++ r.engine_.toList }

/-- The members that a new engine starts with. -/
def install (r : Runtime) (name : String) (now : Int) : Runtime :=
  { r.retire with
    engine_ := some ⟨⟨(fresh 8192 (by decide)).start, {}⟩, []⟩
    captureInterface_ := name
    stored := name
    breakdown := {}
    recent_ := []
    metrics_ := none
    previousPackets_ := 0
    previousBytes_ := 0
    lastSample_ := now
    control := .idle }

/-- What is left to do behind the forced sample. A failure of the thread or of the store leaves
the old engine in place when another should replace it; DELETE has dropped it by then. -/
def conclude (r : Runtime) (starts stores : Bool) (now : Int) : Runtime :=
  match r.control with
  | .closing (.replace name) =>
    if starts && stores then r.install name now else { r with control := .idle }
  | .closing .remove =>
    { r.retire with captureInterface_ := "", stored := if stores then "" else r.stored,
                    control := .idle }
  | .closing .exit => { r with control := .halted }
  | _ => r

def step (r : Runtime) : Event → Runtime
  | .capture event => r.capture event
  | .put name opens => r.put name opens
  | .delete => r.delete
  | .shutdown => r.shutdown
  | .joined => r.joined
  | .tick => r.tick
  | .flush => r.flush
  | .finish now wall => r.finish now wall
  | .conclude starts stores now => r.conclude starts stores now

end Runtime

/-- A runtime before any capture. -/
def idle : Runtime := {}

end Magicbox.Source.Sampling
