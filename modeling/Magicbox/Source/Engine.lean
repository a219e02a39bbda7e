import Magicbox.Library.BoundedQueue
import Magicbox.Library.Runs
import Magicbox.Source.Capture

/-!
# The capture engine

engine.cpp. The worker thread is cut at its locked sections: between two of them
anything that another thread does may happen. An event that the engine is not
ready for changes nothing, so that a list of events is a schedule of the worker
and of the callers. What the source returns, and what it says about kernel
drops, is part of the events.

`stop` is two events, the request and the end of the join. `start` is one: the
worker cannot count anything before the lock of `start` is released.
-/

set_option autoImplicit false

namespace Magicbox.Source.Engine
open Capture Library.BoundedQueue Library.Runs

structure CaptureSnapshot where
  packets : UInt64 := 0
  wireBytes : UInt64 := 0
  metadataDropped : UInt64 := 0
  kernelDropped : Option UInt64 := none
  queued : Nat := 0
  running : Bool := false
  error : String := ""
  deriving DecidableEq, Repr

/-- What `next` comes back with. An exception that is no `std::exception` has no text. -/
inductive Next where
  | packet (p : PacketMetadata)
  | idle
  | threw (what : Option String)
  deriving DecidableEq, Repr

/-- Where the worker is. -/
inductive Worker where
  /-- No thread was started. -/
  | absent
  /-- Before the loop condition. -/
  | looping
  /-- In `next`. -/
  | waiting
  /-- Before the lock of an iteration. -/
  | fetched (packet : Option PacketMetadata)
  /-- Before the lock of an exception handler. -/
  | failed (what : String)
  /-- Before the last lock. -/
  | leaving
  | finished
  deriving DecidableEq, Repr

/-- The constructor rejects a capacity of zero. -/
structure CaptureEngine where
  capacity_ : Nat
  positive : 0 < capacity_
  queue_ : List PacketMetadata := []
  counters_ : CaptureSnapshot := {}
  started_ : Bool := false
  worker_ : Worker := .absent
  stopRequested : Bool := false
  joinable : Bool := false
  deriving DecidableEq, Repr

inductive Event where
  | start
  | requestStop
  | join
  | drain (limit : Nat)
  | check
  | next (result : Next)
  | iterate (kernelDrops : Option UInt64)
  | handle
  | finish
  deriving DecidableEq, Repr

namespace CaptureEngine

/-- `start`, which throws when the engine was started before. -/
def start (e : CaptureEngine) : CaptureEngine :=
  if e.started_ then e
  else { e with counters_ := { e.counters_ with running := true }, worker_ := .looping,
                started_ := true, joinable := true }

/-- The first half of `stop`. -/
def requestStop (e : CaptureEngine) : CaptureEngine :=
  if e.joinable then { e with stopRequested := true } else e

/-- The second half of `stop`, which waits for the thread. -/
def join (e : CaptureEngine) : CaptureEngine :=
  if e.worker_ = .finished then { e with joinable := false } else e

/-- Whether a call of `stop` is over. -/
def stopped (e : CaptureEngine) : Bool := !e.joinable

def snapshot (e : CaptureEngine) : CaptureSnapshot := { e.counters_ with queued := e.queue_.length }

def drain (e : CaptureEngine) (limit : Nat) : List PacketMetadata × CaptureEngine :=
  (e.queue_.take limit, { e with queue_ := e.queue_.drop limit })

/-- The condition of the loop. -/
def check (e : CaptureEngine) : CaptureEngine :=
  if e.worker_ = .looping then
    { e with worker_ := if e.stopRequested then .leaving else .waiting }
  else e

def next (e : CaptureEngine) (result : Next) : CaptureEngine :=
  if e.worker_ = .waiting then
    match result with
    | .packet p => { e with worker_ := .fetched (some p) }
    | .idle => { e with worker_ := .fetched none }
    | .threw what => { e with worker_ := .failed (what.getD "Unknown capture failure") }
  else e

/-- What an iteration does with a packet. -/
def count (e : CaptureEngine) (p : PacketMetadata) : CaptureEngine :=
  let c := { e.counters_ with packets := e.counters_.packets + 1,
                              wireBytes := e.counters_.wireBytes + p.wireBytes.toUInt64 }
  if e.queue_.length = e.capacity_ then
    { e with counters_ := { c with metadataDropped := c.metadataDropped + 1 } }
  else { e with counters_ := c, queue_ := e.queue_ ++ [p] }

/-- The locked section of an iteration. -/
def iterate (e : CaptureEngine) (kernelDrops : Option UInt64) : CaptureEngine :=
  match e.worker_ with
  | .fetched packet =>
    let e := { e with counters_ := { e.counters_ with kernelDropped := kernelDrops },
                      worker_ := .looping }
    match packet with
    | some p => e.count p
    | none => e
  | _ => e

/-- The locked section of an exception handler. -/
def handle (e : CaptureEngine) : CaptureEngine :=
  match e.worker_ with
  | .failed what => { e with counters_ := { e.counters_ with error := what }, worker_ := .leaving }
  | _ => e

/-- The last locked section of the worker. -/
def finish (e : CaptureEngine) : CaptureEngine :=
  if e.worker_ = .leaving then
    { e with counters_ := { e.counters_ with running := false }, worker_ := .finished }
  else e

def step (e : CaptureEngine) : Event → CaptureEngine
  | .start => e.start
  | .requestStop => e.requestStop
  | .join => e.join
  | .drain limit => (e.drain limit).2
  | .check => e.check
  | .next result => e.next result
  | .iterate kernelDrops => e.iterate kernelDrops
  | .handle => e.handle
  | .finish => e.finish

end CaptureEngine

/-- An engine as its constructor leaves it. -/
def fresh (capacity : Nat) (h : 0 < capacity) : CaptureEngine := ⟨capacity, h, [], {}, false,
  .absent, false, false⟩

/-! ## What an observer sees -/

/-- The packet that an event hands over to the queue. -/
def delivered (e : CaptureEngine) : Event → Option PacketMetadata
  | .iterate _ => match e.worker_ with
    | .fetched packet => packet
    | _ => none
  | _ => none

/-- An engine with the ledger of its queue. -/
structure Observed where
  engine : CaptureEngine
  ledger : Ledger PacketMetadata := {}

/-- The ledger is written from the outside: an arrival with the queue before and after it, and
the batch that `drain` returned. -/
def Observed.step (o : Observed) (event : Event) : Observed :=
  let after := o.engine.step event
  let ledger := match delivered o.engine event with
    | some p => o.ledger.offered o.engine.queue_ after.queue_ p
    | none => o.ledger
  let ledger := match event with
    | .drain limit => ledger.gave (o.engine.drain limit).1
    | _ => ledger
  ⟨after, ledger⟩

def observe (capacity : Nat) (h : 0 < capacity) (events : List Event) : Observed :=
  run Observed.step ⟨fresh capacity h, {}⟩ events

end Magicbox.Source.Engine
