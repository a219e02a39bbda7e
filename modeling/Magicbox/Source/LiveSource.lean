import Magicbox.Source.Engine

/-!
# The live source

capture.cpp: `PcapSource`, as the engine's worker calls it. What libpcap answers
and what the clock says is part of a call. Times are in nanoseconds.
-/

set_option autoImplicit false

namespace Magicbox.Source.LiveSource
open Capture Engine Library.Runs

/-- A frame with its `pcap_pkthdr`: the bytes that were captured of it and its size. -/
structure CapturedFrame where
  data : Bytes
  len : UInt32
  tvSec : Int
  tvUsec : Int

/-- The time that `next` hands to `dissect`. -/
def CapturedFrame.timestamp (f : CapturedFrame) : Int := f.tvSec * 1000000000 + f.tvUsec * 1000

/-- The answer of `pcap_next_ex`. -/
inductive Answer where
  | frame (f : CapturedFrame)
  /-- There is nothing to read yet. -/
  | timeout
  | failed (error : String)

/-- What a call of `next` meets. -/
structure Call where
  stopRequested : Bool
  now : Int
  /-- The drops that `pcap_stats` would tell, if it succeeds. -/
  stats : Option UInt32
  answer : Answer

structure PcapSource where
  dropped_ : Option UInt64 := none
  lastStats_ : Int := 0

namespace PcapSource

/-- The call of `pcap_stats` that a call of `next` makes. -/
def reading (s : PcapSource) (c : Call) : Option (Int × Option UInt32) :=
  if ¬ c.stopRequested ∧ c.now - s.lastStats_ ≥ 1000000000 then some (c.now, c.stats) else none

/-- A failure of `pcap_stats` leaves the drops as they are. -/
def refresh (s : PcapSource) (c : Call) : PcapSource :=
  match s.reading c with
  | none => s
  | some (now, stats) =>
    { dropped_ := (stats.map UInt32.toUInt64).or s.dropped_, lastStats_ := now }

def next (inetNtop : InetNtop) (s : PcapSource) (c : Call) : Except Fault (PcapSource × Next) := do
  if c.stopRequested then return (s, .idle)
  let s := s.refresh c
  match c.answer with
  | .frame f => return (s, .packet (← dissect inetNtop f.data f.len f.timestamp))
  | .failed error => return (s, .threw (some error))
  | .timeout => return (s, .idle)

end PcapSource

/-! ## An engine on the source -/

/-- The frame that a call brings. -/
def Call.frame (c : Call) : Option CapturedFrame :=
  if c.stopRequested then none
  else match c.answer with
    | .frame f => some f
    | _ => none

/-- An engine with its source. The frames that were read and the calls of `pcap_stats` are written
down from the outside. -/
structure Live where
  observed : Observed
  source_ : PcapSource := {}
  frames : List CapturedFrame := []
  readings : List (Int × Option UInt32) := []

inductive Event where
  /-- `source_->next(stop)`, in the worker. -/
  | next (c : Call)
  /-- The locked section of an iteration, which asks the source for its drops. -/
  | iterate
  /-- Whatever else happens at the engine. -/
  | engine (event : Engine.Event)

namespace Live

variable (inetNtop : InetNtop)

def next (w : Live) (c : Call) : Live :=
  if w.observed.engine.worker_ = .waiting then
    match w.source_.next inetNtop c with
    | .ok (source, result) =>
      { observed := w.observed.step (.next result), source_ := source,
        frames := w.frames ++ c.frame.toList,
        readings := w.readings ++ (w.source_.reading c).toList }
    | .error _ => w
  else w

def step (w : Live) : Event → Live
  | .next c => w.next inetNtop c
  | .iterate => { w with observed := w.observed.step (.iterate w.source_.dropped_) }
  | .engine (.next _) | .engine (.iterate _) => w
  | .engine event => { w with observed := w.observed.step event }

end Live

/-- A schedule of an engine on a live source. -/
def live (inetNtop : InetNtop) (capacity : Nat) (h : 0 < capacity) (events : List Event) : Live :=
  run (Live.step inetNtop) { observed := ⟨fresh capacity h, {}⟩ } events

end Magicbox.Source.LiveSource
