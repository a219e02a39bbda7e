import Magicbox.Source.PacketJson
import Magicbox.Source.Store

/-!
# What the runtime publishes

server.cpp: the JSON that `ApplianceRuntime::sample` makes of an interval, the
calls of `Store::sample` that hand it on, and `ApplianceRuntime::snapshot`. A
double is the rational that it stands for.
-/

set_option autoImplicit false

namespace Magicbox.Source.Publishing
open Capture Engine Json Sampling

/-- `std::to_string`. -/
def decimal (n : UInt64) : Value := .string (toString n)

def talkerJson (talker : String × UInt64) : Value :=
  Value.null.set "ip" (.string talker.1)
    |>.set "wire_bytes" (decimal talker.2)

def protocolsJson (counts : List (String × UInt64)) : Value :=
  counts.foldl (fun v entry => v.set entry.1 (decimal entry.2)) (.object [])

/-- `metrics_`, which is empty before the first sample of a session. -/
def metricsJson : Option Metrics → Value
  | none => .object []
  | some m =>
    (Value.object []).set "timestamp" (.int m.timestamp)
      |>.set "bits_per_second" (.real m.bitsPerSecond)
      |>.set "packets_per_second" (.real m.packetsPerSecond)
      |>.set "elapsed_seconds" (.real m.elapsedSeconds)
      |>.set "protocols" (protocolsJson m.protocols)
      |>.set "top_talkers" (.array (m.topTalkers.map talkerJson))
      |>.set "talkers_omitted" (decimal m.talkersOmitted)
      |>.set "flows_omitted" (decimal m.flowsOmitted)
      |>.set "breakdown_complete" (.boolean m.breakdownComplete)

/-- The call of `Store::sample` for a publication. Its timestamp is a reading of the clock of its
own. -/
def sampleCall (p : Publication) (ts : Int) : Store.Call :=
  ⟨ts, p.deltaPackets, p.deltaBytes, metricsJson (some p.metrics)⟩

/-- All sessions, the current one last. -/
def sessions (r : Runtime) : List Session := r.closed ++ r.engine_.toList

/-- All that was published in a run, in its order. -/
def publications (r : Runtime) : List Publication := (sessions r).flatMap (·.publications)

/-- What the store was handed in a run. -/
def handed (r : Runtime) (clock : List Int) : List Store.Call :=
  ((publications r).zip clock).map fun e => sampleCall e.1 e.2

/-- `snapshot`, with the state of the controller. -/
def snapshot (r : Runtime) (network : Value) : Value :=
  let value := (metricsJson r.metrics_).set "type" (.string "metrics")
    |>.set "schema_version" (.int 1)
    |>.set "capture_interface" (.string r.captureInterface_)
    |>.set "network" network
  match r.engine_ with
  | none => value.set "running" (.boolean false)
  | some s =>
    let counters := s.engine.snapshot
    value.set "packets" (decimal counters.packets)
      |>.set "wire_bytes" (decimal counters.wireBytes)
      |>.set "metadata_dropped" (decimal counters.metadataDropped)
      |>.set "kernel_dropped" ((counters.kernelDropped.map decimal).getD .null)
      |>.set "running" (.boolean counters.running)
      |>.set "capture_error" (.string counters.error)

end Magicbox.Source.Publishing
