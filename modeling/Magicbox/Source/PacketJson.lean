import Magicbox.Source.Json
import Magicbox.Source.Sampling

/-!
# Packets and flows as JSON

json.cpp: `packet_json`; server.cpp: the flows that `ApplianceRuntime::sample`
hands to the store.
-/

set_option autoImplicit false

namespace Magicbox.Source.PacketJson
open Capture Json Sampling

/-- A port, where one that is absent is null. -/
def portJson : Option UInt16 → Value
  | none => .null
  | some port => .int port.toNat

def applicationName : Application → String
  | .unknown => "unknown"
  | .http => "http"
  | .dns => "dns"
  | .tls => "tls"

def packetJson (p : PacketMetadata) : Value :=
  Value.null.set "timestamp_ms" (.int (timestampMs p))
    |>.set "source_ip" (.string p.sourceIp)
    |>.set "destination_ip" (.string p.destinationIp)
    |>.set "source_port" (portJson p.sourcePort)
    |>.set "destination_port" (portJson p.destinationPort)
    |>.set "wire_bytes" (.uint p.wireBytes.toNat)
    |>.set "protocol" (.string (protocolName p.protocol))
    |>.set "application" (.string (applicationName p.application))

/-- A value of `flows_`: the last packet of a flow with the totals. -/
def flowJson (f : Flow) : Value :=
  (packetJson f.packet).set "key" (.string f.key)
    |>.set "capture_interface" (.string f.captureInterface)
    |>.set "first_seen" (.int f.firstSeen)
    |>.set "packets" (.int f.packets)
    |>.set "bytes" (.int f.bytes)

/-- The argument of `record_flows`. -/
def flowsJson (b : Breakdown) : Value := .array (b.flows_.entries.map fun e => flowJson e.2)

end Magicbox.Source.PacketJson
