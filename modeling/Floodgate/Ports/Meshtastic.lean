import Floodgate.Ports.Json
import Floodgate.Ports.LogHandler

/-!
# Meshtastic messages and the Python runtime

The generated protobuf modules are not part of the repository, so their
messages are given by the fields that the source reads or writes, and `rest`
stands for everything else: the other fields of the schema, set or unset, and
the unknown fields of newer firmware.  Scalar fields have no presence, so an
unset one reads as its default.

`Runtime` collects what the message path uses of the modules outside the
source: the generated protobuf code, the `json` module, the Unicode database,
the block cipher in counter mode and the log handler.
-/

namespace Floodgate.Ports

open Floodgate.Verified

/-- The `payload_variant` of a packet. -/
inductive PayloadVariant where
  | decoded (data : Bytes)
  | encrypted (ciphertext : Bytes)
  deriving DecidableEq

/-- A `MeshPacket`. -/
structure MeshPacket where
  sender : UInt32
  destination : UInt32
  id : UInt32
  hopLimit : UInt32
  hopStart : UInt32
  viaMqtt : Bool
  nextHop : UInt32
  relayNode : UInt32
  payloadVariant : Option PayloadVariant
  rest : Bytes
  deriving DecidableEq

/-- A `ServiceEnvelope`. -/
structure ServiceEnvelope where
  packet : Option MeshPacket
  channelId : PyStr
  gatewayId : PyStr
  rest : Bytes
  deriving DecidableEq

/-- A decrypted `Data` message. -/
structure DataMessage where
  portnum : Int
  rest : Bytes
  deriving DecidableEq

namespace MeshPacket

/-- The scalar attributes of a packet, under the names of the schema. -/
def attrs (pkt : MeshPacket) : List (PyStr × Json) :=
  [ (py "from", .int pkt.sender.toNat)
  , (py "to", .int pkt.destination.toNat)
  , (py "id", .int pkt.id.toNat)
  , (py "hop_limit", .int pkt.hopLimit.toNat)
  , (py "hop_start", .int pkt.hopStart.toNat)
  , (py "via_mqtt", .bool pkt.viaMqtt)
  , (py "next_hop", .int pkt.nextHop.toNat)
  , (py "relay_node", .int pkt.relayNode.toNat) ]

/-- `getattr(pkt, name, None)`, with a missing attribute kept apart. -/
def getattr (pkt : MeshPacket) (name : PyStr) : Option Json :=
  Assoc.get? pkt.attrs name

/-- `pkt.DESCRIPTOR.fields_by_name.get(name)`: the name of the field found. -/
def fieldByName (pkt : MeshPacket) (name : PyStr) : Option PyStr :=
  if name ∈ Assoc.keys pkt.attrs then some name else none

end MeshPacket

/-- The generated protobuf modules. -/
structure Protos where
  /-- `ServiceEnvelope().ParseFromString(payload)`. -/
  parseEnvelope : Bytes → Except PyErr ServiceEnvelope
  /-- `envelope.SerializeToString()`. -/
  serializeEnvelope : ServiceEnvelope → Bytes
  /-- `Data().ParseFromString(plaintext)`. -/
  parseData : Bytes → Except PyErr DataMessage
  /-- `PortNum.Name(value)`. -/
  portnumName : Int → Except PyErr PyStr

/-- What the message path uses of Python and of third-party packages. -/
structure Runtime where
  /-- The generated modules; `none` when they do not import. -/
  protos : Option Protos
  json : JsonRuntime
  unicode : UnicodeDb
  /-- AES in counter mode: key, nonce, input. -/
  aesCtr : Bytes → Bytes → Bytes → Bytes
  /-- The handler that `configure_logging` installed. -/
  log : LogHandler

/-- The runtime, once another handler is installed. -/
def Runtime.withLog (rt : Runtime) (h : LogHandler) : Runtime := { rt with log := h }

/-- `_load_protos`. -/
def Runtime.loadProtos (rt : Runtime) : Except PyErr Protos :=
  match rt.protos with
  | some protos => .ok protos
  | none => .error ⟨.importError,
      py "Meshtastic protobuf modules not found. Run ./scripts/download_protobufs.sh and ./scripts/generate_protos.sh, or build via Docker which handles this automatically."⟩

end Floodgate.Ports
