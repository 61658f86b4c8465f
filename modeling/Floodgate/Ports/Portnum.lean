import Mathlib
import Floodgate.Ports.Meshtastic
import Floodgate.Ports.Topic

/-!
# Portnum extraction

The drop filter compares portnums by their enum names.  A protobuf packet
keeps its portnum inside the encrypted payload, which is decrypted with the
default key; a JSON packet carries it in one of three places.  Every failure
on the way is `None`, since dropping is destructive.

## Main results

* `extractPortnumJson_toDoc`: the extractor on a decoded object.
* `probePortnum_congr`: the probes read `payload`, `portnum` and `type` only.
-/

namespace Floodgate.Ports

open Floodgate.Verified

/-! ## Decryption -/

/-- `DEFAULT_KEY`. -/
def defaultKey : Bytes :=
  [0xd4, 0xf1, 0xbb, 0x3a, 0x20, 0x29, 0x07, 0x59,
    0xf0, 0xbc, 0xff, 0xab, 0xcf, 0x4e, 0x69, 0x01]

/-- `n.to_bytes(length, "little")` of a number that fits. -/
def toBytesLittle (n length : Nat) : Bytes :=
  (List.range length).map fun i => UInt8.ofNat (n / 256 ^ i)

/-- `build_nonce`. -/
def buildNonce (packetId fromNode : Nat) : Bytes :=
  toBytesLittle (packetId % 2 ^ 64) 8 ++ toBytesLittle (fromNode % 2 ^ 32) 4 ++
    [0, 0, 0, 0]

/-- `decrypt`, with its default key. -/
def decrypt (rt : Runtime) (ciphertext : Bytes) (packetId fromNode : Nat) : Bytes :=
  rt.aesCtr defaultKey (buildNonce packetId fromNode) ciphertext

/-! ## Protobuf -/

/-- `_read_from_field`. -/
def readFromField (pkt : MeshPacket) : Nat :=
  match pkt.fieldByName (py "from") <|> pkt.fieldByName (py "from_") with
  | none => 0
  | some name => (((pkt.getattr name).bind Json.asInt).getD 0).toNat

/-- The `try` block of `extract_portnum_protobuf`. -/
def readPortnumProtobuf (rt : Runtime) (payload : Bytes) :
    Except PyErr (Option PyStr) := do
  let protos ← rt.loadProtos
  let env ← protos.parseEnvelope payload
  match env.packet with
  | none => return none
  | some pkt =>
      match pkt.payloadVariant with
      | some (.encrypted ciphertext) =>
          let plaintext := decrypt rt ciphertext pkt.id.toNat (readFromField pkt)
          let data ← protos.parseData plaintext
          return some (← protos.portnumName data.portnum)
      | _ => return none

/-- `extract_portnum_protobuf`. -/
def extractPortnumProtobuf (rt : Runtime) (payload : Bytes) : Option PyStr :=
  match readPortnumProtobuf rt payload with
  | .ok portnum => portnum
  | .error _ => none

/-- The sender is read through the descriptor and is the `from` field. -/
@[simp] theorem readFromField_eq (pkt : MeshPacket) :
    readFromField pkt = pkt.sender.toNat := by
  simp [readFromField, MeshPacket.fieldByName, MeshPacket.getattr, MeshPacket.attrs,
    Json.asInt]

/-! ## JSON -/

/-- `_JSON_TYPE_TO_PORTNUM`. -/
def jsonTypeToPortnum : List (PyStr × PyStr) :=
  [ (py "text", py "TEXT_MESSAGE_APP")
  , (py "telemetry", py "TELEMETRY_APP")
  , (py "nodeinfo", py "NODEINFO_APP")
  , (py "position", py "POSITION_APP")
  , (py "waypoint", py "WAYPOINT_APP")
  , (py "neighborinfo", py "NEIGHBORINFO_APP")
  , (py "traceroute", py "TRACEROUTE_APP")
  , (py "detection", py "DETECTION_SENSOR_APP")
  , (py "paxcounter", py "PAXCOUNTER_APP")
  , (py "gpios_changed", py "REMOTE_HARDWARE_APP")
  , (py "gpios_read_reply", py "REMOTE_HARDWARE_APP") ]

/-- `data.get(key)` when `data` is a `dict`. -/
def Json.member (v : Json) (key : PyStr) : Json :=
  match v with
  | .dict ms => (Assoc.get? ms key).getD .null
  | _ => .null

/-- The first probe: `payload.decoded.portnum`. -/
def probeDecoded (data : JsonObject) : Option PyStr :=
  (((data.get (py "payload")).member (py "decoded")).member (py "portnum")).asStr

/-- `extract_portnum_json` on an object: the three probes in order. -/
def probePortnum (rt : Runtime) (data : JsonObject) : Option PyStr :=
  match probeDecoded data with
  | some pn => some pn
  | none =>
      match (data.get (py "portnum")).asStr with
      | some pn => some pn
      | none =>
          match (data.get (py "type")).asStr with
          | some typeStr => Assoc.get? jsonTypeToPortnum (rt.unicode.lower typeStr)
          | none => none

/-- `extract_portnum_json`. -/
def extractPortnumJson (rt : Runtime) (payload : Bytes) : Option PyStr :=
  match rt.json.loads payload with
  | .error _ => none
  | .ok doc =>
      match doc.asDict with
      | none => none
      | some data => probePortnum rt data

/-- The extractor that `_process_message_inner` picks. -/
def extractPortnum (rt : Runtime) (encoding : Encoding) (payload : Bytes) :
    Option PyStr :=
  match encoding with
  | .json => extractPortnumJson rt payload
  | .e => extractPortnumProtobuf rt payload

theorem extractPortnumJson_toDoc {rt : Runtime} {payload : Bytes} {data : JsonObject}
    (h : rt.json.loads payload = .ok data.toDoc) :
    extractPortnumJson rt payload = probePortnum rt data := by
  rw [extractPortnumJson, h]
  rfl

/-- The probes read `payload`, `portnum` and `type` only. -/
theorem probePortnum_congr (rt : Runtime) {data data' : JsonObject}
    (hpayload : data'.get (py "payload") = data.get (py "payload"))
    (hportnum : data'.get (py "portnum") = data.get (py "portnum"))
    (htype : data'.get (py "type") = data.get (py "type")) :
    probePortnum rt data' = probePortnum rt data := by
  simp only [probePortnum, probeDecoded, hpayload, hportnum, htype]

end Floodgate.Ports
