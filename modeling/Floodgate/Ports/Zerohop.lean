import Floodgate.Ports.Portnum

/-!
# Zero-hopping and packet metadata

`zerohop_protobuf` and `zerohop_json` set a packet's hop limit to zero and
return, beside the new payload, the old hop limit and the metadata for the log
record.  `_peek_meta` extracts the metadata of a packet that is not rewritten.

Metadata values are publisher-controlled: from JSON they are any JSON value.
`_fmt_node` and the relay formatting are applied to them, and can raise.

## Main results

* `get?_foldl_storeMeta`: what an extraction loop leaves under a key.
* `renders_extractProtoMeta`: protobuf metadata can always be rendered.
* `renders_jsonMeta_iff`: JSON metadata can be rendered exactly when `from` and
  `to` have a format.
* `effectiveHop_eq`: the effective hop limit, by the presence of the hop fields.
-/

namespace Floodgate.Ports

open Floodgate.Verified

/-! ## Formatting -/

/-- `_fmt_node`. -/
def fmtNode : Json → Except PyErr PyStr
  | .null => .ok (py "?")
  | .str s => .ok s
  | .int n => .ok (py "!" ++ fmt08x n)
  | .bool b => .ok (py "!" ++ fmt08x (if b then 1 else 0))
  | .float _ => .error ⟨.valueError,
      py "Unknown format code 'x' for object of type 'float'"⟩
  | .list _ => .error ⟨.typeError,
      py "unsupported format string passed to list.__format__"⟩
  | .dict _ => .error ⟨.typeError,
      py "unsupported format string passed to dict.__format__"⟩

/-- `f"{relay & 0xFF:02x}" if relay else None`. -/
def fmtRelay (relay : Json) : Except PyErr (Option PyStr) :=
  if !relay.truthy then .ok none
  else match relay with
    | .int n => .ok (some (fmt02x (n % 256).toNat))
    | .bool b => .ok (some (fmt02x (if b then 1 else 0)))
    | _ => .error ⟨.typeError, py "unsupported operand type(s) for &"⟩

/-- The values that `_fmt_node` has a format for. -/
def NodeFormattable : Json → Prop
  | .float _ | .list _ | .dict _ => False
  | _ => True

instance (v : Json) : Decidable (NodeFormattable v) := by
  cases v <;> unfold NodeFormattable <;> infer_instance

theorem fmtNode_isOk_iff (v : Json) : (fmtNode v).isOk = true ↔ NodeFormattable v := by
  cases v <;> simp [fmtNode, NodeFormattable, Except.isOk, Except.toBool]

/-! ## Metadata -/

/-- A metadata dict. -/
abbrev Meta := List (PyStr × Json)

/-- `meta.get(key)`. -/
def Meta.get (m : Meta) (key : PyStr) : Json := (Assoc.get? m key).getD .null

/-- The body of the extraction loops: the value found under the first name is
stored under the second. -/
def storeMeta (look : PyStr → Option Json) (m : Meta) (pair : PyStr × PyStr) : Meta :=
  match look pair.1 with
  | some v => Assoc.set m pair.2 v
  | none => m

/-- An extraction loop over an empty dict. -/
def collectMeta (look : PyStr → Option Json) (pairs : List (PyStr × PyStr)) : Meta :=
  pairs.foldl (storeMeta look) []

/-- The pairs of `zerohop_json` and of the JSON branch of `_peek_meta`. -/
def jsonMetaFields : List (PyStr × PyStr) :=
  [ (py "id", py "packet_id")
  , (py "from", py "sender")
  , (py "to", py "destination")
  , (py "hop_start", py "hop_start")
  , (py "via_mqtt", py "via_mqtt") ]

/-- The pairs of the first loop of `_extract_proto_meta`. -/
def protoMetaFields : List (PyStr × PyStr) :=
  [ (py "id", py "packet_id")
  , (py "to", py "destination")
  , (py "hop_start", py "hop_start")
  , (py "via_mqtt", py "via_mqtt")
  , (py "relay_node", py "relay_node")
  , (py "next_hop", py "next_hop") ]

/-- The metadata of a decoded JSON object. -/
def jsonMeta (data : JsonObject) : Meta := collectMeta data.get? jsonMetaFields

/-- `_extract_proto_meta`: the attributes, then the sender through the
descriptor, then the sender under its usual names. -/
def extractProtoMeta (pkt : MeshPacket) : Meta :=
  let m := collectMeta pkt.getattr protoMetaFields
  let m := match pkt.fieldByName (py "from") <|> pkt.fieldByName (py "from_") with
    | some name => Assoc.set m (py "sender") ((pkt.getattr name).getD .null)
    | none => m
  if (Assoc.get? m (py "sender")).isSome then m
  else match pkt.getattr (py "from_") <|> pkt.getattr (py "from") with
    | some v => Assoc.set m (py "sender") v
    | none => m

/-- `_peek_meta`.  Every exception is swallowed.  A JSON value that is not an
object ends in the empty dict: nothing is found in it, or the lookup raises. -/
def peekMeta (rt : Runtime) (encoding : Encoding) (payload : Bytes) : Meta :=
  match encoding with
  | .json =>
      match rt.json.loads payload with
      | .error _ => []
      | .ok doc =>
          match doc.asDict with
          | some data => jsonMeta data
          | none => []
  | .e =>
      match rt.loadProtos >>= fun protos => protos.parseEnvelope payload with
      | .error _ => []
      | .ok envelope =>
          match envelope.packet with
          | some pkt => extractProtoMeta pkt
          | none => []

/-! ## Zero-hopping -/

/-- What the zero-hop functions return: the new payload, the old hop limit and
the metadata, where `none` is Python's `None`. -/
structure ZerohopResult where
  modified : Option Bytes
  oldHop : Option Int
  packetMeta : Meta

/-- `(None, None, {})`. -/
def ZerohopResult.parseError : ZerohopResult := ⟨none, none, []⟩

/-- `envelope.packet.hop_limit = 0`. -/
def MeshPacket.zeroHop (pkt : MeshPacket) : MeshPacket := { pkt with hopLimit := 0 }

/-- `zerohop_protobuf`.  The modules are loaded outside the `try` block. -/
def zerohopProtobuf (rt : Runtime) (payload : Bytes) : Except PyErr ZerohopResult := do
  let protos ← rt.loadProtos
  match protos.parseEnvelope payload with
  | .error _ => return .parseError
  | .ok envelope =>
      match envelope.packet with
      | none => return .parseError
      | some pkt =>
          let oldHop : Int := pkt.hopLimit.toNat
          let packetMeta := extractProtoMeta pkt
          if oldHop = 0 then return ⟨none, some 0, packetMeta⟩
          let modified :=
            protos.serializeEnvelope { envelope with packet := some pkt.zeroHop }
          return ⟨some modified, some oldHop, packetMeta⟩

/-- The hop fields of a JSON packet. -/
def hopFields : List PyStr := [py "hop_limit", py "hop_start", py "hops_away"]

/-- `[k for k in (...) if k in data and (isinstance(data[k], bool) or not
isinstance(data[k], int))]`. -/
def badHopFields (data : JsonObject) : List PyStr :=
  hopFields.filter fun k => (data.get? k).any fun v => v.asInt.isNone

/-- `data[key]` of a hop field, after the check above. -/
def JsonObject.hop (data : JsonObject) (key : PyStr) : Int :=
  ((data.get? key).bind Json.asInt).getD 0

/-- The effective hop limit of a JSON packet. -/
def effectiveHop (data : JsonObject) : Int :=
  if data.contains (py "hop_limit") then data.hop (py "hop_limit")
  else if data.contains (py "hop_start") && data.contains (py "hops_away") then
    max 0 (data.hop (py "hop_start") - data.hop (py "hops_away"))
  else 0

/-- `data["hop_limit"] = 0`. -/
def JsonObject.zeroHop (data : JsonObject) : JsonObject :=
  data.setInt (py "hop_limit") 0

/-- What `repr` raises on a bad hop field, if anything. -/
def badHopFault (rt : Runtime) (data : JsonObject) : Option PyErr :=
  (badHopFields data).findSome? fun k => (data.get k).reprFault rt.json.reprDepth

/-- `zerohop_json`.  The warning about bad hop fields is written with their `repr`. -/
def zerohopJson (rt : Runtime) (payload : Bytes) : Except PyErr ZerohopResult :=
  match rt.json.loads payload with
  | .error _ => .ok .parseError
  | .ok doc =>
      match doc.asDict with
      | none => .ok .parseError
      | some data =>
          if !(badHopFields data).isEmpty then
            match badHopFault rt data with
            | some e => .error e
            | none => .ok .parseError
          else
            let packetMeta := jsonMeta data
            let oldHop := effectiveHop data
            if oldHop = 0 then .ok ⟨none, some 0, packetMeta⟩
            else .ok ⟨some (rt.json.dumps data.zeroHop.toDoc), some oldHop, packetMeta⟩

/-! ## What the metadata holds -/

theorem get?_storeMeta_self (look : PyStr → Option Json) (m : Meta) (src key : PyStr) :
    Assoc.get? (storeMeta look m (src, key)) key = (look src).or (Assoc.get? m key) := by
  cases h : look src with
  | none => simp [storeMeta, h]
  | some v => simp [storeMeta, h]

theorem get?_storeMeta_ne (look : PyStr → Option Json) (m : Meta)
    {pair : PyStr × PyStr} {key : PyStr} (hne : pair.2 ≠ key) :
    Assoc.get? (storeMeta look m pair) key = Assoc.get? m key := by
  cases h : look pair.1 with
  | none => simp [storeMeta, h]
  | some v => simp [storeMeta, h, Assoc.get?_set_ne m v hne]

/-- A loop stores nothing under keys that are not in its pairs. -/
theorem get?_foldl_storeMeta_of_not_mem (look : PyStr → Option Json) (m : Meta)
    {pairs : List (PyStr × PyStr)} {key : PyStr} (h : key ∉ pairs.map Prod.snd) :
    Assoc.get? (pairs.foldl (storeMeta look) m) key = Assoc.get? m key := by
  induction pairs generalizing m with
  | nil => rfl
  | cons pair pairs ih =>
      simp only [List.map_cons, List.mem_cons, not_or] at h
      rw [List.foldl_cons, ih _ h.2, get?_storeMeta_ne look m fun e => h.1 e.symm]

/-- A loop stores under a key of its pairs the value found for it. -/
theorem get?_foldl_storeMeta (look : PyStr → Option Json) (m : Meta)
    {pairs : List (PyStr × PyStr)} {src key : PyStr}
    (hnodup : (pairs.map Prod.snd).Nodup) (hmem : (src, key) ∈ pairs) :
    Assoc.get? (pairs.foldl (storeMeta look) m) key =
      (look src).or (Assoc.get? m key) := by
  induction pairs generalizing m with
  | nil => exact absurd hmem List.not_mem_nil
  | cons pair pairs ih =>
      rw [List.map_cons, List.nodup_cons] at hnodup
      rw [List.foldl_cons]
      rcases List.mem_cons.mp hmem with rfl | hmem
      · rw [get?_foldl_storeMeta_of_not_mem look _ hnodup.1, get?_storeMeta_self]
      · have hne : pair.2 ≠ key := fun e =>
          hnodup.1 (e ▸ List.mem_map_of_mem (f := Prod.snd) hmem)
        rw [ih _ hnodup.2 hmem, get?_storeMeta_ne look m hne]

/-- A member of a JSON packet's metadata is the member of the object. -/
theorem get_jsonMeta (data : JsonObject) (src key : PyStr)
    (h : (src, key) ∈ jsonMetaFields) : (jsonMeta data).get key = data.get src := by
  rw [Meta.get, jsonMeta, collectMeta,
    get?_foldl_storeMeta data.get? [] (by simp [jsonMetaFields]) h, JsonObject.get]
  cases data.get? src <;> rfl

theorem get_jsonMeta_relay (data : JsonObject) :
    (jsonMeta data).get (py "relay_node") = .null := by
  rw [Meta.get, jsonMeta, collectMeta,
    get?_foldl_storeMeta_of_not_mem data.get? [] (by simp [jsonMetaFields])]
  rfl

/-- The sender of a protobuf packet is found through the descriptor. -/
theorem extractProtoMeta_eq (pkt : MeshPacket) :
    extractProtoMeta pkt = Assoc.set (collectMeta pkt.getattr protoMetaFields)
      (py "sender") (.int pkt.sender.toNat) := by
  simp [extractProtoMeta, MeshPacket.fieldByName, MeshPacket.getattr, MeshPacket.attrs]

theorem get_extractProtoMeta_sender (pkt : MeshPacket) :
    (extractProtoMeta pkt).get (py "sender") = .int pkt.sender.toNat := by
  rw [Meta.get, extractProtoMeta_eq, Assoc.get?_set_self]
  rfl

/-- Every other member of a protobuf packet's metadata is an attribute. -/
theorem get_extractProtoMeta (pkt : MeshPacket) (attr key : PyStr)
    (h : (attr, key) ∈ protoMetaFields) :
    (extractProtoMeta pkt).get key = (pkt.getattr attr).getD .null := by
  have hne : py "sender" ≠ key := by
    rintro rfl
    exact absurd (List.mem_map_of_mem (f := Prod.snd) h) (by simp [protoMetaFields])
  rw [Meta.get, extractProtoMeta_eq, Assoc.get?_set_ne _ _ hne, collectMeta,
    get?_foldl_storeMeta pkt.getattr [] (by simp [protoMetaFields]) h]
  cases pkt.getattr attr <;> rfl

/-! ## Hop fields -/

/-- Every hop field that is present is an integer, and not a boolean. -/
def HopFieldsAreInts (data : JsonObject) : Prop :=
  ∀ key ∈ hopFields, ∀ v, data.get? key = some v → ∃ n, v = .int n

theorem badHopFields_eq_nil_iff (data : JsonObject) :
    badHopFields data = [] ↔ HopFieldsAreInts data := by
  rw [badHopFields, List.filter_eq_nil_iff]
  refine forall₂_congr fun key _ => ?_
  cases data.get? key with
  | none => simp
  | some v => cases v <;> simp [Json.asInt]

/-- The value of a hop field, when it is present. -/
def JsonObject.hop? (data : JsonObject) (key : PyStr) : Option Int :=
  (data.get? key).bind Json.asInt

/-- The effective hop limit, by the presence of `hop_limit`, `hop_start` and
`hops_away`: the first if it is there, else what is left of the other two. -/
def hopsLeft : Option Int → Option Int → Option Int → Int
  | some limit, _, _ => limit
  | none, some start, some away => max 0 (start - away)
  | none, _, _ => 0

/-- The code computes the effective hop limit. -/
theorem effectiveHop_eq {data : JsonObject} (h : HopFieldsAreInts data) :
    effectiveHop data = hopsLeft (data.hop? (py "hop_limit"))
      (data.hop? (py "hop_start")) (data.hop? (py "hops_away")) := by
  have hfield : ∀ key ∈ hopFields, (data.get? key = none ∧ data.hop? key = none) ∨
      ∃ n, data.get? key = some (.int n) ∧ data.hop? key = some n := by
    intro key hkey
    cases hget : data.get? key with
    | none => exact Or.inl ⟨rfl, by simp [JsonObject.hop?, hget]⟩
    | some v =>
        obtain ⟨n, rfl⟩ := h key hkey v hget
        exact Or.inr ⟨n, rfl, by simp [JsonObject.hop?, hget, Json.asInt]⟩
  rcases hfield (py "hop_limit") (by simp [hopFields]) with ⟨hl, hl'⟩ | ⟨l, hl, hl'⟩
  · rcases hfield (py "hop_start") (by simp [hopFields]) with ⟨hs, hs'⟩ | ⟨s, hs, hs'⟩
    · simp [effectiveHop, JsonObject.contains, hl, hs, hl', hs', hopsLeft]
    · rcases hfield (py "hops_away") (by simp [hopFields]) with ⟨ha, ha'⟩ | ⟨a, ha, ha'⟩
      · simp [effectiveHop, JsonObject.contains, hl, hs, ha, hl', hs', ha', hopsLeft]
      · simp [effectiveHop, JsonObject.contains, JsonObject.hop, hl, hs, ha, hl', hs', ha',
          hopsLeft, Json.asInt]
  · simp [effectiveHop, JsonObject.contains, JsonObject.hop, hl, hl', hopsLeft, Json.asInt]

/-- A zero-hopped packet has integer hop fields. -/
theorem HopFieldsAreInts.zeroHop {data : JsonObject} (h : HopFieldsAreInts data) :
    HopFieldsAreInts data.zeroHop := by
  intro key hkey v hv
  rw [JsonObject.zeroHop, JsonObject.get?_setInt] at hv
  split at hv
  · exact ⟨0, (Option.some.inj hv).symm⟩
  · exact h key hkey v hv

/-- A zero-hopped packet has effective hop limit zero, whatever its other hop
fields say. -/
theorem effectiveHop_zeroHop (data : JsonObject) : effectiveHop data.zeroHop = 0 := by
  simp [effectiveHop, JsonObject.zeroHop, JsonObject.contains, JsonObject.hop, Json.asInt]

/-! ## When a record can be rendered -/

/-- The values of a record that a publisher chose, in display order: `id`, `hop_limit`,
`hop_start` and `via_mqtt`. -/
def Meta.logged (m : Meta) (hopLimit : Json) : List Json :=
  [m.get (py "packet_id"), hopLimit, m.get (py "hop_start"), m.get (py "via_mqtt")]

/-- The value of a dropped record that the publisher of a JSON packet chose. -/
def JsonObject.loggedId (data : JsonObject) : List Json := [data.get (py "id")]

/-- The values of the other records that the publisher of a JSON packet chose. -/
def JsonObject.logged (data : JsonObject) (hopLimit : Json) : List Json :=
  [data.get (py "id"), hopLimit, data.get (py "hop_start"), data.get (py "via_mqtt")]

/-- The members of a JSON packet that a record can show. -/
def JsonObject.loggedMembers (data : JsonObject) : List Json :=
  [data.get (py "id"), data.get (py "hop_start"), data.get (py "via_mqtt")]

/-- `_fmt_node` and the relay formatting succeed on the metadata. -/
structure Meta.Renders (m : Meta) : Prop where
  sender : NodeFormattable (m.get (py "sender"))
  destination : NodeFormattable (m.get (py "destination"))
  relay : (fmtRelay (m.get (py "relay_node"))).isOk = true

theorem fmtRelay_int (n : Int) : (fmtRelay (.int n)).isOk = true := by
  unfold fmtRelay
  split <;> rfl

/-- The metadata of a protobuf packet can be rendered, whatever its fields. -/
theorem renders_extractProtoMeta (pkt : MeshPacket) : (extractProtoMeta pkt).Renders where
  sender := by
    rw [get_extractProtoMeta_sender]
    trivial
  destination := by
    rw [get_extractProtoMeta pkt (py "to") _ (by simp [protoMetaFields])]
    simp [MeshPacket.getattr, MeshPacket.attrs, NodeFormattable]
  relay := by
    rw [get_extractProtoMeta pkt (py "relay_node") _ (by simp [protoMetaFields])]
    simp [MeshPacket.getattr, MeshPacket.attrs, fmtRelay_int]

/-- The metadata of a JSON packet can be rendered exactly when its `from` and
`to` members have a format. -/
theorem renders_jsonMeta_iff (data : JsonObject) : (jsonMeta data).Renders ↔
    NodeFormattable (data.get (py "from")) ∧ NodeFormattable (data.get (py "to")) := by
  have hsender := get_jsonMeta data (py "from") (py "sender") (by simp [jsonMetaFields])
  have hdestination := get_jsonMeta data (py "to") (py "destination")
    (by simp [jsonMetaFields])
  constructor
  · rintro ⟨hs, hd, -⟩
    rw [hsender] at hs
    rw [hdestination] at hd
    exact ⟨hs, hd⟩
  · rintro ⟨hs, hd⟩
    refine ⟨by rwa [hsender], by rwa [hdestination], ?_⟩
    rw [get_jsonMeta_relay]
    rfl

/-- A protobuf record shows scalars. -/
theorem isContainer_of_mem_protoMeta (pkt : MeshPacket) {hopLimit : Json}
    (hhop : hopLimit.isContainer = false) :
    ∀ v ∈ (extractProtoMeta pkt).logged hopLimit, v.isContainer = false := by
  have hattrs : ∀ attr key, (attr, key) ∈ protoMetaFields →
      ((extractProtoMeta pkt).get key).isContainer = false := by
    intro attr key hmem
    rw [get_extractProtoMeta pkt attr key hmem, MeshPacket.getattr]
    simp only [protoMetaFields, List.mem_cons, Prod.mk.injEq, List.not_mem_nil, or_false] at hmem
    rcases hmem with ⟨rfl, -⟩ | ⟨rfl, -⟩ | ⟨rfl, -⟩ | ⟨rfl, -⟩ | ⟨rfl, -⟩ | ⟨rfl, -⟩ <;>
      simp [MeshPacket.attrs, Json.isContainer]
  intro v hv
  simp only [Meta.logged, List.mem_cons, List.not_mem_nil, or_false] at hv
  rcases hv with rfl | rfl | rfl | rfl
  · exact hattrs (py "id") _ (by simp [protoMetaFields])
  · exact hhop
  · exact hattrs (py "hop_start") _ (by simp [protoMetaFields])
  · exact hattrs (py "via_mqtt") _ (by simp [protoMetaFields])

/-- A JSON record shows members of the object. -/
theorem logged_jsonMeta (data : JsonObject) (hopLimit : Json) :
    (jsonMeta data).logged hopLimit = data.logged hopLimit := by
  rw [Meta.logged, JsonObject.logged, get_jsonMeta data (py "id") _ (by simp [jsonMetaFields]),
    get_jsonMeta data (py "hop_start") _ (by simp [jsonMetaFields]),
    get_jsonMeta data (py "via_mqtt") _ (by simp [jsonMetaFields])]

/-- An empty dict can be rendered. -/
theorem renders_nil : Meta.Renders [] := ⟨trivial, trivial, rfl⟩

end Floodgate.Ports
