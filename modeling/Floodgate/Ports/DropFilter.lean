import Floodgate.Ports.Enforcement
import Floodgate.Ports.ExHook

/-!
# The drop filter

A packet whose portnum is listed, on a channel in scope, is denied.  Between
the decision and the answer stands the record, which is made from the metadata of
the payload and handed to the log handler: that of a protobuf packet is always
logged, that of a JSON packet exactly when its node ids have a format and its id
does not overflow the handler.  A record that is not logged sends the matched packet
through the catch-all, which delivers it.

## Main results

* `processMessage_drops_iff`: when a matched packet is denied, up to the response
  EMQX gets.
-/

namespace Floodgate.Ports

open Floodgate.Verified
open Floodgate.Verified.FailOpen

/-- `drop_enabled` is true, the portnum is in the set, and the scope is
unrestricted or contains the channel. -/
structure DropListed (config : Config) (channel pn : PyStr) : Prop where
  enabled : config.get? (py "drop_enabled") = some (.bool true)
  portnum : ∃ portnums, config.get? (py "_drop_portnums_set") = some portnums ∧
    portnums.contains pn = .ok true
  scope : ∃ channels, config.get? (py "_drop_channels_set") = some channels ∧
    (channels = .none ∨ channels.contains channel = .ok true)

theorem channelInScope_of {channels : PyVal} {channel : PyStr}
    (h : channels = .none ∨ channels.contains channel = .ok true) :
    channelInScope channels channel = .ok true := by
  rcases h with rfl | h
  · rfl
  · cases channels with
    | none => rfl
    | _ => exact h

theorem DropListed.dropMatches {rt : Runtime} {payload : Bytes} {config : Config}
    {channel pn : PyStr} {encoding : Encoding} (h : DropListed config channel pn)
    (hpn : extractPortnum rt encoding payload = some pn) :
    dropMatches rt payload config channel encoding = .ok true := by
  obtain ⟨portnums, hportnums, hpn'⟩ := h.portnum
  obtain ⟨channels, hchannels, hscope⟩ := h.scope
  simp [Ports.dropMatches, shouldDrop, Config.getTruthy, h.enabled, PyVal.truthy, hpn,
    Config.getItem, hportnums, hpn', hchannels, channelInScope_of hscope, bind,
    Except.bind]

/-- The node ids of a payload have a format: always, but for a JSON object with
a float, a list or an object for `from` or `to`. -/
def NodesFormattable (rt : Runtime) (encoding : Encoding) (payload : Bytes) : Prop :=
  ∀ data : JsonObject, encoding = .json → rt.json.loads payload = .ok data.toDoc →
    NodeFormattable (data.get (py "from")) ∧ NodeFormattable (data.get (py "to"))

/-- What a record shows of a payload does not overflow the log handler: always, but for
a JSON object with a value among these that is nested too deep. -/
def Loggable (rt : Runtime) (encoding : Encoding) (payload : Bytes)
    (values : JsonObject → List Json) : Prop :=
  ∀ data : JsonObject, encoding = .json → rt.json.loads payload = .ok data.toDoc →
    ¬rt.log.Overflows (values data)

/-- Metadata are read from a JSON object, or from a protobuf packet, or there are none. -/
theorem peekMeta_cases (rt : Runtime) (encoding : Encoding) (payload : Bytes) :
    (∃ data : JsonObject, encoding = .json ∧ rt.json.loads payload = .ok data.toDoc ∧
      peekMeta rt encoding payload = jsonMeta data) ∨
    (∀ data : JsonObject, encoding = .json → rt.json.loads payload ≠ .ok data.toDoc) ∧
      (peekMeta rt encoding payload = [] ∨
        ∃ pkt, peekMeta rt encoding payload = extractProtoMeta pkt) := by
  cases encoding with
  | e =>
      refine Or.inr ⟨fun _ h => Encoding.noConfusion h, ?_⟩
      cases hread : rt.loadProtos >>= fun protos => protos.parseEnvelope payload with
      | error e => simp [peekMeta, hread]
      | ok envelope =>
          cases hpkt : envelope.packet with
          | none => simp [peekMeta, hread, hpkt]
          | some pkt => exact Or.inr ⟨pkt, by simp [peekMeta, hread, hpkt]⟩
  | json =>
      by_cases hobject : ∃ data : JsonObject, rt.json.loads payload = .ok data.toDoc
      · obtain ⟨data, hdata⟩ := hobject
        exact Or.inl ⟨data, rfl, hdata, by simp [peekMeta, hdata]⟩
      · refine Or.inr ⟨fun data _ hdata => hobject ⟨data, hdata⟩, Or.inl ?_⟩
        simp only [peekMeta]
        cases hloads : rt.json.loads payload with
        | error e => rfl
        | ok doc =>
            cases hdoc : doc.asDict with
            | none => simp [hdoc]
            | some data =>
                rw [JsonDoc.asDict_eq_some] at hdoc
                exact absurd ⟨data, by rw [hloads, hdoc]⟩ hobject

/-- A condition on the JSON object of a payload is one on the object that it decodes to. -/
theorem forall_object_iff {rt : Runtime} {encoding : Encoding} {payload : Bytes}
    {P : JsonObject → Prop} {data : JsonObject} (hjson : encoding = .json)
    (hdata : rt.json.loads payload = .ok data.toDoc) :
    (∀ data' : JsonObject, encoding = .json → rt.json.loads payload = .ok data'.toDoc →
      P data') ↔ P data := by
  refine ⟨fun h => h data hjson hdata, fun h data' _ hdata' => ?_⟩
  obtain rfl := JsonDoc.toDoc_injective (Except.ok.inj (hdata.symm.trans hdata'))
  exact h

/-- The metadata read from a payload renders exactly when its node ids do. -/
theorem renders_peekMeta_iff (rt : Runtime) (encoding : Encoding) (payload : Bytes) :
    (peekMeta rt encoding payload).Renders ↔ NodesFormattable rt encoding payload := by
  rcases peekMeta_cases rt encoding payload with
    ⟨data, hjson, hdata, hpeek⟩ | ⟨hnone, hpeek⟩
  · rw [hpeek, renders_jsonMeta_iff, NodesFormattable, forall_object_iff hjson hdata]
  · refine iff_of_true ?_ fun data hjson hdata => absurd hdata (hnone data hjson)
    rcases hpeek with hpeek | ⟨pkt, hpeek⟩
    · exact hpeek ▸ renders_nil
    · exact hpeek ▸ renders_extractProtoMeta pkt

/-- The relay of the metadata read from a payload has a format. -/
theorem fmtRelay_peekMeta (rt : Runtime) (encoding : Encoding) (payload : Bytes) :
    (fmtRelay ((peekMeta rt encoding payload).get (py "relay_node"))).isOk = true := by
  rcases peekMeta_cases rt encoding payload with ⟨data, -, -, hpeek⟩ | ⟨-, hpeek | ⟨pkt, hpeek⟩⟩
  · rw [hpeek, get_jsonMeta_relay]
    rfl
  · rw [hpeek]
    rfl
  · rw [hpeek]
    exact (renders_extractProtoMeta pkt).relay

/-- The metadata read from a payload overflow the log handler exactly when the members of
the JSON object do. -/
theorem loggable_iff (rt : Runtime) (encoding : Encoding) (payload : Bytes)
    (logged : Meta → List Json) {values : JsonObject → List Json}
    (hjson : ∀ data, logged (jsonMeta data) = values data)
    (hproto : ∀ pkt, ∀ v ∈ logged (extractProtoMeta pkt), v.isContainer = false)
    (hnil : ∀ v ∈ logged [], v.isContainer = false) :
    Loggable rt encoding payload values ↔
      ¬rt.log.Overflows (logged (peekMeta rt encoding payload)) := by
  rcases peekMeta_cases rt encoding payload with
    ⟨data, hencoding, hdata, hpeek⟩ | ⟨hnone, hpeek⟩
  · rw [hpeek, hjson, Loggable, forall_object_iff hencoding hdata]
  · refine iff_of_true (fun data hencoding hdata => absurd hdata (hnone data hencoding))
      (LogHandler.not_overflows_of_scalars ?_)
    rcases hpeek with hpeek | ⟨pkt, hpeek⟩
    · exact hpeek ▸ hnil
    · exact hpeek ▸ hproto pkt

theorem loggable_id_iff (rt : Runtime) (encoding : Encoding) (payload : Bytes) :
    Loggable rt encoding payload JsonObject.loggedId ↔
      ¬rt.log.Overflows [(peekMeta rt encoding payload).get (py "packet_id")] := by
  refine loggable_iff rt encoding payload (fun m => [m.get (py "packet_id")])
    (fun data => ?_) (fun pkt v hv => ?_) (fun v hv => ?_)
  · rw [JsonObject.loggedId, get_jsonMeta data (py "id") _ (by simp [jsonMetaFields])]
  · rw [List.mem_singleton.mp hv]
    have hnull : Json.null.isContainer = false := rfl
    exact isContainer_of_mem_protoMeta pkt hnull _ List.mem_cons_self
  · rw [List.mem_singleton.mp hv]
    rfl

theorem loggable_logged_iff (rt : Runtime) (encoding : Encoding) (payload : Bytes)
    {hopLimit : Json} (hhop : hopLimit.isContainer = false) :
    Loggable rt encoding payload (·.logged hopLimit) ↔
      ¬rt.log.Overflows ((peekMeta rt encoding payload).logged hopLimit) := by
  refine loggable_iff rt encoding payload (·.logged hopLimit)
    (fun data => logged_jsonMeta data hopLimit)
    (fun pkt => isContainer_of_mem_protoMeta pkt hhop) (fun v hv => ?_)
  simp only [Meta.logged, List.mem_cons, List.not_mem_nil, or_false] at hv
  rcases hv with rfl | rfl | rfl | rfl
  · rfl
  · exact hhop
  · rfl
  · rfl

/-- The record of a matched packet is logged exactly when its node ids have a format and
its id does not overflow the handler. -/
theorem droppedRecord_peekMeta_isOk_iff (rt : Runtime) (topic channel : PyStr)
    (encoding : Encoding) (portnum : Option PyStr) (payload : Bytes) :
    (rt.log.handled (droppedRecord topic channel encoding portnum
      (peekMeta rt encoding payload))).isOk = true ↔
      NodesFormattable rt encoding payload ∧
        Loggable rt encoding payload JsonObject.loggedId := by
  rw [handled_droppedRecord_isOk_iff, ← renders_peekMeta_iff, loggable_id_iff]
  refine and_congr_left' ?_
  exact ⟨fun h => ⟨h.1, h.2, fmtRelay_peekMeta rt encoding payload⟩,
    fun h => ⟨h.sender, h.destination⟩⟩

section Drop

variable {rt : Runtime} {config : Config} {channel pn : PyStr} {encoding : Encoding}

/-- A matched packet is dropped when its record is logged, and delivered when it is
not. -/
theorem processMessage_of_dropListed {topic : PyStr} {payload : Bytes}
    (htopic : parseMeshtasticTopic topic = some (channel, encoding))
    (hpn : extractPortnum rt encoding payload = some pn)
    (hlisted : DropListed config channel pn) (w : World) :
    ((NodesFormattable rt encoding payload ∧ Loggable rt encoding payload JsonObject.loggedId) ∧
        (processMessage rt noFault topic payload config w).1 = .drop) ∨
      (¬(NodesFormattable rt encoding payload ∧ Loggable rt encoding payload JsonObject.loggedId) ∧
        (processMessage rt noFault topic payload config w).1 = .passthru) := by
  have hj := judge_of_dropMatches htopic (hlisted.dropMatches hpn)
  have hiff := droppedRecord_peekMeta_isOk_iff rt topic channel encoding
    (extractPortnum rt encoding payload) payload
  cases hrecord : rt.log.handled (droppedRecord topic channel encoding
      (extractPortnum rt encoding payload) (peekMeta rt encoding payload)) with
  | ok record =>
      rw [hrecord] at hiff
      have hrun := processMessage_of_rendered (r := some record) hj
        (by simp [droppedVerdict, hrecord, Except.map]) w
      exact Or.inl ⟨hiff.mp rfl, by rw [hrun]; rfl⟩
  | error e =>
      rw [hrecord] at hiff
      have hrun := processMessage_of_unrendered (e := e) hj
        (by simp [droppedVerdict, hrecord, Except.map]) w
      exact Or.inr ⟨fun h => absurd (hiff.mpr h) (by simp [Except.isOk, Except.toBool]),
        by rw [hrun]⟩

/-- A matched packet is denied, by the answer and by the response that EMQX gets,
exactly when its node ids have a format and its id does not overflow the log handler. -/
theorem processMessage_drops_iff {msg : ExMessage}
    (htopic : parseMeshtasticTopic msg.topic = some (channel, encoding))
    (hpn : extractPortnum rt encoding msg.payload = some pn)
    (hlisted : DropListed config channel pn) (w : World) :
    ((processMessage rt noFault msg.topic msg.payload config w).1 = .drop ∧
      ∃ resp, (onMessagePublish rt noFault config msg w).1 = .ok resp ∧
        resp.Denies msg) ↔
    NodesFormattable rt encoding msg.payload ∧
      Loggable rt encoding msg.payload JsonObject.loggedId := by
  rcases processMessage_of_dropListed htopic hpn hlisted w with
    ⟨hlogged, hdrop⟩ | ⟨hnot, hpass⟩
  · refine iff_of_true ⟨hdrop, ?_⟩ hlogged
    simp only [onMessagePublish, hdrop]
    exact responseFor_drop msg
  · refine iff_of_false ?_ hnot
    rintro ⟨hdrop, -⟩
    rw [hpass] at hdrop
    cases hdrop

end Drop

/-- A user mapping that drops text messages on every channel. -/
def dropTexts : List (PyStr × PyVal) :=
  [ (py "drop_enabled", .bool true)
  , (py "drop_channels", .list [])
  , (py "drop_portnums", .list [.str (py "TEXT_MESSAGE_APP")]) ]

/-- A publish of the demo packet. -/
def demoMessage (text : String) : ExMessage where
  node := py "emqx@127.0.0.1"
  id := py "0005F8E0"
  qos := 0
  sender := py "gateway"
  topic := py "msh/US/2/json/LongFast/!12345678"
  payload := demoText "3" text
  timestamp := 1700000000000
  headers := .empty

theorem Config.HasPolicy.dropListed {config : Config} {p : Policy} {channel pn : PyStr}
    (h : config.HasPolicy p) (hdrops : p.drops channel (some pn) = true) :
    DropListed config channel pn := by
  simp only [Policy.drops, Bool.and_eq_true, Option.any_some, decide_eq_true_eq,
    Policy.inScope] at hdrops
  obtain ⟨⟨henabled, hpn⟩, hscope⟩ := hdrops
  refine ⟨by rw [h.dropEnabled, henabled],
    ⟨_, h.dropPortnums, by rw [PyVal.contains_strSet, decide_eq_true hpn]⟩,
    ⟨_, h.dropScope, ?_⟩⟩
  cases hs : p.dropScope with
  | none => exact Or.inl rfl
  | some names =>
      right
      rw [hs] at hscope
      rw [scopeVal, PyVal.contains_strSet]
      exact congrArg _ hscope

/-- The demo packet is matched by the drop filter, whatever its sender is. -/
theorem demoMessage_setup (sender : Json) (h : sender.wf = true) (text : String) :
    ∃ config, loadConfig (ConfigHost.ofMapping dropTexts) (some (py "config.yaml")) =
        .ok config ∧
      DropListed config (py "LongFast") (py "TEXT_MESSAGE_APP") ∧
      extractPortnum (demoJson sender h text) .json (demoMessage text).payload =
        some (py "TEXT_MESSAGE_APP") := by
  obtain ⟨config, hload, hp⟩ := exists_loaded dropTexts (p := py "config.yaml") (by decide)
    (by decide) (by decide +kernel)
  refine ⟨config, hload, hp.dropListed (by decide +kernel), ?_⟩
  have hloads : (demoJson sender h text).json.loads (demoMessage text).payload =
      .ok (demoObject sender h).toDoc := Runtime.loads_ofJson _ _ _
  have hlower : UnicodeDb.ascii.lower (py "text") = py "text" := by decide
  rw [extractPortnum, extractPortnumJson_toDoc hloads]
  simp [probePortnum, probeDecoded, demoObject, JsonObject.get, JsonObject.get?,
    Json.member, Json.asStr, demoJson, Runtime.ofJson, hlower, jsonTypeToPortnum]

theorem nodesFormattable_demoMessage_iff (sender : Json) (h : sender.wf = true)
    (text : String) :
    NodesFormattable (demoJson sender h text) .json (demoMessage text).payload ↔
      NodeFormattable sender := by
  have hloads : (demoJson sender h text).json.loads (demoMessage text).payload =
      .ok (demoObject sender h).toDoc := Runtime.loads_ofJson _ _ _
  have hfrom : (demoObject sender h).get (py "from") = sender := by
    simp [demoObject, JsonObject.get, JsonObject.get?]
  have hto : (demoObject sender h).get (py "to") = .null := by
    simp [demoObject, JsonObject.get, JsonObject.get?]
  constructor
  · exact fun hformat => hfrom ▸ (hformat _ rfl hloads).1
  · rintro hsender data - hdata
    rw [hloads, Except.ok.injEq] at hdata
    rw [← JsonDoc.toDoc_injective hdata, hfrom, hto]
    exact ⟨hsender, trivial⟩

/-- Scalars of the demo packet overflow no log handler. -/
theorem loggable_demoMessage (sender : Json) (h : sender.wf = true) (text : String)
    (handler : LogHandler) {values : JsonObject → List Json}
    (hscalars : ∀ v ∈ values (demoObject sender h), v.isContainer = false) :
    Loggable ((demoJson sender h text).withLog handler) .json (demoMessage text).payload
      values := by
  have hloads : ((demoJson sender h text).withLog handler).json.loads
      (demoMessage text).payload = .ok (demoObject sender h).toDoc := Runtime.loads_ofJson _ _ _
  rw [Loggable, forall_object_iff rfl hloads]
  exact LogHandler.not_overflows_of_scalars hscalars

/-- A text message with an integer sender is denied. -/
theorem processMessage_drops_demoMessage :
    ∃ config, loadConfig (ConfigHost.ofMapping dropTexts) (some (py "config.yaml")) =
        .ok config ∧
      (processMessage (demoJson (.int 7) rfl "7") noFault (demoMessage "7").topic
        (demoMessage "7").payload config .initial).1 = .drop ∧
      ∃ resp, (onMessagePublish (demoJson (.int 7) rfl "7") noFault config
          (demoMessage "7") .initial).1 = .ok resp ∧
        resp.Denies (demoMessage "7") := by
  obtain ⟨config, hload, hlisted, hpn⟩ := demoMessage_setup (.int 7) rfl "7"
  refine ⟨config, hload, (processMessage_drops_iff (by decide) hpn hlisted .initial).mpr ?_⟩
  exact ⟨(nodesFormattable_demoMessage_iff (.int 7) rfl "7").mpr (by decide),
    loggable_demoMessage (.int 7) rfl "7" _ (by decide)⟩

/-- A matched text message whose sender is the float `1.5` passes through. -/
theorem processMessage_delivers_float_sender :
    ∃ config, loadConfig (ConfigHost.ofMapping dropTexts) (some (py "config.yaml")) =
        .ok config ∧
      parseMeshtasticTopic (demoMessage "1.5").topic = some (py "LongFast", .json) ∧
      DropListed config (py "LongFast") (py "TEXT_MESSAGE_APP") ∧
      extractPortnum (demoJson (.float 0x3FF8000000000000#64) rfl "1.5") .json
        (demoMessage "1.5").payload = some (py "TEXT_MESSAGE_APP") ∧
      (processMessage (demoJson (.float 0x3FF8000000000000#64) rfl "1.5") noFault
        (demoMessage "1.5").topic (demoMessage "1.5").payload config .initial).1 =
          .passthru := by
  obtain ⟨config, hload, hlisted, hpn⟩ :=
    demoMessage_setup (.float 0x3FF8000000000000#64) rfl "1.5"
  have htopic : parseMeshtasticTopic (demoMessage "1.5").topic =
      some (py "LongFast", .json) := by decide
  refine ⟨config, hload, htopic, hlisted, hpn, ?_⟩
  rcases processMessage_of_dropListed htopic hpn hlisted .initial with
    ⟨⟨hformat, -⟩, -⟩ | ⟨-, hpass⟩
  · exact absurd ((nodesFormattable_demoMessage_iff _ rfl _).mp hformat) (by decide)
  · exact hpass

end Floodgate.Ports
