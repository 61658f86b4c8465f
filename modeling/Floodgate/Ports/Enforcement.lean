import Floodgate.Ports.PacketView

/-!
# Zero-hop enforcement

On a zero-hopped channel, a packet with hops left is delivered with its hop
limit set to zero and nothing else changed.  For protobuf packets this holds
whatever the fields of the packet are.  For JSON packets the record is made
from publisher-controlled members before the rewritten payload is returned:
`_fmt_node` has no format for a float, a list or an object, and the log handler
raises on a member that is nested too deep.  Then the catch-all delivers the
packet as it came.

## Main results

* `processMessage_zerohops_protobuf`: protobuf enforcement, with the frame on
  the whole envelope.
* `processMessage_zerohops_json_iff`: JSON enforcement, exactly when `from` and
  `to` have a format and the record does not overflow the log handler.
-/

namespace Floodgate.Ports

open Floodgate.Verified
open Floodgate.Verified.FailOpen

/-- `zerohop_enabled` is true and the channel is in the zero-hop set. -/
structure ZerohopListed (config : Config) (channel : PyStr) : Prop where
  enabled : config.get? (py "zerohop_enabled") = some (.bool true)
  listed : ∃ channels, config.get? (py "_zerohop_channels_set") = some channels ∧
    channels.contains channel = .ok true

/-- Dropping is disabled, or the filter does not match the portnum. -/
def DropPasses (config : Config) (channel : PyStr) (portnum : Option PyStr) : Prop :=
  config.get? (py "drop_enabled") = some (.bool false) ∨
    shouldDrop config channel portnum = .ok false

theorem ZerohopListed.shouldZerohop {config : Config} {channel : PyStr}
    (h : ZerohopListed config channel) : shouldZerohop config channel = .ok true := by
  obtain ⟨channels, hget, hcontains⟩ := h.listed
  simp [Ports.shouldZerohop, Config.getTruthy, h.enabled, PyVal.truthy, Config.getItem,
    hget, hcontains, bind, Except.bind]

theorem DropPasses.dropMatches {rt : Runtime} {payload : Bytes} {config : Config}
    {channel : PyStr} {encoding : Encoding}
    (h : DropPasses config channel (extractPortnum rt encoding payload)) :
    dropMatches rt payload config channel encoding = .ok false := by
  unfold Ports.dropMatches
  rcases h with h | h
  · simp [Config.getTruthy, h, PyVal.truthy]
  · split
    · exact h
    · rfl

theorem Config.HasPolicy.zerohopListed {config : Config} {p : Policy} {channel : PyStr}
    (h : config.HasPolicy p) (happlies : p.zerohops channel = true) :
    ZerohopListed config channel := by
  rw [Policy.zerohops, Bool.and_eq_true, decide_eq_true_iff] at happlies
  refine ⟨by rw [h.zerohopEnabled, happlies.1], _, h.zerohopChannels, ?_⟩
  rw [PyVal.contains_strSet, decide_eq_true happlies.2]

theorem Config.HasPolicy.dropPasses {config : Config} {p : Policy} {channel : PyStr}
    {portnum : Option PyStr} (h : config.HasPolicy p)
    (hpasses : p.drops channel portnum = false) : DropPasses config channel portnum :=
  Or.inr (by rw [h.shouldDrop, hpasses])

section Enforcement

variable {rt : Runtime} {config : Config} {topic channel : PyStr} {payload : Bytes}

/-- A packet with hops left, on a zero-hopped channel, is answered with its
zero-hopped payload exactly when its record is logged. -/
theorem processMessage_modifies_iff {encoding : Encoding} {v : PacketView}
    (htopic : parseMeshtasticTopic topic = some (channel, encoding))
    (hzerohop : ZerohopListed config channel)
    (hdrop : DropPasses config channel (extractPortnum rt encoding payload))
    (hview : viewPacket rt encoding payload = some v) (hhop : v.hop ≠ 0) (w : World) :
    ((v.packetMeta.Renders ∧ ¬rt.log.Overflows (v.packetMeta.logged (.int v.hop))) ∧
        (processMessage rt noFault topic payload config w).1 =
          .modify (some v.zeroHopped)) ∨
      (¬(v.packetMeta.Renders ∧ ¬rt.log.Overflows (v.packetMeta.logged (.int v.hop))) ∧
        (processMessage rt noFault topic payload config w).1 = .passthru) := by
  have hj := judge_of_zerohop htopic hdrop.dropMatches hzerohop.shouldZerohop hview
  rw [if_neg hhop] at hj
  have hiff := handled_packetRecord_isOk_iff rt.log .zerohop rfl topic channel
    encoding v.packetMeta (.int v.hop)
  cases hrecord : rt.log.handled
      (packetRecord .zerohop topic channel encoding v.packetMeta (.int v.hop)) with
  | ok record =>
      left
      refine ⟨hiff.mp (by rw [hrecord]; rfl), ?_⟩
      rw [processMessage_of_rendered (r := some record) hj
        (by simp [zerohopVerdict, hrecord, Except.map])]
      rfl
  | error e =>
      right
      refine ⟨fun h => ?_, ?_⟩
      · have hok := hiff.mpr h
        rw [hrecord] at hok
        cases hok
      · rw [processMessage_of_unrendered (e := e) hj
          (by simp [zerohopVerdict, hrecord, Except.map])]

/-- Protobuf enforcement: the delivered envelope is the one that came with the
packet's hop limit replaced by zero. -/
theorem processMessage_zerohops_protobuf {protos : Protos} {m : ServiceEnvelope}
    {pkt : MeshPacket} (hprotos : rt.protos = some protos)
    (htopic : parseMeshtasticTopic topic = some (channel, .e))
    (hzerohop : ZerohopListed config channel)
    (hparse : protos.parseEnvelope payload = .ok m) (hpkt : m.packet = some pkt)
    (hhop : pkt.hopLimit ≠ 0)
    (hdrop : DropPasses config channel (extractPortnumProtobuf rt payload))
    (hround : protos.parseEnvelope (protos.serializeEnvelope m.zeroHop) = .ok m.zeroHop)
    (w : World) :
    ∃ q, (processMessage rt noFault topic payload config w).1 = .modify (some q) ∧
      protos.parseEnvelope q =
        .ok { m with packet := some { pkt with hopLimit := 0 } } := by
  have hview := viewPacket_proto hprotos hparse hpkt
  have hne : (viewProto protos m pkt).hop ≠ 0 := by
    simpa [viewProto, ← UInt32.toNat_inj] using hhop
  have hframe : m.zeroHop = { m with packet := some { pkt with hopLimit := 0 } } :=
    ServiceEnvelope.zeroHop_of_packet hpkt
  rcases processMessage_modifies_iff htopic hzerohop hdrop hview hne w with
    ⟨-, hmodify⟩ | ⟨hnot, -⟩
  · exact ⟨_, hmodify, by rw [← hframe]; exact hround⟩
  · exact absurd ⟨renders_extractProtoMeta pkt, LogHandler.not_overflows_of_scalars
      (isContainer_of_mem_protoMeta pkt rfl)⟩ hnot

/-- An envelope with one encrypted packet, three hops left. -/
def demoEnvelope : ServiceEnvelope where
  packet := some
    { sender := 0x12345678, destination := 0xffffffff, id := 0xaabbccdd
      hopLimit := 3, hopStart := 3, viaMqtt := false, nextHop := 0, relayNode := 0
      payloadVariant := some (.encrypted [0xab, 0xcd]), rest := [] }
  channelId := py "LongFast"
  gatewayId := []
  rest := []

/-- The serialisation of `demoEnvelope`, with the given length and hop limit. -/
def demoEnvelopeBytes (length : UInt8) (hopLimit : Bytes) : Bytes :=
  [0x0a, length, 0x0d, 0x78, 0x56, 0x34, 0x12, 0x15, 0xff, 0xff, 0xff, 0xff,
    0x2a, 0x02, 0xab, 0xcd, 0x35, 0xdd, 0xcc, 0xbb, 0xaa] ++ hopLimit ++
    [0x78, 0x03, 0x12, 0x08] ++ ascii "LongFast"

/-- The payload of `demoEnvelope`. -/
def demoPayload : Bytes := demoEnvelopeBytes 0x17 [0x48, 0x03]

/-- Protobuf modules that know `demoEnvelope`. -/
def demoProtos : Protos :=
  .ofEnvelope demoPayload (demoEnvelopeBytes 0x15 []) demoEnvelope

/-- A protobuf packet on a default channel, under the default configuration. -/
theorem processMessage_zerohops_demoEnvelope :
    ∃ config, loadConfig (ConfigHost.ofMapping []) (some (py "config.yaml")) = .ok config ∧
      ∃ q, (processMessage (.ofProtos demoProtos) noFault
          (py "msh/US/2/e/LongFast/!12345678") demoPayload config .initial).1 =
        .modify (some q) ∧
      demoProtos.parseEnvelope q = .ok demoEnvelope.zeroHop := by
  obtain ⟨config, hload, hp⟩ := exists_loaded [] (p := py "config.yaml") (by decide)
    (by decide) (by decide +kernel)
  have htopic : parseMeshtasticTopic (py "msh/US/2/e/LongFast/!12345678") =
      some (py "LongFast", .e) := by decide
  have hdrop : DropPasses config (py "LongFast")
      (extractPortnumProtobuf (.ofProtos demoProtos) demoPayload) :=
    hp.dropPasses (by decide +kernel)
  exact ⟨config, hload, processMessage_zerohops_protobuf (m := demoEnvelope) rfl htopic
    (hp.zerohopListed (by decide +kernel)) rfl rfl (by decide) hdrop rfl .initial⟩

/-- JSON enforcement: the delivered payload has `hop_limit` zero exactly when the
`from` and `to` members are absent, null, booleans, integers or strings, and what the
record shows does not overflow the log handler. -/
theorem processMessage_zerohops_json_iff {data : JsonObject}
    (htopic : parseMeshtasticTopic topic = some (channel, .json))
    (hzerohop : ZerohopListed config channel)
    (hloads : rt.json.loads payload = .ok data.toDoc) (hints : HopFieldsAreInts data)
    (hhop : hopsLeft (data.hop? (py "hop_limit")) (data.hop? (py "hop_start"))
      (data.hop? (py "hops_away")) ≠ 0)
    (hdrop : DropPasses config channel (extractPortnumJson rt payload)) (w : World) :
    (∃ data' : JsonObject, (processMessage rt noFault topic payload config w).1 =
        .modify (some (rt.json.dumps data'.toDoc)) ∧
      data'.get? (py "hop_limit") = some (.int 0)) ↔
    (NodeFormattable (data.get (py "from")) ∧ NodeFormattable (data.get (py "to"))) ∧
      ¬rt.log.Overflows (data.logged (.int (hopsLeft (data.hop? (py "hop_limit"))
        (data.hop? (py "hop_start")) (data.hop? (py "hops_away"))))) := by
  have hview := viewPacket_json hloads hints
  have heffective := effectiveHop_eq hints
  have hne : (viewJson rt data).hop ≠ 0 := by
    rw [viewJson, heffective]
    exact hhop
  rw [← renders_jsonMeta_iff, ← heffective, ← logged_jsonMeta]
  rcases processMessage_modifies_iff htopic hzerohop hdrop hview hne w with
    ⟨hlogged, hmodify⟩ | ⟨hnot, hpass⟩
  · exact iff_of_true ⟨data.zeroHop, hmodify, JsonObject.get?_setInt_self _ _ _⟩ hlogged
  · refine iff_of_false ?_ hnot
    rintro ⟨data', hmodify, -⟩
    rw [hpass] at hmodify
    cases hmodify

/-- A JSON text message with three hops left and the given `from` member. -/
def demoObject (sender : Json) (h : sender.wf = true) : JsonObject :=
  ⟨[(py "hop_limit", .int 3), (py "from", sender), (py "type", .str (py "text"))], by
    simp [Json.wf, Json.wfMembers, Assoc.keys, h]⟩

/-- The text of a text message with the given hop limit and `from` member. -/
def demoText (hopLimit sender : String) : Bytes :=
  ascii ("\x7b\"hop_limit\": " ++ hopLimit ++ ", \"from\": " ++ sender ++
    ", \"type\": \"text\"\x7d")

/-- A runtime that knows `demoObject`, the `from` member of which has the given
text. -/
def demoJson (sender : Json) (h : sender.wf = true) (text : String) : Runtime :=
  .ofJson (demoText "3" text) (demoText "0" text) (demoObject sender h)

/-- The demo packet meets everything that JSON enforcement asks for but the
format of its sender, under the default configuration. -/
theorem demoJson_setup (sender : Json) (h : sender.wf = true) (text : String) :
    ∃ config, loadConfig (ConfigHost.ofMapping []) (some (py "config.yaml")) = .ok config ∧
      ZerohopListed config (py "LongFast") ∧
      (∀ portnum, DropPasses config (py "LongFast") portnum) ∧
      (demoJson sender h text).json.loads (demoText "3" text) =
        .ok (demoObject sender h).toDoc ∧
      HopFieldsAreInts (demoObject sender h) ∧ effectiveHop (demoObject sender h) = 3 := by
  obtain ⟨config, hload, hp⟩ := exists_loaded [] (p := py "config.yaml") (by decide)
    (by decide) (by decide +kernel)
  refine ⟨config, hload, hp.zerohopListed (by decide +kernel), fun portnum => ?_,
    Runtime.loads_ofJson _ _ _, (badHopFields_eq_nil_iff _).mp ?_, ?_⟩
  · have hdisabled : (Policy.ofValues (overlay [])).dropEnabled = false := by decide +kernel
    exact hp.dropPasses (by simp [Policy.drops, hdisabled])
  · simp [badHopFields, hopFields, demoObject, JsonObject.get?, Json.asInt]
  · simp [effectiveHop, demoObject, JsonObject.contains, JsonObject.hop, JsonObject.get?,
      Json.asInt]

/-- A JSON packet with an integer sender is delivered with hop limit zero. -/
theorem processMessage_zerohops_demoObject :
    ∃ config, loadConfig (ConfigHost.ofMapping []) (some (py "config.yaml")) = .ok config ∧
      ∃ data' : JsonObject,
        (processMessage (demoJson (.int 7) rfl "7") noFault
            (py "msh/US/2/json/LongFast/!12345678") (demoText "3" "7") config .initial).1 =
          .modify (some ((demoJson (.int 7) rfl "7").json.dumps data'.toDoc)) ∧
        data'.get? (py "hop_limit") = some (.int 0) := by
  obtain ⟨config, hload, hzerohop, hdrop, hloads, hints, hhop⟩ :=
    demoJson_setup (.int 7) rfl "7"
  exact ⟨config, hload, (processMessage_zerohops_json_iff (by decide) hzerohop hloads hints
    (by decide) (hdrop _) .initial).mpr
      ⟨by decide, LogHandler.not_overflows_of_scalars (by decide)⟩⟩

/-- A JSON packet whose sender is the float `1.5` is delivered as it came, with
three hops left. -/
theorem processMessage_passes_float_sender :
    ∃ config, loadConfig (ConfigHost.ofMapping []) (some (py "config.yaml")) = .ok config ∧
      parseMeshtasticTopic (py "msh/US/2/json/LongFast/!12345678") =
        some (py "LongFast", .json) ∧
      ZerohopListed config (py "LongFast") ∧
      (demoJson (.float 0x3FF8000000000000#64) rfl "1.5").json.loads (demoText "3" "1.5") =
        .ok (demoObject (.float 0x3FF8000000000000#64) rfl).toDoc ∧
      HopFieldsAreInts (demoObject (.float 0x3FF8000000000000#64) rfl) ∧
      effectiveHop (demoObject (.float 0x3FF8000000000000#64) rfl) = 3 ∧
      DropPasses config (py "LongFast")
        (extractPortnumJson (demoJson (.float 0x3FF8000000000000#64) rfl "1.5")
          (demoText "3" "1.5")) ∧
      (processMessage (demoJson (.float 0x3FF8000000000000#64) rfl "1.5") noFault
        (py "msh/US/2/json/LongFast/!12345678") (demoText "3" "1.5") config .initial).1 =
          .passthru := by
  obtain ⟨config, hload, hzerohop, hdrop, hloads, hints, hhop⟩ :=
    demoJson_setup (.float 0x3FF8000000000000#64) rfl "1.5"
  have htopic : parseMeshtasticTopic (py "msh/US/2/json/LongFast/!12345678") =
      some (py "LongFast", .json) := by decide
  refine ⟨config, hload, htopic, hzerohop, hloads, hints, hhop, hdrop _, ?_⟩
  have hview := viewPacket_json hloads hints
  rcases processMessage_modifies_iff htopic hzerohop (hdrop _) hview
    (by rw [viewJson, hhop]; decide) .initial with ⟨⟨hrenders, -⟩, -⟩ | ⟨-, hpass⟩
  · exact absurd ((renders_jsonMeta_iff (demoObject _ rfl)).mp hrenders).1 (by decide)
  · exact hpass

end Enforcement

end Floodgate.Ports
