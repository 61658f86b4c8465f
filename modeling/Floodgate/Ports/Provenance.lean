import Floodgate.Ports.DropFilter

/-!
# The log describes the packet

The hop values that a packet left its sender with survive only in the log: the
delivered packet has hop limit zero.  Two functions extract them, one for the
packets that are rewritten and one for those that are not, and four sites render
them.  `SentValues` is what the sender put into a packet, read off the decoded
message and not off the metadata; every record of the packet, under whatever
configuration, shows these values.

## Main results

* `peekMeta_eq_packetMeta`: both functions extract the same metadata.
* `holds_of_viewPacket`: the metadata of a packet holds what its sender sent.
* `describes_of_emits`: a record shows the sent values, and a rewrite is logged
  with the hop limit the packet came with.
* `records_describe_packet`: the records under two configurations agree.
-/

namespace Floodgate.Ports

open Floodgate.Verified
open Floodgate.Verified.FailOpen

/-! ## What the sender sent -/

/-- What a packet says about its origin, as its sender wrote it. -/
structure SentValues where
  id : Json
  sender : Json
  destination : Json
  hopStart : Json
  relayNode : Json
  viaMqtt : Json
  hop : Int

/-- The values of a protobuf packet. -/
def MeshPacket.sent (pkt : MeshPacket) : SentValues where
  id := .int pkt.id.toNat
  sender := .int pkt.sender.toNat
  destination := .int pkt.destination.toNat
  hopStart := .int pkt.hopStart.toNat
  relayNode := .int pkt.relayNode.toNat
  viaMqtt := .bool pkt.viaMqtt
  hop := pkt.hopLimit.toNat

/-- The values of a JSON packet; a member that is absent is `None`, and there is
no relay node in the JSON of the firmware. -/
def JsonObject.sent (data : JsonObject) : SentValues where
  id := data.get (py "id")
  sender := data.get (py "from")
  destination := data.get (py "to")
  hopStart := data.get (py "hop_start")
  relayNode := .null
  viaMqtt := data.get (py "via_mqtt")
  hop := hopsLeft (data.hop? (py "hop_limit")) (data.hop? (py "hop_start"))
    (data.hop? (py "hops_away"))

/-- The values are those of the packet in the payload. -/
inductive Sent (rt : Runtime) (payload : Bytes) : Encoding → SentValues → Prop
  | e {protos : Protos} {m : ServiceEnvelope} {pkt : MeshPacket}
      (hprotos : rt.protos = some protos) (hparse : protos.parseEnvelope payload = .ok m)
      (hpkt : m.packet = some pkt) : Sent rt payload .e pkt.sent
  | json {data : JsonObject} (hloads : rt.json.loads payload = .ok data.toDoc) :
      Sent rt payload .json data.sent

/-- The metadata holds the values. -/
structure Meta.Holds (m : Meta) (s : SentValues) : Prop where
  id : m.get (py "packet_id") = s.id
  sender : m.get (py "sender") = s.sender
  destination : m.get (py "destination") = s.destination
  hopStart : m.get (py "hop_start") = s.hopStart
  relayNode : m.get (py "relay_node") = s.relayNode
  viaMqtt : m.get (py "via_mqtt") = s.viaMqtt

theorem holds_extractProtoMeta (pkt : MeshPacket) : (extractProtoMeta pkt).Holds pkt.sent := by
  have hattr : ∀ attr key, (attr, key) ∈ protoMetaFields →
      (extractProtoMeta pkt).get key = (pkt.getattr attr).getD .null :=
    get_extractProtoMeta pkt
  constructor
  · rw [hattr (py "id") _ (by simp [protoMetaFields])]
    simp [MeshPacket.getattr, MeshPacket.attrs, MeshPacket.sent]
  · exact get_extractProtoMeta_sender pkt
  · rw [hattr (py "to") _ (by simp [protoMetaFields])]
    simp [MeshPacket.getattr, MeshPacket.attrs, MeshPacket.sent]
  · rw [hattr (py "hop_start") _ (by simp [protoMetaFields])]
    simp [MeshPacket.getattr, MeshPacket.attrs, MeshPacket.sent]
  · rw [hattr (py "relay_node") _ (by simp [protoMetaFields])]
    simp [MeshPacket.getattr, MeshPacket.attrs, MeshPacket.sent]
  · rw [hattr (py "via_mqtt") _ (by simp [protoMetaFields])]
    simp [MeshPacket.getattr, MeshPacket.attrs, MeshPacket.sent]

theorem holds_jsonMeta (data : JsonObject) : (jsonMeta data).Holds data.sent where
  id := get_jsonMeta data _ _ (by simp [jsonMetaFields])
  sender := get_jsonMeta data _ _ (by simp [jsonMetaFields])
  destination := get_jsonMeta data _ _ (by simp [jsonMetaFields])
  hopStart := get_jsonMeta data _ _ (by simp [jsonMetaFields])
  relayNode := get_jsonMeta_relay data
  viaMqtt := get_jsonMeta data _ _ (by simp [jsonMetaFields])

/-- The metadata of a packet holds what its sender sent, and its hop limit is
the one it was sent with. -/
theorem holds_of_viewPacket {rt : Runtime} {encoding : Encoding} {payload : Bytes}
    {v : PacketView} (h : viewPacket rt encoding payload = some v) :
    ∃ s, Sent rt payload encoding s ∧ v.packetMeta.Holds s ∧ v.hop = s.hop := by
  rcases viewPacket_cases h with ⟨rfl, protos, m, pkt, hprotos, hm, hpkt, rfl⟩ |
    ⟨rfl, data, hdata, hints, rfl⟩
  · exact ⟨pkt.sent, .e hprotos hm hpkt, holds_extractProtoMeta pkt, rfl⟩
  · exact ⟨data.sent, .json hdata, holds_jsonMeta data, effectiveHop_eq hints⟩

/-- The bytes encode a packet with hop limit zero. -/
inductive HopLimitZero (rt : Runtime) : Encoding → Bytes → Prop
  | e {protos : Protos} {m : ServiceEnvelope} {pkt : MeshPacket}
      (hprotos : rt.protos = some protos) (hpkt : m.packet = some pkt)
      (hzero : pkt.hopLimit = 0) : HopLimitZero rt .e (protos.serializeEnvelope m)
  | json {data : JsonObject} (hzero : data.get? (py "hop_limit") = some (.int 0)) :
      HopLimitZero rt .json (rt.json.dumps data.toDoc)

theorem hopLimitZero_of_viewPacket {rt : Runtime} {encoding : Encoding} {payload : Bytes}
    {v : PacketView} (h : viewPacket rt encoding payload = some v) :
    HopLimitZero rt encoding v.zeroHopped := by
  rcases viewPacket_cases h with ⟨rfl, protos, m, pkt, hprotos, -, hpkt, rfl⟩ |
    ⟨rfl, data, -, -, rfl⟩
  · have hzeroed : m.zeroHop.packet = some pkt.zeroHop := by
      rw [ServiceEnvelope.zeroHop, hpkt, Option.map_some]
    exact .e hprotos hzeroed rfl
  · exact .json (JsonObject.get?_setInt_self data _ 0)

/-- A payload has one sender. -/
theorem Sent.unique {rt : Runtime} {encoding : Encoding} {payload : Bytes}
    {s s' : SentValues} (h : Sent rt payload encoding s) (h' : Sent rt payload encoding s') :
    s = s' := by
  cases h with
  | e hprotos hparse hpkt =>
      cases h' with
      | e hprotos' hparse' hpkt' =>
          obtain rfl := Option.some.inj (hprotos.symm.trans hprotos')
          obtain rfl := Except.ok.inj (hparse.symm.trans hparse')
          obtain rfl := Option.some.inj (hpkt.symm.trans hpkt')
          rfl
  | json hloads =>
      cases h' with
      | json hloads' =>
          rw [JsonDoc.toDoc_injective (Except.ok.inj (hloads.symm.trans hloads'))]

/-! ## What a record shows -/

/-- A member of a record: `None` is no value. -/
def shown : Json → Option Json
  | .null => none
  | v => some v

theorem value_ofExtra (outcome : Outcome) (extra : List (MessageField × Json))
    (key : MessageField) :
    (MessageRecord.ofExtra outcome extra).value key = (Assoc.get? extra key).bind shown := by
  simp only [MessageRecord.ofExtra]
  cases Assoc.get? extra key with
  | none => rfl
  | some v => cases v <;> rfl

/-- The record of a packet shows where it was published and what its sender
sent; a dropped record has no hop values. -/
structure Describes (topic channel : PyStr) (encoding : Encoding) (s : SentValues)
    (record : MessageRecord Json) : Prop where
  topic : record.value .topic = some (.str topic)
  channel : record.value .channel = some (.str channel)
  encoding : record.value .encoding = some (.str encoding.text)
  id : record.value .id = shown s.id
  fromNode : ∃ t, fmtNode s.sender = .ok t ∧ record.value .fromNode = some (.str t)
  toNode : ∃ t, fmtNode s.destination = .ok t ∧ record.value .toNode = some (.str t)
  hopStart : record.outcome ≠ .dropped → record.value .hopStart = shown s.hopStart
  relay : record.outcome ≠ .dropped →
    ∃ t, fmtRelay s.relayNode = .ok t ∧ record.value .relay = t.map .str
  viaMqtt : record.outcome ≠ .dropped → record.value .viaMqtt = shown s.viaMqtt

theorem describes_of_droppedRecord {topic channel : PyStr} {encoding : Encoding}
    {portnum : Option PyStr} {m : Meta} {s : SentValues} {record : MessageRecord Json}
    (hm : m.Holds s) (h : droppedRecord topic channel encoding portnum m = .ok record) :
    Describes topic channel encoding s record ∧ record.outcome = .dropped := by
  rw [droppedRecord, hm.sender, hm.destination, hm.id] at h
  cases hsender : fmtNode s.sender with
  | error e => simp [hsender, bind, Except.bind] at h
  | ok sender =>
      cases hdestination : fmtNode s.destination with
      | error e => simp [hsender, hdestination, bind, Except.bind] at h
      | ok destination =>
          simp only [hsender, hdestination, bind, Except.bind, pure, Except.pure,
            Except.ok.injEq] at h
          subst h
          have houtcome : ¬ Outcome.dropped ≠ .dropped := fun h => h rfl
          exact
            ⟨{ topic := by simp [value_ofExtra, shown]
               channel := by simp [value_ofExtra, shown]
               encoding := by simp [value_ofExtra, shown]
               id := by simp [value_ofExtra]
               fromNode := ⟨sender, hsender, by simp [value_ofExtra, shown]⟩
               toNode := ⟨destination, hdestination, by simp [value_ofExtra, shown]⟩
               hopStart := fun h => absurd h houtcome
               relay := fun h => absurd h houtcome
               viaMqtt := fun h => absurd h houtcome },
              rfl⟩

theorem describes_of_packetRecord {outcome : Outcome} {topic channel : PyStr}
    {encoding : Encoding} {m : Meta} {hopLimit : Json} {s : SentValues}
    {record : MessageRecord Json} (hm : m.Holds s)
    (h : packetRecord outcome topic channel encoding m hopLimit = .ok record) :
    Describes topic channel encoding s record ∧
      record.value .hopLimit = shown hopLimit := by
  rw [packetRecord, hm.sender, hm.destination, hm.relayNode, hm.id, hm.hopStart,
    hm.viaMqtt] at h
  cases hsender : fmtNode s.sender with
  | error e => simp [hsender, bind, Except.bind] at h
  | ok sender =>
      cases hdestination : fmtNode s.destination with
      | error e => simp [hsender, hdestination, bind, Except.bind] at h
      | ok destination =>
          cases hrelay : fmtRelay s.relayNode with
          | error e => simp [hsender, hdestination, hrelay, bind, Except.bind] at h
          | ok relay =>
              simp only [hsender, hdestination, hrelay, bind, Except.bind, pure,
                Except.pure, Except.ok.injEq] at h
              subst h
              exact
                ⟨{ topic := by simp [value_ofExtra, shown]
                   channel := by simp [value_ofExtra, shown]
                   encoding := by simp [value_ofExtra, shown]
                   id := by simp [value_ofExtra]
                   fromNode := ⟨sender, hsender, by simp [value_ofExtra, shown]⟩
                   toNode := ⟨destination, hdestination, by simp [value_ofExtra, shown]⟩
                   hopStart := fun _ => by simp [value_ofExtra]
                   relay := fun _ => ⟨relay, hrelay, by
                     cases relay <;> simp [value_ofExtra, shown]⟩
                   viaMqtt := fun _ => by simp [value_ofExtra] },
                  by simp [value_ofExtra]⟩

/-- Records that describe one packet agree, but for the hop values that a
dropped record does not carry. -/
structure Agree (record record' : MessageRecord Json) : Prop where
  always : ∀ key ∈ [MessageField.topic, .channel, .encoding, .id, .fromNode, .toNode],
    record.value key = record'.value key
  carried : record.outcome ≠ .dropped → record'.outcome ≠ .dropped →
    ∀ key ∈ [MessageField.hopStart, .relay, .viaMqtt], record.value key = record'.value key

theorem Describes.agree {topic channel : PyStr} {encoding : Encoding} {s : SentValues}
    {record record' : MessageRecord Json} (h : Describes topic channel encoding s record)
    (h' : Describes topic channel encoding s record') : Agree record record' where
  always := by
    obtain ⟨sender, hsender, hfrom⟩ := h.fromNode
    obtain ⟨sender', hsender', hfrom'⟩ := h'.fromNode
    obtain rfl := Except.ok.inj (hsender.symm.trans hsender')
    obtain ⟨destination, hdestination, hto⟩ := h.toNode
    obtain ⟨destination', hdestination', hto'⟩ := h'.toNode
    obtain rfl := Except.ok.inj (hdestination.symm.trans hdestination')
    simp [h.topic, h'.topic, h.channel, h'.channel, h.encoding, h'.encoding, h.id, h'.id,
      hfrom, hfrom', hto, hto']
  carried := by
    intro hout hout'
    obtain ⟨relay, hrelay, hvalue⟩ := h.relay hout
    obtain ⟨relay', hrelay', hvalue'⟩ := h'.relay hout'
    obtain rfl := Except.ok.inj (hrelay.symm.trans hrelay')
    simp [h.hopStart hout, h'.hopStart hout', hvalue, hvalue', h.viaMqtt hout,
      h'.viaMqtt hout']

/-! ## What a call logs -/

/-- The call logs the record, and nothing else. -/
def Emits (rt : Runtime) (topic : PyStr) (payload : Bytes) (config : Config) (w : World)
    (record : MessageRecord Json) : Prop :=
  (processMessage rt noFault topic payload config w).2.log = w.log ++ [record]

theorem emits_of_judge {rt : Runtime} {topic : PyStr} {payload : Bytes} {config : Config}
    {v : Verdict} {record : MessageRecord Json}
    (hj : judge rt topic payload config = .ok v) (hrecord : v.record = .ok (some record))
    (w : World) : Emits rt topic payload config w record := by
  rw [Emits, processMessage_of_rendered hj hrecord]
  rfl

/-- A logged record is the record of the verdict, and the answer is the verdict's. -/
theorem judge_of_emits {rt : Runtime} {topic : PyStr} {payload : Bytes} {config : Config}
    {w : World} {record : MessageRecord Json}
    (h : Emits rt topic payload config w record) :
    ∃ v, judge rt topic payload config = .ok v ∧ v.record = .ok (some record) ∧
      (processMessage rt noFault topic payload config w).1 = v.result := by
  rw [Emits] at h
  cases hj : judge rt topic payload config with
  | error e =>
      rw [processMessage_of_raised hj] at h
      exact absurd h (by simp [World.count])
  | ok v =>
      cases hrecord : v.record with
      | error e =>
          rw [processMessage_of_unrendered hj hrecord] at h
          exact absurd h (by simp [World.count])
      | ok r =>
          rw [processMessage_of_rendered hj hrecord] at h ⊢
          cases r with
          | none => exact absurd h (by simp [World.count])
          | some record' =>
              have hlog : record' = record := by simpa [World.count, World.emit] using h
              exact ⟨v, rfl, hlog ▸ hrecord, rfl⟩

/-- The parse error of the zero-hop functions: `modified is None and old_hop is
None`. -/
def ZerohopResult.Rejected (r : ZerohopResult) : Prop :=
  r.modified = none ∧ r.oldHop = none

/-- A result that is no parse error is that of a packet. -/
theorem exists_view_of_not_rejected {rt : Runtime} {encoding : Encoding} {payload : Bytes}
    {r : ZerohopResult} (hr : runZerohop rt payload encoding = .ok r)
    (haccept : ¬ r.Rejected) :
    ∃ v, viewPacket rt encoding payload = some v ∧ r = .ofView (some v) := by
  have hview := runZerohop_eq_of_ok hr
  cases h : viewPacket rt encoding payload with
  | none =>
      rw [h] at hview
      exact absurd (by subst hview; exact ⟨rfl, rfl⟩) haccept
  | some v => exact ⟨v, rfl, h ▸ hview⟩

/-- The metadata read for a packet that is not rewritten is the metadata that the
zero-hop functions extract. -/
theorem peekMeta_eq_packetMeta {rt : Runtime} {encoding : Encoding} {payload : Bytes}
    {r : ZerohopResult} (hr : runZerohop rt payload encoding = .ok r)
    (haccept : ¬ r.Rejected) : peekMeta rt encoding payload = r.packetMeta := by
  obtain ⟨v, hview, rfl⟩ := exists_view_of_not_rejected hr haccept
  rw [peekMeta_of_viewPacket hview, ZerohopResult.ofView]
  by_cases hhop : v.hop = 0
  · rw [if_pos hhop]
  · rw [if_neg hhop]

section Emissions

variable {rt : Runtime} {topic channel : PyStr} {encoding : Encoding} {payload : Bytes}
  {config config' : Config} {w w' : World} {record record' : MessageRecord Json}

/-- Every record of a packet shows what its sender sent.  A rewrite is logged with
the hop limit the packet came with, and delivers it with hop limit zero. -/
theorem describes_of_emits {v : PacketView} {s : SentValues}
    (htopic : parseMeshtasticTopic topic = some (channel, encoding))
    (hview : viewPacket rt encoding payload = some v) (hholds : v.packetMeta.Holds s)
    (hhop : v.hop = s.hop) (h : Emits rt topic payload config w record) :
    Describes topic channel encoding s record ∧
      (record.outcome = .zerohop → record.value .hopLimit = some (.int s.hop) ∧
        ∃ q, (processMessage rt noFault topic payload config w).1 = .modify (some q) ∧
          HopLimitZero rt encoding q) := by
  obtain ⟨verdict, hj, hrecord, hanswer⟩ := judge_of_emits h
  have hpeek : (peekMeta rt encoding payload).Holds s :=
    peekMeta_of_viewPacket hview ▸ hholds
  have hsame : ∀ {channel' : PyStr} {encoding' : Encoding},
      parseMeshtasticTopic topic = some (channel', encoding') →
        channel' = channel ∧ encoding' = encoding := by
    intro channel' encoding' h'
    exact Prod.mk.inj (Option.some.inj (h'.symm.trans htopic))
  have hrender : ∀ {r : Except PyErr (MessageRecord Json)},
      (rt.log.handled r).map some = .ok (some record) → r = .ok record := by
    intro r hr
    cases hhandled : rt.log.handled r with
    | error e => simp [hhandled, Except.map] at hr
    | ok record' =>
        obtain rfl : record' = record := by simpa [hhandled, Except.map] using hr
        exact (handled_eq_ok_iff.mp hhandled).1
  rw [hanswer]
  cases judged_of_judge hj with
  | skipped => cases hrecord
  | dropped h' =>
      obtain ⟨rfl, rfl⟩ := hsame h'
      obtain ⟨hdescribes, houtcome⟩ := describes_of_droppedRecord hpeek (hrender hrecord)
      exact ⟨hdescribes, fun hz => absurd (houtcome.symm.trans hz) (by decide)⟩
  | passthru h' =>
      obtain ⟨rfl, rfl⟩ := hsame h'
      have houtcome := (packetRecord_ok (hrender hrecord)).1
      exact ⟨(describes_of_packetRecord hpeek (hrender hrecord)).1,
        fun hz => absurd (houtcome.symm.trans hz) (by decide)⟩
  | warn h' _ _ hview' =>
      obtain ⟨rfl, rfl⟩ := hsame h'
      rw [hview] at hview'
      cases hview'
  | noop h' _ _ hview' =>
      obtain ⟨rfl, rfl⟩ := hsame h'
      obtain rfl := Option.some.inj (hview.symm.trans hview')
      have houtcome := (packetRecord_ok (hrender hrecord)).1
      exact ⟨(describes_of_packetRecord hholds (hrender hrecord)).1,
        fun hz => absurd (houtcome.symm.trans hz) (by decide)⟩
  | zerohop h' _ _ hview' =>
      obtain ⟨rfl, rfl⟩ := hsame h'
      obtain rfl := Option.some.inj (hview.symm.trans hview')
      obtain ⟨hdescribes, hlimit⟩ := describes_of_packetRecord hholds (hrender hrecord)
      exact ⟨hdescribes, fun _ => ⟨by rw [hlimit, ← hhop]; rfl, _, rfl,
        hopLimitZero_of_viewPacket hview⟩⟩

/-- A record is emitted on packet topics only. -/
theorem exists_topic_of_emits (h : Emits rt topic payload config w record) :
    ∃ channel encoding, parseMeshtasticTopic topic = some (channel, encoding) := by
  obtain ⟨v, hj, hrecord, -⟩ := judge_of_emits h
  cases htopic : parseMeshtasticTopic topic with
  | none =>
      simp only [judge, htopic, Except.ok.injEq] at hj
      subst hj
      cases hrecord
  | some p => exact ⟨p.1, p.2, rfl⟩

/-- The log describes the packet and not the policy.  For a payload that the
zero-hop function of its encoding accepts, the records emitted under any two
configurations show the values that the sender sent, and so agree; a rewrite is
logged with the effective hop limit of the packet as it was sent; and the
metadata of both extraction paths is the same. -/
theorem records_describe_packet
    (haccept : ∀ channel encoding, parseMeshtasticTopic topic = some (channel, encoding) →
      ∃ r, runZerohop rt payload encoding = .ok r ∧ ¬ r.Rejected)
    (h : Emits rt topic payload config w record)
    (h' : Emits rt topic payload config' w' record') :
    Agree record record' ∧
    ∃ channel encoding s r, parseMeshtasticTopic topic = some (channel, encoding) ∧
      Sent rt payload encoding s ∧
      Describes topic channel encoding s record ∧
      Describes topic channel encoding s record' ∧
      (record.outcome = .zerohop → record.value .hopLimit = some (.int s.hop) ∧
        ∃ q, (processMessage rt noFault topic payload config w).1 = .modify (some q) ∧
          HopLimitZero rt encoding q) ∧
      runZerohop rt payload encoding = .ok r ∧
      peekMeta rt encoding payload = r.packetMeta := by
  obtain ⟨channel, encoding, htopic⟩ := exists_topic_of_emits h
  obtain ⟨r, hr, hrejected⟩ := haccept channel encoding htopic
  obtain ⟨v, hview, -⟩ := exists_view_of_not_rejected hr hrejected
  obtain ⟨s, hsent, hholds, hhop⟩ := holds_of_viewPacket hview
  obtain ⟨hd, hz⟩ := describes_of_emits htopic hview hholds hhop h
  obtain ⟨hd', -⟩ := describes_of_emits htopic hview hholds hhop h'
  exact ⟨hd.agree hd', channel, encoding, s, r, htopic, hsent, hd, hd', hz, hr,
    peekMeta_eq_packetMeta hr hrejected⟩

end Emissions

/-- A text message, zero-hopped under the default configuration and dropped under
another: the two records agree. -/
theorem records_describe_packet_demoObject :
    ∃ config config' record record',
      loadConfig (ConfigHost.ofMapping []) (some (py "config.yaml")) = .ok config ∧
      loadConfig (ConfigHost.ofMapping dropTexts) (some (py "config.yaml")) = .ok config' ∧
      record.outcome = .zerohop ∧ record'.outcome = .dropped ∧ Agree record record' := by
  obtain ⟨config, hload, hzerohop, hpass, hloads, hints, hhop⟩ :=
    demoJson_setup (.int 7) rfl "7"
  obtain ⟨config', hload', hlisted, hpn⟩ := demoMessage_setup (.int 7) rfl "7"
  have htopic : parseMeshtasticTopic (py "msh/US/2/json/LongFast/!12345678") =
      some (py "LongFast", .json) := by decide
  have hview := viewPacket_json hloads hints
  have hne : (viewJson (demoJson (.int 7) rfl "7") (demoObject (.int 7) rfl)).hop ≠ 0 := by
    rw [viewJson, hhop]
    decide
  have hrenders : (jsonMeta (demoObject (.int 7) rfl)).Renders :=
    (renders_jsonMeta_iff _).mpr (by decide)
  -- under the default configuration
  have hj := judge_of_zerohop htopic (hpass _).dropMatches hzerohop.shouldZerohop hview
  rw [if_neg hne] at hj
  obtain ⟨record, hrecord⟩ := exists_ok_of_isOk
    ((handled_packetRecord_isOk_iff (demoJson (.int 7) rfl "7").log .zerohop rfl
      (py "msh/US/2/json/LongFast/!12345678") (py "LongFast") .json _ (.int 3)).mpr
        ⟨hrenders, LogHandler.not_overflows_of_scalars (by decide)⟩)
  have hemits : Emits _ _ _ config _ record := emits_of_judge hj
    (by simp only [zerohopVerdict, Option.elim_some, viewJson, hhop, hrecord, Except.map])
    .initial
  -- under the other one
  have hj' := judge_of_dropMatches htopic (hlisted.dropMatches hpn)
  have hpeek : peekMeta (demoJson (.int 7) rfl "7") .json (demoMessage "7").payload =
      jsonMeta (demoObject (.int 7) rfl) := peekMeta_of_viewPacket hview
  obtain ⟨record', hrecord'⟩ := exists_ok_of_isOk
    ((handled_droppedRecord_isOk_iff (demoJson (.int 7) rfl "7").log
      (py "msh/US/2/json/LongFast/!12345678") (py "LongFast") .json
      (some (py "TEXT_MESSAGE_APP")) _).mpr ⟨⟨hrenders.sender, hrenders.destination⟩,
        LogHandler.not_overflows_of_scalars (by decide)⟩)
  have hemits' : Emits _ _ _ config' _ record' := emits_of_judge hj'
    (by simp only [droppedVerdict, hpn, hpeek, hrecord', Except.map]) .initial
  refine ⟨config, config', record, record', hload, hload',
    (packetRecord_ok (handled_eq_ok_iff.mp hrecord).1).1,
    (droppedRecord_ok (handled_eq_ok_iff.mp hrecord').1).1, ?_⟩
  refine (records_describe_packet (fun channel encoding h => ?_) hemits hemits').1
  obtain ⟨rfl, rfl⟩ := Prod.mk.inj (Option.some.inj (htopic.symm.trans h))
  refine ⟨_, runZerohop_of_view hview, ?_⟩
  rw [ZerohopResult.ofView, if_neg hne]
  exact fun hrejected => by cases hrejected.1

end Floodgate.Ports
