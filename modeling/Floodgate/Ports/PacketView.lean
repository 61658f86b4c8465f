import Floodgate.Verified.Enclosed
import Floodgate.Ports.ProcessMessage

/-!
# What a payload says

A payload of either encoding that decodes to a packet has an effective hop
limit, a zero-hopped form and metadata.  `viewPacket` says which, as a partial
function of the payload; the zero-hop functions, the metadata extraction and
the verdict of a call are then stated on the view.

## Main results

* `runZerohop_of_view`: the zero-hop functions return what the view says.
* `peekMeta_of_viewPacket`: the metadata read for the record of a packet that is
  not rewritten is the metadata of the view.
* `judge_of_zerohop`: the verdict on a zero-hopped channel, by the view.
* `processMessage_answer`: what a call answers under any faults, and on which
  packets.
* `processMessage_of_rendered`, `processMessage_of_unrendered`: a call without
  faults, by the record of its verdict.
-/

namespace Floodgate.Ports

open Floodgate.Verified
open Floodgate.Verified.FailOpen

/-- A decoded packet: its effective hop limit, the payload with the hop limit
set to zero, and the metadata of its record. -/
structure PacketView where
  hop : Int
  zeroHopped : Bytes
  packetMeta : Meta

/-- `envelope.packet.hop_limit = 0`, on the whole envelope. -/
def ServiceEnvelope.zeroHop (m : ServiceEnvelope) : ServiceEnvelope :=
  { m with packet := m.packet.map MeshPacket.zeroHop }

theorem ServiceEnvelope.zeroHop_of_packet {m : ServiceEnvelope} {pkt : MeshPacket}
    (h : m.packet = some pkt) : m.zeroHop = { m with packet := some pkt.zeroHop } := by
  rw [ServiceEnvelope.zeroHop, h]
  rfl

/-- The view of a packet in a protobuf envelope. -/
def viewProto (protos : Protos) (m : ServiceEnvelope) (pkt : MeshPacket) : PacketView :=
  ⟨pkt.hopLimit.toNat, protos.serializeEnvelope m.zeroHop, extractProtoMeta pkt⟩

/-- The view of a JSON packet. -/
def viewJson (rt : Runtime) (data : JsonObject) : PacketView :=
  ⟨effectiveHop data, rt.json.dumps data.zeroHop.toDoc, jsonMeta data⟩

/-- The view of a payload: of a protobuf envelope that has a packet, or of a JSON
object whose hop fields are integers. -/
def viewPacket (rt : Runtime) (encoding : Encoding) (payload : Bytes) :
    Option PacketView :=
  match encoding with
  | .e => do
      let protos ← rt.protos
      let m ← (protos.parseEnvelope payload).toOption
      let pkt ← m.packet
      return viewProto protos m pkt
  | .json => do
      let doc ← (rt.json.loads payload).toOption
      let data ← doc.asDict
      if badHopFields data = [] then return viewJson rt data else none

/-- The code's answer on a view. -/
def ZerohopResult.ofView : Option PacketView → ZerohopResult
  | none => .parseError
  | some v =>
      if v.hop = 0 then ⟨none, some 0, v.packetMeta⟩
      else ⟨some v.zeroHopped, some v.hop, v.packetMeta⟩

theorem toOption_eq_some {ε α : Type} {x : Except ε α} {a : α} :
    x.toOption = some a ↔ x = .ok a := by
  cases x <;> simp [Except.toOption]

section Views

variable {rt : Runtime} {payload : Bytes}

theorem viewPacket_proto {protos : Protos} {m : ServiceEnvelope} {pkt : MeshPacket}
    (hprotos : rt.protos = some protos) (hparse : protos.parseEnvelope payload = .ok m)
    (hpkt : m.packet = some pkt) :
    viewPacket rt .e payload = some (viewProto protos m pkt) := by
  simp [viewPacket, hprotos, hparse, hpkt, Except.toOption]

theorem viewPacket_json {data : JsonObject}
    (hloads : rt.json.loads payload = .ok data.toDoc) (hhops : HopFieldsAreInts data) :
    viewPacket rt .json payload = some (viewJson rt data) := by
  simp [viewPacket, hloads, Except.toOption, (badHopFields_eq_nil_iff data).mpr hhops]

/-- A view comes from an envelope with a packet, or from an object with integer
hop fields. -/
theorem viewPacket_cases {encoding : Encoding} {v : PacketView}
    (h : viewPacket rt encoding payload = some v) :
    (encoding = .e ∧ ∃ protos m pkt, rt.protos = some protos ∧
      protos.parseEnvelope payload = .ok m ∧ m.packet = some pkt ∧
      v = viewProto protos m pkt) ∨
    (encoding = .json ∧ ∃ data : JsonObject, rt.json.loads payload = .ok data.toDoc ∧
      HopFieldsAreInts data ∧ v = viewJson rt data) := by
  cases encoding with
  | e =>
      left
      simp only [viewPacket, Option.bind_eq_bind, Option.bind_eq_some_iff,
        Option.pure_def, Option.some.injEq, toOption_eq_some] at h
      obtain ⟨protos, hprotos, m, hm, pkt, hpkt, rfl⟩ := h
      exact ⟨rfl, protos, m, pkt, hprotos, hm, hpkt, rfl⟩
  | json =>
      right
      simp only [viewPacket, Option.bind_eq_bind, Option.bind_eq_some_iff,
        toOption_eq_some, JsonDoc.asDict_eq_some] at h
      obtain ⟨doc, hdoc, data, rfl, hview⟩ := h
      split at hview
      · next hbad =>
        exact ⟨rfl, data, hdoc, (badHopFields_eq_nil_iff data).mp hbad,
          (Option.some.inj hview).symm⟩
      · cases hview

/-- The JSON path answers by the view, or `repr` raises on a bad hop field. -/
theorem zerohopJson_cases (rt : Runtime) (payload : Bytes) :
    zerohopJson rt payload = .ok (.ofView (viewPacket rt .json payload)) ∨
      viewPacket rt .json payload = none ∧ ∃ data e, rt.json.loads payload =
        .ok (JsonObject.toDoc data) ∧ badHopFault rt data = some e ∧
        zerohopJson rt payload = .error e := by
  unfold zerohopJson viewPacket
  cases hloads : rt.json.loads payload with
  | error e => exact Or.inl rfl
  | ok doc =>
      cases hdoc : doc.asDict with
      | none => simp [Except.toOption, hdoc, ZerohopResult.ofView]
      | some data =>
          by_cases hbad : badHopFields data = []
          · left
            by_cases hhop : effectiveHop data = 0
            · simp [Except.toOption, hdoc, hbad, hhop, ZerohopResult.ofView, viewJson]
            · simp [Except.toOption, hdoc, hbad, hhop, ZerohopResult.ofView, viewJson]
          · cases hfault : badHopFault rt data with
            | none => simp [Except.toOption, hdoc, hbad, hfault, ZerohopResult.ofView]
            | some e =>
                right
                refine ⟨by simp [Except.toOption, hdoc, hbad], data, e, ?_, hfault, ?_⟩
                · rw [JsonDoc.asDict_eq_some.mp hdoc]
                · simp [hdoc, hbad, hfault]

/-- The protobuf path answers by the view, once the modules are loaded. -/
theorem zerohopProtobuf_eq {protos : Protos} (h : rt.protos = some protos)
    (payload : Bytes) :
    zerohopProtobuf rt payload = .ok (.ofView (viewPacket rt .e payload)) := by
  simp only [zerohopProtobuf, Runtime.loadProtos, viewPacket, h, bind, Except.bind,
    Option.bind_some]
  cases hm : protos.parseEnvelope payload with
  | error e => simp [Except.toOption, ZerohopResult.ofView, pure, Except.pure]
  | ok m =>
      cases hpkt : m.packet with
      | none => simp [Except.toOption, hpkt, ZerohopResult.ofView, pure, Except.pure]
      | some pkt =>
          by_cases hzero : pkt.hopLimit.toNat = 0
          · simp [Except.toOption, hpkt, ZerohopResult.ofView, viewProto, pure,
              Except.pure, hzero]
          · simp [Except.toOption, hpkt, ZerohopResult.ofView, viewProto, pure,
              Except.pure, hzero, ServiceEnvelope.zeroHop]

/-- The zero-hop functions answer by the view of a packet. -/
theorem runZerohop_of_view {encoding : Encoding} {v : PacketView}
    (h : viewPacket rt encoding payload = some v) :
    runZerohop rt payload encoding = .ok (.ofView (some v)) := by
  cases encoding with
  | json =>
      rcases zerohopJson_cases rt payload with hok | ⟨hnone, -⟩
      · rw [runZerohop, hok, h]
      · cases hnone.symm.trans h
  | e =>
      rcases viewPacket_cases h with ⟨-, protos, -, -, hprotos, -⟩ | ⟨hjson, -⟩
      · rw [runZerohop, zerohopProtobuf_eq hprotos, h]
      · cases hjson

/-- What the zero-hop functions return is what the view says. -/
theorem runZerohop_eq_of_ok {encoding : Encoding} {r : ZerohopResult}
    (h : runZerohop rt payload encoding = .ok r) :
    r = .ofView (viewPacket rt encoding payload) := by
  cases encoding with
  | json =>
      rcases zerohopJson_cases rt payload with hok | ⟨-, -, e, -, -, herror⟩
      · exact (Except.ok.inj (hok.symm.trans h)).symm
      · cases herror.symm.trans h
  | e =>
      cases hprotos : rt.protos with
      | some protos =>
          exact (Except.ok.inj ((zerohopProtobuf_eq hprotos payload).symm.trans h)).symm
      | none =>
          simp only [runZerohop, zerohopProtobuf, Runtime.loadProtos, hprotos] at h
          cases h

/-- The metadata read for a packet that is not rewritten is that of its view. -/
theorem peekMeta_of_viewPacket {encoding : Encoding} {v : PacketView}
    (h : viewPacket rt encoding payload = some v) :
    peekMeta rt encoding payload = v.packetMeta := by
  rcases viewPacket_cases h with ⟨rfl, protos, m, pkt, hprotos, hm, hpkt, rfl⟩ |
    ⟨rfl, data, hdata, -, rfl⟩
  · simp [peekMeta, Runtime.loadProtos, hprotos, hm, hpkt, viewProto, bind, Except.bind]
  · simp [peekMeta, hdata, viewJson]

end Views

/-! ## Records -/

theorem isOk_map {ε α β : Type} (f : α → β) (x : Except ε α) :
    (x.map f).isOk = x.isOk := by
  cases x <;> rfl

/-- A record is logged when it was formatted and the handler does not raise. -/
theorem handled_eq_ok_iff {h : LogHandler} {r : Except PyErr (MessageRecord Json)}
    {record : MessageRecord Json} :
    h.handled r = .ok record ↔ r = .ok record ∧ h.handle record = .ok () := by
  cases r with
  | error e => exact iff_of_false (fun h => by cases h) fun h => by cases h.1
  | ok record' =>
      rw [LogHandler.handled, ok_bind]
      cases hhandle : h.handle record' with
      | error e =>
          refine iff_of_false (fun h => by cases h) ?_
          rintro ⟨hrecord, hok⟩
          rw [← Except.ok.inj hrecord, hhandle] at hok
          cases hok
      | ok u =>
          constructor
          · intro hok
            obtain rfl : record' = record := Except.ok.inj hok
            exact ⟨rfl, hhandle⟩
          · rintro ⟨hrecord, -⟩
            exact hrecord

/-- What rendering a record raises comes from the values of its members. -/
theorem fault_ofExtra {fault : Json → Option PyErr} (hnull : fault .null = none)
    (outcome : Outcome) (extra : List (MessageField × Json)) :
    (MessageRecord.ofExtra outcome extra).fault fault =
      messageFields.findSome? fun key => (Assoc.get? extra key).bind fault := by
  have hvalue : ∀ key, ((MessageRecord.ofExtra outcome extra).value key).bind fault =
      (Assoc.get? extra key).bind fault := by
    intro key
    simp only [MessageRecord.ofExtra]
    cases hget : Assoc.get? extra key with
    | none => rfl
    | some v => cases v <;> simp [hnull]
  simp only [MessageRecord.fault, hvalue]

/-- A packet record has the outcome it was made for, and shows what its metadata holds. -/
theorem packetRecord_ok {outcome : Outcome} {topic channel : PyStr}
    {encoding : Encoding} {m : Meta} {hopLimit : Json} {record : MessageRecord Json}
    (h : packetRecord outcome topic channel encoding m hopLimit = .ok record) :
    record.outcome = outcome ∧ ∀ handler : LogHandler,
      record.fault handler.fault = (m.logged hopLimit).findSome? handler.fault := by
  simp only [packetRecord, bind_eq_ok_iff] at h
  obtain ⟨sender, -, destination, -, relay, -, h⟩ := h
  obtain rfl := Except.ok.inj h
  refine ⟨rfl, fun handler => ?_⟩
  have hrelay : handler.fault (relay.elim .null .str) = none := by
    cases relay <;> simp
  rw [fault_ofExtra handler.fault_null]
  simp [messageFields, List.findSome?_cons, Assoc.get?, Meta.logged, hrelay]

/-- A dropped record has its outcome, and shows the id of the packet. -/
theorem droppedRecord_ok {topic channel : PyStr} {encoding : Encoding}
    {portnum : Option PyStr} {m : Meta} {record : MessageRecord Json}
    (h : droppedRecord topic channel encoding portnum m = .ok record) :
    record.outcome = .dropped ∧ ∀ handler : LogHandler,
      record.fault handler.fault = [m.get (py "packet_id")].findSome? handler.fault := by
  simp only [droppedRecord, bind_eq_ok_iff] at h
  obtain ⟨sender, -, destination, -, h⟩ := h
  obtain rfl := Except.ok.inj h
  refine ⟨rfl, fun handler => ?_⟩
  have hportnum : handler.fault (portnum.elim .null .str) = none := by
    cases portnum <;> simp
  rw [fault_ofExtra handler.fault_null]
  simp [messageFields, List.findSome?_cons, Assoc.get?, hportnum]

/-- A record of some values is logged exactly when it was formatted and the values do not
overflow. -/
theorem handled_isOk_iff {h : LogHandler} {r : Except PyErr (MessageRecord Json)}
    {values : List Json} (hr : ∀ record, r = .ok record →
      record.outcome.level = .info ∧ record.fault h.fault = values.findSome? h.fault) :
    (h.handled r).isOk = true ↔ r.isOk = true ∧ ¬h.Overflows values := by
  cases r with
  | error e => exact iff_of_false (fun h => by cases h) fun h => by cases h.1
  | ok record =>
      obtain ⟨hlevel, hfault⟩ := hr record rfl
      rw [← LogHandler.handle_isOk_iff hlevel hfault, LogHandler.handled, ok_bind]
      cases h.handle record with
      | error e => exact iff_of_false (fun h => by cases h) fun h => by cases h.2
      | ok u => exact iff_of_true rfl ⟨rfl, rfl⟩

/-- A dropped record is formatted exactly when both node ids have a format. -/
theorem droppedRecord_isOk_iff (topic channel : PyStr) (encoding : Encoding)
    (portnum : Option PyStr) (m : Meta) :
    (droppedRecord topic channel encoding portnum m).isOk = true ↔
      NodeFormattable (m.get (py "sender")) ∧ NodeFormattable (m.get (py "destination")) := by
  rw [← fmtNode_isOk_iff, ← fmtNode_isOk_iff, droppedRecord]
  cases fmtNode (m.get (py "sender")) with
  | error e => simp [Except.isOk, Except.toBool, bind, Except.bind]
  | ok sender =>
      cases fmtNode (m.get (py "destination")) with
      | error e => simp [Except.isOk, Except.toBool, bind, Except.bind]
      | ok destination => simp [Except.isOk, Except.toBool, bind, Except.bind, pure,
          Except.pure]

/-- A packet record is formatted exactly when its metadata renders. -/
theorem packetRecord_isOk_iff (outcome : Outcome) (topic channel : PyStr)
    (encoding : Encoding) (m : Meta) (hopLimit : Json) :
    (packetRecord outcome topic channel encoding m hopLimit).isOk = true ↔ m.Renders := by
  have hiff : m.Renders ↔ (fmtNode (m.get (py "sender"))).isOk = true ∧
      (fmtNode (m.get (py "destination"))).isOk = true ∧
      (fmtRelay (m.get (py "relay_node"))).isOk = true := by
    rw [fmtNode_isOk_iff, fmtNode_isOk_iff]
    exact ⟨fun h => ⟨h.sender, h.destination, h.relay⟩, fun h => ⟨h.1, h.2.1, h.2.2⟩⟩
  rw [hiff, packetRecord]
  cases fmtNode (m.get (py "sender")) with
  | error e => simp [Except.isOk, Except.toBool, bind, Except.bind]
  | ok sender =>
      cases fmtNode (m.get (py "destination")) with
      | error e => simp [Except.isOk, Except.toBool, bind, Except.bind]
      | ok destination =>
          cases fmtRelay (m.get (py "relay_node")) with
          | error e => simp [Except.isOk, Except.toBool, bind, Except.bind]
          | ok relay => simp [Except.isOk, Except.toBool, bind, Except.bind, pure,
              Except.pure]

/-- A dropped record is logged exactly when its node ids have a format and its id does not
overflow. -/
theorem handled_droppedRecord_isOk_iff (h : LogHandler) (topic channel : PyStr)
    (encoding : Encoding) (portnum : Option PyStr) (m : Meta) :
    (h.handled (droppedRecord topic channel encoding portnum m)).isOk = true ↔
      (NodeFormattable (m.get (py "sender")) ∧ NodeFormattable (m.get (py "destination"))) ∧
        ¬h.Overflows [m.get (py "packet_id")] := by
  rw [← droppedRecord_isOk_iff topic channel encoding portnum, handled_isOk_iff]
  intro record hrecord
  obtain ⟨houtcome, hfault⟩ := droppedRecord_ok hrecord
  exact ⟨by rw [houtcome]; rfl, hfault h⟩

/-- A packet record is logged exactly when its metadata renders and what it shows does not
overflow. -/
theorem handled_packetRecord_isOk_iff (h : LogHandler) (outcome : Outcome)
    (hlevel : outcome.level = .info) (topic channel : PyStr) (encoding : Encoding) (m : Meta)
    (hopLimit : Json) :
    (h.handled (packetRecord outcome topic channel encoding m hopLimit)).isOk = true ↔
      m.Renders ∧ ¬h.Overflows (m.logged hopLimit) := by
  rw [← packetRecord_isOk_iff outcome topic channel encoding m hopLimit, handled_isOk_iff]
  intro record hrecord
  obtain ⟨houtcome, hfault⟩ := packetRecord_ok hrecord
  exact ⟨by rw [houtcome]; exact hlevel, hfault h⟩

/-! ## Calls without faults -/

section Calls

variable {rt : Runtime} {topic : PyStr} {payload : Bytes} {config : Config}
  {channel : PyStr} {encoding : Encoding}

/-- The drop filter matched: the packet is to be denied. -/
theorem judge_of_dropMatches (htopic : parseMeshtasticTopic topic = some (channel, encoding))
    (h : dropMatches rt payload config channel encoding = .ok true) :
    judge rt topic payload config =
      .ok (droppedVerdict rt topic payload channel encoding) := by
  simp [judge, htopic, judgePacket, h, bind, Except.bind, pure, Except.pure]

/-- The channel is not zero-hopped: the packet passes through. -/
theorem judge_of_not_zerohop
    (htopic : parseMeshtasticTopic topic = some (channel, encoding))
    (hdrop : dropMatches rt payload config channel encoding = .ok false)
    (hzerohop : shouldZerohop config channel = .ok false) :
    judge rt topic payload config =
      .ok (passthruVerdict rt topic payload channel encoding) := by
  simp [judge, htopic, judgePacket, hdrop, hzerohop, bind, Except.bind, pure, Except.pure]

/-- The channel is zero-hopped: the packet is judged by its view. -/
theorem judge_of_zerohop
    (htopic : parseMeshtasticTopic topic = some (channel, encoding))
    (hdrop : dropMatches rt payload config channel encoding = .ok false)
    (hzerohop : shouldZerohop config channel = .ok true)
    {v : PacketView} (hview : viewPacket rt encoding payload = some v) :
    judge rt topic payload config =
      .ok (if v.hop = 0 then noopVerdict rt topic channel encoding v.packetMeta
        else zerohopVerdict rt topic channel encoding v.packetMeta (some v.hop)
          (some v.zeroHopped)) := by
  have hverdict : zerohopResultVerdict rt topic payload channel encoding (.ofView (some v)) =
      if v.hop = 0 then noopVerdict rt topic channel encoding v.packetMeta
      else zerohopVerdict rt topic channel encoding v.packetMeta (some v.hop)
        (some v.zeroHopped) := by
    by_cases h : v.hop = 0
    · simp [ZerohopResult.ofView, zerohopResultVerdict, h]
    · simp [ZerohopResult.ofView, zerohopResultVerdict, h]
  rw [← hverdict]
  simp [judge, htopic, judgePacket, hdrop, hzerohop, runZerohop_of_view hview, bind,
    Except.bind, pure, Except.pure]

/-- The verdicts, each with what the message, the configuration and the payload
were judged to be. -/
inductive Judged (rt : Runtime) (topic : PyStr) (payload : Bytes) (config : Config) :
    Verdict → Prop
  | skipped (htopic : parseMeshtasticTopic topic = none) :
      Judged rt topic payload config skippedVerdict
  | dropped {channel : PyStr} {encoding : Encoding}
      (htopic : parseMeshtasticTopic topic = some (channel, encoding))
      (hdrop : dropMatches rt payload config channel encoding = .ok true) :
      Judged rt topic payload config (droppedVerdict rt topic payload channel encoding)
  | passthru {channel : PyStr} {encoding : Encoding}
      (htopic : parseMeshtasticTopic topic = some (channel, encoding))
      (hdrop : dropMatches rt payload config channel encoding = .ok false)
      (hzerohop : shouldZerohop config channel = .ok false) :
      Judged rt topic payload config (passthruVerdict rt topic payload channel encoding)
  | warn {channel : PyStr} {encoding : Encoding}
      (htopic : parseMeshtasticTopic topic = some (channel, encoding))
      (hdrop : dropMatches rt payload config channel encoding = .ok false)
      (hzerohop : shouldZerohop config channel = .ok true)
      (hview : viewPacket rt encoding payload = none) :
      Judged rt topic payload config (warnVerdict topic payload channel encoding)
  | noop {channel : PyStr} {encoding : Encoding} {v : PacketView}
      (htopic : parseMeshtasticTopic topic = some (channel, encoding))
      (hdrop : dropMatches rt payload config channel encoding = .ok false)
      (hzerohop : shouldZerohop config channel = .ok true)
      (hview : viewPacket rt encoding payload = some v) (hhop : v.hop = 0) :
      Judged rt topic payload config (noopVerdict rt topic channel encoding v.packetMeta)
  | zerohop {channel : PyStr} {encoding : Encoding} {v : PacketView}
      (htopic : parseMeshtasticTopic topic = some (channel, encoding))
      (hdrop : dropMatches rt payload config channel encoding = .ok false)
      (hzerohop : shouldZerohop config channel = .ok true)
      (hview : viewPacket rt encoding payload = some v) (hhop : v.hop ≠ 0) :
      Judged rt topic payload config
        (zerohopVerdict rt topic channel encoding v.packetMeta (some v.hop)
          (some v.zeroHopped))

/-- A payload that decodes to no packet is warned about, or the modules do not load. -/
theorem eq_warnVerdict_of_judge
    (htopic : parseMeshtasticTopic topic = some (channel, encoding))
    (hdrop : dropMatches rt payload config channel encoding = .ok false)
    (hzerohop : shouldZerohop config channel = .ok true)
    (hview : viewPacket rt encoding payload = none) {v : Verdict}
    (h : judge rt topic payload config = .ok v) :
    v = warnVerdict topic payload channel encoding := by
  cases hrun : runZerohop rt payload encoding with
  | error e =>
      simp [judge, htopic, judgePacket, hdrop, hzerohop, hrun, bind, Except.bind] at h
  | ok r =>
      have hr := runZerohop_eq_of_ok hrun
      rw [hview] at hr
      subst hr
      have hverdict : zerohopResultVerdict rt topic payload channel encoding (.ofView none) =
          warnVerdict topic payload channel encoding := rfl
      simpa [judge, htopic, judgePacket, hdrop, hzerohop, hrun, bind, Except.bind, pure,
        Except.pure, hverdict] using h.symm

/-- On a zero-hopped channel the verdict is that of the view, or a warning. -/
theorem judged_of_zerohop
    (htopic : parseMeshtasticTopic topic = some (channel, encoding))
    (hdrop : dropMatches rt payload config channel encoding = .ok false)
    (hzerohop : shouldZerohop config channel = .ok true) {v : Verdict}
    (h : judge rt topic payload config = .ok v) : Judged rt topic payload config v := by
  cases hview : viewPacket rt encoding payload with
  | none =>
      have hv := eq_warnVerdict_of_judge htopic hdrop hzerohop hview h
      exact hv ▸ .warn htopic hdrop hzerohop hview
  | some view =>
      rw [judge_of_zerohop htopic hdrop hzerohop hview, Except.ok.injEq] at h
      by_cases hhop : view.hop = 0
      · rw [if_pos hhop] at h
        exact h ▸ .noop htopic hdrop hzerohop hview hhop
      · rw [if_neg hhop] at h
        exact h ▸ .zerohop htopic hdrop hzerohop hview hhop

/-- Every verdict is one of these. -/
theorem judged_of_judge {v : Verdict} (h : judge rt topic payload config = .ok v) :
    Judged rt topic payload config v := by
  cases htopic : parseMeshtasticTopic topic with
  | none =>
      simp only [judge, htopic, Except.ok.injEq] at h
      exact h ▸ .skipped htopic
  | some p =>
      obtain ⟨channel, encoding⟩ := p
      cases hdrop : dropMatches rt payload config channel encoding with
      | error e => simp [judge, htopic, judgePacket, hdrop, bind, Except.bind] at h
      | ok matched =>
          cases matched with
          | true =>
              rw [judge_of_dropMatches htopic hdrop, Except.ok.injEq] at h
              exact h ▸ .dropped htopic hdrop
          | false =>
              cases hzerohop : shouldZerohop config channel with
              | error e =>
                  simp [judge, htopic, judgePacket, hdrop, hzerohop, bind, Except.bind] at h
              | ok applies =>
                  cases applies with
                  | false =>
                      rw [judge_of_not_zerohop htopic hdrop hzerohop, Except.ok.injEq] at h
                      exact h ▸ .passthru htopic hdrop hzerohop
                  | true => exact judged_of_zerohop htopic hdrop hzerohop h

/-- What a call answers, whatever is raised inside: a denial only of a packet
that the drop filter matched, a rewrite only of one that it did not match, with
hops left on a zero-hopped channel, and else the pass-through. -/
theorem processMessage_answer (rt : Runtime) (plan : FaultPlan) (topic : PyStr)
    (payload : Bytes) (config : Config) (w : World) :
    (processMessage rt plan topic payload config w).1 = .passthru ∨
    (∃ channel encoding, parseMeshtasticTopic topic = some (channel, encoding) ∧
      dropMatches rt payload config channel encoding = .ok true ∧
      (processMessage rt plan topic payload config w).1 = .drop) ∨
    (∃ channel encoding v, parseMeshtasticTopic topic = some (channel, encoding) ∧
      dropMatches rt payload config channel encoding = .ok false ∧
      shouldZerohop config channel = .ok true ∧
      viewPacket rt encoding payload = some v ∧ v.hop ≠ 0 ∧ v.packetMeta.Renders ∧
      (processMessage rt plan topic payload config w).1 = .modify (some v.zeroHopped)) := by
  rcases processMessage_cases rt plan topic payload config w with
    ⟨v, record, hj, hrecord, hanswer⟩ | hpass
  · rw [hanswer]
    cases judged_of_judge hj with
    | dropped htopic hdrop => exact Or.inr (Or.inl ⟨_, _, htopic, hdrop, rfl⟩)
    | @zerohop channel encoding v htopic hdrop hzerohop hview hhop =>
        have hrenders := handled_packetRecord_isOk_iff rt.log .zerohop rfl topic channel
          encoding v.packetMeta (.int v.hop)
        have hok : (zerohopVerdict rt topic channel encoding v.packetMeta (some v.hop)
            (some v.zeroHopped)).record.isOk = true := by
          rw [hrecord]
          rfl
        rw [zerohopVerdict, isOk_map] at hok
        exact Or.inr (Or.inr ⟨_, _, _, htopic, hdrop, hzerohop, hview, hhop,
          (hrenders.mp hok).1, rfl⟩)
    | skipped | passthru | warn | noop => exact Or.inl rfl
  · exact Or.inl hpass

/-- A call without faults carries out its verdict, or passes through. -/
theorem processMessage_eq (w : World) :
    processMessage rt noFault topic payload config w =
      match runJudged (judge rt topic payload config) w with
      | (.ok r, w') => (r, w')
      | (.error _, w') => (.passthru, w'.count .errors) := by
  rw [processMessage, failOpen, exec_processMessageInner]
  rcases runJudged (judge rt topic payload config) w with ⟨r, w'⟩
  cases r <;> rfl

/-- The record of the verdict was logged: the answer is the verdict's. -/
theorem processMessage_of_rendered {v : Verdict}
    {r : Option (MessageRecord Json)} (hj : judge rt topic payload config = .ok v)
    (hrecord : v.record = .ok r) (w : World) :
    processMessage rt noFault topic payload config w =
      (v.result, r.elim (w.count v.site.counter) (w.count v.site.counter).emit) := by
  rw [processMessage_eq, hj]
  cases r <;> simp [runJudged, Verdict.run, hrecord]

/-- The record of the verdict was not logged: the message passes through, and
an error is counted beside the verdict's counter. -/
theorem processMessage_of_unrendered {v : Verdict} {e : PyErr}
    (hj : judge rt topic payload config = .ok v) (hrecord : v.record = .error e)
    (w : World) :
    processMessage rt noFault topic payload config w =
      (.passthru, (w.count v.site.counter).count .errors) := by
  rw [processMessage_eq, hj]
  simp [runJudged, Verdict.run, hrecord]

/-- The answer does not depend on the counters or on the log. -/
theorem processMessage_congr_state (rt : Runtime) (topic : PyStr) (payload : Bytes)
    (config : Config) (w w' : World) :
    (processMessage rt noFault topic payload config w).1 =
      (processMessage rt noFault topic payload config w').1 := by
  rw [processMessage_eq, processMessage_eq]
  cases judge rt topic payload config with
  | error e => rfl
  | ok v =>
      cases hrecord : v.record with
      | error e => simp [runJudged, Verdict.run, hrecord]
      | ok record => cases record <;> simp [runJudged, Verdict.run, hrecord]

/-- There was no verdict: the message passes through and an error is counted. -/
theorem processMessage_of_raised {e : PyErr}
    (hj : judge rt topic payload config = .error e) (w : World) :
    processMessage rt noFault topic payload config w = (.passthru, w.count .errors) := by
  rw [processMessage_eq, hj]
  rfl

end Calls

/-! ## Runtimes that know one packet -/

/-- The bytes of an ASCII text. -/
def ascii (s : String) : Bytes := s.toList.map fun c => UInt8.ofNat c.toNat

/-- A runtime whose `json` module knows one object, by its text, and the text of
its zero-hopped form. -/
def Runtime.ofJson (text zeroHopped : Bytes) (data : JsonObject) : Runtime where
  protos := none
  json :=
    { loads := fun payload =>
        if payload = text then .ok data.toDoc
        else if payload = zeroHopped then .ok data.zeroHop.toDoc
        else .error ⟨.jsonDecodeError, py "Expecting value: line 1 column 1 (char 0)"⟩
      dumps := fun _ => zeroHopped
      reprDepth := 995 }
  unicode := .ascii
  aesCtr _ _ input := input
  log := .text .info 986

theorem Runtime.loads_ofJson (text zeroHopped : Bytes) (data : JsonObject) :
    (Runtime.ofJson text zeroHopped data).json.loads text = .ok data.toDoc :=
  if_pos rfl

/-- Protobuf modules that know one envelope, by its serialisation, and the
serialisation of its zero-hopped form. -/
def Protos.ofEnvelope (bytes zeroHopped : Bytes) (m : ServiceEnvelope) : Protos where
  parseEnvelope payload :=
    if payload = bytes then .ok m
    else if payload = zeroHopped then .ok m.zeroHop
    else .error ⟨.protoDecodeError, py "Error parsing message"⟩
  serializeEnvelope _ := zeroHopped
  parseData _ := .error ⟨.protoDecodeError, py "Error parsing message"⟩
  portnumName _ := .error ⟨.valueError, py "Enum PortNum has no name defined for value"⟩

/-- A runtime with the given protobuf modules. -/
def Runtime.ofProtos (protos : Protos) : Runtime where
  protos := some protos
  json :=
    { loads := fun _ =>
        .error ⟨.jsonDecodeError, py "Expecting value: line 1 column 1 (char 0)"⟩
      dumps := fun _ => []
      reprDepth := 995 }
  unicode := .ascii
  aesCtr _ _ input := input
  log := .text .info 986

/-- The state a process starts in. -/
def World.initial : World := ⟨.initial, []⟩

end Floodgate.Ports
