import Floodgate.Verified.Passes
import Floodgate.Ports.DropFilter
import Floodgate.Ports.JsonRoundTrip

/-!
# Processing is idempotent

The payload that a call delivers in place of the original decodes to the same
packet with hop limit zero.  What a further call reads of it, but for the hop
limit, is what the first one read: the portnum, so that the drop filter decides
as before, and the metadata of the record, so that the node ids have a format again.

What the two records show differs in the hop limit.  That of the first can be too long an
integer to print, and then the handler gives the record up before it comes to a member
that is nested too deep; that of the second is zero, and the handler comes to the member.

## Main results

* `viewPacket_zeroHopped`: the view of a zero-hopped payload.
* `roundTrips_withJson`: what is assumed of a `json` module holds of the codec.
* `processMessage_idempotent_iff`: further calls after a rewrite, and any number of
  passes.
-/

namespace Floodgate.Ports

open Floodgate.Verified
open Floodgate.Verified.FailOpen
open Floodgate.Verified.Passes

/-! ## What does not depend on the hop limit -/

theorem collectMeta_congr {look look' : PyStr → Option Json}
    {pairs : List (PyStr × PyStr)} (h : ∀ pair ∈ pairs, look pair.1 = look' pair.1) :
    collectMeta look pairs = collectMeta look' pairs := by
  unfold collectMeta
  generalize ([] : Meta) = m
  induction pairs generalizing m with
  | nil => rfl
  | cons pair pairs ih =>
      have hpair : storeMeta look m pair = storeMeta look' m pair := by
        rw [storeMeta, storeMeta, h pair List.mem_cons_self]
      rw [List.foldl_cons, List.foldl_cons, hpair]
      exact ih (fun p hp => h p (List.mem_cons_of_mem pair hp)) _

theorem MeshPacket.getattr_zeroHop (pkt : MeshPacket) {name : PyStr}
    (h : name ≠ py "hop_limit") : pkt.zeroHop.getattr name = pkt.getattr name := by
  simp only [MeshPacket.getattr, MeshPacket.attrs, MeshPacket.zeroHop, Assoc.get?,
    if_neg h.symm]

/-- The metadata of a protobuf packet does not hold the hop limit. -/
theorem extractProtoMeta_zeroHop (pkt : MeshPacket) :
    extractProtoMeta pkt.zeroHop = extractProtoMeta pkt := by
  have hne : ∀ pair ∈ protoMetaFields, pair.1 ≠ py "hop_limit" := by decide
  have hattrs : collectMeta pkt.zeroHop.getattr protoMetaFields =
      collectMeta pkt.getattr protoMetaFields :=
    collectMeta_congr fun pair hpair => pkt.getattr_zeroHop (hne pair hpair)
  rw [extractProtoMeta_eq, extractProtoMeta_eq, hattrs]
  rfl

/-- The metadata of a JSON packet does not hold the hop limit. -/
theorem jsonMeta_zeroHop (data : JsonObject) : jsonMeta data.zeroHop = jsonMeta data := by
  have hne : ∀ pair ∈ jsonMetaFields, py "hop_limit" ≠ pair.1 := by decide
  have hmembers : ∀ pair ∈ jsonMetaFields, data.zeroHop.get? pair.1 = data.get? pair.1 := by
    intro pair hpair
    rw [JsonObject.zeroHop, JsonObject.get?_setInt, if_neg (hne pair hpair)]
  exact collectMeta_congr hmembers

/-- The portnum of a JSON packet is not read from the hop limit. -/
theorem probePortnum_zeroHop (rt : Runtime) (data : JsonObject) :
    probePortnum rt data.zeroHop = probePortnum rt data :=
  probePortnum_congr rt (data.get_setInt_ne 0 (by decide)) (data.get_setInt_ne 0 (by decide))
    (data.get_setInt_ne 0 (by decide))

theorem clean_zeroHop {data : JsonObject} (h : data.toDoc.val.clean = true) :
    data.zeroHop.toDoc.val.clean = true := Json.clean_setInt 0 (by decide) h

/-- The portnum of a protobuf packet is not read from the hop limit. -/
theorem extractPortnumProtobuf_zeroHop {rt : Runtime} {payload q : Bytes}
    {protos : Protos} {m : ServiceEnvelope} (hprotos : rt.protos = some protos)
    (hparse : protos.parseEnvelope payload = .ok m)
    (hparse' : protos.parseEnvelope q = .ok m.zeroHop) :
    extractPortnumProtobuf rt q = extractPortnumProtobuf rt payload := by
  have hread : readPortnumProtobuf rt q = readPortnumProtobuf rt payload := by
    simp only [readPortnumProtobuf, Runtime.loadProtos, hprotos, hparse, hparse', bind,
      Except.bind]
    cases hpkt : m.packet with
    | none => simp [ServiceEnvelope.zeroHop, hpkt]
    | some pkt => simp [ServiceEnvelope.zeroHop, hpkt, MeshPacket.zeroHop]
  rw [extractPortnumProtobuf, hread, extractPortnumProtobuf]

/-! ## The view of a zero-hopped payload -/

/-- What is assumed of the runtime about one payload: the protobuf runtime parses
what it serialised, and `json.loads` inverts `json.dumps` on values free of
surrogates and NaNs. -/
structure Runtime.RoundTrips (rt : Runtime) (payload : Bytes) : Prop where
  protobuf : ∀ protos m, rt.protos = some protos →
    protos.parseEnvelope payload = .ok m →
    protos.parseEnvelope (protos.serializeEnvelope m.zeroHop) = .ok m.zeroHop
  json : ∀ data : JsonObject, rt.json.loads payload = .ok data.toDoc →
    data.zeroHop.toDoc.val.clean = true → rt.json.RoundTrips data.zeroHop.toDoc

/-- A runtime with the `json` module of a codec. -/
def Runtime.withJson (rt : Runtime) (C : JsonCodec) : Runtime := { rt with json := C.runtime }

theorem fits_setInt {ms : List (PyStr × Json)} {depth : Nat} (k : PyStr) {n : Int}
    (hn : PyVal.hugeInt n = false) (h : (Json.dict ms).Fits depth) :
    (Json.dict (Assoc.set ms k (.int n))).Fits depth := by
  cases depth with
  | zero => exact h
  | succ depth =>
      intro kv hkv
      rcases Assoc.mem_set hkv with rfl | hmem
      · simpa [Json.Fits] using hn
      · exact h kv hmem

namespace JsonCodec

variable {C : JsonCodec}

theorem fits_zeroHop {payload : Bytes} {data : JsonObject}
    (h : C.loads payload = .ok data.toDoc) : data.zeroHop.toDoc.val.Fits C.maxDepth := by
  have hzero : PyVal.hugeInt 0 = false := hugeInt_eq_false (Nat.zero_le _) (by decide)
  exact fits_setInt _ hzero (C.fits_of_loads h)

/-- A zero-hopped packet is read back, if it has no surrogate and no NaN. -/
theorem loads_dumps_zeroHop {payload : Bytes} {data : JsonObject}
    (h : C.loads payload = .ok data.toDoc) (hclean : data.zeroHop.toDoc.val.clean = true) :
    C.loads (C.dumps data.zeroHop.toDoc) = .ok data.zeroHop.toDoc :=
  C.loads_dumps hclean (fits_zeroHop h)

end JsonCodec

/-- The codec gives back what is asked of a `json` module. -/
theorem roundTrips_withJson {rt : Runtime} (C : JsonCodec) {payload : Bytes}
    (hproto : ∀ protos m, rt.protos = some protos → protos.parseEnvelope payload = .ok m →
      protos.parseEnvelope (protos.serializeEnvelope m.zeroHop) = .ok m.zeroHop) :
    (rt.withJson C).RoundTrips payload where
  protobuf := hproto
  json _ hloads hclean := JsonCodec.loads_dumps_zeroHop hloads hclean

/-- The decoded value has no surrogate in a string and no NaN. -/
def DecodesClean (rt : Runtime) (payload : Bytes) : Prop :=
  ∀ doc, rt.json.loads payload = .ok doc → doc.val.clean = true

section Idempotence

variable {rt : Runtime} {topic channel : PyStr} {payload : Bytes} {config : Config}
  {encoding : Encoding}

/-- A zero-hopped payload decodes to a packet without hops left, with the metadata
and the portnum of the original. -/
theorem viewPacket_zeroHopped (hround : rt.RoundTrips payload)
    (hclean : encoding = .json → DecodesClean rt payload) {v : PacketView}
    (hview : viewPacket rt encoding payload = some v) :
    ∃ v', viewPacket rt encoding v.zeroHopped = some v' ∧ v'.hop = 0 ∧
      v'.packetMeta = v.packetMeta ∧
      extractPortnum rt encoding v.zeroHopped = extractPortnum rt encoding payload := by
  rcases viewPacket_cases hview with ⟨rfl, protos, m, pkt, hprotos, hparse, hpkt, rfl⟩ |
    ⟨rfl, data, hloads, hints, rfl⟩
  · have hparse' := hround.protobuf protos m hprotos hparse
    have hpkt' : m.zeroHop.packet = some pkt.zeroHop := by
      rw [ServiceEnvelope.zeroHop_of_packet hpkt]
    exact ⟨_, viewPacket_proto hprotos hparse' hpkt', rfl, extractProtoMeta_zeroHop pkt,
      extractPortnumProtobuf_zeroHop hprotos hparse hparse'⟩
  · have hdata : data.zeroHop.toDoc.val.clean = true :=
      clean_zeroHop (hclean rfl _ hloads)
    have hloads' : rt.json.loads (rt.json.dumps data.zeroHop.toDoc) =
        .ok data.zeroHop.toDoc := hround.json data hloads hdata
    refine ⟨_, viewPacket_json hloads' hints.zeroHop, effectiveHop_zeroHop data,
      jsonMeta_zeroHop data, ?_⟩
    rw [extractPortnum, extractPortnum, viewJson, extractPortnumJson_toDoc hloads',
      extractPortnumJson_toDoc hloads, probePortnum_zeroHop]

/-- The drop filter reads a payload through its portnum. -/
theorem dropMatches_congr {q : Bytes}
    (h : extractPortnum rt encoding q = extractPortnum rt encoding payload) :
    dropMatches rt q config channel encoding =
      dropMatches rt payload config channel encoding := by
  rw [dropMatches, dropMatches, h]

end Idempotence

/-! ## Further calls -/

/-- The bytes that an answer to a payload delivers. -/
def ProcessResult.delivered (result : ProcessResult) (payload : Bytes) : Option Bytes :=
  match result.action with
  | .passthru => some payload
  | .modify => result.payload
  | .drop => none

/-- One pass of a packet on a topic through a floodgate. -/
def floodgate (rt : Runtime) (plan : FaultPlan) (topic : PyStr) (config : Config) :
    Filter Bytes World := fun payload w =>
  let (result, w) := processMessage rt plan topic payload config w
  (result.delivered payload, w)

/-- Two topics that parse, or not, to the same encoding. -/
def SameEncoding (topic topic' : PyStr) : Prop :=
  (parseMeshtasticTopic topic').map Prod.snd = (parseMeshtasticTopic topic).map Prod.snd

/-- What further calls deliver of a payload `q` that was delivered in place of `payload`. -/
structure Stays (rt : Runtime) (topic : PyStr) (config : Config) (payload q : Bytes) :
    Prop where
  /-- The same call again passes the payload through. -/
  passes_through : ∀ w, (processMessage rt noFault topic q config w).1 = .passthru
  portnum : ∀ channel encoding, parseMeshtasticTopic topic = some (channel, encoding) →
    extractPortnum rt encoding q = extractPortnum rt encoding payload
  /-- No other call on a topic of the same encoding modifies it again. -/
  unmodified : ∀ plan topic' config' w, SameEncoding topic topic' →
    (processMessage rt plan topic' q config' w).1.action ≠ .modify
  passes : ∀ n w,
    (chain (List.replicate (n + 1) (floodgate rt noFault topic config)) payload w).1 =
      some q

/-- Further calls on a payload `q` that was delivered in place of `payload`. -/
structure Settled (rt : Runtime) (topic : PyStr) (config : Config) (payload q : Bytes) : Prop
    extends Stays rt topic config payload q where
  /-- The same call again counts and logs a noop, and nothing else. -/
  noop : ∀ w, ∃ record, record.outcome = Outcome.noop ∧
    processMessage rt noFault topic q config w =
      (.passthru, (w.count .noop).emit record)

section Idempotence

variable {rt : Runtime} {topic channel : PyStr} {payload : Bytes} {config : Config}
  {encoding : Encoding}

theorem fixes_of_passthru {q : Bytes}
    (h : ∀ w, (processMessage rt noFault topic q config w).1 = .passthru) :
    Fixes (floodgate rt noFault topic config) q := by
  intro w
  simp only [floodgate, h w]
  rfl

/-- A payload without hops left is a noop for a floodgate that would zero-hop it, and
passes through; the record of the noop is logged exactly when it does not overflow the log
handler, and else an error is counted on top. -/
theorem processMessage_noop_iff {q : Bytes} {v : PacketView}
    (htopic : parseMeshtasticTopic topic = some (channel, encoding))
    (hdrop : dropMatches rt q config channel encoding = .ok false)
    (hzerohop : shouldZerohop config channel = .ok true)
    (hview : viewPacket rt encoding q = some v) (hhop : v.hop = 0)
    (hrenders : v.packetMeta.Renders) (w : World) :
    (¬rt.log.Overflows (v.packetMeta.logged (.int 0)) ∧ ∃ record, record.outcome = .noop ∧
        processMessage rt noFault topic q config w =
          (.passthru, (w.count .noop).emit record)) ∨
      (rt.log.Overflows (v.packetMeta.logged (.int 0)) ∧
        processMessage rt noFault topic q config w =
          (.passthru, (w.count .noop).count .errors)) := by
  have hj := judge_of_zerohop htopic hdrop hzerohop hview
  rw [if_pos hhop] at hj
  have hiff := handled_packetRecord_isOk_iff rt.log .noop rfl topic channel encoding
    v.packetMeta (.int 0)
  cases hrecord : rt.log.handled
      (packetRecord .noop topic channel encoding v.packetMeta (.int 0)) with
  | ok record =>
      rw [hrecord] at hiff
      refine Or.inl ⟨(hiff.mp rfl).2, record,
        (packetRecord_ok (handled_eq_ok_iff.mp hrecord).1).1, ?_⟩
      rw [processMessage_of_rendered (r := some record) hj
        (by simp [noopVerdict, hrecord, Except.map])]
      rfl
  | error e =>
      rw [hrecord] at hiff
      refine Or.inr ⟨?_, ?_⟩
      · by_contra hover
        cases hiff.mpr ⟨hrenders, hover⟩
      · rw [processMessage_of_unrendered (e := e) hj
          (by simp [noopVerdict, hrecord, Except.map])]
        rfl

/-- A payload without hops left is modified by no call on a topic of its encoding,
whatever the configuration and the faults. -/
theorem action_ne_modify {q : Bytes} {v : PacketView}
    (hview : viewPacket rt encoding q = some v) (hhop : v.hop = 0)
    (hencoding : (parseMeshtasticTopic topic).map Prod.snd = some encoding)
    (plan : FaultPlan) (config : Config) (w : World) :
    (processMessage rt plan topic q config w).1.action ≠ .modify := by
  rcases processMessage_answer rt plan topic q config w with h | ⟨_, _, -, -, h⟩ |
    ⟨channel', encoding', v', htopic', -, -, hview', hhop', -, -⟩
  · rw [h]
    decide
  · rw [h]
    decide
  · rw [htopic', Option.map_some, Option.some.injEq] at hencoding
    obtain rfl : encoding' = encoding := hencoding
    rw [hview, Option.some.injEq] at hview'
    exact absurd (hview' ▸ hhop) hhop'

/-- A call that modifies zero-hops a packet with hops left, past a filter that does not
match it, and its record renders. -/
theorem exists_view_of_modify {q : Bytes} {w : World}
    (hmodify : (processMessage rt noFault topic payload config w).1 = .modify (some q)) :
    ∃ channel encoding v, parseMeshtasticTopic topic = some (channel, encoding) ∧
      dropMatches rt payload config channel encoding = .ok false ∧
      shouldZerohop config channel = .ok true ∧
      viewPacket rt encoding payload = some v ∧ v.packetMeta.Renders ∧
      q = v.zeroHopped := by
  rcases processMessage_answer rt noFault topic payload config w with
    h | ⟨_, _, -, -, h⟩ |
    ⟨channel, encoding, v, htopic, hdrop, hzerohop, hview, -, hrenders, h⟩
  · rw [hmodify] at h
    cases h
  · rw [hmodify] at h
    cases h
  · rw [hmodify, ProcessResult.modify, ProcessResult.modify, ProcessResult.mk.injEq,
      Option.some.injEq] at h
    exact ⟨channel, encoding, v, htopic, hdrop, hzerohop, hview, hrenders, h.2⟩

/-- What is known of a payload `q` that was delivered in place of `payload`: the calls on
it go the way of a noop. -/
structure Rewritten (rt : Runtime) (topic : PyStr) (config : Config) (payload q : Bytes)
    (channel : PyStr) (encoding : Encoding) (v : PacketView) : Prop where
  topic : parseMeshtasticTopic topic = some (channel, encoding)
  drop : dropMatches rt q config channel encoding = .ok false
  zerohop : shouldZerohop config channel = .ok true
  view : viewPacket rt encoding q = some v
  hop : v.hop = 0
  renders : v.packetMeta.Renders
  packetMeta : peekMeta rt encoding payload = v.packetMeta
  portnum : extractPortnum rt encoding q = extractPortnum rt encoding payload

theorem exists_rewritten_of_modify (hround : rt.RoundTrips payload)
    (hclean : (parseMeshtasticTopic topic).map Prod.snd = some .json →
      DecodesClean rt payload) {q : Bytes} {w : World}
    (hmodify : (processMessage rt noFault topic payload config w).1 = .modify (some q)) :
    ∃ channel encoding v, Rewritten rt topic config payload q channel encoding v := by
  obtain ⟨channel, encoding, v, htopic, hdrop, hzerohop, hview, hrenders, rfl⟩ :=
    exists_view_of_modify hmodify
  have hjson : encoding = .json → DecodesClean rt payload := fun he =>
    hclean (by rw [htopic, he]; rfl)
  obtain ⟨v', hview', hhop', hmeta, hportnum⟩ := viewPacket_zeroHopped hround hjson hview
  exact ⟨channel, encoding, v',
    { topic := htopic
      drop := (dropMatches_congr hportnum).trans hdrop
      zerohop := hzerohop
      view := hview'
      hop := hhop'
      renders := hmeta ▸ hrenders
      packetMeta := (peekMeta_of_viewPacket hview).trans hmeta.symm
      portnum := hportnum }⟩

/-- Whatever a pass delivers, a further pass delivers unchanged. -/
theorem fixes_of_delivered (hround : rt.RoundTrips payload)
    (hclean : (parseMeshtasticTopic topic).map Prod.snd = some .json →
      DecodesClean rt payload) {q : Bytes} {w : World}
    (h : (floodgate rt noFault topic config payload w).1 = some q) :
    Fixes (floodgate rt noFault topic config) q := by
  rcases processMessage_answer rt noFault topic payload config w with
    hanswer | ⟨_, _, -, -, hanswer⟩ | ⟨_, _, v, -, -, -, -, -, -, hanswer⟩
  · simp only [floodgate, hanswer] at h
    obtain rfl : payload = q := Option.some.inj h
    exact fixes_of_passthru fun w' =>
      (processMessage_congr_state rt topic payload config w' w).trans hanswer
  · simp only [floodgate, hanswer] at h
    cases h
  · simp only [floodgate, hanswer] at h
    obtain rfl : v.zeroHopped = q := Option.some.inj h
    obtain ⟨channel, encoding, v', hv'⟩ := exists_rewritten_of_modify hround hclean hanswer
    refine fixes_of_passthru fun w' => ?_
    rcases processMessage_noop_iff hv'.topic hv'.drop hv'.zerohop hv'.view hv'.hop hv'.renders
      w' with ⟨-, record, -, hrun⟩ | ⟨-, hrun⟩
    · rw [hrun]
    · rw [hrun]

theorem chain_passes (hround : rt.RoundTrips payload)
    (hclean : (parseMeshtasticTopic topic).map Prod.snd = some .json →
      DecodesClean rt payload) (n : Nat) (w : World) :
    (chain (List.replicate (n + 1) (floodgate rt noFault topic config)) payload w).1 =
      (floodgate rt noFault topic config payload w).1 :=
  chain_replicate_of_settles (fun _ h => fixes_of_delivered hround hclean h) n

/-- The zero of a noop can be printed: its record overflows through the members. -/
theorem loggable_members_iff (rt : Runtime) (encoding : Encoding) (payload : Bytes) :
    Loggable rt encoding payload JsonObject.loggedMembers ↔
      Loggable rt encoding payload (·.logged (.int 0)) := by
  have hzero : rt.log.fault (.int 0) = none := by
    rw [rt.log.fault_of_scalar (.int 0) rfl, Json.reprFault, hugeInt_eq_false (Nat.zero_le _)
      (by decide)]
    rfl
  unfold Loggable JsonObject.logged JsonObject.loggedMembers
  simp only [LogHandler.overflows_cons_cons_iff hzero]

/-- A payload that was delivered in place of another stays as it is. -/
theorem stays_of_modify (hround : rt.RoundTrips payload)
    (hclean : (parseMeshtasticTopic topic).map Prod.snd = some .json →
      DecodesClean rt payload) {q : Bytes} {w : World}
    (hmodify : (processMessage rt noFault topic payload config w).1 = .modify (some q)) :
    Stays rt topic config payload q := by
  obtain ⟨channel, encoding, v, hv⟩ := exists_rewritten_of_modify hround hclean hmodify
  refine ⟨fun w' => ?_, fun channel' encoding' htopic' => ?_,
    fun plan topic' config' w' hsame' => ?_, fun n w' => ?_⟩
  · rcases processMessage_noop_iff hv.topic hv.drop hv.zerohop hv.view hv.hop hv.renders w' with
      ⟨-, record, -, hrun⟩ | ⟨-, hrun⟩ <;> rw [hrun]
  · obtain ⟨-, rfl⟩ := Prod.mk.inj (Option.some.inj (htopic'.symm.trans hv.topic))
    exact hv.portnum
  · exact action_ne_modify hv.view hv.hop (hsame'.trans (by rw [hv.topic]; rfl)) plan config' w'
  · have hanswer := processMessage_congr_state rt topic payload config w' w
    rw [chain_passes hround hclean]
    simp only [floodgate, hanswer, hmodify]
    rfl

/-- A payload that was delivered in place of another is settled exactly when the members
that its record shows do not overflow the log handler. -/
theorem settled_iff_of_modify (hround : rt.RoundTrips payload)
    (hclean : (parseMeshtasticTopic topic).map Prod.snd = some .json →
      DecodesClean rt payload) {q : Bytes} {w : World}
    (hmodify : (processMessage rt noFault topic payload config w).1 = .modify (some q)) :
    Settled rt topic config payload q ↔
      ∀ channel encoding, parseMeshtasticTopic topic = some (channel, encoding) →
        Loggable rt encoding payload JsonObject.loggedMembers := by
  obtain ⟨channel, encoding, v, hv⟩ := exists_rewritten_of_modify hround hclean hmodify
  have hsame : ∀ {channel' encoding'},
      parseMeshtasticTopic topic = some (channel', encoding') → encoding' = encoding :=
    fun htopic' => (Prod.mk.inj (Option.some.inj (htopic'.symm.trans hv.topic))).2
  have hloggable : Loggable rt encoding payload JsonObject.loggedMembers ↔
      ¬rt.log.Overflows (v.packetMeta.logged (.int 0)) := by
    rw [loggable_members_iff, loggable_logged_iff rt encoding payload rfl, hv.packetMeta]
  have hnoop := processMessage_noop_iff hv.topic hv.drop hv.zerohop hv.view hv.hop hv.renders
  constructor
  · rintro hsettled channel' encoding' htopic'
    obtain rfl := hsame htopic'
    rw [hloggable]
    intro hover
    obtain ⟨record, -, hrun⟩ := hsettled.noop w
    rcases hnoop w with ⟨hnot, -⟩ | ⟨-, hrun'⟩
    · exact hnot hover
    · -- one of the two runs logs a record, and the other does not
      have hlog := congrArg (fun r => r.2.log.length) (hrun.symm.trans hrun')
      simp [World.emit, World.count] at hlog
  · intro hmembers
    have hnot := hloggable.mp (hmembers channel encoding hv.topic)
    exact ⟨stays_of_modify hround hclean hmodify,
      fun w' => ((hnoop w').resolve_right fun hover => hnot hover.1).2⟩

/-- Processing is idempotent on the packets with members that do not overflow the log
handler, and on no others that are rewritten: a payload that a call delivers in place of
the original is settled.  Whatever the members are, it stays as it is, and any number of
passes delivers what one pass delivers. -/
theorem processMessage_idempotent_iff (hround : rt.RoundTrips payload)
    (hclean : (parseMeshtasticTopic topic).map Prod.snd = some .json →
      DecodesClean rt payload) :
    (∀ q w, (processMessage rt noFault topic payload config w).1 = .modify (some q) →
      Stays rt topic config payload q ∧
      (Settled rt topic config payload q ↔
        ∀ channel encoding, parseMeshtasticTopic topic = some (channel, encoding) →
          Loggable rt encoding payload JsonObject.loggedMembers)) ∧
    ∀ n w,
      (chain (List.replicate (n + 1) (floodgate rt noFault topic config)) payload w).1 =
        (floodgate rt noFault topic config payload w).1 :=
  ⟨fun _ _ hmodify => ⟨stays_of_modify hround hclean hmodify,
    settled_iff_of_modify hround hclean hmodify⟩, chain_passes hround hclean⟩

/-- The demo object decodes clean and survives an encoding. -/
theorem demoJson_roundTrips :
    (demoJson (.int 7) rfl "7").RoundTrips (demoText "3" "7") ∧
      DecodesClean (demoJson (.int 7) rfl "7") (demoText "3" "7") := by
  have hloads : (demoJson (.int 7) rfl "7").json.loads (demoText "3" "7") =
      .ok (demoObject (.int 7) rfl).toDoc := Runtime.loads_ofJson _ _ _
  refine ⟨⟨fun protos _ hprotos => (by cases hprotos), fun data hdata _ => ?_⟩, ?_⟩
  · rw [hloads, Except.ok.injEq] at hdata
    obtain rfl := JsonDoc.toDoc_injective hdata
    have hne : demoText "0" "7" ≠ demoText "3" "7" := by decide
    simp [JsonRuntime.RoundTrips, demoJson, Runtime.ofJson, hne]
  · intro doc hdoc
    rw [hloads, Except.ok.injEq] at hdoc
    subst hdoc
    decide

/-- The demo packet is rewritten, and its rewritten payload is settled. -/
theorem processMessage_idempotent_demoObject :
    ∃ config, loadConfig (ConfigHost.ofMapping []) (some (py "config.yaml")) = .ok config ∧
      let rt := demoJson (.int 7) rfl "7"
      let topic := py "msh/US/2/json/LongFast/!12345678"
      (processMessage rt noFault topic (demoText "3" "7") config .initial).1 =
        .modify (some (demoText "0" "7")) ∧
      Settled rt topic config (demoText "3" "7") (demoText "0" "7") := by
  obtain ⟨config, hload, hzerohop, hdrop, hloads, hints, hhop⟩ :=
    demoJson_setup (.int 7) rfl "7"
  refine ⟨config, hload, ?_⟩
  intro rt topic
  have htopic : parseMeshtasticTopic topic = some (py "LongFast", .json) := by decide
  have hview := viewPacket_json hloads hints
  have hmodify : (processMessage rt noFault topic (demoText "3" "7") config .initial).1 =
      .modify (some (demoText "0" "7")) := by
    rcases processMessage_modifies_iff htopic hzerohop (hdrop _) hview
      (by rw [viewJson, hhop]; decide) .initial with ⟨-, hmodify⟩ | ⟨hnot, -⟩
    · exact hmodify
    · refine absurd ⟨?_, LogHandler.not_overflows_of_scalars (by rw [viewJson, hhop]; decide)⟩
        hnot
      exact (renders_jsonMeta_iff (demoObject (.int 7) rfl)).mpr (by decide)
  refine ⟨hmodify, ((processMessage_idempotent_iff demoJson_roundTrips.1
    fun _ => demoJson_roundTrips.2).1 _ _ hmodify).2.mpr fun channel encoding h => ?_⟩
  obtain ⟨rfl, rfl⟩ := Prod.mk.inj (Option.some.inj (htopic.symm.trans h))
  exact loggable_demoMessage (.int 7) rfl "7" _ (by decide)

end Idempotence

/-! ## A record that is given up -/

/-- `[[...[]...]]`, with `depth` lists around an empty one. -/
def nestedList : Nat → Json
  | 0 => .list []
  | depth + 1 => .list [nestedList depth]

theorem nestedList_setup (depth : Nat) : (nestedList depth).wf = true ∧
    (nestedList depth).clean = true ∧ ∀ limit > depth, (nestedList depth).Fits limit := by
  induction depth with
  | zero =>
      refine ⟨rfl, rfl, fun limit hlimit => ?_⟩
      obtain ⟨limit, rfl⟩ := Nat.exists_eq_add_of_lt hlimit
      exact fun _ h => absurd h List.not_mem_nil
  | succ depth ih =>
      obtain ⟨hwf, hclean, hfits⟩ := ih
      refine ⟨by simp [nestedList, Json.wf, Json.wfList, hwf],
        by simp [nestedList, Json.clean, Json.cleanList, hclean], fun limit hlimit => ?_⟩
      obtain ⟨limit, rfl⟩ := Nat.exists_eq_add_of_lt hlimit
      exact List.forall_mem_singleton.mpr (hfits _ (by omega))

theorem reprFault_nestedList (depth : Nat) :
    (nestedList (depth + 1)).reprFault depth = some PyVal.reprRecursionError := by
  induction depth with
  | zero => rfl
  | succ depth ih =>
      rw [nestedList, Json.reprFault, Json.reprFaultItem, ih]
      rfl

/-- A JSON packet with as many hops to go as it has gone, and a nested `via_mqtt`. -/
def nestedObject (hops : Int) (depth : Nat) : JsonObject :=
  ⟨[(py "hop_start", .int hops), (py "hops_away", .int (-hops)),
    (py "via_mqtt", nestedList depth)], by
    simp [Json.wf, Json.wfMembers, Assoc.keys, (nestedList_setup depth).1]⟩

theorem nestedObject_setup {hops : Int} (depth : Nat) (hpos : 0 ≤ hops) :
    HopFieldsAreInts (nestedObject hops depth) ∧
      effectiveHop (nestedObject hops depth) = hops + hops ∧
      (jsonMeta (nestedObject hops depth)).Renders := by
  refine ⟨?_, ?_, ?_⟩
  · rw [← badHopFields_eq_nil_iff]
    simp [badHopFields, hopFields, nestedObject, JsonObject.get?, Json.asInt]
  · simp [effectiveHop, nestedObject, JsonObject.contains, JsonObject.hop, JsonObject.get?,
      Json.asInt]
    omega
  · rw [renders_jsonMeta_iff]
    simp [nestedObject, JsonObject.get, JsonObject.get?, NodeFormattable]

/-- The record of the packet is given up at the hop limit, if that cannot be printed; its
members overflow the handler at `via_mqtt`. -/
theorem overflows_nestedObject {hops : Int} {level : RecordLevel} (depth : Nat)
    (hlevel : level.number ≤ RecordLevel.info.number)
    (hprints : PyVal.hugeInt hops = false) (htwice : PyVal.hugeInt (hops + hops) = true) :
    ¬(LogHandler.text level depth).Overflows
        ((nestedObject hops (depth + 1)).logged (.int (hops + hops))) ∧
      (LogHandler.text level depth).Overflows
        (nestedObject hops (depth + 1)).loggedMembers := by
  have hid : (nestedObject hops (depth + 1)).get (py "id") = .null := by
    simp [nestedObject, JsonObject.get, JsonObject.get?]
  have hstart : (nestedObject hops (depth + 1)).get (py "hop_start") = .int hops := by
    simp [nestedObject, JsonObject.get, JsonObject.get?]
  have hvia : (nestedObject hops (depth + 1)).get (py "via_mqtt") =
      nestedList (depth + 1) := by
    simp [nestedObject, JsonObject.get, JsonObject.get?]
  have hfault : ∀ n, (LogHandler.text level depth).fault (.int n) =
      if PyVal.hugeInt n then some PyVal.digitLimitError else none := fun n => by
    rw [LogFormatter.fault_of_scalar _ (.int n) rfl, Json.reprFault]
  have hnested : (LogHandler.text level depth).fault (nestedList (depth + 1)) =
      some PyVal.reprRecursionError := reprFault_nestedList depth
  constructor
  · rw [JsonObject.logged, hid, LogHandler.overflows_cons_iff rfl,
      LogHandler.overflows_cons_iff rfl, hfault, htwice]
    exact fun h => by cases h.2.1
  · rw [JsonObject.loggedMembers, hid, hstart, hvia, LogHandler.overflows_cons_iff rfl,
      LogHandler.overflows_cons_iff rfl, hfault, hprints]
    exact ⟨LogHandler.fault_null _, rfl, hlevel, _, by rw [List.findSome?_cons, hnested], rfl⟩

/-- Runs of the packet, when its hops can be printed and twice as many cannot. -/
theorem calls_on_nestedObject {rt : Runtime} {topic channel : PyStr} {payload : Bytes}
    {config : Config} {hops : Int} {level : RecordLevel} {depth : Nat}
    (hround : rt.RoundTrips payload) (hclean : DecodesClean rt payload)
    (htopic : parseMeshtasticTopic topic = some (channel, .json))
    (hzerohop : ZerohopListed config channel) (hdrop : ∀ pn, DropPasses config channel pn)
    (hloads : rt.json.loads payload = .ok (nestedObject hops (depth + 1)).toDoc)
    (hlog : rt.log = .text level depth) (hlevel : level.number ≤ RecordLevel.info.number)
    (hpos : 0 ≤ hops) (hprints : PyVal.hugeInt hops = false)
    (htwice : PyVal.hugeInt (hops + hops) = true) (w : World) :
    ∃ q, (processMessage rt noFault topic payload config w).1 = .modify (some q) ∧
      (∀ w, processMessage rt noFault topic q config w =
        (.passthru, (w.count .noop).count .errors)) ∧
      ¬Settled rt topic config payload q := by
  obtain ⟨hints, hhop, hrenders⟩ := nestedObject_setup (depth + 1) hpos
  obtain ⟨hfirst, hmembers⟩ := overflows_nestedObject depth hlevel hprints htwice
  rw [← hlog] at hfirst hmembers
  have hview := viewPacket_json hloads hints
  have hne : (viewJson rt (nestedObject hops (depth + 1))).hop ≠ 0 := by
    rw [viewJson, hhop]
    rintro (hzero : hops + hops = 0)
    rw [hzero] at htwice
    exact absurd htwice (by decide +kernel)
  rcases processMessage_modifies_iff htopic hzerohop (hdrop _) hview hne w with
    ⟨-, hmodify⟩ | ⟨hnot, -⟩
  · have hsettled := settled_iff_of_modify hround (fun _ => hclean) hmodify
    obtain ⟨channel', encoding', v, hv⟩ :=
      exists_rewritten_of_modify hround (fun _ => hclean) hmodify
    obtain ⟨rfl, rfl⟩ := Prod.mk.inj (Option.some.inj (htopic.symm.trans hv.topic))
    have hnot : ¬Loggable rt .json payload JsonObject.loggedMembers := fun h =>
      h _ rfl hloads hmembers
    refine ⟨_, hmodify, fun w' => ?_, fun h => hnot (hsettled.mp h _ _ htopic)⟩
    rcases processMessage_noop_iff hv.topic hv.drop hv.zerohop hv.view hv.hop hv.renders w' with
      ⟨hlogged, -⟩ | ⟨-, hrun⟩
    · rw [← hv.packetMeta, ← loggable_logged_iff rt .json payload rfl,
        ← loggable_members_iff] at hlogged
      exact absurd hlogged hnot
    · exact hrun
  · refine absurd ⟨hrenders, ?_⟩ hnot
    rw [viewJson, hhop, logged_jsonMeta]
    exact hfirst

/-- The greatest integer that Python prints. -/
def nines : Int := ((10 ^ 4300 - 1 : Nat) : Int)

/-- The payload `{"hop_start": 99…9, "hops_away": -99…9, "via_mqtt": [[…]]}` is rewritten on
a zero-hopped channel, and the same call on what was delivered passes it through, counts a
noop and an error, and logs nothing. -/
theorem not_settled_nestedObject :
    ∃ config, loadConfig (ConfigHost.ofMapping []) (some (py "config.yaml")) = .ok config ∧
      let rt := (demoJson (.int 7) rfl "7").withJson (.exact 992)
      let topic := py "msh/US/2/json/LongFast/!12345678"
      let payload := (JsonCodec.exact 992).dumps (nestedObject nines 987).toDoc
      rt.RoundTrips payload ∧ DecodesClean rt payload ∧
        ∃ q, (processMessage rt noFault topic payload config .initial).1 = .modify (some q) ∧
          (∀ w, processMessage rt noFault topic q config w =
            (.passthru, (w.count .noop).count .errors)) ∧
          ¬Settled rt topic config payload q := by
  obtain ⟨config, hload, hzerohop, hdrop, -⟩ := demoJson_setup (.int 7) rfl "7"
  refine ⟨config, hload, ?_⟩
  intro rt topic payload
  have hprints : PyVal.hugeInt nines = false := by decide +kernel
  have hneg : PyVal.hugeInt (-nines) = false := by
    rw [PyVal.hugeInt, Int.natAbs_neg]
    exact hprints
  obtain ⟨-, hcleanList, hfitsList⟩ := nestedList_setup 987
  have hclean : (nestedObject nines 987).toDoc.val.clean = true := by
    have hkeys : ∀ key ∈ [py "hop_start", py "hops_away", py "via_mqtt"],
        key.any PyChar.isSurrogate = false := by decide
    simp only [List.forall_mem_cons] at hkeys
    simp [nestedObject, JsonObject.toDoc, Json.clean, Json.cleanMembers, hcleanList, hkeys]
  have hfits : (nestedObject nines 987).toDoc.val.Fits (JsonCodec.exact 992).maxDepth := by
    intro kv hkv
    simp only [nestedObject, List.mem_cons, List.not_mem_nil, or_false] at hkv
    rcases hkv with rfl | rfl | rfl
    · exact hprints
    · exact hneg
    · exact hfitsList _ (by decide)
  have hloads : rt.json.loads payload = .ok (nestedObject nines 987).toDoc :=
    JsonCodec.loads_dumps _ hclean hfits
  have hround : rt.RoundTrips payload := 
    roundTrips_withJson _ fun protos m hprotos => by cases hprotos
  have hdecodes : DecodesClean rt payload := by
    intro doc hdoc
    rw [hloads, Except.ok.injEq] at hdoc
    exact hdoc ▸ hclean
  exact ⟨hround, hdecodes, calls_on_nestedObject hround hdecodes (by decide) hzerohop hdrop
    hloads rfl (by decide) (by decide +kernel) hprints (by decide +kernel) .initial⟩

end Floodgate.Ports
