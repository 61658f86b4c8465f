import Floodgate.Ports.Idempotence
import Floodgate.Ports.JsonRoundTrip

/-!
# Zero-hopping JSON packets

The JSON path on the decoder and the encoder themselves: which payloads it
answers on, what the payload that it returns says, and whether that payload is
JSON by the standard.

A payload is strict JSON when it is a text of the standard, in UTF-8, within no
limits.

The decoder follows no value deeper than `repr` does, so that the path does not raise.

## Main results

* `members_zeroHop`: the members of a zero-hopped object.
* `JsonCodec.strictJson_dumps_iff`: when the encoder stays within the standard.
-/

namespace Floodgate.Ports

open Floodgate.Verified

/-- The payload is a JSON text of the standard, in UTF-8, with this syntax. -/
def StrictJson (payload : Bytes) (t : JsonTree) : Prop :=
  t.Strict ∧ ∃ s depth, decodeUtf8 payload = some s ∧ s.any PyChar.isSurrogate = false ∧
    SpellsText depth t s

/-! ## The members of a zero-hopped object -/

/-- The same members in the same order, but `hop_limit` is zero: in place when it
was present, and last when it was not. -/
def SameButHopLimit (data data' : JsonObject) : Prop :=
  (∃ pre v post, data.members = pre ++ (py "hop_limit", v) :: post ∧
    data'.members = pre ++ (py "hop_limit", .int 0) :: post) ∨
  (data.get? (py "hop_limit") = none ∧
    data'.members = data.members ++ [(py "hop_limit", .int 0)])

theorem members_zeroHop (data : JsonObject) : SameButHopLimit data data.zeroHop := by
  have hzero : data.zeroHop.members = Assoc.set data.members (py "hop_limit") (.int 0) := rfl
  unfold SameButHopLimit
  rw [hzero]
  by_cases hmem : py "hop_limit" ∈ Assoc.keys data.members
  · obtain ⟨pre, v, post, hsplit, hpre⟩ := Assoc.exists_split_of_mem_keys hmem
    refine Or.inl ⟨pre, v, post, hsplit, ?_⟩
    rw [hsplit, Assoc.set_append_cons hpre]
  · exact Or.inr ⟨Assoc.get?_eq_none_iff.mpr hmem, Assoc.set_of_not_mem _ hmem⟩

/-- Writing an integer over an integer makes no float finite or infinite. -/
theorem nonFinite_zeroHop_iff {data : JsonObject} (h : HopFieldsAreInts data) :
    data.zeroHop.toDoc.val.NonFinite ↔ data.toDoc.val.NonFinite := by
  have hnodup : (Assoc.keys data.members).Nodup := by
    have hwf := data.wf
    rw [Json.wf, Bool.and_eq_true, decide_eq_true_eq] at hwf
    exact hwf.1
  have hmembers : data.zeroHop.toDoc.val =
      .dict (Assoc.set data.members (py "hop_limit") (.int 0)) := rfl
  rw [hmembers]
  constructor
  · intro hset
    cases hset with
    | dict hmem hkv =>
        rcases (Assoc.mem_set_iff hnodup).mp hmem with rfl | ⟨-, hmem⟩
        · cases hkv
        · exact .dict hmem hkv
  · intro hdata
    cases hdata with
    | @dict _ kv hmem hkv =>
        refine .dict ((Assoc.mem_set_iff hnodup).mpr (Or.inr ⟨?_, hmem⟩)) hkv
        intro hkey
        have hget : data.get? (py "hop_limit") = some kv.2 := by
          rw [← hkey]
          exact Assoc.get?_of_mem hnodup hmem
        obtain ⟨n, hn⟩ := h (py "hop_limit") (by simp [hopFields]) kv.2 hget
        rw [hn] at hkv
        cases hkv

/-! ## What the encoder prints -/

namespace JsonCodec

variable {C : JsonCodec}

/-- What the decoder makes of a strict text is the value of its syntax. -/
theorem build_of_strictJson {payload : Bytes} {t : JsonTree} (h : StrictJson payload t)
    {d : JsonDoc} (hd : C.loads payload = .ok d) : build t = .ok d := by
  obtain ⟨-, s, depth, hdecode, -, hspells⟩ := h
  obtain ⟨s', t', hpayload, hspells', hbuild⟩ := JsonCodec.loads_eq_ok_iff.mp hd
  have hpos : ∀ c ∈ s, c.val ≠ 0 := fun c hc => Nat.pos_iff_ne_zero.mp (hspells.pos c hc)
  obtain ⟨c, tail, rfl, hc⟩ := hspells.head_ascii
  rw [decodePayload_of_utf8 hdecode hc hpos] at hpayload
  cases hpayload
  rw [hspells.unique hspells']
  exact hbuild

theorem strictJson_dumps {d : JsonDoc} (h : d.val.Fits C.maxDepth)
    (hfinite : ¬d.val.NonFinite) : StrictJson (C.dumps d) (C.spell d.val) := by
  have hascii := C.asciiText_print h
  have hsurrogate : (C.spell d.val).print.any PyChar.isSurrogate = false := by
    rw [List.any_eq_false]
    intro c hc
    have hlt := (hascii c hc).2
    simp only [PyChar.isSurrogate, Bool.and_eq_true, decide_eq_true_eq]
    omega
  exact ⟨(C.strict_spell_iff _).mpr hfinite, _, _,
    decodeUtf8_asciiBytes fun c hc => (hascii c hc).2, hsurrogate, C.spellsText_print h⟩

/-- What is printed is strict exactly when the value has no infinity and no NaN. -/
theorem strictJson_dumps_iff {d : JsonDoc} (h : d.val.Fits C.maxDepth) :
    (∃ t, StrictJson (C.dumps d) t) ↔ ¬d.val.NonFinite := by
  constructor
  · rintro ⟨t, hstrict, s, depth, hs, -, hspells⟩
    have hdecode : decodeUtf8 (C.dumps d) = some (C.spell d.val).print :=
      decodeUtf8_asciiBytes fun c hc => (C.asciiText_print h c hc).2
    rw [hdecode, Option.some.injEq] at hs
    subst hs
    rw [hspells.unique (C.spellsText_print h)] at hstrict
    exact (C.strict_spell_iff _).mp hstrict
  · exact fun hfinite => ⟨_, strictJson_dumps h hfinite⟩

end JsonCodec

/-! ## The answer of the JSON path -/

/-- The effective hop limit of a JSON packet, by the presence of its hop fields. -/
def JsonObject.hopsLeft (data : JsonObject) : Int :=
  Ports.hopsLeft (data.hop? (py "hop_limit")) (data.hop? (py "hop_start"))
    (data.hop? (py "hops_away"))

theorem ofView_eq_parseError_iff {v : Option PacketView} :
    ZerohopResult.ofView v = .parseError ↔ v = none := by
  cases v with
  | none => exact iff_of_true rfl rfl
  | some v =>
      refine iff_of_false ?_ (by simp)
      unfold ZerohopResult.ofView
      dsimp only
      split
      · intro h
        cases congrArg ZerohopResult.oldHop h
      · intro h
        cases congrArg ZerohopResult.oldHop h

theorem viewPacket_json_eq_none_iff {rt : Runtime} {payload : Bytes} :
    viewPacket rt .json payload = none ↔ (∀ d, rt.json.loads payload ≠ .ok d) ∨
      (∃ d, rt.json.loads payload = .ok d ∧ d.asDict = none) ∨
        ∃ data : JsonObject, rt.json.loads payload = .ok data.toDoc ∧ ¬HopFieldsAreInts data := by
  constructor
  · intro hview
    cases hloads : rt.json.loads payload with
    | error e => exact Or.inl fun d h => by cases h
    | ok d =>
        cases hdict : d.asDict with
        | none => exact Or.inr (Or.inl ⟨d, rfl, hdict⟩)
        | some data =>
            obtain rfl := JsonDoc.asDict_eq_some.mp hdict
            refine Or.inr (Or.inr ⟨data, rfl, fun hints => ?_⟩)
            rw [viewPacket_json hloads hints] at hview
            cases hview
  · intro h
    by_contra hview
    obtain ⟨v, hview⟩ := Option.ne_none_iff_exists'.mp hview
    rcases viewPacket_cases hview with ⟨hencoding, -⟩ | ⟨-, data, hloads, hints, -⟩
    · cases hencoding
    · rcases h with hnone | ⟨d, hd, hdict⟩ | ⟨data', hdata', hbad⟩
      · exact hnone _ hloads
      · rw [hloads, Except.ok.injEq] at hd
        subst hd
        cases hdict
      · rw [hloads, Except.ok.injEq] at hdata'
        obtain rfl := JsonDoc.toDoc_injective hdata'
        exact hbad hints

/-- The members of an object that fits are rendered. -/
theorem reprFault_get_of_fits {data : JsonObject} {depth depth' : Nat}
    (h : data.toDoc.val.Fits depth) (hle : depth ≤ depth') (key : PyStr) :
    (data.get key).reprFault depth' = none := by
  cases depth with
  | zero => exact h.elim
  | succ depth =>
      cases hget : Assoc.get? data.members key with
      | none =>
          rw [JsonObject.get, JsonObject.get?, hget]
          rfl
      | some v =>
          rw [JsonObject.get, JsonObject.get?, hget, Option.getD_some]
          exact Json.reprFault_of_fits (h (key, v) (Assoc.mem_of_get?_eq_some hget))
            (Nat.le_of_succ_le hle)

/-- What a codec decodes, `repr` follows: the JSON path returns. -/
theorem zerohopJson_withJson (rt : Runtime) (C : JsonCodec) (payload : Bytes) :
    zerohopJson (rt.withJson C) payload =
      .ok (.ofView (viewPacket (rt.withJson C) .json payload)) := by
  rcases zerohopJson_cases (rt.withJson C) payload with hok | ⟨-, data, e, hloads, hfault, -⟩
  · exact hok
  · obtain ⟨key, -, hfault⟩ := List.exists_of_findSome?_eq_some hfault
    have hnone := reprFault_get_of_fits (C.fits_of_loads hloads) C.maxDepth_le_reprDepth key
    cases hnone.symm.trans hfault

theorem zerohopJson_eq_parseError_iff {rt : Runtime} {C : JsonCodec} {payload : Bytes} :
    zerohopJson (rt.withJson C) payload = .ok .parseError ↔ (∀ d, C.loads payload ≠ .ok d) ∨
      (∃ d, C.loads payload = .ok d ∧ d.asDict = none) ∨
        ∃ data : JsonObject, C.loads payload = .ok data.toDoc ∧ ¬HopFieldsAreInts data := by
  rw [zerohopJson_withJson, Except.ok.injEq, ofView_eq_parseError_iff,
    viewPacket_json_eq_none_iff]
  rfl

/-- The answer on an object with integer hop fields. -/
theorem zerohopJson_of_ints {rt : Runtime} {payload : Bytes} {data : JsonObject}
    (hloads : rt.json.loads payload = .ok data.toDoc) (hints : HopFieldsAreInts data) :
    zerohopJson rt payload = .ok
      (if data.hopsLeft = 0 then ⟨none, some 0, jsonMeta data⟩
      else ⟨some (rt.json.dumps data.zeroHop.toDoc), some data.hopsLeft, jsonMeta data⟩) := by
  have hanswer := runZerohop_of_view (viewPacket_json hloads hints)
  rw [viewJson, effectiveHop_eq hints] at hanswer
  exact hanswer

theorem zerohopJson_eq_noop_iff {rt : Runtime} {payload : Bytes} {data : JsonObject}
    (hloads : rt.json.loads payload = .ok data.toDoc) (hints : HopFieldsAreInts data) :
    zerohopJson rt payload = .ok ⟨none, some 0, jsonMeta data⟩ ↔ data.hopsLeft = 0 := by
  rw [zerohopJson_of_ints hloads hints, Except.ok.injEq]
  constructor
  · intro h
    by_contra hne
    rw [if_neg hne] at h
    cases congrArg ZerohopResult.modified h
  · exact fun h => if_pos h

/-- The answer on an object with hops left. -/
theorem zerohopJson_of_hopsLeft {rt : Runtime} {payload : Bytes} {data : JsonObject}
    (hloads : rt.json.loads payload = .ok data.toDoc) (hints : HopFieldsAreInts data)
    (hne : data.hopsLeft ≠ 0) :
    zerohopJson rt payload = .ok
      ⟨some (rt.json.dumps data.zeroHop.toDoc), some data.hopsLeft, jsonMeta data⟩ := by
  rw [zerohopJson_of_ints hloads hints, if_neg hne]

/-- The firmware's JSON mirror of a packet: no hop limit, but the hops taken so
far. -/
structure Mirrors (data : JsonObject) (pkt : MeshPacket) : Prop where
  hop_limit : data.get? (py "hop_limit") = none
  hop_start : data.get? (py "hop_start") = some (.int pkt.hopStart.toNat)
  hops_away : data.get? (py "hops_away") =
    some (.int ((pkt.hopStart.toNat : Int) - pkt.hopLimit.toNat))

theorem Mirrors.hopFieldsAreInts {data : JsonObject} {pkt : MeshPacket}
    (h : Mirrors data pkt) : HopFieldsAreInts data := by
  intro key hkey v hv
  simp only [hopFields, List.mem_cons, List.not_mem_nil, or_false] at hkey
  rcases hkey with rfl | rfl | rfl
  · cases h.hop_limit.symm.trans hv
  · exact ⟨_, (Option.some.inj (h.hop_start.symm.trans hv)).symm⟩
  · exact ⟨_, (Option.some.inj (h.hops_away.symm.trans hv)).symm⟩

/-- The mirror has as many hops left as the packet. -/
theorem Mirrors.hopsLeft {data : JsonObject} {pkt : MeshPacket} (h : Mirrors data pkt)
    (hle : pkt.hopLimit ≤ pkt.hopStart) : data.hopsLeft = pkt.hopLimit.toNat := by
  have hnat : pkt.hopLimit.toNat ≤ pkt.hopStart.toNat := UInt32.le_iff_toNat_le.mp hle
  rw [JsonObject.hopsLeft]
  simp only [JsonObject.hop?, h.hop_limit, h.hop_start, h.hops_away, Option.bind_none,
    Option.bind_some, Json.asInt, Ports.hopsLeft]
  omega

/-- The answer of the JSON path on a mirror. -/
theorem zerohopJson_of_mirrors {rt : Runtime} {payload : Bytes} {data : JsonObject}
    {pkt : MeshPacket} (hloads : rt.json.loads payload = .ok data.toDoc)
    (h : Mirrors data pkt) (hle : pkt.hopLimit ≤ pkt.hopStart) :
    zerohopJson rt payload = .ok
      (if (pkt.hopLimit.toNat : Int) = 0 then ⟨none, some 0, jsonMeta data⟩
      else ⟨some (rt.json.dumps data.zeroHop.toDoc), some pkt.hopLimit.toNat,
        jsonMeta data⟩) := by
  rw [zerohopJson_of_ints hloads h.hopFieldsAreInts, h.hopsLeft hle]

theorem Mirrors.get?_hop_start_zeroHop {data : JsonObject} {pkt : MeshPacket}
    (h : Mirrors data pkt) :
    data.zeroHop.get? (py "hop_start") = some (.int pkt.hopStart.toNat) := by
  rw [JsonObject.zeroHop, JsonObject.get?_setInt, if_neg (by decide), h.hop_start]

/-- The answer of the protobuf path on a packet. -/
theorem zerohopProtobuf_of_packet {rt : Runtime} {protos : Protos} {payload : Bytes}
    {m : ServiceEnvelope} {pkt : MeshPacket} (hprotos : rt.protos = some protos)
    (hparse : protos.parseEnvelope payload = .ok m) (hpkt : m.packet = some pkt) :
    zerohopProtobuf rt payload = .ok
      (if (pkt.hopLimit.toNat : Int) = 0 then ⟨none, some 0, extractProtoMeta pkt⟩
      else ⟨some (protos.serializeEnvelope m.zeroHop), some pkt.hopLimit.toNat,
        extractProtoMeta pkt⟩) := by
  rw [zerohopProtobuf_eq hprotos, viewPacket_proto hprotos hparse hpkt]
  rfl

/-- The JSON path changes the hop limit and nothing else, and reads the hops like
the protobuf path. -/
theorem zerohopJson_spec (rt : Runtime) (C : JsonCodec) (payload : Bytes) :
    (zerohopJson (rt.withJson C) payload = .ok .parseError ↔
      (∀ d, ¬C.Denotes payload d) ∨ (∃ d, C.Denotes payload d ∧ d.asDict = none) ∨
        ∃ data : JsonObject, C.Denotes payload data.toDoc ∧ ¬HopFieldsAreInts data) ∧
    (∀ data : JsonObject, C.Denotes payload data.toDoc → HopFieldsAreInts data →
      (zerohopJson (rt.withJson C) payload = .ok ⟨none, some 0, jsonMeta data⟩ ↔
        data.hopsLeft = 0) ∧
      (data.hopsLeft ≠ 0 → ∃ q,
        zerohopJson (rt.withJson C) payload =
          .ok ⟨some q, some data.hopsLeft, jsonMeta data⟩ ∧
        (data.toDoc.val.clean = true → ∃ data' : JsonObject,
          C.loads q = .ok data'.toDoc ∧ SameButHopLimit data data'))) ∧
    ∀ (data : JsonObject) (protos : Protos) (binary : Bytes) (m : ServiceEnvelope)
      (pkt : MeshPacket), C.Denotes payload data.toDoc → rt.protos = some protos →
      protos.parseEnvelope binary = .ok m → m.packet = some pkt →
      pkt.hopLimit ≤ pkt.hopStart → Mirrors data pkt →
      ∃ rjson r, zerohopJson (rt.withJson C) payload = .ok rjson ∧
        zerohopProtobuf (rt.withJson C) binary = .ok r ∧
        rjson.oldHop = r.oldHop ∧ rjson.modified.isSome = r.modified.isSome ∧
        (∀ q, rjson.modified = some q →
          data.toDoc.val.clean = true → ∃ data' : JsonObject, C.loads q = .ok data'.toDoc ∧
            data'.get? (py "hop_start") = some (.int pkt.hopStart.toNat)) ∧
        (∀ q, r.modified = some q →
          protos.parseEnvelope (protos.serializeEnvelope m.zeroHop) = .ok m.zeroHop →
          ∃ m' pkt', protos.parseEnvelope q = .ok m' ∧ m'.packet = some pkt' ∧
            pkt'.hopLimit = 0 ∧ pkt'.hopStart = pkt.hopStart) := by
  have hloads : ∀ {d}, C.Denotes payload d → (rt.withJson C).json.loads payload = .ok d :=
    fun h => JsonCodec.loads_eq_ok_iff.mpr h
  refine ⟨?_, fun data hdata hints => ⟨?_, ?_⟩, ?_⟩
  · rw [zerohopJson_eq_parseError_iff]
    simp only [← JsonCodec.loads_eq_ok_iff]
  · exact zerohopJson_eq_noop_iff (hloads hdata) hints
  · intro hne
    refine ⟨_, zerohopJson_of_hopsLeft (hloads hdata) hints hne, fun hclean => ?_⟩
    exact ⟨data.zeroHop, JsonCodec.loads_dumps_zeroHop (hloads hdata) (clean_zeroHop hclean),
      members_zeroHop data⟩
  · intro data protos binary m pkt hdata hprotos hparse hpkt hle hmirror
    have hproto := @zerohopProtobuf_of_packet (rt.withJson C) _ _ _ _ hprotos hparse hpkt
    refine ⟨_, _, zerohopJson_of_mirrors (hloads hdata) hmirror hle, hproto, ?_⟩
    -- Both answers split on the same hop limit.
    split
    · refine ⟨rfl, rfl, ?_, ?_⟩
      · intro q h
        cases h
      · intro q h
        cases h
    · refine ⟨rfl, rfl, ?_, ?_⟩
      · rintro _ ⟨⟩ hclean
        exact ⟨data.zeroHop, JsonCodec.loads_dumps_zeroHop (hloads hdata) (clean_zeroHop hclean),
          hmirror.get?_hop_start_zeroHop⟩
      · rintro _ ⟨⟩ hround
        refine ⟨m.zeroHop, pkt.zeroHop, hround, ?_, rfl, rfl⟩
        rw [ServiceEnvelope.zeroHop_of_packet hpkt]

/-- The mirror of `demoEnvelope`, by its members. -/
def demoMirror : JsonObject :=
  ⟨[(py "hop_start", .int 3), (py "hops_away", .int 0)], by decide⟩

theorem fits_demoMirror : demoMirror.toDoc.val.Fits 1 := by
  have hdigit : ∀ n : Int, n.natAbs < 10 ^ 1 → (Json.int n).Fits 0 :=
    fun n hn => hugeInt_eq_false (by decide) hn
  intro kv hkv
  simp only [demoMirror, List.mem_cons, List.not_mem_nil, or_false] at hkv
  rcases hkv with rfl | rfl
  · exact hdigit 3 (by decide)
  · exact hdigit 0 (by decide)

/-- The payload of `demoMirror`. -/
def demoMirrorText : Bytes := ascii "\x7b\"hop_start\": 3, \"hops_away\": 0\x7d"

theorem denotes_demoMirror : (JsonCodec.exact 1).Denotes demoMirrorText demoMirror.toDoc := by
  have htext : (JsonCodec.exact 1).dumps demoMirror.toDoc = demoMirrorText := by decide +kernel
  rw [← htext, ← JsonCodec.loads_eq_ok_iff]
  exact JsonCodec.loads_dumps _ (by decide) fits_demoMirror

/-- The mirror of a packet heard directly, and the packet. -/
theorem zerohopJson_spec_demoMirror :
    ∃ rjson r,
      zerohopJson ((Runtime.ofProtos demoProtos).withJson (.exact 1)) demoMirrorText =
        .ok rjson ∧
      zerohopProtobuf ((Runtime.ofProtos demoProtos).withJson (.exact 1)) demoPayload =
        .ok r ∧
      rjson.oldHop = r.oldHop ∧ rjson.modified.isSome = r.modified.isSome := by
  obtain ⟨rjson, r, hjson, hr, hold, hmodified, -⟩ := (zerohopJson_spec (.ofProtos demoProtos)
    (.exact 1) demoMirrorText).2.2 demoMirror demoProtos demoPayload demoEnvelope _
    denotes_demoMirror rfl rfl rfl (by decide) ⟨rfl, rfl, rfl⟩
  exact ⟨rjson, r, hjson, hr, hold, hmodified⟩

/-! ## Strict JSON -/

/-- The payload that the JSON path returns for a strict text is strict exactly
when no number that is kept is too large for a double. -/
theorem strictJson_zerohopJson_iff (rt : Runtime) (C : JsonCodec) {payload : Bytes}
    {t : JsonTree} {data : JsonObject} (hstrict : StrictJson payload t)
    (hdata : C.Denotes payload data.toDoc) (hints : HopFieldsAreInts data)
    (hhops : data.hopsLeft ≠ 0) :
    ∃ q, (zerohopJson (rt.withJson C) payload).map ZerohopResult.modified = .ok (some q) ∧
      ((∃ t', StrictJson q t') ↔ ¬t.Overflows) := by
  have hloads := JsonCodec.loads_eq_ok_iff.mpr hdata
  have hanswer := @zerohopJson_of_hopsLeft (rt.withJson C) _ _ hloads hints hhops
  refine ⟨C.dumps data.zeroHop.toDoc, by rw [hanswer]; rfl, ?_⟩
  rw [JsonCodec.strictJson_dumps_iff (JsonCodec.fits_zeroHop hloads),
    nonFinite_zeroHop_iff hints,
    nonFinite_build_iff hstrict.1 (JsonCodec.build_of_strictJson hstrict hloads)]

/-- The syntax of a packet with an integer, a float, a string and nested members. -/
def demoTree : JsonTree :=
  .obj
    [ (escapeJsonString (py "hop_limit"), .number (intLit 3))
    , (escapeJsonString (py "snr"),
        .number ⟨true, decimal 6, [digitOf 2, digitOf 5], none⟩)
    , (escapeJsonString (py "type"), .str (escapeJsonString (py "text")))
    , (escapeJsonString (py "payload"),
        .obj [(escapeJsonString (py "route"), .arr [.word .null])]) ]

/-- The packet. -/
def demoPacket : JsonObject :=
  ⟨[ (py "hop_limit", .int 3), (py "snr", .float 0xC019000000000000#64)
   , (py "type", .str (py "text"))
   , (py "payload", .dict [(py "route", .list [.null])]) ], by decide⟩

/-- The payload of `demoPacket`. -/
def demoPacketText : PyStr :=
  py ("\x7b\"hop_limit\": 3, \"snr\": -6.25, \"type\": \"text\", " ++
    "\"payload\": \x7b\"route\": [null]\x7d\x7d")

theorem strict_demoTree : demoTree.Strict := by
  intro w hword
  cases hword with
  | obj hmem h =>
      simp only [List.mem_cons, List.not_mem_nil, or_false] at hmem
      rcases hmem with rfl | rfl | rfl | rfl
      · cases h
      · cases h
      · cases h
      · cases h with
        | obj hmem h =>
            rw [List.mem_singleton.mp hmem] at h
            cases h with
            | arr hmem h =>
                rw [List.mem_singleton.mp hmem] at h
                cases h
                rfl

theorem spells_demoTree : Spells 3 demoTree demoPacketText := by
  have htext : demoPacketText = demoTree.print := by decide +kernel
  rw [htext]
  refine JsonCodec.spells_obj (List.forall_mem_cons.mpr ⟨.scalar (.number _),
    List.forall_mem_cons.mpr ⟨.scalar (.number _), List.forall_mem_cons.mpr
      ⟨.scalar (.str _), List.forall_mem_singleton.mpr ?_⟩⟩⟩)
  refine JsonCodec.spells_obj (List.forall_mem_singleton.mpr ?_)
  exact JsonCodec.spells_arr (List.forall_mem_singleton.mpr (SpellsScalar.word _))

theorem build_demoTree : build demoTree = .ok demoPacket.toDoc := by
  have hkey : ∀ key, key.any PyChar.isSurrogate = false →
      unitsValue (escapeJsonString key) = key := fun _ h => unitsValue_escapeJsonString h
  have hdouble : NumberLit.double ⟨true, decimal 6, [digitOf 2, digitOf 5], none⟩ =
      0xC019000000000000#64 := by decide +kernel
  have hfloat : NumberLit.value ⟨true, decimal 6, [digitOf 2, digitOf 5], none⟩ =
      .ok ⟨.float 0xC019000000000000#64, rfl⟩ := by
    rw [← hdouble]
    rfl
  have hint : NumberLit.value (intLit 3) = .ok ⟨.int 3, rfl⟩ := rfl
  simp only [demoTree, build, buildMembers, buildList, hfloat, hint,
    hkey (py "hop_limit") (by decide), hkey (py "snr") (by decide),
    hkey (py "type") (by decide), hkey (py "payload") (by decide),
    hkey (py "route") (by decide), hkey (py "text") (by decide)]
  rfl

theorem not_nonFinite_demoPacket : ¬demoPacket.toDoc.val.NonFinite := by
  intro h
  cases h with
  | dict hmem h =>
      simp only [demoPacket, List.mem_cons, List.not_mem_nil, or_false] at hmem
      rcases hmem with rfl | rfl | rfl | rfl
      · cases h
      · cases h with
        | float h => exact absurd h (by decide)
      · cases h
      · cases h with
        | dict hmem h =>
            rw [List.mem_singleton.mp hmem] at h
            cases h with
            | list hmem h =>
                rw [List.mem_singleton.mp hmem] at h
                cases h

/-- The payload of `demoPacket` is rewritten to strict JSON. -/
theorem strictJson_zerohopJson_demoPacket :
    ∃ q, (zerohopJson ((Runtime.ofProtos demoProtos).withJson (.exact 3))
        (asciiBytes demoPacketText)).map ZerohopResult.modified = .ok (some q) ∧
      ∃ t, StrictJson q t := by
  have hascii : ∀ c ∈ demoPacketText, c.val < 0x80 := by
    have hall : demoPacketText.all (·.val < 0x80) = true := by decide +kernel
    simpa only [List.all_eq_true, decide_eq_true_eq] using hall
  have hstrict : StrictJson (asciiBytes demoPacketText) demoTree :=
    ⟨strict_demoTree, demoPacketText, 3, decodeUtf8_asciiBytes hascii, by decide +kernel,
      spells_demoTree.document⟩
  have hdenotes : (JsonCodec.exact 3).Denotes (asciiBytes demoPacketText) demoPacket.toDoc :=
    ⟨demoPacketText, demoTree, JsonCodec.decodePayload_asciiBytes spells_demoTree.document hascii,
      spells_demoTree.document, build_demoTree⟩
  obtain ⟨q, hq, hiff⟩ := strictJson_zerohopJson_iff (.ofProtos demoProtos) (.exact 3) hstrict
    hdenotes ((badHopFields_eq_nil_iff _).mp (by decide)) (by decide)
  exact ⟨q, hq, hiff.mpr fun hoverflows =>
    not_nonFinite_demoPacket (nonFinite_of_overflows hoverflows build_demoTree)⟩

/-- The members of a strict text with a number that is too large for a double. -/
def overflowMembers : List (List StrUnit × JsonTree) :=
  [ (escapeJsonString (py "hop_limit"), .number (intLit 3))
  , (escapeJsonString (py "x"),
      .number ⟨false, decimal 1, [], some ⟨false, none, List.replicate 3 (digitOf 9), by decide⟩⟩) ]

/-- Their value, zero-hopped. -/
def demoInfinity : JsonObject :=
  ⟨[(py "hop_limit", .int 0), (py "x", .float 0x7FF0000000000000#64)], by decide⟩

/-- The zero-hopped form of a strict text can have a word that JSON does not have. -/
theorem zerohopJson_prints_infinity :
    StrictJson (ascii "\x7b\"hop_limit\": 3, \"x\": 1e999\x7d") (.obj overflowMembers) ∧
      (zerohopJson ((Runtime.ofProtos demoProtos).withJson (.exact 1))
          (ascii "\x7b\"hop_limit\": 3, \"x\": 1e999\x7d")).map ZerohopResult.modified =
        .ok (some (ascii "\x7b\"hop_limit\": 0, \"x\": Infinity\x7d")) ∧
      ¬∃ t, StrictJson (ascii "\x7b\"hop_limit\": 0, \"x\": Infinity\x7d") t := by
  refine ⟨⟨?_, py "\x7b\"hop_limit\": 3, \"x\": 1e999\x7d", 1, by decide +kernel,
    by decide +kernel, ?_⟩, ?_, ?_⟩
  · intro w hword
    cases hword with
    | obj hmem h =>
        simp only [overflowMembers, List.mem_cons, List.not_mem_nil, or_false] at hmem
        rcases hmem with rfl | rfl <;> cases h
  · have hspells : Spells 1 (.obj overflowMembers) (JsonTree.obj overflowMembers).print := by
      refine JsonCodec.spells_obj fun m hm => ?_
      simp only [overflowMembers, List.mem_cons, List.not_mem_nil, or_false] at hm
      rcases hm with rfl | rfl
      · exact SpellsScalar.number _
      · exact SpellsScalar.number _
    have htext : py "\x7b\"hop_limit\": 3, \"x\": 1e999\x7d" =
        (JsonTree.obj overflowMembers).print := by decide +kernel
    rw [htext]
    exact hspells.document
  · rw [zerohopJson_withJson]
    exact congrArg Except.ok (by decide +kernel)
  · have htext : ascii "\x7b\"hop_limit\": 0, \"x\": Infinity\x7d" =
        (JsonCodec.exact 1).dumps demoInfinity.toDoc := by decide +kernel
    have hfits : demoInfinity.toDoc.val.Fits (JsonCodec.exact 1).maxDepth := by
      intro kv hkv
      simp only [demoInfinity, List.mem_cons, List.not_mem_nil, or_false] at hkv
      rcases hkv with rfl | rfl
      · exact hugeInt_eq_false (n := 0) (k := 1) (by decide) (by decide)
      · trivial
    rw [htext, JsonCodec.strictJson_dumps_iff hfits, not_not]
    exact .dict (List.mem_cons_of_mem _ List.mem_cons_self) (.float (by decide))

end Floodgate.Ports
