import Floodgate.Ports.DropFilter

/-!
# What EMQX is told

The response to a publish is to ignore the hook, to deliver the message with
another payload, or to deny it.  The last two act on a message that EMQX would
otherwise deliver as it came, so each of them is stated with what it takes, in
the words of the user's mapping and of the payload: `Justified`.

## Main results

* `onMessagePublish_safe`: every response is justified as exactly one kind, under any
  faults.
-/

namespace Floodgate.Ports

open Floodgate.Verified
open Floodgate.Verified.FailOpen

/-- `ZeroHops rt payload encoding hop q`: the payload decodes to a packet with
effective hop limit `hop`, and `q` encodes that packet with hop limit zero. -/
inductive ZeroHops (rt : Runtime) (payload : Bytes) : Encoding → Int → Bytes → Prop
  | proto {protos : Protos} {m : ServiceEnvelope} {pkt : MeshPacket}
      (hprotos : rt.protos = some protos) (hparse : protos.parseEnvelope payload = .ok m)
      (hpkt : m.packet = some pkt) :
      ZeroHops rt payload .e pkt.hopLimit.toNat
        (protos.serializeEnvelope { m with packet := some { pkt with hopLimit := 0 } })
  | json {data : JsonObject} (hloads : rt.json.loads payload = .ok data.toDoc)
      (hints : HopFieldsAreInts data) :
      ZeroHops rt payload .json
        (hopsLeft (data.hop? (py "hop_limit")) (data.hop? (py "hop_start"))
          (data.hop? (py "hops_away")))
        (rt.json.dumps (data.setInt (py "hop_limit") 0).toDoc)

/-- The view of a payload is its effective hop limit and its zero-hopped form. -/
theorem zeroHops_of_viewPacket {rt : Runtime} {payload : Bytes} {encoding : Encoding}
    {v : PacketView} (h : viewPacket rt encoding payload = some v) :
    ZeroHops rt payload encoding v.hop v.zeroHopped := by
  rcases viewPacket_cases h with ⟨rfl, protos, m, pkt, hprotos, hparse, hpkt, rfl⟩ |
    ⟨rfl, data, hloads, hints, rfl⟩
  · rw [viewProto, ServiceEnvelope.zeroHop_of_packet hpkt]
    exact .proto hprotos hparse hpkt
  · rw [viewJson, effectiveHop_eq hints]
    exact .json hloads hints

/-- The drop filter of a dictionary of values matches a payload on a channel:
dropping is enabled, a portnum is identified and listed, and the channel is in
the scope. -/
structure FilterMatches (rt : Runtime) (cfg : Config) (channel : PyStr)
    (encoding : Encoding) (payload : Bytes) : Prop where
  enabled : cfg.value .dropEnabled = .bool true
  portnum : ∃ pn, extractPortnum rt encoding payload = some pn ∧
    Listed (cfg.value .dropPortnums) pn
  scope : ScopeListed cfg channel

/-- What EMQX is told, by kind. -/
inductive ResponseKind where
  | ignore | rewrite | deny
  deriving DecidableEq, Repr

/-- A response of the given kind, with what it takes to give it. -/
inductive Justified (rt : Runtime) (cfg : Config) (msg : ExMessage)
    (resp : ValuedResponse) : ResponseKind → Prop
  | ignore (hresp : resp.IsIgnore) : Justified rt cfg msg resp .ignore
  | rewrite {channel : PyStr} {encoding : Encoding} {hop : Int} {q : Bytes}
      (htopic : parseMeshtasticTopic msg.topic = some (channel, encoding))
      (henabled : cfg.value .zerohopEnabled = .bool true)
      (hlisted : Listed (cfg.value .zerohopChannels) channel)
      (hzerohop : ZeroHops rt msg.payload encoding hop q) (hhop : hop ≠ 0)
      (hfilter : ¬ FilterMatches rt cfg channel encoding msg.payload)
      (hresp : resp.Rewrites msg q) : Justified rt cfg msg resp .rewrite
  | deny {channel : PyStr} {encoding : Encoding}
      (htopic : parseMeshtasticTopic msg.topic = some (channel, encoding))
      (hfilter : FilterMatches rt cfg channel encoding msg.payload)
      (hresp : resp.Denies msg) : Justified rt cfg msg resp .deny

theorem ValuedResponse.Rewrites.not_ignore {resp : ValuedResponse} {msg : ExMessage}
    {q : Bytes} (h : resp.Rewrites msg q) : ¬ resp.IsIgnore := by
  rintro rfl
  cases h

/-- A response is justified as one kind at most: an ignore has no message, and a
rewrite and a denial disagree on the filter. -/
theorem Justified.unique {rt : Runtime} {cfg : Config} {msg : ExMessage}
    {resp : ValuedResponse} {kind kind' : ResponseKind}
    (h : Justified rt cfg msg resp kind) (h' : Justified rt cfg msg resp kind') :
    kind = kind' := by
  cases h with
  | ignore hresp =>
      cases h' with
      | ignore => rfl
      | rewrite _ _ _ _ _ _ hresp' => exact absurd hresp hresp'.not_ignore
      | deny _ _ hresp' => exact absurd hresp hresp'.not_ignore
  | rewrite htopic _ _ _ _ hfilter hresp =>
      cases h' with
      | ignore hresp' => exact absurd hresp' hresp.not_ignore
      | rewrite => rfl
      | deny htopic' hfilter' =>
          rw [htopic, Option.some.injEq, Prod.mk.injEq] at htopic'
          obtain ⟨rfl, rfl⟩ := htopic'
          exact absurd hfilter' hfilter
  | deny htopic hfilter hresp =>
      cases h' with
      | ignore hresp' => exact absurd hresp' hresp.not_ignore
      | rewrite htopic' _ _ _ _ hfilter' =>
          rw [htopic, Option.some.injEq, Prod.mk.injEq] at htopic'
          obtain ⟨rfl, rfl⟩ := htopic'
          exact absurd hfilter hfilter'
      | deny => rfl

section Delivery

variable {host : ConfigHost} {configPath : Option PyStr}
  {user : List (PyStr × PyVal)} {source : PyStr} {config : Config}

/-- The filter of a loaded configuration matches what the user's values say. -/
theorem dropMatches_iff (hread : readUserConfig host configPath = .ok (user, source))
    (hload : loadConfig host configPath = .ok config) (rt : Runtime) (payload : Bytes)
    (channel : PyStr) (encoding : Encoding) :
    dropMatches rt payload config channel encoding = .ok true ↔
      FilterMatches rt (overlay user) channel encoding payload := by
  obtain ⟨hvalid, hresolved⟩ := loadConfig_accepted hread hload
  rw [(hresolved.hasPolicy hvalid).dropMatches, Except.ok.injEq,
    drops_ofValues_iff (hvalid .dropEnabled) (hvalid .dropChannels)]
  exact ⟨fun h => ⟨h.1, h.2.1, h.2.2⟩, fun h => ⟨h.enabled, h.portnum, h.scope⟩⟩

/-- What EMQX is told is justified, as exactly one kind of response, for every
publish, every configuration that a load returns and every fault inside the
processing. -/
theorem onMessagePublish_safe (hread : readUserConfig host configPath = .ok (user, source))
    (hload : loadConfig host configPath = .ok config) (rt : Runtime) (plan : FaultPlan)
    (msg : ExMessage) (w : World) :
    ∃ resp, (onMessagePublish rt plan config msg w).1 = .ok resp ∧
      ∃! kind, Justified rt (overlay user) msg resp kind := by
  have hfilter := dropMatches_iff hread hload rt msg.payload
  have huniq : ∀ {resp kind}, Justified rt (overlay user) msg resp kind →
      ∃! kind, Justified rt (overlay user) msg resp kind :=
    fun h => ⟨_, h, fun _ h' => h'.unique h⟩
  simp only [onMessagePublish]
  rcases processMessage_answer rt plan msg.topic msg.payload config w with
    hpass | ⟨channel, encoding, htopic, hdrop, hanswer⟩ |
    ⟨channel, encoding, v, htopic, hdrop, hzerohop, hview, hhop, -, hanswer⟩
  · obtain ⟨resp, hresp, hignore⟩ := responseFor_passthru msg
    exact ⟨resp, by rw [hpass, hresp], huniq (.ignore hignore)⟩
  · obtain ⟨resp, hresp, hdenies⟩ := responseFor_drop msg
    exact ⟨resp, by rw [hanswer, hresp],
      huniq (.deny htopic ((hfilter channel encoding).mp hdrop) hdenies)⟩
  · obtain ⟨resp, hresp, hrewrites⟩ := responseFor_modify msg v.zeroHopped
    obtain ⟨b, hb, hlisted⟩ := (loadConfig_policyMeans hread hload).zerohop channel
    rw [hzerohop, Except.ok.injEq] at hb
    obtain ⟨henabled, hlisted⟩ := hlisted.mp hb.symm
    have hpasses : ¬ FilterMatches rt (overlay user) channel encoding msg.payload := by
      rw [← hfilter, hdrop]
      simp
    exact ⟨resp, by rw [hanswer, hresp], huniq (.rewrite htopic henabled hlisted
      (zeroHops_of_viewPacket hview) hhop hpasses hrewrites)⟩

/-- The response to a message that drops texts, under every fault. -/
theorem onMessagePublish_safe_demoMessage :
    ∃ config, loadConfig (ConfigHost.ofMapping dropTexts) (some (py "config.yaml")) =
        .ok config ∧
      ∀ plan : FaultPlan, ∃ resp,
        (onMessagePublish (demoJson (.int 7) rfl "7") plan config (demoMessage "7")
          .initial).1 = .ok resp ∧
        ∃! kind, Justified (demoJson (.int 7) rfl "7") (overlay dropTexts)
          (demoMessage "7") resp kind := by
  obtain ⟨config, hload, -⟩ := exists_loaded dropTexts (p := py "config.yaml") (by decide)
    (by decide) (by decide +kernel)
  exact ⟨config, hload, fun plan => onMessagePublish_safe
    (readUserConfig_ofMapping (by decide) (by decide)) hload _ plan _ _⟩

end Delivery

end Floodgate.Ports
