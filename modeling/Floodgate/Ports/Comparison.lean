import Floodgate.Ports.Broker
import Floodgate.Ports.ZerohopJson

/-!
# Comparing configurations

Two configurations may be written in different ways and do the same, and one may keep
more from the subscribers than another.  Which it is shows in the answers to messages
alone: a configuration is as strict as another if no message is let through by it that
the other denies or zero-hops.

The log level and the log format are compared only on payloads that the handlers of both
can print: on another one, the handler of one of them may raise.

This comparison of answers, over all topics and payloads, is the comparison of what the
user's values list.  A channel or a portnum that one configuration lists and the other
does not is told apart by one message: every channel without a slash is the channel of a
topic, and every portnum can be named in a JSON payload, even one with surrogates.

## Main results

* `strictness_decision_le`: a policy within another is less strict on every packet.
* `loads_portnumPayload`: a payload that names a portnum.
* `configurations_compare`: the order of the answers is the order of the values.
-/

namespace Floodgate.Ports

open Floodgate.Verified
open Floodgate.Verified.FailOpen

/-! ## Strictness -/

/-- What an answer keeps from the subscribers: nothing, the hops, or the message. -/
def Action.strictness : Action → Nat
  | .passthru => 0
  | .modify => 1
  | .drop => 2

/-- The log handler that a floodgate with the configuration has can print the members of
the payload that a record shows. -/
def PrintsRecords (rt : Runtime) (formatters : Formatters) (config : Config) (topic : PyStr)
    (payload : Bytes) : Prop :=
  ∀ channel encoding, parseMeshtasticTopic topic = some (channel, encoding) →
    Loggable (rt.serving formatters config) encoding payload JsonObject.loggedMembers

/-- What a floodgate with the configuration answers, on its own handler. -/
def answer (rt : Runtime) (formatters : Formatters) (config : Config) (topic : PyStr)
    (payload : Bytes) (w : World) : ProcessResult :=
  (processMessage (rt.serving formatters config) noFault topic payload config w).1

/-- The second configuration is as strict as the first one on every message that the
handlers of both can print. -/
def AsStrict (rt : Runtime) (formatters : Formatters) (config config' : Config) : Prop :=
  ∀ topic payload w w', PrintsRecords rt formatters config topic payload →
    PrintsRecords rt formatters config' topic payload →
    (answer rt formatters config topic payload w).action.strictness ≤
      (answer rt formatters config' topic payload w').action.strictness

/-- The two configurations give the same answer to every message that the handlers of both
can print. -/
def SameAnswers (rt : Runtime) (formatters : Formatters) (config config' : Config) : Prop :=
  ∀ topic payload w w', PrintsRecords rt formatters config topic payload →
    PrintsRecords rt formatters config' topic payload →
    answer rt formatters config topic payload w = answer rt formatters config' topic payload w'

/-- What the first policy zero-hops or denies, so does the second, on the channels that a
topic can have. -/
structure Policy.Within (p p' : Policy) : Prop where
  zerohops : ∀ channel, SlashFree channel → p.zerohops channel = true →
    p'.zerohops channel = true
  drops : ∀ channel portnum, SlashFree channel → p.drops channel portnum = true →
    p'.drops channel portnum = true

section Policies

variable {p p' : Policy} {channel : PyStr} {portnum : Option PyStr} {view : Option PacketView}

theorem strictness_le_two (decision : Decision) : decision.result.action.strictness ≤ 2 := by
  cases decision with
  | deliver => exact Nat.zero_le 2
  | rewrite => exact Nat.le_succ 1
  | deny => exact le_refl 2

/-- Only a dropped portnum is denied. -/
theorem two_le_strictness_iff :
    2 ≤ (p.decision channel portnum view).result.action.strictness ↔
      p.drops channel portnum = true := by
  unfold Policy.decision
  split
  · next h => exact iff_of_true (le_refl 2) h
  · next h =>
    refine iff_of_false ?_ h
    split
    · cases view with
      | none => decide
      | some v =>
          dsimp only
          split
          · decide
          · exact Nat.not_succ_le_self 1
    · decide

/-- A packet with hops left and without a portnum shows whether its channel is
zero-hopped. -/
theorem one_le_strictness_iff {v : PacketView} (hhop : v.hop ≠ 0) :
    1 ≤ (p.decision channel none (some v)).result.action.strictness ↔
      p.zerohops channel = true := by
  have hdrop : p.drops channel none = false := by
    simp [Policy.drops]
  unfold Policy.decision
  rw [hdrop, if_neg Bool.false_ne_true]
  split
  · next h =>
    dsimp only
    rw [if_neg hhop]
    exact iff_of_true (le_refl 1) h
  · next h => exact iff_of_false (by decide) h

/-- On every packet, a policy is as strict as those within it. -/
theorem strictness_decision_le (h : p.Within p') (hchannel : SlashFree channel)
    (portnum : Option PyStr) (view : Option PacketView) :
    (p.decision channel portnum view).result.action.strictness ≤
      (p'.decision channel portnum view).result.action.strictness := by
  by_cases hdrop' : p'.drops channel portnum = true
  · exact (strictness_le_two _).trans (two_le_strictness_iff.mpr hdrop')
  · have hdrop : ¬p.drops channel portnum = true := mt (h.drops channel portnum hchannel) hdrop'
    unfold Policy.decision
    rw [if_neg hdrop, if_neg hdrop']
    by_cases hzerohop : p.zerohops channel = true
    · rw [if_pos hzerohop, if_pos (h.zerohops channel hchannel hzerohop)]
    · rw [if_neg hzerohop]
      exact Nat.zero_le _

/-- Policies within each other decide the same. -/
theorem decision_eq_of_within (h : p.Within p') (h' : p'.Within p) (hchannel : SlashFree channel)
    (portnum : Option PyStr) (view : Option PacketView) :
    p.decision channel portnum view = p'.decision channel portnum view := by
  have hdrop : p.drops channel portnum = p'.drops channel portnum :=
    Bool.eq_iff_iff.mpr ⟨h.drops channel portnum hchannel, h'.drops channel portnum hchannel⟩
  have hzerohop : p.zerohops channel = p'.zerohops channel :=
    Bool.eq_iff_iff.mpr ⟨h.zerohops channel hchannel, h'.zerohops channel hchannel⟩
  unfold Policy.decision
  rw [hdrop, hzerohop]

end Policies

/-! ## Answers -/

section Answers

variable {rt : Runtime} {formatters : Formatters} {topic channel : PyStr}
  {encoding : Encoding} {payload : Bytes} {config : Config} {p : Policy}

/-- A packet with an id that has no format is never kept from the subscribers: its record
raises, whatever the verdict. -/
theorem processMessage_of_unformattable
    (htopic : parseMeshtasticTopic topic = some (channel, encoding))
    (hformat : ¬NodesFormattable rt encoding payload) (config : Config) (w : World) :
    (processMessage rt noFault topic payload config w).1 = .passthru := by
  cases hj : judge rt topic payload config with
  | error e => rw [processMessage_of_raised hj]
  | ok v =>
      rcases @Call.run_of_judge rt ⟨topic, payload, config⟩ v hj w with
        ⟨hnot, hresult, -⟩ | ⟨-, hrun⟩
      · refine hresult.trans ?_
        cases judged_of_judge hj with
        | skipped | passthru | warn | noop => rfl
        | dropped htopic' hdrop =>
            obtain ⟨rfl, rfl⟩ := Prod.mk.inj (Option.some.inj (htopic.symm.trans htopic'))
            have hiff := @Call.raisesInRecord_iff rt ⟨topic, payload, config⟩ _ _ _ htopic
              fun data hjson _ => Call.shown?_of_dropMatches hdrop data hjson
            exact absurd (hiff.mpr fun h => hformat h.1) hnot
        | zerohop htopic' hdrop hzerohop hview =>
            obtain ⟨rfl, rfl⟩ := Prod.mk.inj (Option.some.inj (htopic.symm.trans htopic'))
            have hiff := @Call.raisesInRecord_iff rt ⟨topic, payload, config⟩ _ _ _ htopic
              (Call.shown?_of_view hdrop hzerohop hview)
            exact absurd (hiff.mpr fun h => hformat h.1) hnot
      · exact congrArg Prod.fst hrun

/-- A channel that is read from a topic has no slash. -/
theorem slashFree_of_parse (htopic : parseMeshtasticTopic topic = some (channel, encoding)) :
    SlashFree channel := by
  obtain ⟨t, -, rfl, -⟩ := parseMeshtasticTopic_iff.mp htopic
  exact t.channel_slashFree

theorem answer_of_unformattable
    (htopic : parseMeshtasticTopic topic = some (channel, encoding))
    (hformat : ¬NodesFormattable rt encoding payload) (w : World) :
    answer rt formatters config topic payload w = .passthru :=
  @processMessage_of_unformattable (rt.serving formatters config) _ _ _ _ htopic hformat config w

/-- Other packets are answered as the policy decides, if the handler can print them. -/
theorem answer_of_formattable (hp : config.HasPolicy p)
    (htopic : parseMeshtasticTopic topic = some (channel, encoding))
    (hformat : NodesFormattable rt encoding payload)
    (hprintable : PrintsRecords rt formatters config topic payload) (w : World) :
    answer rt formatters config topic payload w =
      (p.decision channel (extractPortnum rt encoding payload)
        (viewPacket rt encoding payload)).result := by
  rw [answer, processMessage_eq_gate hp (fun channel' encoding' htopic' => ?_) w, gate_serving,
    gate, htopic]
  obtain ⟨-, rfl⟩ := Prod.mk.inj (Option.some.inj (htopic.symm.trans htopic'))
  exact ⟨hformat, hprintable _ _ htopic⟩

/-- What is no packet is let through. -/
theorem answer_of_noPacket (hp : config.HasPolicy p)
    (htopic : parseMeshtasticTopic topic = none) (w : World) :
    answer rt formatters config topic payload w = .passthru := by
  rw [answer, processMessage_eq_gate hp (fun channel' encoding' htopic' => ?_) w, gate, htopic]
  · rfl
  · cases htopic.symm.trans htopic'

end Answers

/-! ## Messages that tell configurations apart -/

/-- A character of a JSON string, as it stands where the grammar lets it. -/
def rawUnits (c : PyChar) : List StrUnit :=
  if h : isPlain c = true then [.plain c h] else escapeJsonChar c

/-- Surrogates that stand in a string are not joined. -/
theorem unitsValue_rawUnits (s : PyStr) : unitsValue (s.flatMap rawUnits) = s := by
  have hunit : ∀ c us, unitsValue (rawUnits c ++ us) = c :: unitsValue us := by
    intro c us
    unfold rawUnits
    split
    · next h => cases us <;> rfl
    · next h =>
      -- what is not plain is a control character, a quote or a backslash
      have hsurrogate : c.isSurrogate = false := by
        rw [isPlain_iff, not_and_or, not_and_or, not_not, not_not] at h
        simp only [PyChar.isSurrogate, Bool.and_eq_false_iff, decide_eq_false_iff_not]
        rcases h with h | rfl | rfl
        · omega
        · decide
        · decide
      exact unitsValue_escapeJsonChar hsurrogate us
  induction s with
  | nil => rfl
  | cons c s ih => rw [List.flatMap_cons, hunit, ih]

/-- An object that names a portnum. -/
def portnumObject (pn : PyStr) : JsonObject where
  members := [(py "portnum", .str pn)]
  wf := by simp [Json.wf, Json.wfMembers, Assoc.keys]

/-- Its syntax. -/
def portnumTree (pn : PyStr) : JsonTree :=
  .obj [(escapeJsonString (py "portnum"), .str (pn.flatMap rawUnits))]

/-- Its payload, in UTF-32. -/
def portnumPayload (pn : PyStr) : Bytes := utf32Bytes (portnumTree pn).print

theorem spells_portnumTree (pn : PyStr) : Spells 1 (portnumTree pn) (portnumTree pn).print :=
  JsonCodec.spells_obj (List.forall_mem_singleton.mpr (SpellsScalar.str _))

theorem build_portnumTree (pn : PyStr) :
    build (portnumTree pn) = .ok (portnumObject pn).toDoc := by
  have hkey : unitsValue (escapeJsonString (py "portnum")) = py "portnum" :=
    unitsValue_escapeJsonString (by decide)
  have hvalue := unitsValue_rawUnits pn
  simp only [portnumTree, build, buildMembers, hkey, hvalue]
  rfl

/-- Every portnum can be named in a payload. -/
theorem loads_portnumPayload {C : JsonCodec} (hdepth : 1 ≤ C.maxDepth) (pn : PyStr) :
    C.loads (portnumPayload pn) = .ok (portnumObject pn).toDoc := by
  obtain ⟨tail, htail⟩ : ∃ tail, (portnumTree pn).print = openBrace :: tail := by
    rw [portnumTree, JsonTree.print]
    exact ⟨_, rfl⟩
  rw [JsonCodec.loads_eq_ok_iff]
  refine ⟨(portnumTree pn).print, portnumTree pn, ?_,
    ((spells_portnumTree pn).mono hdepth).document, build_portnumTree pn⟩
  rw [portnumPayload, htail]
  exact decodePayload_utf32Bytes (by decide) tail

/-- A packet with hops left and without a portnum. -/
def demoHops : JsonObject := ⟨[(py "hop_limit", .int 3)], by decide⟩

/-- It has a payload. -/
theorem loads_demoHops {C : JsonCodec} (hdepth : 1 ≤ C.maxDepth) :
    C.loads (C.dumps demoHops.toDoc) = .ok demoHops.toDoc := by
  obtain ⟨depth, hmax⟩ := Nat.exists_eq_add_of_le' hdepth
  have hint : (Json.int 3).Fits depth := by
    simpa [Json.Fits] using hugeInt_eq_false (n := 3) (k := 1) (by decide) (by decide)
  have hfits : demoHops.toDoc.val.Fits C.maxDepth := by
    rw [hmax]
    intro kv hkv
    rw [List.mem_singleton.mp hkv]
    exact hint
  exact C.loads_dumps (by decide) hfits

/-- Every channel without a slash is the channel of a JSON topic. -/
theorem exists_topic_of_slashFree {channel : PyStr} (h : SlashFree channel) :
    ∃ topic, parseMeshtasticTopic topic = some (channel, .json) :=
  ⟨_, parseMeshtasticTopic_iff.mpr ⟨
    { levels := [py "US"]
      encoding := .json
      channel := channel
      nodeId := py "!12345678"
      levels_ne_nil := by simp
      levels_slashFree := by decide
      channel_slashFree := h
      nodeId_slashFree := by decide
      nodeId_bang := by decide }, rfl, rfl, rfl⟩⟩

section Separation

variable {rt : Runtime} {formatters : Formatters} {C : JsonCodec}
  {config config' : Config} {p p' : Policy}

/-- What is shown by one message each: a channel that is zero-hopped, and a portnum that
is dropped on a channel. -/
theorem within_of_asStrict (hdepth : 1 ≤ C.maxDepth) (hp : config.HasPolicy p)
    (hp' : config'.HasPolicy p') (h : AsStrict (rt.withJson C) formatters config config') :
    p.Within p' := by
  have hanswers : ∀ {channel : PyStr} {data : JsonObject} {payload : Bytes},
      SlashFree channel → C.loads payload = .ok data.toDoc →
      NodeFormattable (data.get (py "from")) ∧ NodeFormattable (data.get (py "to")) →
      (∀ v ∈ data.loggedMembers, v.isContainer = false) →
      (p.decision channel (probePortnum rt data)
          (viewPacket (rt.withJson C) .json payload)).result.action.strictness ≤
        (p'.decision channel (probePortnum rt data)
          (viewPacket (rt.withJson C) .json payload)).result.action.strictness := by
    intro channel data payload hchannel hloads hnodes hscalars
    obtain ⟨topic, htopic⟩ := exists_topic_of_slashFree hchannel
    have hformat : NodesFormattable (rt.withJson C) .json payload := by
      intro data' _ hloads'
      obtain rfl := JsonDoc.toDoc_injective (Except.ok.inj (hloads.symm.trans hloads'))
      exact hnodes
    have hportnum : extractPortnum (rt.withJson C) .json payload = probePortnum rt data :=
      @extractPortnumJson_toDoc (rt.withJson C) payload data hloads
    have hprintable : ∀ config,
        PrintsRecords (rt.withJson C) formatters config topic payload := by
      intro config channel' encoding' htopic' data' _ hloads'
      obtain rfl := JsonDoc.toDoc_injective (Except.ok.inj (hloads.symm.trans hloads'))
      exact LogHandler.not_overflows_of_scalars hscalars
    have hstrict := h topic payload .initial .initial (hprintable _) (hprintable _)
    rwa [answer_of_formattable hp htopic hformat (hprintable _),
      answer_of_formattable hp' htopic hformat (hprintable _), hportnum] at hstrict
  constructor
  · intro channel hchannel hzerohop
    have hloads := loads_demoHops hdepth
    have hview := @viewPacket_json (rt.withJson C) _ demoHops hloads
      ((badHopFields_eq_nil_iff demoHops).mp (by decide))
    have hhop : (viewJson (rt.withJson C) demoHops).hop ≠ 0 := by
      show effectiveHop demoHops ≠ 0
      decide
    have hle := hanswers hchannel hloads (by decide) (by decide)
    have hportnum : probePortnum rt demoHops = none := rfl
    rw [hview, hportnum] at hle
    exact (one_le_strictness_iff hhop).mp
      (((one_le_strictness_iff hhop).mpr hzerohop).trans hle)
  · intro channel portnum hchannel hdrop
    cases portnum with
    | none => simp [Policy.drops] at hdrop
    | some pn =>
        have hle := hanswers hchannel (loads_portnumPayload hdepth pn) ⟨trivial, trivial⟩
          (by simp [JsonObject.loggedMembers, portnumObject, JsonObject.get, JsonObject.get?,
            Json.isContainer])
        have hportnum : probePortnum rt (portnumObject pn) = some pn := rfl
        rw [hportnum] at hle
        exact two_le_strictness_iff.mp ((two_le_strictness_iff.mpr hdrop).trans hle)

/-- Policies that decide in the same order answer every message in this order. -/
theorem asStrict_of_within (hp : config.HasPolicy p) (hp' : config'.HasPolicy p')
    (h : p.Within p') : AsStrict rt formatters config config' := by
  intro topic payload w w' hprintable hprintable'
  cases htopic : parseMeshtasticTopic topic with
  | none => rw [answer_of_noPacket hp htopic, answer_of_noPacket hp' htopic]
  | some parsed =>
      obtain ⟨channel, encoding⟩ := parsed
      by_cases hformat : NodesFormattable rt encoding payload
      · rw [answer_of_formattable hp htopic hformat hprintable,
          answer_of_formattable hp' htopic hformat hprintable']
        exact strictness_decision_le h (slashFree_of_parse htopic) _ _
      · rw [answer_of_unformattable htopic hformat, answer_of_unformattable htopic hformat]

/-- Policies within each other answer every message in the same way. -/
theorem sameAnswers_of_within (hp : config.HasPolicy p) (hp' : config'.HasPolicy p')
    (h : p.Within p') (h' : p'.Within p) : SameAnswers rt formatters config config' := by
  intro topic payload w w' hprintable hprintable'
  cases htopic : parseMeshtasticTopic topic with
  | none => rw [answer_of_noPacket hp htopic, answer_of_noPacket hp' htopic]
  | some parsed =>
      obtain ⟨channel, encoding⟩ := parsed
      by_cases hformat : NodesFormattable rt encoding payload
      · rw [answer_of_formattable hp htopic hformat hprintable,
          answer_of_formattable hp' htopic hformat hprintable',
          decision_eq_of_within h h' (slashFree_of_parse htopic)]
      · rw [answer_of_unformattable htopic hformat, answer_of_unformattable htopic hformat]

end Separation

/-! ## In the user's words -/

/-- What the values of the first dictionary say to zero-hop or to drop, those of the second
say as well, on the channels that a topic can have. -/
structure Widens (cfg cfg' : Config) : Prop where
  zerohop : ∀ channel, SlashFree channel →
    cfg.value .zerohopEnabled = .bool true ∧ Listed (cfg.value .zerohopChannels) channel →
    cfg'.value .zerohopEnabled = .bool true ∧ Listed (cfg'.value .zerohopChannels) channel
  drop : ∀ channel pn, SlashFree channel →
    cfg.value .dropEnabled = .bool true ∧ Listed (cfg.value .dropPortnums) pn ∧
      ScopeListed cfg channel →
    cfg'.value .dropEnabled = .bool true ∧ Listed (cfg'.value .dropPortnums) pn ∧
      ScopeListed cfg' channel

/-- The policies of valid values are within each other as the values are. -/
theorem within_ofValues_iff {host host' : ConfigHost} {user user' : List (PyStr × PyVal)}
    (hvalid : ∀ key, ValidKey host user key) (hvalid' : ∀ key, ValidKey host' user' key) :
    (Policy.ofValues (overlay user)).Within (Policy.ofValues (overlay user')) ↔
      Widens (overlay user) (overlay user') := by
  have hzerohops : ∀ {host user channel}, (∀ key, ValidKey host user key) →
      ((Policy.ofValues (overlay user)).zerohops channel = true ↔
        (overlay user).value .zerohopEnabled = .bool true ∧
          Listed ((overlay user).value .zerohopChannels) channel) := fun hvalid =>
    zerohops_ofValues_iff (hvalid .zerohopEnabled)
  have hdrops : ∀ {host user channel pn}, (∀ key, ValidKey host user key) →
      ((Policy.ofValues (overlay user)).drops channel (some pn) = true ↔
        (overlay user).value .dropEnabled = .bool true ∧
          Listed ((overlay user).value .dropPortnums) pn ∧
          ScopeListed (overlay user) channel) := fun hvalid => by
    rw [drops_ofValues_iff (hvalid .dropEnabled) (hvalid .dropChannels)]
    simp
  constructor
  · intro h
    refine ⟨fun channel hchannel => ?_, fun channel pn hchannel => ?_⟩
    · rw [← hzerohops hvalid, ← hzerohops hvalid']
      exact h.zerohops channel hchannel
    · rw [← hdrops hvalid, ← hdrops hvalid']
      exact h.drops channel (some pn) hchannel
  · intro h
    refine ⟨fun channel hchannel => ?_, fun channel portnum hchannel => ?_⟩
    · rw [hzerohops hvalid, hzerohops hvalid']
      exact h.zerohop channel hchannel
    · cases portnum with
      | none => simp [Policy.drops]
      | some pn =>
          rw [hdrops hvalid, hdrops hvalid']
          exact h.drop channel pn hchannel

/-- Any two starts, compared by their answers to all messages that both can print.  The
second is as strict as the first exactly when its values list what those of the first list,
and the two are interchangeable exactly when both do.  Channels with a slash do not count,
and neither does in what way the lists are written. -/
theorem configurations_compare (rt : Runtime) (formatters : Formatters) {C : JsonCodec}
    (hdepth : 1 ≤ C.maxDepth)
    {s s' : Start} {config config' : Config} {user user' : List (PyStr × PyVal)}
    (hserves : s.Serves config) (hreads : s.Reads user) (hserves' : s'.Serves config')
    (hreads' : s'.Reads user') :
    (AsStrict (rt.withJson C) formatters config config' ↔ Widens (overlay user) (overlay user')) ∧
    (SameAnswers (rt.withJson C) formatters config config' ↔
      Widens (overlay user) (overlay user') ∧ Widens (overlay user') (overlay user)) := by
  obtain ⟨user₁, hmeans⟩ := hserves.means
  obtain rfl := hreads.unique hmeans.reads
  obtain ⟨user₂, hmeans'⟩ := hserves'.means
  obtain rfl := hreads'.unique hmeans'.reads
  have hp := hmeans.policy
  have hp' := hmeans'.policy
  rw [← within_ofValues_iff hmeans.valid hmeans'.valid,
    ← within_ofValues_iff hmeans'.valid hmeans.valid]
  refine ⟨⟨within_of_asStrict hdepth hp hp', asStrict_of_within hp hp'⟩, ?_⟩
  constructor
  · intro h
    have hforth : AsStrict (rt.withJson C) formatters config config' :=
      fun topic payload w w' hp hp' =>
        (congrArg (fun r => r.action.strictness) (h topic payload w w' hp hp')).le
    have hback : AsStrict (rt.withJson C) formatters config' config :=
      fun topic payload w w' hp hp' =>
        (congrArg (fun r => r.action.strictness) (h topic payload w' w hp' hp)).ge
    exact ⟨within_of_asStrict hdepth hp hp' hforth, within_of_asStrict hdepth hp' hp hback⟩
  · rintro ⟨hwithin, hwithin'⟩
    exact sameAnswers_of_within hp hp' hwithin hwithin'

/-- Dropping texts is stricter than the defaults. -/
theorem configurations_compare_dropTexts :
    ∃ config config', (Start.mk (ConfigHost.ofMapping []) (some (py "config.yaml")) false).Serves
        config ∧ demoStart.Serves config' ∧
      AsStrict ((demoJson (.int 7) rfl "7").withJson (.exact 1)) demoFormatters config
        config' ∧
      ¬SameAnswers ((demoJson (.int 7) rfl "7").withJson (.exact 1)) demoFormatters config
        config' := by
  obtain ⟨⟨config, hserves⟩, hreads⟩ := exists_serves [] (by decide) (by decide +kernel)
  obtain ⟨⟨config', hserves'⟩, hreads'⟩ :=
    exists_serves dropTexts (by decide) (by decide +kernel)
  have hwidens : Widens (overlay []) (overlay dropTexts) :=
    { zerohop := fun channel _ h => h
      drop := fun channel pn _ h => by cases h.1 }
  have hnot : ¬Widens (overlay dropTexts) (overlay []) := fun h => by
    have hdrop := h.drop (py "LongFast") (py "TEXT_MESSAGE_APP") (by decide)
      ⟨rfl, ⟨_, rfl, List.mem_singleton_self _⟩, Or.inl (Or.inr rfl)⟩
    cases hdrop.1
  obtain ⟨horder, hsame⟩ := configurations_compare (demoJson (.int 7) rfl "7")
    demoFormatters (show 1 ≤ (JsonCodec.exact 1).maxDepth from le_refl 1) hserves hreads
    hserves' hreads'
  exact ⟨config, config', hserves, hserves', horder.mpr hwidens, fun h => hnot (hsame.mp h).2⟩

end Floodgate.Ports
