import Floodgate.Verified.TopicFilter
import Floodgate.Verified.Transition
import Floodgate.Ports.Delivery
import Floodgate.Ports.Gate
import Floodgate.Ports.Startup
import Floodgate.Ports.TopicGrammar

/-!
# The broker and the hook

EMQX asks a floodgate which topics it is to be called for, once, when it loads the hook.
From then on it calls whatever floodgate answers at the address for the publishes on
these topics, through restarts with other configurations, until the hook is unloaded.
A call that fails, because nothing answers or not in time, delivers the message as it
came; so does an unloaded hook.

Topic filters are those of MQTT: `+` stands for one level, `#` for all that are left,
and neither for a first level that starts with a dollar sign.

## Main results

* `covers_packets_iff`: the topic filters that no packet topic escapes.
* `recorded_of_run`: what EMQX and the floodgate hold, from the history.
* `deployment_safe`: what becomes of a publish, over every history.
* `deployment_enforces`: which packets no history leaves relayable.
-/

namespace Floodgate.Ports

open Floodgate.Verified
open Floodgate.Verified.FailOpen
open Floodgate.Verified.Transition
open Floodgate.Verified.TopicFilter

/-! ## Topic filters -/

/-- A level of a topic filter. -/
def segmentOf (s : PyStr) : Segment PyStr :=
  if s = py "#" then .rest else if s = py "+" then .one else .level s

/-- The filter starts with a wildcard. -/
def startsWild (filter : PyStr) : Bool :=
  filter.head? = some (ch '+') || filter.head? = some (ch '#')

/-- The MQTT topic filter matches the topic. -/
def topicMatches (filter topic : PyStr) : Bool :=
  !(startsWild filter && decide (topic.head? = some (ch '$'))) &&
    accepts ((filter.splitOn (ch '/')).map segmentOf) (topic.splitOn (ch '/'))

theorem segmentOf_eq_rest {s : PyStr} : segmentOf s = .rest ↔ s = py "#" := by
  unfold segmentOf
  split
  · next h => exact iff_of_true rfl h
  · next h =>
    split <;> exact iff_of_false (by simp) h

/-- A segment that stands for a level is the level, or the wildcard. -/
theorem standsFor_segmentOf {s level : PyStr} (h : StandsFor (segmentOf s) level) :
    s = level ∨ s = py "+" := by
  unfold segmentOf at h
  split at h
  · exact absurd h not_standsFor_rest
  · split at h
    · next hone => exact Or.inr hone
    · exact Or.inl (standsFor_level.mp h)

theorem head_text (t : PacketTopic) : t.text.head? = some (ch 'm') := by
  have hsegments : t.segments = py "msh" :: (t.levels ++ [t.encoding.text, t.channel, t.nodeId]) :=
    rfl
  rw [PacketTopic.text, hsegments]
  cases hrest : t.levels ++ [t.encoding.text, t.channel, t.nodeId] with
  | nil => simp at hrest
  | cons first rest => rfl

/-- On packet topics, filters go by their levels. -/
theorem topicMatches_text (filter : PyStr) (t : PacketTopic) :
    topicMatches filter t.text =
      accepts ((filter.splitOn (ch '/')).map segmentOf) t.segments := by
  have hdollar : ch 'm' ≠ ch '$' := by decide
  rw [topicMatches, head_text, t.splitOn_text]
  simp [hdollar]

/-- A packet topic with one level in front of the encoding. -/
def shortTopic (level channel nodeId : PyStr) (encoding : Encoding)
    (h : SlashFree level ∧ SlashFree channel ∧ SlashFree nodeId)
    (hbang : py "!" <+: nodeId) : PacketTopic where
  levels := [level]
  encoding := encoding
  channel := channel
  nodeId := nodeId
  levels_ne_nil := by simp
  levels_slashFree := by simpa using h.1
  channel_slashFree := h.2.1
  nodeId_slashFree := h.2.2
  nodeId_bang := hbang

/-- Two short topics without a level in common, but for the first, and a longer one. -/
def topicA : PacketTopic := shortTopic (py "1") (py "a") (py "!a") .e (by decide) (by decide)

def topicB : PacketTopic := shortTopic (py "2") (py "b") (py "!b") .json (by decide) (by decide)

def topicC : PacketTopic := { topicA with
  levels := [py "1", py "1"]
  levels_ne_nil := by simp
  levels_slashFree := by decide }

/-- A segment that stands for two levels is the wildcard. -/
theorem eq_plus_of_standsFor {segments xs ys : List PyStr}
    (hxs : List.Forall₂ StandsFor (segments.map segmentOf) xs)
    (hys : List.Forall₂ StandsFor (segments.map segmentOf) ys)
    (hne : List.Forall₂ (· ≠ ·) xs ys) : ∀ s ∈ segments, s = py "+" := by
  induction segments generalizing xs ys with
  | nil => exact fun _ h => absurd h List.not_mem_nil
  | cons s segments ih =>
      cases hxs with
      | cons hx hxs =>
        cases hys with
        | cons hy hys =>
          cases hne with
          | cons hxy hne =>
            refine List.forall_mem_cons.mpr ⟨?_, ih hxs hys hne⟩
            rcases standsFor_segmentOf hx with rfl | hplus
            · rcases standsFor_segmentOf hy with rfl | hplus
              · exact absurd rfl hxy
              · exact hplus
            · exact hplus

theorem forall₂_plus {segments topic : List PyStr} (h : ∀ s ∈ segments, s = py "+")
    (hlength : segments.length = topic.length) :
    List.Forall₂ StandsFor (segments.map segmentOf) topic := by
  induction segments generalizing topic with
  | nil =>
      obtain rfl := List.length_eq_zero_iff.mp hlength.symm
      exact .nil
  | cons s segments ih =>
      obtain ⟨rfl, hrest⟩ := List.forall_mem_cons.mp h
      cases topic with
      | nil => cases hlength
      | cons level topic =>
          have hone : segmentOf (py "+") = .one := by decide
          rw [List.map_cons, hone]
          exact .cons (.one level) (ih hrest (Nat.succ.inj hlength))

/-- The levels of a filter that every packet topic matches: at most five before the `#`,
and all of them wildcards, but that the first may be `msh`. -/
def CoversPackets (levels : List PyStr) : Prop :=
  ∃ front, levels = front ++ [py "#"] ∧ front.length ≤ 5 ∧
    (∀ s ∈ front.head?, s = py "msh" ∨ s = py "+") ∧ ∀ s ∈ front.tail, s = py "+"

theorem segments_cons (t : PacketTopic) : t.segments = py "msh" :: t.segments.tail := rfl

theorem five_le_length_segments (t : PacketTopic) : 5 ≤ t.segments.length := by
  have hlevels := List.length_pos_iff.mpr t.levels_ne_nil
  simp only [PacketTopic.segments, List.length_cons, List.length_append, List.length_nil]
  omega

/-- A filter of at most five wildcards and a `#` catches every packet topic. -/
theorem accepts_of_coversPackets {levels : List PyStr} (h : CoversPackets levels)
    (t : PacketTopic) : accepts (levels.map segmentOf) t.segments = true := by
  obtain ⟨front, rfl, hlength, hhead, htail⟩ := h
  have hrest : [py "#"].map segmentOf = [.rest] := by decide
  rw [List.map_append, hrest, accepts_open_iff, List.length_map]
  cases front with
  | nil => exact .nil
  | cons s front =>
      have hfive := five_le_length_segments t
      rw [segments_cons] at hfive ⊢
      rw [List.length_cons] at hlength hfive
      refine .cons ?_ (forall₂_plus htail ?_)
      · rcases hhead s rfl with rfl | rfl
        · exact .level _
        · exact .one _
      · rw [List.length_take]
        omega

/-- What a filter stands for that catches a topic and a longer one, and two topics that
have nothing but their first level in common. -/
theorem coversPackets_of_accepts {levels : List PyStr}
    (h : ∀ t : PacketTopic, accepts (levels.map segmentOf) t.segments = true) :
    CoversPackets levels := by
  obtain ⟨open', hopen⟩ := exists_front_of_length_ne (h topicA) (h topicC) (by decide)
  obtain ⟨front, last, rfl, rfl, hlast⟩ := List.map_eq_append_iff.mp hopen
  obtain ⟨s, rfl, hs⟩ := List.map_eq_singleton_iff.mp hlast
  obtain rfl := segmentOf_eq_rest.mp hs
  have hstands : ∀ t : PacketTopic, List.Forall₂ StandsFor (front.map segmentOf)
      (t.segments.take front.length) := fun t => by
    simpa only [List.map_append, List.map_cons, List.map_nil, hs, accepts_open_iff,
      List.length_map] using h t
  have hlength := (hstands topicA).length_eq
  rw [List.length_map, List.length_take] at hlength
  refine ⟨front, rfl, hlength.trans_le (min_le_right _ _), ?_⟩
  cases front with
  | nil => exact ⟨fun _ hs => absurd hs (by simp), fun _ hs => absurd hs List.not_mem_nil⟩
  | cons s front =>
      have hA := hstands topicA
      have hB := hstands topicB
      rw [segments_cons, List.length_cons, List.take_succ_cons, List.map_cons] at hA hB
      obtain ⟨hfirst, hA⟩ := List.forall₂_cons.mp hA
      obtain ⟨-, hB⟩ := List.forall₂_cons.mp hB
      have hne : List.Forall₂ (· ≠ ·) topicA.segments.tail topicB.segments.tail := by decide
      refine ⟨?_, eq_plus_of_standsFor hA hB (List.forall₂_take front.length hne)⟩
      rintro _ ⟨⟩
      exact standsFor_segmentOf hfirst

/-- No packet topic escapes a filter of that form. -/
theorem topicMatches_of_coversPackets {filter topic channel : PyStr} {encoding : Encoding}
    (h : CoversPackets (filter.splitOn (ch '/')))
    (hparse : parseMeshtasticTopic topic = some (channel, encoding)) :
    topicMatches filter topic = true := by
  obtain ⟨t, rfl, -, -⟩ := parseMeshtasticTopic_iff.mp hparse
  rw [topicMatches_text]
  exact accepts_of_coversPackets h t

/-- The topic filters that no packet topic escapes. -/
theorem covers_packets_iff (filter : PyStr) :
    (∀ topic channel encoding, parseMeshtasticTopic topic = some (channel, encoding) →
      topicMatches filter topic = true) ↔ CoversPackets (filter.splitOn (ch '/')) := by
  constructor
  · intro h
    refine coversPackets_of_accepts fun t => ?_
    rw [← topicMatches_text]
    exact h _ _ _ (parseMeshtasticTopic_iff.mpr ⟨t, rfl, rfl, rfl⟩)
  · intro h topic channel encoding hparse
    exact topicMatches_of_coversPackets h hparse

/-! ## The broker -/

/-- A start of floodgate, with the files and the command line it finds. -/
structure Start where
  host : ConfigHost
  configPath : Option PyStr
  verbose : Bool

/-- The start serves with the configuration. -/
def Start.Serves (s : Start) (config : Config) : Prop :=
  main s.host s.configPath s.verbose = .serves config

/-- What comes of the hook on a publish. -/
inductive HookCall where
  /-- No hook is registered for the topic. -/
  | unhooked
  /-- No response comes back. -/
  | failed
  /-- A response comes back; the processing raised what the plan says. -/
  | answered (plan : FaultPlan)

/-- An event at the broker. -/
inductive BrokerEvent where
  | start (s : Start)
  | halt
  | load
  | unload
  /-- A publish, and the message that EMQX goes on with. -/
  | publish (msg : ExMessage) (call : HookCall) (next : ExMessage)

/-- The hooks that EMQX has registered, and the floodgate that answers them. -/
structure Deployment where
  hooks : List HookSpec
  server : Option (Config × World)

/-- EMQX calls a hook for the topic. -/
def hooked (hooks : List HookSpec) (topic : PyStr) : Bool :=
  hooks.any fun hook =>
    decide (hook.name = py "message.publish") && hook.topics.any fun filter =>
      topicMatches filter topic

/-- The message that EMQX goes on with after a response. -/
def ValuedResponse.next (resp : ValuedResponse) (msg : ExMessage) : ExMessage :=
  match resp.type, resp.value with
  | .continue, some (.message answer) => answer
  | .stopAndReturn, some (.message answer) => answer
  | _, _ => msg

section Broker

variable (rt : Runtime) (formatters : Formatters)

/-- What an event does.  A floodgate logs with the handler that its start installed. -/
inductive BrokerStep (d : Deployment) : BrokerEvent → Deployment → Prop
  | start {s : Start} {config : Config} (hserves : s.Serves config) :
      BrokerStep d (.start s) { d with server := some (config, .initial) }
  | halt : BrokerStep d .halt { d with server := none }
  | load {config : Config} {w : World} {hooks : List HookSpec}
      (hserver : d.server = some (config, w)) (hload : onProviderLoaded config = some hooks) :
      BrokerStep d .load { d with hooks := hooks }
  | unload : BrokerStep d .unload { d with hooks := [] }
  | unhooked {msg : ExMessage} (hhooked : hooked d.hooks msg.topic = false) :
      BrokerStep d (.publish msg .unhooked msg) d
  | failed {msg : ExMessage} (hhooked : hooked d.hooks msg.topic = true) :
      BrokerStep d (.publish msg .failed msg) d
  -- the message was processed, but not in time
  | late {msg : ExMessage} {config : Config} {w : World} (plan : FaultPlan)
      (hhooked : hooked d.hooks msg.topic = true) (hserver : d.server = some (config, w)) :
      BrokerStep d (.publish msg .failed msg)
        { d with server := some (config,
          (onMessagePublish (rt.serving formatters config) plan config msg w).2) }
  | answered {msg : ExMessage} {config : Config} {w w' : World} {plan : FaultPlan}
      {resp : ValuedResponse} (hhooked : hooked d.hooks msg.topic = true)
      (hserver : d.server = some (config, w))
      (hanswer : onMessagePublish (rt.serving formatters config) plan config msg w =
        (.ok resp, w')) :
      BrokerStep d (.publish msg (.answered plan) (resp.next msg))
        { d with server := some (config, w') }

/-- The broker, from a start without hooks and without a floodgate. -/
def broker : System Deployment BrokerEvent where
  initial d := d = ⟨[], none⟩
  step := BrokerStep rt formatters

end Broker

/-! ## Histories -/

/-- The start of the floodgate that is running, and the start of the one that answered
the last load. -/
structure History where
  running : Option Start
  loaded : Option Start

def History.next (h : History) : BrokerEvent → History
  | .start s => { h with running := some s }
  | .halt => { h with running := none }
  | .load => { h with loaded := h.running }
  | .unload => { h with loaded := none }
  | .publish .. => h

/-- What some events leave behind. -/
def history (events : List BrokerEvent) : History := events.foldl History.next ⟨none, none⟩

/-- EMQX and the floodgate hold what the history says. -/
structure Recorded (h : History) (d : Deployment) : Prop where
  hooks : h.loaded = none ∧ d.hooks = [] ∨ ∃ s config, h.loaded = some s ∧ s.Serves config ∧
    onProviderLoaded config = some d.hooks
  server : h.running = none ∧ d.server = none ∨ ∃ s config w, h.running = some s ∧
    s.Serves config ∧ d.server = some (config, w)

section Histories

variable {rt : Runtime} {formatters : Formatters} {d d' : Deployment}
  {events : List BrokerEvent}

theorem Recorded.step {h : History} (hrec : Recorded h d) {event : BrokerEvent}
    (hstep : BrokerStep rt formatters d event d') : Recorded (h.next event) d' := by
  obtain ⟨hhooks, hserver⟩ := hrec
  have hkept : ∀ {config : Config} {w : World} (w' : World), d.server = some (config, w) →
      ∃ s config' w'', h.running = some s ∧ s.Serves config' ∧
        some (config, w') = some (config', w'') := by
    intro config w w' hconfig
    rcases hserver with ⟨-, hnone⟩ | ⟨s, config', w'', hs, hserves, hsome⟩
    · cases hnone.symm.trans hconfig
    · obtain ⟨rfl, rfl⟩ := Prod.mk.inj (Option.some.inj (hsome.symm.trans hconfig))
      exact ⟨s, config', w', hs, hserves, rfl⟩
  cases hstep with
  | start hserves => exact ⟨hhooks, Or.inr ⟨_, _, _, rfl, hserves, rfl⟩⟩
  | halt => exact ⟨hhooks, Or.inl ⟨rfl, rfl⟩⟩
  | load hconfig hload =>
      obtain ⟨s, config', _, hs, hserves, hsome⟩ := hkept .initial hconfig
      obtain ⟨rfl, -⟩ := Prod.mk.inj (Option.some.inj hsome)
      exact ⟨Or.inr ⟨s, _, hs, hserves, hload⟩, hserver⟩
  | unload => exact ⟨Or.inl ⟨rfl, rfl⟩, hserver⟩
  | unhooked | failed => exact ⟨hhooks, hserver⟩
  | late plan _ hconfig => exact ⟨hhooks, Or.inr (hkept _ hconfig)⟩
  | answered _ hconfig _ => exact ⟨hhooks, Or.inr (hkept _ hconfig)⟩

theorem Recorded.run {h : History} (hrun : (broker rt formatters).Run d events d')
    (hrec : Recorded h d) : Recorded (events.foldl History.next h) d' := by
  induction hrun generalizing h with
  | nil => exact hrec
  | cons hstep _ ih => exact ih (hrec.step hstep)

theorem recorded_of_run (hrun : (broker rt formatters).Run ⟨[], none⟩ events d) :
    Recorded (history events) d :=
  Recorded.run hrun ⟨Or.inl ⟨rfl, rfl⟩, Or.inl ⟨rfl, rfl⟩⟩

end Histories

/-! ## Starts in the user's words -/

/-- The start reads the values of a user. -/
def Start.Reads (s : Start) (user : List (PyStr × PyVal)) : Prop :=
  ∃ source, readUserConfig s.host s.configPath = .ok (user, source)

/-- What a start serves with: the policy and the topic filter of the user's values. -/
structure Start.Means (s : Start) (config : Config) (user : List (PyStr × PyVal)) : Prop where
  reads : s.Reads user
  valid : ∀ key, ValidKey s.host user key
  policy : config.HasPolicy (Policy.ofValues (overlay user))
  filter : ∃ filter, (overlay user).value .topicFilter = .str filter ∧
    config.get? (py "topic_filter") = some (.str filter)

/-- `--verbose` changes neither the policy nor the topic filter. -/
theorem Start.Serves.means {s : Start} {config : Config} (h : s.Serves config) :
    ∃ user, s.Means config user := by
  obtain ⟨loaded, hload, hsame⟩ := exists_loadConfig_of_serves h
  obtain ⟨⟨user, source⟩, hread⟩ : ∃ r, readUserConfig s.host s.configPath = .ok r := by
    cases hread : readUserConfig s.host s.configPath with
    | ok r => exact ⟨r, rfl⟩
    | error e =>
        rw [loadConfig, hread] at hload
        cases hload
  obtain ⟨hvalid, hresolved⟩ := loadConfig_accepted hread hload
  obtain ⟨filter, hfilter, -⟩ := hvalid .topicFilter
  have hget : loaded.get? (py "topic_filter") = some (.str filter) :=
    (hresolved.untouched _ (by decide)).trans
      ((get?_overlay user .topicFilter).trans (congrArg _ hfilter))
  exact ⟨user,
    { reads := ⟨source, hread⟩
      valid := hvalid
      policy := (hresolved.hasPolicy hvalid).of_get?_eq hsame
      filter := ⟨filter, hfilter, (hsame _ (by decide)).trans hget⟩ }⟩

theorem Start.Reads.unique {s : Start} {user user' : List (PyStr × PyVal)} (h : s.Reads user)
    (h' : s.Reads user') : user = user' := by
  obtain ⟨source, hread⟩ := h
  obtain ⟨source', hread'⟩ := h'
  exact (Prod.mk.inj (Except.ok.inj (hread.symm.trans hread'))).1

/-- The topic filter that EMQX was told last. -/
def History.Filter (h : History) (filter : PyStr) : Prop :=
  ∃ s user, h.loaded = some s ∧ s.Reads user ∧ (overlay user).value .topicFilter = .str filter

/-- EMQX calls the hook for what the topic filter that it was told last matches. -/
theorem Recorded.hooked_iff {h : History} {d : Deployment} (hrec : Recorded h d)
    (topic : PyStr) :
    hooked d.hooks topic = true ↔ ∃ filter, h.Filter filter ∧ topicMatches filter topic = true := by
  rcases hrec.hooks with ⟨hnone, hhooks⟩ | ⟨s, config, hs, hserves, hloaded⟩
  · refine iff_of_false (by simp [hhooks, hooked]) ?_
    rintro ⟨filter, ⟨s, -, hs, -⟩, -⟩
    cases hnone.symm.trans hs
  · obtain ⟨user, hmeans⟩ := hserves.means
    obtain ⟨filter, hfilter, hget⟩ := hmeans.filter
    have hhooks : d.hooks = [⟨py "message.publish", [filter]⟩] := by
      simp only [onProviderLoaded, hget, Option.getD_some] at hloaded
      split at hloaded
      · cases hloaded
      · exact (Option.some.inj hloaded).symm
    have hmatches : hooked d.hooks topic = topicMatches filter topic := by
      simp [hhooks, hooked]
    rw [hmatches]
    constructor
    · exact fun h => ⟨filter, ⟨s, user, hs, hmeans.reads, hfilter⟩, h⟩
    · rintro ⟨filter', ⟨s', user', hs', hreads, hfilter'⟩, h⟩
      obtain rfl := Option.some.inj (hs.symm.trans hs')
      obtain rfl := hreads.unique hmeans.reads
      obtain rfl := PyVal.str.inj (hfilter.symm.trans hfilter')
      exact h

/-! ## What becomes of a publish -/

/-- What a decision makes of a message. -/
def Decision.next (msg : ExMessage) : Decision → ExMessage
  | .deliver => msg
  | .rewrite payload => { msg with payload := payload }
  | .deny => { msg with headers := msg.headers.set (py "allow_publish") (py "false") }

theorem next_responseFor {msg : ExMessage} {decision : Decision} {resp : ValuedResponse}
    (h : responseFor msg decision.result = .ok resp) : resp.next msg = decision.next msg := by
  cases decision <;> cases h <;> rfl

/-- A response carries out the decision of the gate.  It delivers the message instead only
if something is raised inside: by a fault, or on an id without a format. -/
theorem onMessagePublish_decides {rt : Runtime} {config : Config} {p : Policy}
    (hp : config.HasPolicy p) (plan : FaultPlan) (msg : ExMessage) (w : World) :
    ∃ decision resp, (decision = gate p rt msg.topic msg.payload ∨
        decision = .deliver ∧ (plan = noFault → ∃ channel encoding,
          parseMeshtasticTopic msg.topic = some (channel, encoding) ∧
            ¬Recordable rt encoding msg.payload)) ∧
      responseFor msg decision.result = .ok resp ∧
      (onMessagePublish rt plan config msg w).1 = .ok resp := by
  have hresponds : ∀ decision : Decision, ∃ resp, responseFor msg decision.result = .ok resp := by
    intro decision
    cases decision <;> exact ⟨_, rfl⟩
  simp only [onMessagePublish]
  rcases processMessage_eq_gate_or_raised hp plan w with hgate | ⟨hpass, hraised⟩
  · obtain ⟨resp, hresp⟩ := hresponds (gate p rt msg.topic msg.payload)
    exact ⟨_, resp, Or.inl rfl, hresp, by rw [hgate, hresp]⟩
  · obtain ⟨resp, hresp⟩ := hresponds .deliver
    exact ⟨_, resp, Or.inr ⟨rfl, hraised⟩, hresp, by rw [hpass]; exact hresp⟩

/-- The handler is not asked what to decide. -/
theorem gate_serving (p : Policy) (rt : Runtime) (formatters : Formatters) (config : Config)
    (topic : PyStr) (payload : Bytes) :
    gate p (rt.serving formatters config) topic payload = gate p rt topic payload := rfl

/-- What the gate of some values denies or rewrites, it does for the reasons that the
values give. -/
theorem exists_justified_of_gate {rt : Runtime} {host : ConfigHost}
    {user : List (PyStr × PyVal)} (hvalid : ∀ key, ValidKey host user key) {msg : ExMessage}
    {resp : ValuedResponse}
    (hresp : responseFor msg
      (gate (Policy.ofValues (overlay user)) rt msg.topic msg.payload).result = .ok resp)
    (hne : gate (Policy.ofValues (overlay user)) rt msg.topic msg.payload ≠ .deliver) :
    ∃ kind, kind ≠ .ignore ∧ Justified rt (overlay user) msg resp kind := by
  cases htopic : parseMeshtasticTopic msg.topic with
  | none =>
      rw [gate, htopic] at hne
      exact absurd rfl hne
  | some parsed =>
      obtain ⟨channel, encoding⟩ := parsed
      have hfilter : (Policy.ofValues (overlay user)).drops channel
          (extractPortnum rt encoding msg.payload) = true ↔
          FilterMatches rt (overlay user) channel encoding msg.payload := by
        rw [drops_ofValues_iff (hvalid .dropEnabled) (hvalid .dropChannels)]
        exact ⟨fun h => ⟨h.1, h.2.1, h.2.2⟩, fun h => ⟨h.enabled, h.portnum, h.scope⟩⟩
      simp only [gate, htopic, Policy.decision] at hresp hne
      split at hresp
      · next hdrop =>
        obtain ⟨resp', hresp', hdenies⟩ := responseFor_drop msg
        obtain rfl := Except.ok.inj (hresp.symm.trans hresp')
        exact ⟨.deny, by simp, .deny htopic (hfilter.mp hdrop) hdenies⟩
      · next hdrop =>
        rw [if_neg hdrop] at hne
        split at hresp
        · next hzerohop =>
          rw [if_pos hzerohop] at hne
          obtain ⟨henabled, hlisted⟩ :=
            (zerohops_ofValues_iff (hvalid .zerohopEnabled)).mp hzerohop
          cases hview : viewPacket rt encoding msg.payload with
          | none => simp [hview] at hne
          | some v =>
              simp only [hview] at hresp hne
              by_cases hhop : v.hop = 0
              · simp [hhop] at hne
              · rw [if_neg hhop] at hresp
                obtain ⟨resp', hresp', hrewrites⟩ := responseFor_modify msg v.zeroHopped
                obtain rfl := Except.ok.inj (hresp.symm.trans hresp')
                exact ⟨.rewrite, by simp, .rewrite htopic henabled hlisted
                  (zeroHops_of_viewPacket hview) hhop (mt hfilter.mpr hdrop) hrewrites⟩
        · next hzerohop =>
          rw [if_neg hzerohop] at hne
          exact absurd rfl hne

section Publish

variable {rt : Runtime} {formatters : Formatters} {d : Deployment}
  {before after : List BrokerEvent} {msg next : ExMessage} {call : HookCall}

/-- A publish finds what the history before it says. -/
theorem publish_of_run
    (h : (broker rt formatters).Run ⟨[], none⟩ (before ++ .publish msg call next :: after) d) :
    ∃ s s', Recorded (history before) s ∧
      BrokerStep rt formatters s (.publish msg call next) s' := by
  obtain ⟨s, hbefore, hrest⟩ := h.split
  obtain ⟨s', hstep, -⟩ := System.run_cons_iff.mp hrest
  exact ⟨s, s', recorded_of_run hbefore, hstep⟩

/-- What an answered publish went through. -/
theorem answered_of_step {h : History} {s s' : Deployment} {plan : FaultPlan}
    (hrec : Recorded h s)
    (hstep : BrokerStep rt formatters s (.publish msg (.answered plan) next) s') :
    ∃ start config user w resp, h.running = some start ∧ start.Means config user ∧
      start.Serves config ∧
      (onMessagePublish (rt.serving formatters config) plan config msg w).1 = .ok resp ∧
      next = resp.next msg := by
  cases hstep with
  | answered _ hserver hanswer =>
      rcases hrec.server with ⟨-, hnone⟩ | ⟨start, config, w, hstart, hserves, hsome⟩
      · cases hnone.symm.trans hserver
      · obtain ⟨rfl, rfl⟩ := Prod.mk.inj (Option.some.inj (hsome.symm.trans hserver))
        obtain ⟨user, hmeans⟩ := hserves.means
        exact ⟨start, config, user, w, _, hstart, hmeans, hserves, by rw [hanswer], rfl⟩

/-- A mapping that is accepted is what a start with it serves. -/
theorem exists_serves (user : List (PyStr × PyVal))
    (hknown : ∀ k ∈ Assoc.keys user, k ∈ Assoc.keys defaultEntries)
    (hok : (loadConfig (ConfigHost.ofMapping user) (some (py "config.yaml"))).isOk = true) :
    let s : Start := ⟨ConfigHost.ofMapping user, some (py "config.yaml"), false⟩
    (∃ config, s.Serves config) ∧ s.Reads user := by
  intro s
  obtain ⟨config, hload⟩ := exists_ok_of_isOk hok
  refine ⟨⟨config, ?_⟩, _, readUserConfig_ofMapping (by decide) hknown⟩
  show main (ConfigHost.ofMapping user) (some (py "config.yaml")) false = _
  rw [main, hload]
  rfl

/-- A start with a mapping that drops texts. -/
def demoStart : Start := ⟨ConfigHost.ofMapping dropTexts, some (py "config.yaml"), false⟩

/-- A history in which a text is published. -/
def demoHistory (next : ExMessage) : List BrokerEvent :=
  [.start demoStart, .load] ++ .publish (demoMessage "7") (.answered noFault) next :: []

theorem demoHistory_filter : (history [.start demoStart, .load]).Filter (py "msh/#") :=
  ⟨demoStart, dropTexts, rfl, ⟨_, readUserConfig_ofMapping (by decide) (by decide)⟩, rfl⟩

theorem exists_demoHistory : ∃ d next,
    (broker (demoJson (.int 7) rfl "7") demoFormatters).Run ⟨[], none⟩ (demoHistory next) d := by
  obtain ⟨⟨config, hserves⟩, hreads⟩ := exists_serves dropTexts (by decide) (by decide +kernel)
  obtain ⟨user, hmeans⟩ := hserves.means
  obtain ⟨filter, hfilter, hget⟩ := hmeans.filter
  obtain rfl := hreads.unique hmeans.reads
  obtain rfl : py "msh/#" = filter := PyVal.str.inj hfilter
  have hhooks : onProviderLoaded config = some [⟨py "message.publish", [py "msh/#"]⟩] := by
    rw [onProviderLoaded, hget]
    rfl
  obtain ⟨-, resp, -, -, hresp⟩ := @onMessagePublish_decides
    ((demoJson (.int 7) rfl "7").serving demoFormatters config) _ _ hmeans.policy noFault
    (demoMessage "7") .initial
  refine ⟨_, resp.next (demoMessage "7"), .cons (.start hserves) (.cons (.load rfl hhooks)
    (.single (.answered ?_ rfl (Prod.ext hresp rfl))))⟩
  show hooked [⟨py "message.publish", [py "msh/#"]⟩] (demoMessage "7").topic = true
  decide

/-- Every publish, over every history of loads, unloads, starts and halts.  The hook is
called for what the topic filter matches that the floodgate had which answered the last
load, and a message is changed only by the floodgate that is running, which then has the
reasons that the user's values give. -/
theorem deployment_safe
    (h : (broker rt formatters).Run ⟨[], none⟩ (before ++ .publish msg call next :: after) d) :
    (call ≠ .unhooked ↔
      ∃ filter, (history before).Filter filter ∧ topicMatches filter msg.topic = true) ∧
    (next ≠ msg → ∃ start user plan resp kind, (history before).running = some start ∧
      start.Reads user ∧ call = .answered plan ∧ kind ≠ .ignore ∧
      Justified rt (overlay user) msg resp kind ∧ next = resp.next msg) := by
  obtain ⟨s, s', hrec, hstep⟩ := publish_of_run h
  refine ⟨?_, fun hne => ?_⟩
  · rw [← hrec.hooked_iff]
    cases hstep with
    | unhooked hhooked =>
        exact iff_of_false (fun h => h rfl) (by rw [hhooked]; exact Bool.false_ne_true)
    | failed hhooked | late _ hhooked | answered hhooked =>
        exact iff_of_true (fun h => by cases h) hhooked
  · cases call with
    | unhooked =>
        cases hstep
        exact absurd rfl hne
    | failed =>
        cases hstep <;> exact absurd rfl hne
    | answered plan =>
        obtain ⟨start, config, user, w, resp, hstart, hmeans, -, hresp, hnext⟩ :=
          answered_of_step hrec hstep
        obtain ⟨decision, resp', hdecision, hdecided, hresp'⟩ :=
          onMessagePublish_decides hmeans.policy plan msg w
        obtain rfl := Except.ok.inj (hresp.symm.trans hresp')
        have hchanged : decision ≠ .deliver := by
          rintro rfl
          rw [hnext, next_responseFor hdecided] at hne
          exact hne rfl
        obtain rfl := hdecision.resolve_right fun h => hchanged h.1
        rw [gate_serving] at hdecided hchanged
        obtain ⟨kind, hkind, hjustified⟩ := exists_justified_of_gate hmeans.valid hdecided hchanged
        exact ⟨start, user, plan, resp, kind, hstart, hmeans.reads, rfl, hkind, hjustified, hnext⟩

/-- The publish of a text, over the demo history. -/
theorem deployment_safe_demo :
    ∃ d next, (broker (demoJson (.int 7) rfl "7") demoFormatters).Run ⟨[], none⟩
        (demoHistory next) d ∧
      (next ≠ demoMessage "7" → ∃ start user plan resp kind,
        (history [.start demoStart, .load]).running = some start ∧ start.Reads user ∧
        HookCall.answered noFault = .answered plan ∧ kind ≠ ResponseKind.ignore ∧
        Justified (demoJson (.int 7) rfl "7") (overlay user) (demoMessage "7") resp kind ∧
        next = resp.next (demoMessage "7")) := by
  obtain ⟨d, next, hrun⟩ := exists_demoHistory
  exact ⟨d, next, hrun, (deployment_safe hrun).2⟩

/-- Every publish of a packet, over every history in which EMQX was told last to call the
hook for all packets.  The call fails and the packet is delivered as it came, or the
packet is settled by the gate that the values stand for with which the running floodgate
started, unless something is raised inside: by a fault, or out of the log handler that the
floodgate installed, on a member that is nested too deep. -/
theorem deployment_enforces {filter channel : PyStr} {encoding : Encoding}
    (hfilter : (history before).Filter filter)
    (hcovers : CoversPackets (filter.splitOn (ch '/')))
    (hparse : parseMeshtasticTopic msg.topic = some (channel, encoding))
    (hformat : NodesFormattable rt encoding msg.payload)
    (h : (broker rt formatters).Run ⟨[], none⟩ (before ++ .publish msg call next :: after) d) :
    (call = .failed ∧ next = msg) ∨
      ∃ start user plan, (history before).running = some start ∧ start.Reads user ∧
        call = .answered plan ∧
        (next = (gate (Policy.ofValues (overlay user)) rt msg.topic msg.payload).next msg ∨
          next = msg ∧ (plan ≠ noFault ∨ ∃ config handler, start.Serves config ∧
            config.logHandler formatters = some handler ∧
            ¬Loggable (rt.withLog handler) encoding msg.payload JsonObject.loggedMembers)) := by
  obtain ⟨s, s', hrec, hstep⟩ := publish_of_run h
  cases call with
  | unhooked =>
      have hhooked := (hrec.hooked_iff msg.topic).mpr
        ⟨filter, hfilter, topicMatches_of_coversPackets hcovers hparse⟩
      cases hstep with
      | unhooked hnot => cases hhooked.symm.trans hnot
  | failed =>
      left
      cases hstep <;> exact ⟨rfl, rfl⟩
  | answered plan =>
      right
      obtain ⟨start, config, user, w, resp, hstart, hmeans, hserves, hresp, rfl⟩ :=
        answered_of_step hrec hstep
      obtain ⟨decision, resp', hdecision, hdecided, hresp'⟩ :=
        onMessagePublish_decides hmeans.policy plan msg w
      obtain rfl := Except.ok.inj (hresp.symm.trans hresp')
      refine ⟨start, user, plan, hstart, hmeans.reads, rfl, ?_⟩
      rw [next_responseFor hdecided]
      rcases hdecision with rfl | ⟨rfl, hraised⟩
      · exact Or.inl rfl
      · refine Or.inr ⟨rfl, or_iff_not_imp_left.mpr fun hplan => ?_⟩
        obtain ⟨channel', encoding', hparse', hnot⟩ := hraised (not_not.mp hplan)
        obtain ⟨-, rfl⟩ := Prod.mk.inj (Option.some.inj (hparse.symm.trans hparse'))
        obtain ⟨handler, hhandler⟩ := exists_logHandler_of_serves hserves formatters
        rw [serving_of_logHandler hhandler] at hnot
        exact ⟨config, handler, hserves, hhandler, fun hloggable => hnot ⟨hformat, hloggable⟩⟩

/-- The text of the demo history is settled by the gate. -/
theorem deployment_enforces_demo :
    ∃ d next, (broker (demoJson (.int 7) rfl "7") demoFormatters).Run ⟨[], none⟩
        (demoHistory next) d ∧
      ∃ user, demoStart.Reads user ∧
        next = (gate (Policy.ofValues (overlay user)) (demoJson (.int 7) rfl "7")
          (demoMessage "7").topic (demoMessage "7").payload).next (demoMessage "7") := by
  obtain ⟨d, next, hrun⟩ := exists_demoHistory
  have hcovers : CoversPackets ((py "msh/#").splitOn (ch '/')) :=
    ⟨[py "msh"], by decide, by decide, by simp, by simp⟩
  rcases deployment_enforces demoHistory_filter hcovers
      (show parseMeshtasticTopic (demoMessage "7").topic = some (py "LongFast", .json) by decide)
      ((nodesFormattable_demoMessage_iff (.int 7) rfl "7").mpr (by decide)) hrun with
    ⟨hfailed, -⟩ | ⟨start, user, plan, hstart, hreads, hcall, hsettled⟩
  · cases hfailed
  · obtain rfl := Option.some.inj hstart
    obtain rfl := HookCall.answered.inj hcall
    refine ⟨d, next, hrun, user, hreads, hsettled.resolve_right ?_⟩
    rintro ⟨-, hplan | ⟨_, _, -, -, hnot⟩⟩
    · exact hplan rfl
    · exact hnot (loggable_demoMessage (.int 7) rfl "7" _ (by decide))

end Publish

end Floodgate.Ports
