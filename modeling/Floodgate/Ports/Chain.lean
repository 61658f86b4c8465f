import Floodgate.Ports.Gate
import Floodgate.Ports.Idempotence
import Floodgate.Ports.Startup

/-!
# Floodgates in a row

A packet may go through several floodgates: brokers are bridged, and a gateway publishes
what it heard from another.  Each floodgate has its own configuration, and so its own log
handler, topics that differ in front of the encoding, and faults of its own.  What they
make of the packet together is what one floodgate would that drops what one of them drops
and zero-hops what one of them zero-hops, so that neither their order nor a repetition
matters.  A fault leaves the policy of its floodgate out.

## Main results

* `chain_settles`: what floodgates in a row make of a packet.
-/

namespace Floodgate.Ports

open Floodgate.Verified
open Floodgate.Verified.FailOpen
open Floodgate.Verified.Passes

/-! ## Policies together -/

/-- What zero-hopping makes of a packet. -/
def zeroHopDecision : Option PacketView → Decision
  | some v => if v.hop = 0 then .deliver else .rewrite v.zeroHopped
  | none => .deliver

/-- What some policies settle together for a packet on a channel. -/
def jointDecision (ps : List Policy) (channel : PyStr) (portnum : Option PyStr)
    (view : Option PacketView) : Decision :=
  if ps.any fun p => p.drops channel portnum then .deny
  else if ps.any fun p => p.zerohops channel then zeroHopDecision view
  else .deliver

theorem Policy.decision_eq (p : Policy) (channel : PyStr) (portnum : Option PyStr)
    (view : Option PacketView) :
    p.decision channel portnum view =
      if p.drops channel portnum then .deny
      else if p.zerohops channel then zeroHopDecision view
      else .deliver := by
  cases view <;> rfl

theorem zeroHopDecision_ne_deny (view : Option PacketView) : zeroHopDecision view ≠ .deny := by
  cases view with
  | none => exact fun h => by cases h
  | some v =>
      rw [zeroHopDecision]
      split <;> exact fun h => by cases h

/-- What is delivered of a payload by a decision. -/
def Decision.delivered (payload : Bytes) : Decision → Option Bytes
  | .deliver => some payload
  | .rewrite q => some q
  | .deny => none

theorem delivered_result (d : Decision) (payload : Bytes) :
    d.result.delivered payload = d.delivered payload := by
  cases d <;> rfl

section Joint

variable {p : Policy} {ps ps' : List Policy} {channel : PyStr} {portnum : Option PyStr}
  {view : Option PacketView}

/-- Only which policies there are counts. -/
theorem jointDecision_congr (h : ∀ p, p ∈ ps ↔ p ∈ ps') :
    jointDecision ps channel portnum view = jointDecision ps' channel portnum view := by
  have hany : ∀ f : Policy → Bool, ps.any f = ps'.any f := fun f => by
    rw [Bool.eq_iff_iff, List.any_eq_true, List.any_eq_true]
    simp only [h]
  simp only [jointDecision, hany]

/-- A policy that denies a packet decides it. -/
theorem jointDecision_of_deny (hmem : p ∈ ps) (h : p.decision channel portnum view = .deny) :
    jointDecision ps channel portnum view = .deny := by
  have hdrops : p.drops channel portnum = true := by
    by_contra hnot
    rw [Policy.decision_eq, if_neg hnot] at h
    split at h
    · exact zeroHopDecision_ne_deny view h
    · cases h
  exact if_pos (List.any_eq_true.mpr ⟨p, hmem, hdrops⟩)

/-- A policy that lets a packet through as it is changes nothing. -/
theorem jointDecision_cons_of_deliver (h : p.decision channel portnum view = .deliver) :
    jointDecision (p :: ps) channel portnum view = jointDecision ps channel portnum view := by
  rw [Policy.decision_eq] at h
  split at h
  · cases h
  · next hdrops =>
    simp only [jointDecision, List.any_cons, eq_false_of_ne_true hdrops, Bool.false_or]
    split at h
    · simp only [h, ite_self]
    · next hzerohops => simp only [eq_false_of_ne_true hzerohops, Bool.false_or]

/-- Past a policy that zero-hops a packet, it can only be denied. -/
theorem jointDecision_cons_of_rewrite {q : Bytes}
    (h : p.decision channel portnum view = .rewrite q) :
    jointDecision (p :: ps) channel portnum view =
      if ps.any fun p => p.drops channel portnum then .deny else .rewrite q := by
  rw [Policy.decision_eq] at h
  split at h
  · cases h
  · next hdrops =>
    simp only [jointDecision, List.any_cons, eq_false_of_ne_true hdrops, Bool.false_or]
    split at h
    · next hzerohops => simp only [hzerohops, h, Bool.true_or, if_true]
    · cases h

theorem exists_view_of_rewrite {q : Bytes}
    (h : p.decision channel portnum view = .rewrite q) :
    ∃ v, view = some v ∧ v.hop ≠ 0 ∧ q = v.zeroHopped := by
  rw [Policy.decision_eq] at h
  split at h
  · cases h
  · split at h
    · cases view with
      | none => cases h
      | some v =>
          rw [zeroHopDecision] at h
          split at h
          · cases h
          · next hhop => exact ⟨v, rfl, hhop, (Decision.rewrite.inj h).symm⟩
    · cases h

/-- A packet without hops left is denied or delivered as it is. -/
theorem jointDecision_of_settled {v : PacketView} (hhop : v.hop = 0) :
    jointDecision ps channel portnum (some v) =
      if ps.any fun p => p.drops channel portnum then .deny else .deliver := by
  simp only [jointDecision, zeroHopDecision, hhop, if_true, ite_self]

end Joint

/-! ## A row of floodgates -/

/-- A floodgate on the way of a packet. -/
structure Stage where
  plan : FaultPlan
  topic : PyStr
  config : Config
  policy : Policy
  hasPolicy : config.HasPolicy policy

/-- What the floodgate does with a payload. -/
def Stage.filter (rt : Runtime) (formatters : Formatters) (s : Stage) : Filter Bytes World :=
  floodgate (rt.serving formatters s.config) s.plan s.topic s.config

/-- Policies of some floodgates in a row: all of those without faults, and no others than
those of the row. -/
structure Heeded (stages : List Stage) (ps : List Policy) : Prop where
  faultless : ∀ s ∈ stages, s.plan = noFault → s.policy ∈ ps
  present : ∀ p ∈ ps, ∃ s ∈ stages, s.policy = p

section Row

variable {rt : Runtime} {formatters : Formatters} {channel : PyStr} {encoding : Encoding}
  {payload : Bytes}

/-- One floodgate carries out its policy, or delivers the payload because of a fault. -/
theorem Stage.filter_eq {s : Stage}
    (htopic : parseMeshtasticTopic s.topic = some (channel, encoding))
    (hrecordable : Recordable (rt.serving formatters s.config) encoding payload) (w : World) :
    (s.filter rt formatters payload w).1 =
        (s.policy.decision channel (extractPortnum rt encoding payload)
          (viewPacket rt encoding payload)).delivered payload ∨
      (s.filter rt formatters payload w).1 = some payload ∧ s.plan ≠ noFault := by
  have hgate : gate s.policy (rt.serving formatters s.config) s.topic payload =
      s.policy.decision channel (extractPortnum rt encoding payload)
        (viewPacket rt encoding payload) := by
    rw [gate, htopic]
    rfl
  rw [← hgate, ← delivered_result]
  simp only [Stage.filter, floodgate]
  rcases processMessage_eq_gate_or_raised s.hasPolicy s.plan w with h | ⟨h, hraised⟩
  · exact Or.inl (by rw [h])
  · refine Or.inr ⟨by rw [h]; rfl, fun hplan => ?_⟩
    obtain ⟨channel', encoding', htopic', hnot⟩ := hraised hplan
    obtain ⟨-, rfl⟩ := Prod.mk.inj (Option.some.inj (htopic.symm.trans htopic'))
    exact hnot hrecordable

/-- What some floodgates need of a payload to carry out their policies on it, and of the
payload that they may deliver in its place. -/
structure Tame (rt : Runtime) (formatters : Formatters) (stages : List Stage)
    (encoding : Encoding) (payload : Bytes) : Prop where
  recordable : ∀ s ∈ stages, Recordable (rt.serving formatters s.config) encoding payload
  rewritten : ∀ v, viewPacket rt encoding payload = some v → v.hop ≠ 0 →
    (∀ s ∈ stages, Recordable (rt.serving formatters s.config) encoding v.zeroHopped) ∧
    extractPortnum rt encoding v.zeroHopped = extractPortnum rt encoding payload ∧
    ∃ v', viewPacket rt encoding v.zeroHopped = some v' ∧ v'.hop = 0

theorem Tame.tail {s : Stage} {stages : List Stage}
    (h : Tame rt formatters (s :: stages) encoding payload) :
    Tame rt formatters stages encoding payload where
  recordable := (List.forall_mem_cons.mp h.recordable).2
  rewritten v hview hhop := by
    obtain ⟨hrecordable, hrest⟩ := h.rewritten v hview hhop
    exact ⟨(List.forall_mem_cons.mp hrecordable).2, hrest⟩

theorem Heeded.cons {stages : List Stage} {ps : List Policy} (h : Heeded stages ps) (s : Stage) :
    Heeded (s :: stages) (s.policy :: ps) where
  faultless s' hs' hplan := by
    rcases List.mem_cons.mp hs' with rfl | hs'
    · exact List.mem_cons_self
    · exact List.mem_cons_of_mem _ (h.faultless s' hs' hplan)
  present p hp := by
    rcases List.mem_cons.mp hp with rfl | hp
    · exact ⟨s, List.mem_cons_self, rfl⟩
    · obtain ⟨s', hs', hpolicy⟩ := h.present p hp
      exact ⟨s', List.mem_cons_of_mem _ hs', hpolicy⟩

/-- A floodgate with faults may be left out. -/
theorem Heeded.skip {stages : List Stage} {ps : List Policy} (h : Heeded stages ps) {s : Stage}
    (hplan : s.plan ≠ noFault) : Heeded (s :: stages) ps where
  faultless s' hs' hplan' := by
    rcases List.mem_cons.mp hs' with rfl | hs'
    · exact absurd hplan' hplan
    · exact h.faultless s' hs' hplan'
  present p hp := by
    obtain ⟨s', hs', hpolicy⟩ := h.present p hp
    exact ⟨s', List.mem_cons_of_mem _ hs', hpolicy⟩

theorem heeded_all (stages : List Stage) : Heeded stages (stages.map Stage.policy) where
  faultless _ hs _ := List.mem_map_of_mem hs
  present _ hp := List.mem_map.mp hp

/-- A payload without hops left is as tame as its records. -/
theorem tame_of_settled {stages : List Stage} {v' : PacketView}
    (hrecordable : ∀ s ∈ stages, Recordable (rt.serving formatters s.config) encoding payload)
    (hview : viewPacket rt encoding payload = some v') (hhop : v'.hop = 0) :
    Tame rt formatters stages encoding payload where
  recordable := hrecordable
  rewritten v hv hne := by
    obtain rfl := Option.some.inj (hview.symm.trans hv)
    exact absurd hhop hne

/-- Floodgates in a row carry out their policies together, but for those with faults. -/
theorem chain_stages {stages : List Stage}
    (htame : Tame rt formatters stages encoding payload)
    (htopics : ∀ s ∈ stages, parseMeshtasticTopic s.topic = some (channel, encoding))
    (w : World) :
    ∃ ps, Heeded stages ps ∧ (chain (stages.map (Stage.filter rt formatters)) payload w).1 =
      (jointDecision ps channel (extractPortnum rt encoding payload)
        (viewPacket rt encoding payload)).delivered payload := by
  induction stages generalizing payload w with
  | nil => exact ⟨[], heeded_all [], rfl⟩
  | cons s stages ih =>
      obtain ⟨htopic, htopics⟩ := List.forall_mem_cons.mp htopics
      rw [List.map_cons]
      rcases s.filter_eq htopic (htame.recordable s List.mem_cons_self) w with
        hdecided | ⟨hpassed, hplan⟩
      · cases hdecision : s.policy.decision channel (extractPortnum rt encoding payload)
            (viewPacket rt encoding payload) with
        | deny =>
            rw [hdecision] at hdecided
            refine ⟨_, (heeded_all stages).cons s, ?_⟩
            rw [chain_cons_of_none hdecided, jointDecision_of_deny List.mem_cons_self hdecision]
            rfl
        | deliver =>
            rw [hdecision] at hdecided
            obtain ⟨ps, hps, hchain⟩ := ih htame.tail htopics ((s.filter rt formatters payload w).2)
            refine ⟨s.policy :: ps, hps.cons s, ?_⟩
            rw [chain_cons_of_some hdecided, jointDecision_cons_of_deliver hdecision]
            exact hchain
        | rewrite q =>
            rw [hdecision] at hdecided
            obtain ⟨v, hview, hhop, rfl⟩ := exists_view_of_rewrite hdecision
            obtain ⟨hrecordable, hportnum, v', hview', hhop'⟩ := htame.rewritten v hview hhop
            have htail := tame_of_settled (List.forall_mem_cons.mp hrecordable).2 hview' hhop'
            obtain ⟨ps, hps, hchain⟩ := ih htail htopics ((s.filter rt formatters payload w).2)
            refine ⟨s.policy :: ps, hps.cons s, ?_⟩
            rw [chain_cons_of_some hdecided, jointDecision_cons_of_rewrite hdecision, hchain,
              hportnum, hview', jointDecision_of_settled hhop']
            split <;> rfl
      · obtain ⟨ps, hps, hchain⟩ := ih htame.tail htopics ((s.filter rt formatters payload w).2)
        refine ⟨ps, hps.skip hplan, ?_⟩
        rw [chain_cons_of_some hpassed]
        exact hchain

/-- The records of a zero-hopped payload show the members of the payload. -/
theorem recordable_zeroHopped (hround : rt.RoundTrips payload)
    (hclean : encoding = .json → DecodesClean rt payload) {handler : LogHandler}
    (hrecordable : Recordable (rt.withLog handler) encoding payload) {v : PacketView}
    (hview : viewPacket rt encoding payload = some v) :
    Recordable (rt.withLog handler) encoding v.zeroHopped := by
  rcases viewPacket_cases hview with ⟨rfl, -⟩ | ⟨rfl, data, hloads, -, rfl⟩
  · exact ⟨fun _ hjson => Encoding.noConfusion hjson, fun _ hjson => Encoding.noConfusion hjson⟩
  · have hdata : (rt.withLog handler).json.loads (rt.json.dumps data.zeroHop.toDoc) =
        .ok data.zeroHop.toDoc :=
      hround.json data hloads (clean_zeroHop (hclean rfl _ hloads))
    obtain ⟨hformat, hloggable⟩ := hrecordable
    have hmember : ∀ key, py "hop_limit" ≠ key → data.zeroHop.get key = data.get key :=
      fun key hkey => data.get_setInt_ne 0 hkey
    constructor
    · rw [viewJson, NodesFormattable, forall_object_iff rfl hdata, hmember _ (by decide),
        hmember _ (by decide)]
      exact hformat data rfl hloads
    · rw [viewJson, Loggable, forall_object_iff rfl hdata, JsonObject.loggedMembers,
        hmember _ (by decide), hmember _ (by decide), hmember _ (by decide)]
      exact hloggable data rfl hloads

/-- A payload is tame when the runtime reads back what it writes. -/
theorem tame_of_roundTrips (hround : rt.RoundTrips payload)
    (hclean : encoding = .json → DecodesClean rt payload) {stages : List Stage}
    (hrecordable : ∀ s ∈ stages,
      Recordable (rt.serving formatters s.config) encoding payload) :
    Tame rt formatters stages encoding payload where
  recordable := hrecordable
  rewritten v hview _ := by
    obtain ⟨v', hview', hhop', -, hportnum⟩ := viewPacket_zeroHopped hround hclean hview
    exact ⟨fun s hs => recordable_zeroHopped hround hclean (hrecordable s hs) hview, hportnum,
      v', hview', hhop'⟩

/-- What floodgates in a row make of a packet, the records of which each of them can format
and log.  They carry out policies of theirs together, all but those of floodgates with
faults; and when there are no faults, it only counts which policies there are. -/
theorem chain_settles (hround : rt.RoundTrips payload)
    (hclean : encoding = .json → DecodesClean rt payload) {stages : List Stage}
    (hrecordable : ∀ s ∈ stages,
      Recordable (rt.serving formatters s.config) encoding payload)
    (htopics : ∀ s ∈ stages, parseMeshtasticTopic s.topic = some (channel, encoding))
    (w : World) :
    (∃ ps, Heeded stages ps ∧ (chain (stages.map (Stage.filter rt formatters)) payload w).1 =
      (jointDecision ps channel (extractPortnum rt encoding payload)
        (viewPacket rt encoding payload)).delivered payload) ∧
    ∀ stages' : List Stage, (∀ s ∈ stages ++ stages', s.plan = noFault) →
      (∀ s ∈ stages', parseMeshtasticTopic s.topic = some (channel, encoding) ∧
        Recordable (rt.serving formatters s.config) encoding payload) →
      (∀ p, p ∈ stages.map Stage.policy ↔ p ∈ stages'.map Stage.policy) →
      ∀ w', (chain (stages'.map (Stage.filter rt formatters)) payload w').1 =
        (chain (stages.map (Stage.filter rt formatters)) payload w).1 := by
  have htame := tame_of_roundTrips hround hclean hrecordable
  refine ⟨chain_stages htame htopics w, fun stages' hplans hstages' hsame w' => ?_⟩
  have hall : ∀ {row : List Stage} {ps : List Policy}, (∀ s ∈ row, s.plan = noFault) →
      Heeded row ps → ∀ p, p ∈ ps ↔ p ∈ row.map Stage.policy := by
    intro row ps hplans hps p
    rw [List.mem_map]
    constructor
    · exact hps.present p
    · rintro ⟨s, hs, rfl⟩
      exact hps.faultless s hs (hplans s hs)
  have htame' := tame_of_roundTrips hround hclean fun s hs => (hstages' s hs).2
  obtain ⟨hplans, hplans'⟩ := List.forall_mem_append.mp hplans
  obtain ⟨ps, hps, hchain⟩ := chain_stages htame htopics w
  obtain ⟨ps', hps', hchain'⟩ := chain_stages htame' (fun s hs => (hstages' s hs).1) w'
  rw [hchain, hchain']
  refine congrArg _ (jointDecision_congr fun p => ?_)
  rw [hall hplans' hps', ← hsame, hall hplans hps]

/-- A text message through a floodgate that zero-hops and one that drops texts, in both
orders. -/
theorem chain_settles_demoText :
    ∃ config config', loadConfig (ConfigHost.ofMapping []) (some (py "config.yaml")) =
        .ok config ∧
      loadConfig (ConfigHost.ofMapping dropTexts) (some (py "config.yaml")) = .ok config' ∧
      let rt := demoJson (.int 7) rfl "7"
      let topic := py "msh/US/2/json/LongFast/!12345678"
      let zerohop := floodgate (rt.serving demoFormatters config) noFault topic config
      let drop := floodgate (rt.serving demoFormatters config') noFault topic config'
      (chain [drop, zerohop] (demoText "3" "7") .initial).1 =
        (chain [zerohop, drop] (demoText "3" "7") .initial).1 := by
  obtain ⟨config, hload, hp⟩ := exists_loaded [] (p := py "config.yaml") (by decide)
    (by decide) (by decide +kernel)
  obtain ⟨config', hload', hp'⟩ := exists_loaded dropTexts (p := py "config.yaml") (by decide)
    (by decide) (by decide +kernel)
  refine ⟨config, config', hload, hload', ?_⟩
  intro rt topic zerohop drop
  have htopic : parseMeshtasticTopic topic = some (py "LongFast", .json) := by decide
  let first : Stage := ⟨noFault, topic, config, _, hp⟩
  let second : Stage := ⟨noFault, topic, config', _, hp'⟩
  have htopics : ∀ s ∈ [first, second],
      parseMeshtasticTopic s.topic = some (py "LongFast", .json) := by
    intro s hs
    simp only [List.mem_cons, List.not_mem_nil, or_false] at hs
    rcases hs with rfl | rfl <;> exact htopic
  have hformat := (nodesFormattable_demoMessage_iff (.int 7) rfl "7").mpr (by decide)
  have hrecordable : ∀ s : Stage,
      Recordable (rt.serving demoFormatters s.config) .json (demoText "3" "7") :=
    fun s => ⟨hformat, loggable_demoMessage (.int 7) rfl "7" _ (by decide)⟩
  have hsettles := chain_settles demoJson_roundTrips.1 (fun _ => demoJson_roundTrips.2)
    (fun s _ => hrecordable s) htopics .initial
  refine hsettles.2 [second, first] (by simp [first, second])
    (fun s hs => ⟨htopics s (by simpa [or_comm] using hs), hrecordable s⟩) (fun p => ?_) .initial
  simp [or_comm]

end Row

end Floodgate.Ports
