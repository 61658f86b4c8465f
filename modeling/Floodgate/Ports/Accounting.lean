import Floodgate.Ports.DropFilter

/-!
# One message, one count

A call counts its outcome before it formats and logs the record of the packet.  When
that raises, the catch-all counts an error on top, and the answer is no longer the one
that was counted.  Every other path of a call counts once, whatever the configuration
dictionary holds.

## Main results

* `countsOnce_iff`: when one call counts once.
* `eachCountsOnce_iff`: when every call of a run counts once, with the growth of
  the lifetime total.
-/

namespace Floodgate.Ports

open Floodgate.Verified
open Floodgate.Verified.FailOpen

/-! ## Counting once -/

/-- The counter that is to stand for an answer. -/
def Counter.Agrees (counter : Counter) (action : Action) : Prop :=
  (counter = .dropped ↔ action = .drop) ∧ (counter = .zerohop ↔ action = .modify) ∧
    (counter ∈ [Counter.passthru, .noop, .skipped, .errors] ↔ action = .passthru)

/-- Exactly one counter went up, by one, in both views, and it stands for the
answer. -/
def CountsOnce (before after : AntifloodStats) (result : ProcessResult) : Prop :=
  ∃ counter : Counter, counter.Agrees result.action ∧
    ∀ k, after.rolling k = before.rolling k + (if k = counter then 1 else 0) ∧
      after.lifetime k = before.lifetime k + if k = counter then 1 else 0

theorem countsOnce_inc (stats : AntifloodStats) {counter : Counter}
    {result : ProcessResult} (h : counter.Agrees result.action) :
    CountsOnce stats (stats.inc counter) result :=
  ⟨counter, h, fun k => ⟨stats.rolling_inc counter k, stats.lifetime_inc counter k⟩⟩

theorem counterTotal_lifetime_inc (stats : AntifloodStats) (counter : Counter) :
    counterTotal (stats.inc counter).lifetime = counterTotal stats.lifetime + 1 := by
  rw [counterTotal_congr (stats.lifetime_inc counter), counterTotal_add,
    counterTotal_single]

/-- Counting once makes the lifetime total go up by one. -/
theorem CountsOnce.total {before after : AntifloodStats} {result : ProcessResult}
    (h : CountsOnce before after result) :
    counterTotal after.lifetime = counterTotal before.lifetime + 1 := by
  obtain ⟨counter, -, hcount⟩ := h
  rw [counterTotal_congr fun k => (hcount k).2, counterTotal_add, counterTotal_single]

/-- Counting twice is not counting once. -/
theorem not_countsOnce_inc_inc (stats : AntifloodStats) (counter counter' : Counter)
    (result : ProcessResult) :
    ¬ CountsOnce stats ((stats.inc counter).inc counter') result := by
  intro h
  have htotal := h.total
  rw [counterTotal_lifetime_inc, counterTotal_lifetime_inc] at htotal
  omega

/-- The action that every verdict at a site answers with. -/
def Site.action : Site → Action
  | .dropped => .drop
  | .zerohop => .modify
  | .skipped | .passthru | .warn | .noop => .passthru

theorem Site.agrees (site : Site) : site.counter.Agrees site.action := by
  unfold Counter.Agrees
  cases site <;> decide

/-- Every verdict counts what it answers. -/
theorem agrees_of_judged {rt : Runtime} {topic : PyStr} {payload : Bytes}
    {config : Config} {v : Verdict} (h : Judged rt topic payload config v) :
    v.site.counter.Agrees v.result.action := by
  have haction : v.result.action = v.site.action := by cases h <;> rfl
  rw [haction]
  exact v.site.agrees

/-! ## Calls -/

/-- Every record of the payload can be formatted and logged. -/
structure Recordable (rt : Runtime) (encoding : Encoding) (payload : Bytes) : Prop where
  format : NodesFormattable rt encoding payload
  loggable : Loggable rt encoding payload JsonObject.loggedMembers

/-- The arguments of a call of `process_message`. -/
structure Call where
  topic : PyStr
  payload : Bytes
  config : Config

namespace Call

/-- One call: its answer, and the state it leaves. -/
def run (rt : Runtime) (call : Call) (w : World) : ProcessResult × World :=
  processMessage rt noFault call.topic call.payload call.config w

/-- What the record of a JSON packet shows, if the call gets as far as a record: the drop
filter matches it, or its channel is not zero-hopped, or its hop fields are integers. -/
def shown? (rt : Runtime) (call : Call) (channel : PyStr) (data : JsonObject) :
    Option (List Json) :=
  match dropMatches rt call.payload call.config channel .json,
      shouldZerohop call.config channel with
  | .ok true, _ => some data.loggedId
  | .ok false, .ok false => some (data.logged .null)
  | .ok false, .ok true =>
      if badHopFields data = [] then some (data.logged (.int (effectiveHop data))) else none
  | _, _ => none

/-- The payload is a JSON object, the call gets as far as its record, and the object has a
float, a list or an object for `from` or `to`, or what the record shows of it overflows
the log handler. -/
def RaisesInRecord (rt : Runtime) (call : Call) : Prop :=
  ∃ channel data values, parseMeshtasticTopic call.topic = some (channel, .json) ∧
    rt.json.loads call.payload = .ok (JsonObject.toDoc data) ∧
    call.shown? rt channel data = some values ∧
    (¬ (NodeFormattable (data.get (py "from")) ∧ NodeFormattable (data.get (py "to"))) ∨
      rt.log.Overflows values)

variable {rt : Runtime} {call : Call} {channel : PyStr} {encoding : Encoding}

/-- On a topic whose packets get as far as a record, the call raises there exactly for
unformattable node ids and for values that overflow the log handler. -/
theorem raisesInRecord_iff {values : JsonObject → List Json}
    (htopic : parseMeshtasticTopic call.topic = some (channel, encoding))
    (hshown : ∀ data : JsonObject, encoding = .json →
      rt.json.loads call.payload = .ok data.toDoc →
        call.shown? rt channel data = some (values data)) :
    call.RaisesInRecord rt ↔
      ¬ (NodesFormattable rt encoding call.payload ∧
        Loggable rt encoding call.payload values) := by
  constructor
  · rintro ⟨channel', data, values', htopic', hloads, hvalues, hraises⟩ ⟨hformat, hloggable⟩
    obtain ⟨rfl, rfl⟩ := Prod.mk.inj (Option.some.inj (htopic.symm.trans htopic'))
    rw [hshown data rfl hloads, Option.some.injEq] at hvalues
    rcases hraises with hnodes | hover
    · exact hnodes (hformat data rfl hloads)
    · exact hloggable data rfl hloads (hvalues ▸ hover)
  · intro hnot
    rw [not_and_or] at hnot
    rcases hnot with hnodes | hover
    · simp only [NodesFormattable, not_forall] at hnodes
      obtain ⟨data, rfl, hloads, hnodes⟩ := hnodes
      exact ⟨channel, data, _, htopic, hloads, hshown data rfl hloads, Or.inl hnodes⟩
    · simp only [Loggable, not_forall, not_not] at hover
      obtain ⟨data, rfl, hloads, hover⟩ := hover
      exact ⟨channel, data, _, htopic, hloads, hshown data rfl hloads, Or.inr hover⟩

/-- What a record shows overflows the log handler through the members of the object. -/
theorem overflows_of_shown {data : JsonObject} {values : List Json}
    (hshown : call.shown? rt channel data = some values) (hover : rt.log.Overflows values) :
    rt.log.Overflows data.loggedMembers := by
  unfold shown? at hshown
  split at hshown
  · obtain rfl := Option.some.inj hshown
    exact hover.append _
  · obtain rfl := Option.some.inj hshown
    exact hover.of_scalar rfl
  · rw [Option.ite_none_right_eq_some] at hshown
    obtain rfl := Option.some.inj hshown.2
    exact hover.of_scalar rfl
  · cases hshown

/-- What keeps a call from raising in its record. -/
theorem not_raisesInRecord_of (hrecordable : ∀ channel encoding,
      parseMeshtasticTopic call.topic = some (channel, encoding) →
        Recordable rt encoding call.payload) :
    ¬ call.RaisesInRecord rt := by
  rintro ⟨channel, data, values, htopic, hloads, hshown, hraises⟩
  obtain ⟨hformat, hloggable⟩ := hrecordable channel .json htopic
  rcases hraises with hnodes | hover
  · exact hnodes (hformat data rfl hloads)
  · exact hloggable data rfl hloads (overflows_of_shown hshown hover)

theorem shown?_of_dropMatches
    (hdrop : dropMatches rt call.payload call.config channel encoding = .ok true)
    (data : JsonObject) (hjson : encoding = .json) :
    call.shown? rt channel data = some data.loggedId := by
  subst hjson
  simp only [shown?, hdrop]

/-- A call on a zero-hopped channel shows the effective hop limit of the packet. -/
theorem shown?_of_view {v : PacketView}
    (hdrop : dropMatches rt call.payload call.config channel encoding = .ok false)
    (hzerohop : shouldZerohop call.config channel = .ok true)
    (hview : viewPacket rt encoding call.payload = some v) (data : JsonObject)
    (hjson : encoding = .json) (hloads : rt.json.loads call.payload = .ok data.toDoc) :
    call.shown? rt channel data = some (data.logged (.int v.hop)) := by
  subst hjson
  rcases viewPacket_cases hview with ⟨h, -⟩ | ⟨-, data', hloads', hints, rfl⟩
  · cases h
  · rw [hloads, Except.ok.injEq] at hloads'
    obtain rfl := JsonDoc.toDoc_injective hloads'
    simp only [shown?, hdrop, hzerohop, (badHopFields_eq_nil_iff data).mpr hints, if_true,
      viewJson]

/-- A packet record of metadata that were read from the payload is logged exactly when the
call does not raise there. -/
theorem handled_peekMeta_isOk_iff {outcome : Outcome} (hlevel : outcome.level = .info)
    {hopLimit : Json} (hscalar : hopLimit.isContainer = false)
    (htopic : parseMeshtasticTopic call.topic = some (channel, encoding))
    (hshown : ∀ data : JsonObject, encoding = .json →
      rt.json.loads call.payload = .ok data.toDoc →
        call.shown? rt channel data = some (data.logged hopLimit)) :
    ((rt.log.handled (packetRecord outcome call.topic channel encoding
      (peekMeta rt encoding call.payload) hopLimit)).map some).isOk = true ↔
        ¬ call.RaisesInRecord rt := by
  rw [raisesInRecord_iff htopic hshown, not_not, isOk_map,
    handled_packetRecord_isOk_iff rt.log outcome hlevel, renders_peekMeta_iff,
    loggable_logged_iff rt encoding call.payload hscalar]

/-- A verdict's record is logged exactly when the call does not raise in it. -/
theorem record_isOk_iff {v : Verdict}
    (h : Judged rt call.topic call.payload call.config v) :
    v.record.isOk = true ↔ ¬ call.RaisesInRecord rt := by
  cases h with
  | skipped htopic =>
      refine iff_of_true rfl ?_
      rintro ⟨channel, data, values, htopic', -⟩
      rw [htopic] at htopic'
      cases htopic'
  | dropped htopic hdrop =>
      rw [raisesInRecord_iff htopic fun data hjson _ => shown?_of_dropMatches hdrop data hjson,
        not_not, droppedVerdict, isOk_map, droppedRecord_peekMeta_isOk_iff]
  | passthru htopic hdrop hzerohop =>
      refine handled_peekMeta_isOk_iff rfl rfl htopic fun data hjson _ => ?_
      subst hjson
      simp only [shown?, hdrop, hzerohop]
  | warn htopic hdrop hzerohop hview =>
      refine iff_of_true rfl ?_
      rintro ⟨channel, data, values, htopic', hloads, hshown, -⟩
      obtain ⟨rfl, rfl⟩ := Prod.mk.inj (Option.some.inj (htopic.symm.trans htopic'))
      simp only [shown?, hdrop, hzerohop, Option.ite_none_right_eq_some] at hshown
      rw [viewPacket_json hloads ((badHopFields_eq_nil_iff data).mp hshown.1)] at hview
      cases hview
  | noop htopic hdrop hzerohop hview hhop =>
      have hshown := shown?_of_view hdrop hzerohop hview
      rw [noopVerdict, ← peekMeta_of_viewPacket hview]
      exact handled_peekMeta_isOk_iff rfl rfl htopic (hhop ▸ hshown)
  | zerohop htopic hdrop hzerohop hview =>
      have hshown := shown?_of_view hdrop hzerohop hview
      rw [zerohopVerdict, ← peekMeta_of_viewPacket hview]
      exact handled_peekMeta_isOk_iff rfl rfl htopic hshown

/-- A call raises before it counts: there is no verdict on it. -/
theorem not_raisesInRecord_of_error {e : PyErr}
    (hj : judge rt call.topic call.payload call.config = .error e) :
    ¬ call.RaisesInRecord rt := by
  rintro ⟨channel, data, values, htopic, hloads, hshown, -⟩
  unfold shown? at hshown
  split at hshown
  · next hdrop =>
    rw [judge_of_dropMatches htopic hdrop] at hj
    cases hj
  · next hdrop hzerohop =>
    rw [judge_of_not_zerohop htopic hdrop hzerohop] at hj
    cases hj
  · next hdrop hzerohop =>
    rw [Option.ite_none_right_eq_some] at hshown
    have hhops := (badHopFields_eq_nil_iff data).mp hshown.1
    rw [judge_of_zerohop htopic hdrop hzerohop (viewPacket_json hloads hhops)] at hj
    cases hj
  · cases hshown

/-- A call counts its verdict, and an error on top when it raises in the record. -/
theorem run_of_judge {v : Verdict}
    (hj : judge rt call.topic call.payload call.config = .ok v) (w : World) :
    (¬ call.RaisesInRecord rt ∧ (call.run rt w).1 = v.result ∧
        (call.run rt w).2.stats = w.stats.inc v.site.counter) ∨
      (call.RaisesInRecord rt ∧
        call.run rt w = (.passthru, (w.count v.site.counter).count .errors)) := by
  have hiff := record_isOk_iff (judged_of_judge hj)
  cases hrecord : v.record with
  | error e =>
      rw [hrecord] at hiff
      refine Or.inr ⟨not_not.mp fun h => ?_, processMessage_of_unrendered hj hrecord w⟩
      cases hiff.mpr h
  | ok record =>
      rw [hrecord] at hiff
      have hrun := processMessage_of_rendered hj hrecord w
      refine Or.inl ⟨hiff.mp rfl, by rw [run, hrun], ?_⟩
      rw [run, hrun]
      cases record <;> rfl

end Call

/-- One call counts once exactly when it does not raise in its record. -/
theorem countsOnce_iff (rt : Runtime) (call : Call) (w : World) :
    CountsOnce w.stats (call.run rt w).2.stats (call.run rt w).1 ↔
      ¬ call.RaisesInRecord rt := by
  cases hj : judge rt call.topic call.payload call.config with
  | error e =>
      have hrun : call.run rt w = (.passthru, w.count .errors) :=
        processMessage_of_raised hj w
      rw [hrun]
      exact iff_of_true (countsOnce_inc w.stats (Site.agrees .warn))
        (Call.not_raisesInRecord_of_error hj)
  | ok v =>
      rcases Call.run_of_judge hj w with ⟨hnot, hresult, hstats⟩ | ⟨hraises, hrun⟩
      · rw [hresult, hstats]
        exact iff_of_true (countsOnce_inc w.stats (agrees_of_judged (judged_of_judge hj)))
          hnot
      · rw [hrun]
        exact iff_of_false (not_countsOnce_inc_inc _ _ _ _) (not_not.mpr hraises)

/-! ## Runs -/

/-- The state after a sequence of calls. -/
def runCalls (rt : Runtime) (calls : List Call) (w : World) : World :=
  calls.foldl (fun w call => (call.run rt w).2) w

/-- Every call of a sequence counts once, in the state it starts from. -/
def EachCountsOnce (rt : Runtime) : List Call → World → Prop
  | [], _ => True
  | call :: calls, w =>
      CountsOnce w.stats (call.run rt w).2.stats (call.run rt w).1 ∧
        EachCountsOnce rt calls (call.run rt w).2

/-- A run the calls of which count once makes the lifetime total go up by their
number. -/
theorem EachCountsOnce.total {rt : Runtime} {calls : List Call} {w : World}
    (h : EachCountsOnce rt calls w) :
    counterTotal (runCalls rt calls w).stats.lifetime =
      counterTotal w.stats.lifetime + calls.length := by
  induction calls generalizing w with
  | nil => rfl
  | cons call calls ih =>
      have hrest := ih h.2
      rw [h.1.total] at hrest
      rw [runCalls, List.foldl_cons, List.length_cons]
      rw [runCalls] at hrest
      omega

/-- From any state, every call of a run counts once, and the lifetime total goes up
by their number, exactly when no call raises in its record. -/
theorem eachCountsOnce_iff (rt : Runtime) (calls : List Call) (w : World) :
    (EachCountsOnce rt calls w ∧
      counterTotal (runCalls rt calls w).stats.lifetime =
        counterTotal w.stats.lifetime + calls.length) ↔
    ∀ call ∈ calls, ¬ call.RaisesInRecord rt := by
  have heach : EachCountsOnce rt calls w ↔ ∀ call ∈ calls, ¬ call.RaisesInRecord rt := by
    induction calls generalizing w with
    | nil => simp [EachCountsOnce]
    | cons call calls ih =>
        rw [EachCountsOnce, countsOnce_iff, ih, List.forall_mem_cons]
  rw [← heach]
  exact ⟨And.left, fun h => ⟨h, h.total⟩⟩

/-- One JSON packet on a zero-hopped channel, the sender of which is the float `1.5`:
the call passes it through and counts both a zero-hop and an error. -/
theorem not_countsOnce_float_sender :
    ∃ config, loadConfig (ConfigHost.ofMapping []) (some (py "config.yaml")) = .ok config ∧
      let rt := demoJson (.float 0x3FF8000000000000#64) rfl "1.5"
      let call : Call :=
        ⟨py "msh/US/2/json/LongFast/!12345678", demoText "3" "1.5", config⟩
      (call.run rt .initial).1 = .passthru ∧
        (call.run rt .initial).2.stats.lifetime .zerohop = 1 ∧
        (call.run rt .initial).2.stats.lifetime .errors = 1 ∧
        ¬ EachCountsOnce rt [call] .initial := by
  obtain ⟨config, hload, hzerohop, hdrop, hloads, hints, hhop⟩ :=
    demoJson_setup (.float 0x3FF8000000000000#64) rfl "1.5"
  refine ⟨config, hload, ?_⟩
  intro rt call
  have htopic : parseMeshtasticTopic (py "msh/US/2/json/LongFast/!12345678") =
      some (py "LongFast", .json) := by decide
  have hj := judge_of_zerohop htopic (hdrop _).dropMatches hzerohop.shouldZerohop
    (viewPacket_json hloads hints)
  rw [if_neg (by rw [viewJson, hhop]; decide)] at hj
  have hraises : call.RaisesInRecord rt :=
    ⟨py "LongFast", demoObject _ rfl, _, htopic, hloads,
      Call.shown?_of_view (hdrop _).dropMatches hzerohop.shouldZerohop
        (viewPacket_json hloads hints) _ rfl hloads,
      Or.inl fun h => absurd h.1 (by decide)⟩
  rcases @Call.run_of_judge rt call _ hj .initial with ⟨hnot, -⟩ | ⟨-, hrun⟩
  · exact absurd hraises hnot
  · rw [EachCountsOnce, hrun]
    exact ⟨rfl, rfl, rfl, fun h => not_countsOnce_inc_inc _ _ _ _ h.1⟩

end Floodgate.Ports
