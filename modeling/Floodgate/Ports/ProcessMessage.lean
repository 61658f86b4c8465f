import Floodgate.Verified.FailOpen
import Floodgate.Ports.LogHandler
import Floodgate.Ports.Policy
import Floodgate.Ports.Stats
import Floodgate.Ports.Zerohop

/-!
# Processing one message

`process_message` runs `_process_message_inner` behind a catch-all: whatever is
raised inside is counted as an error and the message passes through.  The inner
function counts an outcome, extracts and formats metadata, logs, and answers,
in this order, so a raise after the counting leaves a count behind.

Every statement of the inner function is a fault point: a plan says what is
raised there, if anything.  Without faults the inner function computes
`judge`, a pure verdict: where it ends, what it logs there and what it answers.
What the code itself raises, in the formatting of a node id or out of the log
handler, is no fault; it is part of the verdict.

## Main results

* `exec_processMessageInner`: the inner function without faults runs the verdict.
* `processMessageInner_weakens`: faults only take answers away.
* `processMessage_cases`: what a call answers, under any faults.
-/

namespace Floodgate.Ports

open Floodgate.Verified
open Floodgate.Verified.FailOpen

/-! ## Results and state -/

/-- The actions of a `ProcessResult`. -/
inductive Action where
  | passthru | modify | drop
  deriving DecidableEq, Repr

/-- `ProcessResult`. -/
structure ProcessResult where
  action : Action
  payload : Option Bytes
  deriving DecidableEq

namespace ProcessResult

/-- `ProcessResult.passthru()`. -/
def passthru : ProcessResult := ⟨.passthru, none⟩

/-- `ProcessResult.modify(payload)`. -/
def modify (payload : Option Bytes) : ProcessResult := ⟨.modify, payload⟩

/-- `ProcessResult.drop()`. -/
def drop : ProcessResult := ⟨.drop, none⟩

end ProcessResult

/-- What a call changes: the counters, and the message records that the logger calls
returned from. -/
structure World where
  stats : AntifloodStats
  log : List (MessageRecord Json)

def World.count (w : World) (k : Counter) : World := { w with stats := w.stats.inc k }

def World.emit (w : World) (record : MessageRecord Json) : World :=
  { w with log := w.log ++ [record] }

/-- Where a message can end. -/
inductive Site where
  | skipped | dropped | passthru | warn | noop | zerohop
  deriving DecidableEq, Repr

/-- The counter of a site. -/
def Site.counter : Site → Counter
  | .skipped => .skipped
  | .dropped => .dropped
  | .passthru => .passthru
  | .warn => .errors
  | .noop => .noop
  | .zerohop => .zerohop

/-- The statements of `_process_message_inner`. -/
inductive Point where
  | imports | parseTopic | getDropEnabled | extractPortnum | shouldDrop
  | shouldZerohop | zerohop
  | count (site : Site) | readMeta (site : Site) | log (site : Site) | answer (site : Site)
  deriving DecidableEq, Repr

/-- What is raised at each point, if anything. -/
abbrev FaultPlan := Point → Option PyErr

/-- A step of `_process_message_inner`. -/
abbrev Step (α : Type) := Raising PyErr World α

/-- `stats.inc(counter)`. -/
def count (k : Counter) : Step Unit := modify (World.count · k)

/-- `logger.info(...)` or `logger.warning(...)` with a message record. -/
def emit (rt : Runtime) (record : MessageRecord Json) : Step Unit := do
  attempt (rt.log.handle record)
  modify (World.emit · record)

/-! ## Records -/

/-- `extra={...}`: a member that is `None` is no value of the record. -/
def MessageRecord.ofExtra (outcome : Outcome) (extra : List (MessageField × Json)) :
    MessageRecord Json where
  outcome := outcome
  value key := match Assoc.get? extra key with
    | none | some .null => none
    | some v => some v

/-- The members of a dropped record. -/
def droppedRecord (topic channel : PyStr) (encoding : Encoding)
    (portnum : Option PyStr) (m : Meta) : Except PyErr (MessageRecord Json) := do
  let sender ← fmtNode (m.get (py "sender"))
  let destination ← fmtNode (m.get (py "destination"))
  return .ofExtra .dropped
    [ (.topic, .str topic)
    , (.channel, .str channel)
    , (.encoding, .str encoding.text)
    , (.portnum, portnum.elim .null .str)
    , (.id, m.get (py "packet_id"))
    , (.fromNode, .str sender)
    , (.toNode, .str destination) ]

/-- The members of a passthru, noop or zerohop record; a passthru record has no
`hop_limit`. -/
def packetRecord (outcome : Outcome) (topic channel : PyStr) (encoding : Encoding)
    (m : Meta) (hopLimit : Json) : Except PyErr (MessageRecord Json) := do
  let sender ← fmtNode (m.get (py "sender"))
  let destination ← fmtNode (m.get (py "destination"))
  let relay ← fmtRelay (m.get (py "relay_node"))
  return .ofExtra outcome
    [ (.topic, .str topic)
    , (.channel, .str channel)
    , (.encoding, .str encoding.text)
    , (.id, m.get (py "packet_id"))
    , (.fromNode, .str sender)
    , (.toNode, .str destination)
    , (.hopLimit, hopLimit)
    , (.hopStart, m.get (py "hop_start"))
    , (.relay, relay.elim .null .str)
    , (.viaMqtt, m.get (py "via_mqtt")) ]

/-- The members of a warn record. -/
def warnRecord (topic channel : PyStr) (encoding : Encoding) (payload : Bytes) :
    MessageRecord Json :=
  .ofExtra .warn
    [ (.topic, .str topic)
    , (.channel, .str channel)
    , (.encoding, .str encoding.text)
    , (.bytes, .int payload.length) ]

/-! ## The port -/

/-- The block that ends a message at a site with a log record: count, read the
metadata, format and log the record, answer. -/
def conclude (rt : Runtime) (plan : FaultPlan) (site : Site)
    (record : Except PyErr (MessageRecord Json)) (result : ProcessResult) :
    Step ProcessResult := do
  mayRaise plan (.count site)
  count site.counter
  mayRaise plan (.readMeta site)
  mayRaise plan (.log site)
  let record ← attempt record
  emit rt record
  mayRaise plan (.answer site)
  return result

section Inner

variable (rt : Runtime) (plan : FaultPlan) (topic : PyStr) (payload : Bytes)
  (config : Config) (channel : PyStr) (encoding : Encoding)

/-- The drop check: an answer, or `none` to go on. -/
def dropCheck : Step (Option ProcessResult) := do
  mayRaise plan .getDropEnabled
  if !config.getTruthy (py "drop_enabled") false then
    return none
  else
    mayRaise plan .extractPortnum
    let portnum := extractPortnum rt encoding payload
    mayRaise plan .shouldDrop
    let matched ← attempt (shouldDrop config channel portnum)
    if matched then
      let result ← conclude rt plan .dropped
        (droppedRecord topic channel encoding portnum (peekMeta rt encoding payload))
        .drop
      return some result
    else
      return none

/-- `zerohop_json` or `zerohop_protobuf`, by encoding. -/
def runZerohop : Except PyErr ZerohopResult :=
  match encoding with
  | .json => zerohopJson rt payload
  | .e => zerohopProtobuf rt payload

/-- The branches on what the zero-hop function returned. -/
def zerohopAnswer (r : ZerohopResult) : Step ProcessResult :=
  if r.modified.isNone && r.oldHop.isNone then
    conclude rt plan .warn (.ok (warnRecord topic channel encoding payload)) .passthru
  else if r.oldHop = some 0 then
    conclude rt plan .noop
      (packetRecord .noop topic channel encoding r.packetMeta (.int 0)) .passthru
  else
    conclude rt plan .zerohop
      (packetRecord .zerohop topic channel encoding r.packetMeta
        (r.oldHop.elim .null .int))
      (.modify r.modified)

/-- The zero-hop check. -/
def zerohopCheck : Step ProcessResult := do
  mayRaise plan .shouldZerohop
  let applies ← attempt (shouldZerohop config channel)
  if !applies then
    conclude rt plan .passthru
      (packetRecord .passthru topic channel encoding (peekMeta rt encoding payload)
        .null)
      .passthru
  else
    mayRaise plan .zerohop
    let r ← attempt (runZerohop rt payload encoding)
    zerohopAnswer rt plan topic payload channel encoding r

/-- `_process_message_inner`. -/
def processMessageInner : Step ProcessResult := do
  mayRaise plan .imports
  mayRaise plan .parseTopic
  match parseMeshtasticTopic topic with
  | none => do
      mayRaise plan (.count .skipped)
      count .skipped
      mayRaise plan (.answer .skipped)
      return .passthru
  | some (channel, encoding) => do
      let dropped ← dropCheck rt plan topic payload config channel encoding
      match dropped with
      | some result => return result
      | none => zerohopCheck rt plan topic payload config channel encoding

/-- The handler of `process_message`. -/
def onException (_ : PyErr) (w : World) : ProcessResult × World :=
  (.passthru, w.count .errors)

/-- `process_message`. -/
def processMessage (w : World) : ProcessResult × World :=
  failOpen (processMessageInner rt plan topic payload config) onException w

end Inner

/-! ## The verdict -/

/-- Where a message ends, what is logged there, and the answer.  A site without
a record has `none`; a record that cannot be formatted or handled raises. -/
structure Verdict where
  site : Site
  record : Except PyErr (Option (MessageRecord Json))
  result : ProcessResult

section Verdicts

variable (rt : Runtime) (topic : PyStr) (payload : Bytes) (config : Config)
  (channel : PyStr) (encoding : Encoding)

def skippedVerdict : Verdict := ⟨.skipped, .ok none, .passthru⟩

def droppedVerdict : Verdict :=
  ⟨.dropped,
    (rt.log.handled (droppedRecord topic channel encoding
      (extractPortnum rt encoding payload) (peekMeta rt encoding payload))).map some,
    .drop⟩

def passthruVerdict : Verdict :=
  ⟨.passthru,
    (rt.log.handled (packetRecord .passthru topic channel encoding
      (peekMeta rt encoding payload) .null)).map some,
    .passthru⟩

def warnVerdict : Verdict :=
  ⟨.warn, .ok (some (warnRecord topic channel encoding payload)), .passthru⟩

def noopVerdict (m : Meta) : Verdict :=
  ⟨.noop, (rt.log.handled (packetRecord .noop topic channel encoding m (.int 0))).map some,
    .passthru⟩

def zerohopVerdict (m : Meta) (oldHop : Option Int) (modified : Option Bytes) : Verdict :=
  ⟨.zerohop,
    (rt.log.handled (packetRecord .zerohop topic channel encoding m
      (oldHop.elim .null .int))).map some,
    .modify modified⟩

/-- The verdict on what the zero-hop function returned. -/
def zerohopResultVerdict (r : ZerohopResult) : Verdict :=
  if r.modified.isNone && r.oldHop.isNone then warnVerdict topic payload channel encoding
  else if r.oldHop = some 0 then noopVerdict rt topic channel encoding r.packetMeta
  else zerohopVerdict rt topic channel encoding r.packetMeta r.oldHop r.modified

/-- The drop filter matches: `drop_enabled`, and `should_drop` of the portnum. -/
def dropMatches : Except PyErr Bool :=
  if config.getTruthy (py "drop_enabled") false then
    shouldDrop config channel (extractPortnum rt encoding payload)
  else .ok false

/-- The verdict on a packet topic. -/
def judgePacket : Except PyErr Verdict := do
  if ← dropMatches rt payload config channel encoding then
    return droppedVerdict rt topic payload channel encoding
  else if !(← shouldZerohop config channel) then
    return passthruVerdict rt topic payload channel encoding
  else
    let r ← runZerohop rt payload encoding
    return zerohopResultVerdict rt topic payload channel encoding r

/-- The verdict on a message. -/
def judge : Except PyErr Verdict :=
  match parseMeshtasticTopic topic with
  | none => .ok skippedVerdict
  | some (channel, encoding) => judgePacket rt topic payload config channel encoding

end Verdicts

/-- On a configuration that has a policy, the drop filter decides it. -/
theorem Config.HasPolicy.dropMatches {config : Config} {p : Policy}
    (h : config.HasPolicy p) (rt : Runtime) (payload : Bytes) (channel : PyStr)
    (encoding : Encoding) :
    dropMatches rt payload config channel encoding =
      .ok (p.drops channel (extractPortnum rt encoding payload)) := by
  rw [Ports.dropMatches, h.getTruthy_dropEnabled]
  cases he : p.dropEnabled with
  | true => simp [h.shouldDrop]
  | false => simp [Policy.drops, he]

/-- Carry out a verdict: count, then log and answer, or raise. -/
def Verdict.run (v : Verdict) (w : World) : Except PyErr ProcessResult × World :=
  match v.record with
  | .error e => (.error e, w.count v.site.counter)
  | .ok none => (.ok v.result, w.count v.site.counter)
  | .ok (some record) => (.ok v.result, (w.count v.site.counter).emit record)

@[simp] theorem exec_count (k : Counter) (w : World) :
    exec (count k) w = (.ok (), w.count k) := rfl

/-- A warn record has no values that a publisher can nest. -/
theorem handled_warnRecord (h : LogHandler) (topic channel : PyStr) (encoding : Encoding)
    (payload : Bytes) :
    h.handled (.ok (warnRecord topic channel encoding payload)) =
      .ok (warnRecord topic channel encoding payload) := by
  have hscalars : ∀ key v, (warnRecord topic channel encoding payload).value key = some v →
      v.isContainer = false := by
    intro key v hv
    cases key <;> cases hv <;> rfl
  rw [LogHandler.handled, ok_bind, LogHandler.handle_of_scalars hscalars]
  rfl

theorem exec_conclude (rt : Runtime) (site : Site)
    (record : Except PyErr (MessageRecord Json)) (result : ProcessResult) (w : World) :
    exec (conclude rt noFault site record result) w =
      Verdict.run ⟨site, (rt.log.handled record).map some, result⟩ w := by
  cases record with
  | error e =>
      simp only [conclude, exec_bind, exec_mayRaise_noFault, exec_count, exec_attempt]
      rfl
  | ok record =>
      simp only [conclude, exec_bind, exec_mayRaise_noFault, exec_count, exec_attempt, emit,
        LogHandler.handled, ok_bind]
      cases rt.log.handle record <;> rfl

section Refinement

variable (rt : Runtime) (topic : PyStr) (payload : Bytes) (config : Config)
  (channel : PyStr) (encoding : Encoding) (w : World)

/-- Carry out what was judged, or raise. -/
def runJudged (v : Except PyErr Verdict) (w : World) : Except PyErr ProcessResult × World :=
  match v with
  | .error e => (.error e, w)
  | .ok v => v.run w

theorem exec_zerohopAnswer (r : ZerohopResult) :
    exec (zerohopAnswer rt noFault topic payload channel encoding r) w =
      (zerohopResultVerdict rt topic payload channel encoding r).run w := by
  unfold zerohopAnswer zerohopResultVerdict
  split
  · rw [exec_conclude, handled_warnRecord]
    rfl
  · split
    · rw [exec_conclude]
      rfl
    · rw [exec_conclude]
      rfl

/-- The zero-hop check, without faults. -/
theorem exec_zerohopCheck :
    exec (zerohopCheck rt noFault topic payload config channel encoding) w =
      runJudged (do
        if !(← shouldZerohop config channel) then
          return passthruVerdict rt topic payload channel encoding
        else
          let r ← runZerohop rt payload encoding
          return zerohopResultVerdict rt topic payload channel encoding r) w := by
  simp only [zerohopCheck, exec_bind, exec_mayRaise_noFault, exec_attempt]
  cases hz : shouldZerohop config channel with
  | error e => rfl
  | ok applies =>
      cases applies with
      | false =>
          simp only [Bool.not_false, if_true, exec_conclude]
          rfl
      | true =>
          simp only [Bool.not_true, Bool.false_eq_true, if_false, exec_bind,
            exec_mayRaise_noFault, exec_attempt]
          cases hr : runZerohop rt payload encoding with
          | error e => simp [runJudged, bind, Except.bind]
          | ok r => simp [runJudged, bind, Except.bind, pure, Except.pure,
              exec_zerohopAnswer]

/-- The drop check, without faults, when the filter does not match. -/
theorem exec_dropCheck_of_false
    (h : dropMatches rt payload config channel encoding = .ok false) :
    exec (dropCheck rt noFault topic payload config channel encoding) w =
      (.ok none, w) := by
  unfold dropMatches at h
  simp only [dropCheck, exec_bind, exec_mayRaise_noFault]
  split at h
  · next henabled =>
    simp only [henabled, Bool.not_true, Bool.false_eq_true, if_false, exec_bind,
      exec_mayRaise_noFault, exec_attempt, h, exec_pure]
  · next henabled =>
    simp only [henabled, Bool.not_false, if_true, exec_pure]

theorem exec_dropCheck_of_error {e : PyErr}
    (h : dropMatches rt payload config channel encoding = .error e) :
    exec (dropCheck rt noFault topic payload config channel encoding) w =
      (.error e, w) := by
  unfold dropMatches at h
  simp only [dropCheck, exec_bind, exec_mayRaise_noFault]
  split at h
  · next henabled =>
    simp only [henabled, Bool.not_true, Bool.false_eq_true, if_false, exec_bind,
      exec_mayRaise_noFault, exec_attempt, h]
  · cases h

theorem exec_dropCheck_of_true
    (h : dropMatches rt payload config channel encoding = .ok true)
    {r : Except PyErr ProcessResult} {w' : World}
    (hrun : (droppedVerdict rt topic payload channel encoding).run w = (r, w')) :
    exec (dropCheck rt noFault topic payload config channel encoding) w =
      (r.map some, w') := by
  have hconclude := exec_conclude rt .dropped
    (droppedRecord topic channel encoding (extractPortnum rt encoding payload)
      (peekMeta rt encoding payload)) .drop w
  rw [← droppedVerdict, hrun] at hconclude
  unfold dropMatches at h
  simp only [dropCheck, exec_bind, exec_mayRaise_noFault]
  split at h
  · next henabled =>
    simp only [henabled, Bool.not_true, Bool.false_eq_true, if_false, exec_bind,
      exec_mayRaise_noFault, exec_attempt, h, if_true, hconclude]
    cases r <;> rfl
  · cases h

/-- Without faults, the inner function carries out its verdict. -/
theorem exec_processMessageInner :
    exec (processMessageInner rt noFault topic payload config) w =
      runJudged (judge rt topic payload config) w := by
  unfold processMessageInner judge
  simp only [exec_bind, exec_mayRaise_noFault]
  cases parseMeshtasticTopic topic with
  | none => rfl
  | some p =>
      obtain ⟨channel, encoding⟩ := p
      simp only [exec_bind, judgePacket]
      cases hd : dropMatches rt payload config channel encoding with
      | error e =>
          rw [exec_dropCheck_of_error rt topic payload config channel encoding w hd]
          rfl
      | ok matched =>
          cases matched with
          | true =>
              rcases hrun : (droppedVerdict rt topic payload channel encoding).run w with
                ⟨r, w'⟩
              rw [exec_dropCheck_of_true rt topic payload config channel encoding w hd hrun]
              cases r with
              | ok r => exact hrun.symm
              | error e => exact hrun.symm
          | false =>
              rw [exec_dropCheck_of_false rt topic payload config channel encoding w hd]
              exact exec_zerohopCheck rt topic payload config channel encoding w

end Refinement

/-! ## Faults -/

theorem conclude_weakens (rt : Runtime) (plan : FaultPlan) (site : Site)
    (record : Except PyErr (MessageRecord Json)) (result : ProcessResult) :
    Weakens (conclude rt plan site record result) (conclude rt noFault site record result) := by
  unfold conclude
  refine Weakens.after_point plan _ ((Weakens.refl _).bind fun _ => ?_)
  refine Weakens.after_point plan _ (Weakens.after_point plan _ ?_)
  refine (Weakens.refl _).bind fun _ => (Weakens.refl _).bind fun _ => ?_
  exact Weakens.after_point plan _ (Weakens.refl _)

section Faults

variable (rt : Runtime) (plan : FaultPlan) (topic : PyStr) (payload : Bytes)
  (config : Config) (channel : PyStr) (encoding : Encoding)

theorem dropCheck_weakens :
    Weakens (dropCheck rt plan topic payload config channel encoding)
      (dropCheck rt noFault topic payload config channel encoding) := by
  unfold dropCheck
  refine Weakens.after_point plan _ ?_
  split
  · exact Weakens.refl _
  · refine Weakens.after_point plan _ (Weakens.after_point plan _ ?_)
    refine (Weakens.refl _).bind fun matched => ?_
    split
    · exact (conclude_weakens rt plan _ _ _).bind fun _ => Weakens.refl _
    · exact Weakens.refl _

theorem zerohopAnswer_weakens (r : ZerohopResult) :
    Weakens (zerohopAnswer rt plan topic payload channel encoding r)
      (zerohopAnswer rt noFault topic payload channel encoding r) := by
  unfold zerohopAnswer
  split
  · exact conclude_weakens rt plan _ _ _
  · split
    · exact conclude_weakens rt plan _ _ _
    · exact conclude_weakens rt plan _ _ _

theorem zerohopCheck_weakens :
    Weakens (zerohopCheck rt plan topic payload config channel encoding)
      (zerohopCheck rt noFault topic payload config channel encoding) := by
  unfold zerohopCheck
  refine Weakens.after_point plan _ ((Weakens.refl _).bind fun applies => ?_)
  split
  · exact conclude_weakens rt plan _ _ _
  · refine Weakens.after_point plan _ ((Weakens.refl _).bind fun r => ?_)
    exact zerohopAnswer_weakens rt plan topic payload channel encoding r

/-- Faults only take answers away from the inner function. -/
theorem processMessageInner_weakens :
    Weakens (processMessageInner rt plan topic payload config)
      (processMessageInner rt noFault topic payload config) := by
  unfold processMessageInner
  refine Weakens.after_point plan _ (Weakens.after_point plan _ ?_)
  split
  · refine Weakens.after_point plan _ ((Weakens.refl _).bind fun _ => ?_)
    exact Weakens.after_point plan _ (Weakens.refl _)
  · next channel encoding _ =>
    refine (dropCheck_weakens rt plan topic payload config channel encoding).bind ?_
    intro dropped
    cases dropped with
    | some result => exact Weakens.refl _
    | none => exact zerohopCheck_weakens rt plan topic payload config channel encoding

/-- What a call answers, whatever is raised inside: the answer of a verdict
whose record was logged, or the pass-through of the handler. -/
theorem processMessage_cases (w : World) :
    (∃ v record, judge rt topic payload config = .ok v ∧ v.record = .ok record ∧
      (processMessage rt plan topic payload config w).1 = v.result) ∨
    (processMessage rt plan topic payload config w).1 = .passthru := by
  rcases failOpen_of_weakens (processMessageInner_weakens rt plan topic payload config)
    onException w with ⟨r, w', hexec, hanswer⟩ | ⟨e, w', -, hanswer⟩
  · rw [exec_processMessageInner] at hexec
    left
    cases hj : judge rt topic payload config with
    | error e =>
        rw [hj] at hexec
        cases hexec
    | ok v =>
        rw [hj] at hexec
        cases hrec : v.record with
        | error e => simp [runJudged, Verdict.run, hrec] at hexec
        | ok record =>
            refine ⟨v, record, rfl, hrec, ?_⟩
            rw [processMessage, hanswer]
            cases record <;> simp [runJudged, Verdict.run, hrec] at hexec <;>
              exact hexec.1.symm
  · right
    rw [processMessage, hanswer]
    rfl

end Faults

end Floodgate.Ports
