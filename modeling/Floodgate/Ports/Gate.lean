import Floodgate.Ports.Accounting

/-!
# The gate a configuration stands for

A configuration is there to settle what becomes of a packet: it is denied, it is
delivered with hop limit zero, or it is delivered as it came.  `gate` says which,
from the policy of the configuration and from what the payload decodes to, without
dictionaries, counters, records or exceptions.

`process_message` refines the gate.  Faults inside it only ever deliver the packet
as it came, and without them the answer is that of the gate whenever the record of
the packet can be logged.

## Main results

* `processMessage_refines_gate`: under any faults.
* `processMessage_eq_gate`: without faults, on payloads the records of which can be
  formatted and logged.
-/

namespace Floodgate.Ports

open Floodgate.Verified
open Floodgate.Verified.FailOpen

/-- What becomes of a packet. -/
inductive Decision where
  | deliver
  | rewrite (payload : Bytes)
  | deny
  deriving DecidableEq

/-- The answer of `process_message` that carries out a decision. -/
def Decision.result : Decision → ProcessResult
  | .deliver => .passthru
  | .rewrite payload => .modify (some payload)
  | .deny => .drop

/-- What a policy settles for a packet on a channel: a matched portnum is denied; else
a packet that has hops left is rewritten on a zero-hopped channel. -/
def Policy.decision (p : Policy) (channel : PyStr) (portnum : Option PyStr)
    (view : Option PacketView) : Decision :=
  if p.drops channel portnum then .deny
  else if p.zerohops channel then
    match view with
    | some v => if v.hop = 0 then .deliver else .rewrite v.zeroHopped
    | none => .deliver
  else .deliver

/-- What a policy settles for a message. -/
def gate (p : Policy) (rt : Runtime) (topic : PyStr) (payload : Bytes) : Decision :=
  match parseMeshtasticTopic topic with
  | none => .deliver
  | some (channel, encoding) =>
      p.decision channel (extractPortnum rt encoding payload)
        (viewPacket rt encoding payload)

section Gate

variable {rt : Runtime} {topic : PyStr} {payload : Bytes} {config : Config} {p : Policy}

/-- Every verdict answers with the decision of the gate. -/
theorem Judged.result_eq (hp : config.HasPolicy p) {v : Verdict}
    (h : Judged rt topic payload config v) :
    v.result = (gate p rt topic payload).result := by
  cases h with
  | skipped htopic =>
      rw [gate, htopic]
      rfl
  | dropped htopic hdrop =>
      rw [hp.dropMatches, Except.ok.injEq] at hdrop
      simp only [gate, htopic, Policy.decision, hdrop, if_true]
      rfl
  | passthru htopic hdrop hzerohop =>
      rw [hp.dropMatches, Except.ok.injEq] at hdrop
      rw [hp.shouldZerohop, Except.ok.injEq] at hzerohop
      simp only [gate, htopic, Policy.decision, hdrop, hzerohop, Bool.false_eq_true, if_false]
      rfl
  | warn htopic hdrop hzerohop hview =>
      rw [hp.dropMatches, Except.ok.injEq] at hdrop
      rw [hp.shouldZerohop, Except.ok.injEq] at hzerohop
      simp only [gate, htopic, Policy.decision, hdrop, hzerohop, hview, Bool.false_eq_true,
        if_false, if_true]
      rfl
  | noop htopic hdrop hzerohop hview hhop =>
      rw [hp.dropMatches, Except.ok.injEq] at hdrop
      rw [hp.shouldZerohop, Except.ok.injEq] at hzerohop
      simp only [gate, htopic, Policy.decision, hdrop, hzerohop, hview, hhop,
        Bool.false_eq_true, if_false, if_true]
      rfl
  | zerohop htopic hdrop hzerohop hview hhop =>
      rw [hp.dropMatches, Except.ok.injEq] at hdrop
      rw [hp.shouldZerohop, Except.ok.injEq] at hzerohop
      simp only [gate, htopic, Policy.decision, hdrop, hzerohop, hview, if_neg hhop,
        Bool.false_eq_true, if_false, if_true]
      rfl

/-- Without a verdict, the gate delivers: the payload could not be decoded. -/
theorem gate_of_judge_error (hp : config.HasPolicy p) {e : PyErr}
    (hj : judge rt topic payload config = .error e) :
    gate p rt topic payload = .deliver := by
  cases htopic : parseMeshtasticTopic topic with
  | none =>
      rw [gate, htopic]
  | some parsed =>
      obtain ⟨channel, encoding⟩ := parsed
      have hmatches := hp.dropMatches rt payload channel encoding
      have happlies := hp.shouldZerohop channel
      cases hdrop : p.drops channel (extractPortnum rt encoding payload) with
      | true =>
          rw [hdrop] at hmatches
          rw [judge_of_dropMatches htopic hmatches] at hj
          cases hj
      | false =>
          rw [hdrop] at hmatches
          cases hzerohop : p.zerohops channel with
          | false =>
              rw [hzerohop] at happlies
              rw [judge_of_not_zerohop htopic hmatches happlies] at hj
              cases hj
          | true =>
              rw [hzerohop] at happlies
              cases hview : viewPacket rt encoding payload with
              | some v =>
                  rw [judge_of_zerohop htopic hmatches happlies hview] at hj
                  cases hj
              | none => simp [gate, htopic, Policy.decision, hdrop, hzerohop, hview]

/-- Whatever is raised inside, a call carries out the decision of the gate, or delivers
the packet as it came. -/
theorem processMessage_refines_gate (hp : config.HasPolicy p) (plan : FaultPlan) (w : World) :
    (processMessage rt plan topic payload config w).1 = (gate p rt topic payload).result ∨
      (processMessage rt plan topic payload config w).1 = .passthru := by
  rcases processMessage_cases rt plan topic payload config w with
    ⟨v, record, hj, -, hanswer⟩ | hpass
  · left
    rw [hanswer]
    exact (judged_of_judge hj).result_eq hp
  · exact Or.inr hpass

/-- Without faults, a call carries out the decision of the gate when the records of the
payload can be formatted and logged. -/
theorem processMessage_eq_gate (hp : config.HasPolicy p)
    (hrecordable : ∀ channel encoding,
      parseMeshtasticTopic topic = some (channel, encoding) → Recordable rt encoding payload)
    (w : World) :
    (processMessage rt noFault topic payload config w).1 =
      (gate p rt topic payload).result := by
  cases hj : judge rt topic payload config with
  | error e =>
      rw [processMessage_of_raised hj, gate_of_judge_error hp hj]
      rfl
  | ok v =>
      have hnot : ¬ (Call.mk topic payload config).RaisesInRecord rt :=
        Call.not_raisesInRecord_of hrecordable
      rcases @Call.run_of_judge rt ⟨topic, payload, config⟩ v hj w with
        ⟨-, hresult, -⟩ | ⟨hraises, -⟩
      · exact hresult.trans ((judged_of_judge hj).result_eq hp)
      · exact absurd hraises hnot

/-- A call that leaves the decision of the gate delivers the packet, since something was
raised inside: by a fault, on a node id without a format, or out of the log handler. -/
theorem processMessage_eq_gate_or_raised (hp : config.HasPolicy p) (plan : FaultPlan)
    (w : World) :
    (processMessage rt plan topic payload config w).1 = (gate p rt topic payload).result ∨
      (processMessage rt plan topic payload config w).1 = .passthru ∧
        (plan = noFault → ∃ channel encoding,
          parseMeshtasticTopic topic = some (channel, encoding) ∧
            ¬Recordable rt encoding payload) := by
  by_cases hgate : (processMessage rt plan topic payload config w).1 =
      (gate p rt topic payload).result
  · exact Or.inl hgate
  · refine Or.inr ⟨(processMessage_refines_gate hp plan w).resolve_left hgate, ?_⟩
    rintro rfl
    by_contra hnone
    refine hgate (processMessage_eq_gate hp (fun channel encoding hparse => ?_) w)
    by_contra hnot
    exact hnone ⟨channel, encoding, hparse, hnot⟩

end Gate

end Floodgate.Ports
