import Floodgate.Verified.Interference
import Floodgate.Ports.Gate
import Floodgate.Ports.PortnumRecovery

/-!
# Lazily imported modules

The generated protobuf modules are imported by the first message that needs them, and
kept in module globals.  `_load_protos` has no lock, so that worker threads run it at the
same time: one of them may find the first global set, by another thread that has not set
the next one yet.

Two threads that both import assign the same modules, since the import system keeps them.

## Main results

* `portnum_threads_fail_open`: what a thread answers, in every interleaving.
* `portnum_exact_iff`: when the next answer is sure to be that of one thread alone.
* `zerohop_threads_exact`: the loader of `zerohop`, which has no such gap.
-/

namespace Floodgate.Ports

open Floodgate.Verified
open Floodgate.Verified.Transition
open Floodgate.Verified.Interference

/-- What a `try` block raises. -/
inductive Raised where
  | exception (e : PyErr)
  /-- `None` has no attributes. -/
  | attributeError (name : PyStr)

section Globals

variable {G ε α : Type}

/-- Something that may raise. -/
def orRaised (r : Except PyErr α) : ExceptT Raised (Code G) α :=
  ExceptT.mk (pure (r.mapError .exception))

/-- Read a global. -/
def getGlobal (global : G → α) : ExceptT ε (Code G) α := ExceptT.lift (Code.read global)

/-- Set a global. -/
def setGlobal (update : G → G) : ExceptT ε (Code G) Unit :=
  ExceptT.lift (Code.write update)

/-- The module that a global holds, for one of its attributes. -/
def moduleOf (global : G → Option Protos) (name : PyStr) : ExceptT Raised (Code G) Protos := do
  match ← getGlobal global with
  | some protos => return protos
  | none => throw (.attributeError name)

end Globals

/-! ## The globals of `portnum` -/

/-- `_mqtt_pb2`, `_mesh_pb2` and `_portnums_pb2`.  A module stands for all of the
generated code. -/
structure PortnumGlobals where
  mqttPb2 : Option Protos
  meshPb2 : Option Protos
  portnumsPb2 : Option Protos

def PortnumGlobals.initial : PortnumGlobals := ⟨none, none, none⟩

/-- All modules are there. -/
structure PortnumGlobals.Complete (g : PortnumGlobals) : Prop where
  mqtt : g.mqttPb2.isSome = true
  mesh : g.meshPb2.isSome = true
  portnums : g.portnumsPb2.isSome = true

section Portnum

variable (rt : Runtime) (payload : Bytes)

/-- The assignments of `_load_protos`. -/
def setPortnumProtos (protos : Protos) : ExceptT Raised (Code PortnumGlobals) Unit := do
  setGlobal fun g => { g with mqttPb2 := some protos }
  setGlobal fun g => { g with meshPb2 := some protos }
  setGlobal fun g => { g with portnumsPb2 := some protos }

/-- `_load_protos`. -/
def loadPortnumProtos : ExceptT Raised (Code PortnumGlobals) Unit := do
  if (← getGlobal PortnumGlobals.mqttPb2).isNone then
    setPortnumProtos (← orRaised rt.loadProtos)

/-- The end of the `try` block of `extract_portnum_protobuf`, in a thread. -/
def tryPortnumData (plaintext : Bytes) :
    ExceptT Raised (Code PortnumGlobals) (Option PyStr) := do
  let mesh ← moduleOf PortnumGlobals.meshPb2 (py "Data")
  let data ← orRaised (mesh.parseData plaintext)
  let portnums ← moduleOf PortnumGlobals.portnumsPb2 (py "PortNum")
  return some (← orRaised (portnums.portnumName data.portnum))

/-- The `try` block of `extract_portnum_protobuf` after `_load_protos`, in a thread. -/
def tryPortnumEnvelope : ExceptT Raised (Code PortnumGlobals) (Option PyStr) := do
  let mqtt ← moduleOf PortnumGlobals.mqttPb2 (py "ServiceEnvelope")
  let env ← orRaised (mqtt.parseEnvelope payload)
  match env.packet with
  | none => return none
  | some pkt =>
      match pkt.payloadVariant with
      | some (.encrypted ciphertext) =>
          tryPortnumData (decrypt rt ciphertext pkt.id.toNat (readFromField pkt))
      | _ => return none

/-- `extract_portnum_protobuf`, in a thread. -/
def portnumThread : Code PortnumGlobals (Option PyStr) := do
  match ← (loadPortnumProtos rt >>= fun _ => tryPortnumEnvelope rt payload).run with
  | .ok portnum => return portnum
  | .error _ => return none

end Portnum

/-- What a thread may do to the globals: it sets those that are not set, the first one
first. -/
structure Evolves (rt : Runtime) (g g' : PortnumGlobals) : Prop where
  mqtt : Filled rt.protos g.mqttPb2 g'.mqttPb2
  mesh : Filled rt.protos g.meshPb2 g'.meshPb2
  portnums : Filled rt.protos g.portnumsPb2 g'.portnumsPb2
  order : (g.mqttPb2 = none → g.meshPb2 = none) → g'.mqttPb2 = none → g'.meshPb2 = none

/-- The changes of the globals of `portnum`. -/
def portnumRely (rt : Runtime) : Rely PortnumGlobals where
  rel := Evolves rt
  refl _ := ⟨.refl _ _, .refl _ _, .refl _ _, id⟩
  trans h h' := ⟨h.mqtt.trans h'.mqtt, h.mesh.trans h'.mesh, h.portnums.trans h'.portnums,
    h'.order ∘ h.order⟩

section Rules

variable {G ε α β : Type} {R : Rely G} {g : G}

section Access

variable {post : Except ε β → G → Prop}

theorem holds_getGlobal {global : G → α} {next : α → ExceptT ε (Code G) β}
    (h : ∀ g', R.rel g g' → Holds R post (next (global g')).run g') :
    Holds R post (getGlobal global >>= next).run g := fun g' hg' => ⟨R.refl g', h g' hg'⟩

theorem holds_setGlobal {update : G → G} {next : Unit → ExceptT ε (Code G) β}
    (h : ∀ g', R.rel g g' → R.rel g' (update g') ∧
      Holds R post (next ()).run (update g')) :
    Holds R post (setGlobal update >>= next).run g := h

end Access

theorem holds_moduleOf {post : Except Raised β → G → Prop} {global : G → Option Protos}
    {name : PyStr} {next : Protos → ExceptT Raised (Code G) β}
    (hsome : ∀ g' protos, R.rel g g' → global g' = some protos →
      Holds R post (next protos).run g')
    (hnone : ∀ g', R.rel g g' → global g' = none →
      ∀ g'', R.rel g' g'' → post (.error (.attributeError name)) g'') :
    Holds R post (moduleOf global name >>= next).run g := by
  rw [moduleOf, bind_assoc]
  refine holds_getGlobal fun g' hg' => ?_
  cases hglobal : global g' with
  | some protos => exact hsome g' protos hg' hglobal
  | none => exact hnone g' hg' hglobal

end Rules

section PortnumRules

variable {rt : Runtime} {g : PortnumGlobals} {payload : Bytes}

theorem Evolves.refl (g : PortnumGlobals) : Evolves rt g g := (portnumRely rt).refl g

theorem Evolves.trans {g' g'' : PortnumGlobals} (h : Evolves rt g g') (h' : Evolves rt g' g'') :
    Evolves rt g g'' := (portnumRely rt).trans h h'

theorem Evolves.complete {g' : PortnumGlobals} (h : Evolves rt g g') (hg : g.Complete) :
    g'.Complete where
  mqtt := (h.mqtt.isSome hg.mqtt).symm ▸ hg.mqtt
  mesh := (h.mesh.isSome hg.mesh).symm ▸ hg.mesh
  portnums := (h.portnums.isSome hg.portnums).symm ▸ hg.portnums

theorem protos_of_filled {cell : Option Protos} {protos : Protos}
    (h : Filled rt.protos none cell) (hcell : cell = some protos) : rt.protos = some protos := by
  rcases h.of_none with rfl | rfl
  · cases hcell
  · exact hcell

section Load

variable {β : Type} {post : Except Raised β → PortnumGlobals → Prop}
  {next : Unit → ExceptT Raised (Code PortnumGlobals) β}

/-- After the assignments, `_mqtt_pb2` is set. -/
theorem holds_setPortnumProtos {protos : Protos} (hprotos : rt.protos = some protos)
    (hg : Evolves rt .initial g)
    (hnext : ∀ g', Evolves rt g g' → g'.mqttPb2 = some protos →
      Holds (portnumRely rt) post (next ()).run g') :
    Holds (portnumRely rt) post (setPortnumProtos protos >>= next).run g := by
  have hset : ∀ {cell : Option Protos}, Filled rt.protos none cell →
      Filled rt.protos cell (some protos) := fun h => hprotos ▸ h.fill
  rw [setPortnumProtos, bind_assoc]
  refine holds_setGlobal fun g₁ hg₁ => ?_
  have hto₁ := hg.trans hg₁
  have hstep₁ : Evolves rt g₁ { g₁ with mqttPb2 := some protos } :=
    ⟨hset hto₁.mqtt, .refl _ _, .refl _ _, fun _ h => by cases h⟩
  refine ⟨hstep₁, ?_⟩
  rw [bind_assoc]
  refine holds_setGlobal fun g₂ hg₂ => ?_
  have hto₂ := hto₁.trans (hstep₁.trans hg₂)
  have hmqtt₂ : g₂.mqttPb2 = some protos := hg₂.mqtt.isSome rfl
  -- the second one is not set before the first
  have hstep₂ : Evolves rt g₂ { g₂ with meshPb2 := some protos } :=
    ⟨.refl _ _, hset hto₂.mesh, .refl _ _, fun _ h => by cases hmqtt₂.symm.trans h⟩
  refine ⟨hstep₂, holds_setGlobal fun g₃ hg₃ => ?_⟩
  have hto₃ := hto₂.trans (hstep₂.trans hg₃)
  have hmqtt₃ : g₃.mqttPb2 = some protos :=
    (hg₃.mqtt.isSome (by simp [hmqtt₂])).trans hmqtt₂
  have hstep₃ : Evolves rt g₃ { g₃ with portnumsPb2 := some protos } :=
    ⟨.refl _ _, .refl _ _, hset hto₃.portnums, fun h => h⟩
  exact ⟨hstep₃, hnext _ (hg₁.trans (hstep₁.trans (hg₂.trans (hstep₂.trans (hg₃.trans hstep₃)))))
    hmqtt₃⟩

/-- After `_load_protos`, `_mqtt_pb2` is set; nothing is known of the others. -/
theorem holds_loadPortnumProtos (hg : Evolves rt .initial g)
    (hok : ∀ g' protos, Evolves rt g g' → rt.protos = some protos →
      g'.mqttPb2 = some protos → Holds (portnumRely rt) post (next ()).run g')
    (herror : rt.protos = none → ∀ e g', Evolves rt g g' → post (.error (.exception e)) g') :
    Holds (portnumRely rt) post (loadPortnumProtos rt >>= next).run g := by
  rw [loadPortnumProtos, bind_assoc]
  refine holds_getGlobal fun g₁ hg₁ => ?_
  cases hmqtt : g₁.mqttPb2 with
  | some protos => exact hok g₁ protos hg₁ (protos_of_filled (hg.trans hg₁).mqtt hmqtt) hmqtt
  | none =>
      cases hprotos : rt.protos with
      | none =>
          simp only [Runtime.loadProtos, hprotos]
          exact fun g' hg' => herror hprotos _ g' (hg₁.trans hg')
      | some protos =>
          have hload : rt.loadProtos = .ok protos := by rw [Runtime.loadProtos, hprotos]
          simp only [hload]
          exact holds_setPortnumProtos hprotos (hg.trans hg₁) fun g' hg' hmqtt' =>
            hok g' protos (hg₁.trans hg') hprotos hmqtt'

end Load

/-- What a thread answers, whatever the other threads do, from globals on that are
complete or not. -/
def PortnumAnswer (rt : Runtime) (payload : Bytes) (g : PortnumGlobals)
    (a : Option PyStr) (g' : PortnumGlobals) : Prop :=
  (a = extractPortnumProtobuf rt payload ∨ a = none ∧ ¬g.Complete) ∧
    (a.isSome = true → g'.Complete)

theorem PortnumAnswer.later {g₀ g' g'' : PortnumGlobals} {a : Option PyStr}
    (h : PortnumAnswer rt payload g₀ a g') (hlater : Evolves rt g' g'') :
    PortnumAnswer rt payload g₀ a g'' := ⟨h.1, fun ha => hlater.complete (h.2 ha)⟩

/-- The answer of `extract_portnum_protobuf` for what its `try` block comes to. -/
def portnumOf : Except Raised (Option PyStr) → Option PyStr
  | .ok portnum => portnum
  | .error _ => none

theorem portnumAnswer_none {g₀ g' : PortnumGlobals}
    (h : extractPortnumProtobuf rt payload = none ∨ ¬g₀.Complete) :
    PortnumAnswer rt payload g₀ none g' := by
  refine ⟨?_, fun h => by cases h⟩
  rcases h with h | h
  · exact Or.inl h.symm
  · exact Or.inr ⟨rfl, h⟩

/-- The portnum of a plaintext, with all modules there. -/
def Protos.portnumOfPlaintext (protos : Protos) (plaintext : Bytes) : Option PyStr :=
  (protos.parseData plaintext).toOption.bind fun data =>
    (protos.portnumName data.portnum).toOption

/-- The sequential extraction, up to the decryption. -/
theorem extractPortnumProtobuf_eq {protos : Protos} (hprotos : rt.protos = some protos)
    (payload : Bytes) :
    extractPortnumProtobuf rt payload =
      match protos.parseEnvelope payload with
      | .error _ => none
      | .ok env =>
          match env.packet with
          | none => none
          | some pkt =>
              match pkt.payloadVariant with
              | some (.encrypted ciphertext) => protos.portnumOfPlaintext
                  (decrypt rt ciphertext pkt.id.toNat (readFromField pkt))
              | _ => none := by
  have hload : rt.loadProtos = .ok protos := by rw [Runtime.loadProtos, hprotos]
  rw [extractPortnumProtobuf, readPortnumProtobuf, hload, ok_bind]
  cases protos.parseEnvelope payload with
  | error e => rfl
  | ok env =>
      rw [ok_bind]
      dsimp only
      cases env.packet with
      | none => rfl
      | some pkt =>
          cases hvariant : pkt.payloadVariant with
          | none => simp only [hvariant]; rfl
          | some variant =>
              cases variant with
              | decoded data => simp only [hvariant]; rfl
              | encrypted ciphertext =>
                  simp only [hvariant, Protos.portnumOfPlaintext]
                  cases protos.parseData
                      (decrypt rt ciphertext pkt.id.toNat (readFromField pkt)) with
                  | error e => rfl
                  | ok data =>
                      rw [ok_bind]
                      simp only [Except.toOption, Option.bind_some]
                      cases protos.portnumName data.portnum <;> rfl

section Try

variable {g₀ : PortnumGlobals} {protos : Protos} (hg : Evolves rt .initial g)
  (hg₀ : Evolves rt g₀ g) (hprotos : rt.protos = some protos)

include hg hg₀ hprotos

/-- The second and the third module may be missing yet, unless they were there when the
thread started. -/
theorem holds_tryPortnumData (hmqtt : g.mqttPb2 = some protos) {plaintext : Bytes}
    (hseq : extractPortnumProtobuf rt payload = protos.portnumOfPlaintext plaintext) :
    Holds (portnumRely rt) (fun r g' => PortnumAnswer rt payload g₀ (portnumOf r) g')
      (tryPortnumData plaintext).run g := by
  have hsame : ∀ {cell protos'}, Filled rt.protos none cell → cell = some protos' →
      protos' = protos := fun h hcell =>
    Option.some.inj ((protos_of_filled h hcell).symm.trans hprotos)
  have hmissing : ∀ {g' g''}, Evolves rt g g' → ¬g'.Complete →
      PortnumAnswer rt payload g₀ none g'' := fun hg' hnot =>
    portnumAnswer_none (Or.inr fun hcomplete => hnot ((hg₀.trans hg').complete hcomplete))
  refine holds_moduleOf (fun g₁ mesh hg₁ hmesh₁ => ?_) (fun g₁ hg₁ hmesh₁ g' hg' => ?_)
  swap
  · exact hmissing hg₁ fun h => by cases hmesh₁ ▸ h.mesh
  obtain rfl := hsame (hg.trans hg₁).mesh hmesh₁
  rw [Protos.portnumOfPlaintext] at hseq
  cases hdata : mesh.parseData plaintext with
  | error e => exact fun g' _ => portnumAnswer_none (Or.inl (by rw [hseq, hdata]; rfl))
  | ok data =>
      refine holds_moduleOf (fun g₂ portnums hg₂ hportnums₂ => ?_)
        (fun g₂ hg₂ hportnums₂ g' hg' => ?_)
      swap
      · exact hmissing (hg₁.trans hg₂) fun h => by cases hportnums₂ ▸ h.portnums
      have hto₂ := hg₁.trans hg₂
      obtain rfl := hsame (hg.trans hto₂).portnums hportnums₂
      have hcomplete : g₂.Complete :=
        { mqtt := by rw [hto₂.mqtt.isSome (by simp [hmqtt]), hmqtt]; rfl
          mesh := by rw [hg₂.mesh.isSome (by simp [hmesh₁]), hmesh₁]; rfl
          portnums := by rw [hportnums₂]; rfl }
      rw [hdata] at hseq
      have hanswer : ∀ r, portnumOf r = extractPortnumProtobuf rt payload →
          ∀ g' : PortnumGlobals, Evolves rt g₂ g' →
            PortnumAnswer rt payload g₀ (portnumOf r) g' := fun r hr g' hg' =>
        ⟨Or.inl hr, fun _ => hg'.complete hcomplete⟩
      cases hname : portnums.portnumName data.portnum with
      | error e => exact hanswer _ (by rw [hseq]; simp [hname, portnumOf, Except.toOption])
      | ok pn => exact hanswer _ (by rw [hseq]; simp [hname, portnumOf, Except.toOption])

end Try

/-- The `try` block finds the modules one after the other. -/
theorem holds_tryPortnumProtobuf {g₀ : PortnumGlobals} (hg : Evolves rt .initial g)
    (hg₀ : Evolves rt g₀ g) :
    Holds (portnumRely rt) (fun r g' => PortnumAnswer rt payload g₀ (portnumOf r) g')
      (loadPortnumProtos rt >>= fun _ => tryPortnumEnvelope rt payload).run g := by
  refine holds_loadPortnumProtos hg (fun g₁ protos hg₁ hprotos hmqtt₁ => ?_)
    (fun hprotos e g' _ => portnumAnswer_none (Or.inl ?_))
  swap
  · simp [extractPortnumProtobuf, readPortnumProtobuf, Runtime.loadProtos, hprotos, bind,
      Except.bind]
  have hseq := extractPortnumProtobuf_eq hprotos payload
  refine holds_moduleOf (fun g₂ protos' hg₂ hmqtt₂ => ?_) (fun g₂ hg₂ hmqtt₂ => ?_)
  swap
  · have hmqtt := (hg₂.mqtt.isSome (by simp [hmqtt₁])).trans hmqtt₁
    cases hmqtt.symm.trans hmqtt₂
  have hto₂ := hg₁.trans hg₂
  obtain rfl := Option.some.inj
    ((protos_of_filled (hg.trans hto₂).mqtt hmqtt₂).symm.trans hprotos)
  have hnone : extractPortnumProtobuf rt payload = none →
      ∀ r, portnumOf r = none → ∀ g' : PortnumGlobals, Evolves rt g₂ g' →
        PortnumAnswer rt payload g₀ (portnumOf r) g' := fun h r hr g' _ =>
    hr ▸ portnumAnswer_none (Or.inl h)
  cases hparse : protos'.parseEnvelope payload with
  | error e => exact hnone (by rw [hseq, hparse]) _ rfl
  | ok env =>
      rw [hparse] at hseq
      obtain ⟨packet, channelId, gatewayId, rest⟩ := env
      cases packet with
      | none => exact hnone hseq _ rfl
      | some pkt =>
          dsimp only at hseq
          show Holds _ _ ((match pkt.payloadVariant with
            | some (.encrypted ciphertext) =>
                tryPortnumData (decrypt rt ciphertext pkt.id.toNat (readFromField pkt))
            | _ => return none) : ExceptT Raised (Code PortnumGlobals) (Option PyStr)).run g₂
          cases hvariant : pkt.payloadVariant with
          | none => exact hnone (by rw [hseq, hvariant]) _ rfl
          | some variant =>
              cases variant with
              | decoded data => exact hnone (by rw [hseq, hvariant]) _ rfl
              | encrypted ciphertext =>
                  exact holds_tryPortnumData (hg.trans hto₂) (hg₀.trans hto₂) hprotos hmqtt₂
                    (by rw [hseq, hvariant])

theorem holds_portnumThread {g₀ : PortnumGlobals} (hg : Evolves rt .initial g)
    (hg₀ : Evolves rt g₀ g) :
    Holds (portnumRely rt) (PortnumAnswer rt payload g₀) (portnumThread rt payload) g := by
  refine (holds_tryPortnumProtobuf hg hg₀).bind fun r g' h => ?_
  cases r with
  | ok portnum => exact fun g'' hg'' => h.later hg''
  | error e => exact fun g'' hg'' => h.later hg''

end PortnumRules

/-! ## Threads that extract portnums -/

/-- What the threads are asked for: the portnum of a payload.  The number tells apart
requests with the same payload. -/
structure PortnumRequest where
  number : Nat
  payload : Bytes

/-- Any number of threads that extract portnums. -/
def portnumThreads (rt : Runtime) :
    System (State PortnumRequest PortnumGlobals (Option PyStr))
      (Label PortnumRequest (Option PyStr)) :=
  threads (fun q => portnumThread rt q.payload) .initial

section PortnumThreads

variable {rt : Runtime} {payload : Bytes} {q : PortnumRequest}
  {s t : State PortnumRequest PortnumGlobals (Option PyStr)}
  {ls : List (Label PortnumRequest (Option PyStr))}

/-- In every reachable state, the threads answer what they can. -/
theorem allHold_of_reachable (h : (portnumThreads rt).Reachable s) :
    Evolves rt .initial s.shared ∧
      AllHold (portnumRely rt) (fun q => PortnumAnswer rt q.payload .initial) s := by
  obtain ⟨_, ls, rfl, hrun⟩ := h
  exact holds_of_run hrun (fun q g hg => holds_portnumThread hg hg)
    (fun job hjob => absurd hjob List.not_mem_nil)

/-- An answer is that of the sequential extraction, or none. -/
theorem portnum_answer (hs : (portnumThreads rt).Reachable s)
    (hrun : (portnumThreads rt).Run s ls t) {a : Option PyStr} (hmem : .answer q a ∈ ls) :
    (a = extractPortnumProtobuf rt q.payload ∨ a = none) ∧
      (a.isSome = true → t.shared.Complete) := by
  obtain ⟨hshared, hall⟩ := allHold_of_reachable hs
  obtain ⟨g, hg, hanswer⟩ := answer_of_run hrun
    (fun q g hg => holds_portnumThread (hshared.trans hg) (hshared.trans hg)) hall hmem
  exact ⟨hanswer.1.imp id And.left, fun ha => Evolves.complete hg (hanswer.2 ha)⟩

/-- From complete globals on, the answers to new requests are those of the sequential
extraction. -/
theorem portnum_answer_of_complete (hs : (portnumThreads rt).Reachable s)
    (hcomplete : s.shared.Complete) (hnew : ∀ job ∈ s.jobs, job.request ≠ q)
    (hrun : (portnumThreads rt).Run s ls t) {a : Option PyStr}
    (hmem : .answer q a ∈ ls) : a = extractPortnumProtobuf rt q.payload := by
  obtain ⟨hshared, hall⟩ := allHold_of_reachable hs
  have hprog : ∀ q' g, Evolves rt s.shared g → Holds (portnumRely rt)
      (fun a _ => q' = q → a = extractPortnumProtobuf rt q'.payload)
      (portnumThread rt q'.payload) g := by
    intro q' g hg
    refine (holds_portnumThread (hshared.trans hg) (Evolves.refl g)).mono fun a g' h _ => ?_
    exact h.1.resolve_right fun hnone => hnone.2 (hg.complete hcomplete)
  have hjobs : AllHold (portnumRely rt)
      (fun q' a _ => q' = q → a = extractPortnumProtobuf rt q'.payload) s := fun job hjob =>
    (hall job hjob).mono fun a g' _ hrequest => absurd hrequest (hnew job hjob)
  obtain ⟨-, -, hanswer⟩ := answer_of_run hrun hprog hjobs hmem
  exact hanswer rfl

/-- The first two accesses of a thread that finds nothing. -/
theorem portnumThread_eq {protos : Protos} (hprotos : rt.protos = some protos)
    (payload : Bytes) (mesh portnums : Option Protos) :
    ∃ next next', portnumThread rt payload = .access id next ∧
      next ⟨none, mesh, portnums⟩ =
        .access (fun g => { g with mqttPb2 := some protos }) next' := by
  obtain ⟨_, json, unicode, aesCtr, log⟩ := rt
  obtain rfl : _ = some protos := hprotos
  exact ⟨_, _, rfl, rfl⟩

theorem readOnly_orRaised {G α β : Type} {r : Except PyErr α}
    {next : α → ExceptT Raised (Code G) β} (h : ∀ a, (next a).run.ReadOnly) :
    (orRaised r >>= next).run.ReadOnly := by
  cases r with
  | error e => exact Code.readOnly_pure _
  | ok a => exact h a

theorem readOnly_moduleOf {G β : Type} {global : G → Option Protos} {name : PyStr}
    {next : Protos → ExceptT Raised (Code G) β} (h : ∀ protos, (next protos).run.ReadOnly) :
    (moduleOf global name >>= next).run.ReadOnly := by
  rw [moduleOf, bind_assoc]
  have hget : (getGlobal global : ExceptT Raised (Code G) _).run.ReadOnly := fun _ => rfl
  refine hget.bind fun r => ?_
  cases r with
  | error e => exact Code.readOnly_pure _
  | ok o =>
      cases o with
      | some protos => exact h protos
      | none => exact Code.readOnly_pure _

/-- Past `_load_protos`, a thread only reads. -/
theorem readOnly_tryPortnumEnvelope : (tryPortnumEnvelope rt payload).run.ReadOnly := by
  refine readOnly_moduleOf fun mqtt => readOnly_orRaised fun env => ?_
  cases env.packet with
  | none => exact Code.readOnly_pure _
  | some pkt =>
      dsimp only
      split
      · exact readOnly_moduleOf fun mesh => readOnly_orRaised fun data =>
          readOnly_moduleOf fun portnums => readOnly_orRaised fun pn => Code.readOnly_pure _
      · exact Code.readOnly_pure _

/-- A thread that finds the first module, but not all of them, and is let alone answers
with none. -/
theorem run_portnumThread_of_incomplete {g : PortnumGlobals} (hg : Evolves rt .initial g)
    (hmqtt : g.mqttPb2.isSome = true) (hincomplete : ¬g.Complete) :
    ((portnumThread rt payload).run g).1 = none := by
  have hthread : Holds (portnumRely rt) (PortnumAnswer rt payload g) (portnumThread rt payload) g :=
    holds_portnumThread hg (Evolves.refl g)
  obtain ⟨-, -, hcomplete⟩ := hthread.run
  have hsame : ((portnumThread rt payload).run g).2 = g := by
    obtain ⟨mqtt, mesh, portnums⟩ := g
    cases mqtt with
    | none => cases hmqtt
    | some protos =>
        have htry : ((loadPortnumProtos rt >>= fun _ => tryPortnumEnvelope rt payload).run.run
            ⟨some protos, mesh, portnums⟩).2 = ⟨some protos, mesh, portnums⟩ :=
          readOnly_tryPortnumEnvelope _
        rw [portnumThread, Code.run_bind, htry]
        split <;> rfl
  rw [hsame] at hcomplete
  cases hanswer : ((portnumThread rt payload).run g).1 with
  | none => rfl
  | some pn => exact absurd (hcomplete (by rw [hanswer]; rfl)) hincomplete

/-- When some module is missing, the next request may be answered with none, whatever it
carries. -/
theorem exists_run_none (hs : (portnumThreads rt).Reachable s) {protos : Protos}
    (hprotos : rt.protos = some protos) (hincomplete : ¬s.shared.Complete) (q : PortnumRequest) :
    ∃ ls t, (portnumThreads rt).Run s ls t ∧ .answer q none ∈ ls := by
  obtain ⟨hshared, -⟩ := allHold_of_reachable hs
  cases hmqtt : s.shared.mqttPb2 with
  | some protos' =>
      obtain ⟨n, hrun⟩ := exists_run_request (fun q => portnumThread rt q.payload) .initial s q
      rw [run_portnumThread_of_incomplete hshared (by simp [hmqtt]) hincomplete] at hrun
      exact ⟨_, _, hrun, by simp⟩
  | none =>
      have hmesh := hshared.order (fun _ => rfl) hmqtt
      obtain ⟨⟨mqtt, mesh, portnums⟩, jobs⟩ := s
      obtain rfl : mqtt = none := hmqtt
      obtain ⟨next, next', hprog, hnext⟩ :=
        portnumThread_eq hprotos q.payload mesh portnums
      -- a second thread sets the first module, and is switched away from
      have hstep : Evolves rt ⟨none, mesh, portnums⟩ ⟨some protos, mesh, portnums⟩ :=
        ⟨Or.inr ⟨rfl, hprotos.symm⟩, .refl _ _, .refl _ _, fun _ h => by cases h⟩
      have hincomplete' : ¬PortnumGlobals.Complete ⟨some protos, mesh, portnums⟩ := by
        rintro ⟨-, h, -⟩
        obtain rfl : mesh = none := hmesh
        cases h
      let other : PortnumRequest := ⟨q.number + 1, q.payload⟩
      obtain ⟨n, hrun⟩ := exists_run_job (fun q => portnumThread rt q.payload) .initial
        (s := ⟨⟨some protos, mesh, portnums⟩, (jobs ++ [⟨q, portnumThread rt q.payload⟩]) ++
          [⟨other, next' ⟨none, mesh, portnums⟩⟩]⟩)
        (List.append_assoc jobs [⟨q, portnumThread rt q.payload⟩] _)
      rw [run_portnumThread_of_incomplete (hshared.trans hstep) rfl hincomplete'] at hrun
      exact ⟨_, _, .cons (.start q) (.cons (.start other) (.cons (.access_at _ [] hprog)
        (.cons (.access_at _ [] hnext) hrun))), by simp⟩

/-- Without a portnum, a packet is settled as with the drop filter off. -/
theorem Policy.decision_none (p : Policy) (channel : PyStr) (portnum : Option PyStr)
    (view : Option PacketView) :
    p.decision channel none view =
      { p with dropEnabled := false }.decision channel portnum view := by
  have hnone : p.drops channel none = false := by simp [Policy.drops]
  have hoff : { p with dropEnabled := false }.drops channel portnum = false := by
    simp [Policy.drops]
  simp only [Policy.decision, hnone, hoff]
  rfl

/-- Every answer, however the threads are scheduled.  It is the portnum of the packet or
none, so that the packet is settled as by one thread alone or as with the drop filter
off; and once a portnum was answered, every request that comes in from then on is
answered as by one thread alone. -/
theorem portnum_threads_fail_open {before after : List (Label PortnumRequest (Option PyStr))}
    {a : Option PyStr}
    (hrun : (portnumThreads rt).Run ⟨.initial, []⟩ (before ++ .answer q a :: after) t) :
    (a = extractPortnumProtobuf rt q.payload ∨ a = none) ∧
    (∀ (p : Policy) channel view,
      p.decision channel a view =
          p.decision channel (extractPortnumProtobuf rt q.payload) view ∨
        p.decision channel a view =
          { p with dropEnabled := false }.decision channel
            (extractPortnumProtobuf rt q.payload) view) ∧
    (a.isSome = true → ∀ q', .start q' ∉ before → ∀ b, .answer q' b ∈ after →
      b = extractPortnumProtobuf rt q'.payload) := by
  obtain ⟨s, hbefore, hrest⟩ := hrun.split
  obtain ⟨s', hstep, hafter⟩ := System.run_cons_iff.mp hrest
  have hs : (portnumThreads rt).Reachable s := ⟨_, before, rfl, hbefore⟩
  have hanswer := portnum_answer hs (.single hstep) (List.mem_singleton_self _)
  refine ⟨hanswer.1, fun p channel view => ?_, fun ha q' hnew b hmem => ?_⟩
  · rcases hanswer.1 with rfl | rfl
    · exact Or.inl rfl
    · exact Or.inr (p.decision_none channel _ view)
  · refine portnum_answer_of_complete (hs.step hstep) (hanswer.2 ha) (fun job hjob heq => ?_)
      hafter hmem
    rcases start_mem_of_run (hbefore.append (.single hstep)) hjob with ⟨_, hnil, -⟩ | hstart
    · exact absurd hnil List.not_mem_nil
    · rcases List.mem_append.mp hstart with hstart | hstart
      · exact hnew (heq ▸ hstart)
      · cases List.mem_singleton.mp hstart

/-- Two threads inside `_load_protos`: the second one comes in when the first has set the
first global only, and finds no portnum; the first one finds it, and so does every request
from then on. -/
theorem portnum_threads_fail_open_demo :
    ∃ before after t, (portnumThreads ctrRuntime).Run ⟨.initial, []⟩
        (before ++ .answer ⟨0, ctrPayload⟩ (some (py "TEXT_MESSAGE_APP")) :: after) t ∧
      .answer ⟨1, ctrPayload⟩ none ∈ before ∧
      some (py "TEXT_MESSAGE_APP") = extractPortnumProtobuf ctrRuntime ctrPayload ∧
      ∃ b, .answer ⟨2, ctrPayload⟩ b ∈ after ∧
        b = extractPortnumProtobuf ctrRuntime ctrPayload := by
  let prog (q : PortnumRequest) := portnumThread ctrRuntime q.payload
  let partly : PortnumGlobals := ⟨some ctrProtos, none, none⟩
  obtain ⟨code, hfirst, hanswer⟩ : ∃ code, (portnumThreads ctrRuntime).Run ⟨.initial, []⟩
      [.start ⟨0, ctrPayload⟩, .access, .access] ⟨partly, [⟨⟨0, ctrPayload⟩, code⟩]⟩ ∧
      (code.run partly).1 = some (py "TEXT_MESSAGE_APP") :=
    ⟨_, .cons (.start _) (.cons (.access_at [] [] rfl) (.single (.access_at [] [] rfl))),
      by decide +kernel⟩
  have hnone : ((prog ⟨1, ctrPayload⟩).run partly).1 = none := by decide +kernel
  have hsame : ((prog ⟨1, ctrPayload⟩).run partly).2 = partly := rfl
  obtain ⟨n, hsecond⟩ := exists_run_request prog .initial ⟨partly, [⟨⟨0, ctrPayload⟩, code⟩]⟩
    ⟨1, ctrPayload⟩
  rw [hnone, hsame] at hsecond
  obtain ⟨m, hrest⟩ := exists_run_job prog .initial
    (s := ⟨partly, [⟨⟨0, ctrPayload⟩, code⟩]⟩) (List.nil_append _).symm
  rw [hanswer] at hrest
  obtain ⟨k, hthird⟩ := exists_run_request prog .initial ⟨(code.run partly).2, []⟩
    ⟨2, ctrPayload⟩
  have hrun := ((hfirst.append hsecond).append hrest).append hthird
  rw [← List.append_assoc, List.append_assoc _ [_]] at hrun
  obtain ⟨hanswers, -, hlater⟩ := portnum_threads_fail_open hrun
  exact ⟨_, _, _, hrun, by simp, hanswers.resolve_right nofun, _,
    List.mem_cons_of_mem _ List.mem_concat_self,
    hlater rfl ⟨2, ctrPayload⟩ (by simp) _ (List.mem_cons_of_mem _ List.mem_concat_self)⟩

/-- The next request is sure to be answered as by the sequential extraction exactly when
all modules are there, or there is no portnum to be found. -/
theorem portnum_exact_iff (hs : (portnumThreads rt).Reachable s)
    (hnew : ∀ job ∈ s.jobs, job.request ≠ q) :
    (∀ ls t a, (portnumThreads rt).Run s ls t → .answer q a ∈ ls →
      a = extractPortnumProtobuf rt q.payload) ↔
      s.shared.Complete ∨ extractPortnumProtobuf rt q.payload = none := by
  constructor
  · intro h
    by_cases hcomplete : s.shared.Complete
    · exact Or.inl hcomplete
    · right
      cases hprotos : rt.protos with
      | none => simp [extractPortnumProtobuf, readPortnumProtobuf, Runtime.loadProtos, hprotos,
          bind, Except.bind]
      | some protos =>
          obtain ⟨ls, t, hrun, hmem⟩ := exists_run_none hs hprotos hcomplete q
          exact (h ls t none hrun hmem).symm
  · rintro (hcomplete | hnone) ls t a hrun hmem
    · exact portnum_answer_of_complete hs hcomplete hnew hrun hmem
    · rcases (portnum_answer hs hrun hmem).1 with h | h
      · exact h
      · exact h.trans hnone.symm

/-- Before anything was imported, a packet with a portnum may be answered with none. -/
theorem portnum_exact_iff_initial :
    (∀ ls t a, (portnumThreads ctrRuntime).Run ⟨.initial, []⟩ ls t →
      .answer ⟨0, ctrPayload⟩ a ∈ ls →
        a = extractPortnumProtobuf ctrRuntime ctrPayload) ↔
      PortnumGlobals.initial.Complete ∨
        extractPortnumProtobuf ctrRuntime ctrPayload = none :=
  portnum_exact_iff (q := ⟨0, ctrPayload⟩) (System.reachable_of_initial rfl) fun _ h =>
    absurd h List.not_mem_nil

end PortnumThreads

/-! ## The globals of `zerohop` -/

/-- `_mqtt_pb2` and `_mesh_pb2`. -/
structure ZerohopGlobals where
  mqttPb2 : Option Protos
  meshPb2 : Option Protos

def ZerohopGlobals.initial : ZerohopGlobals := ⟨none, none⟩

/-- What the threads of `zerohop` are asked for. -/
inductive ZerohopRequest where
  | zerohopProtobuf (payload : Bytes)
  | peekMeta (payload : Bytes)

/-- What they answer. -/
inductive ZerohopAnswer where
  | zerohopped (r : Except PyErr ZerohopResult)
  | peeked (m : Meta)

/-- The answer of one thread alone. -/
def ZerohopRequest.answer (rt : Runtime) : ZerohopRequest → ZerohopAnswer
  | .zerohopProtobuf payload => .zerohopped (Ports.zerohopProtobuf rt payload)
  | .peekMeta payload => .peeked (Ports.peekMeta rt .e payload)

section Zerohop

variable (rt : Runtime)

/-- `_load_protos`. -/
def loadZerohopProtos : ExceptT PyErr (Code ZerohopGlobals) Unit := do
  if (← getGlobal ZerohopGlobals.mqttPb2).isNone then
    let protos ← ExceptT.mk (pure rt.loadProtos)
    setGlobal fun g => { g with mqttPb2 := some protos }
    setGlobal fun g => { g with meshPb2 := some protos }

/-- `zerohop_protobuf` and `_peek_meta`, in a thread. -/
def zerohopThread (request : ZerohopRequest) : Code ZerohopGlobals ZerohopAnswer := do
  match ← (loadZerohopProtos rt).run with
  | .error e =>
      match request with
      | .zerohopProtobuf _ => return .zerohopped (.error e)
      | .peekMeta _ => return .peeked []
  | .ok () =>
      match ← Code.read ZerohopGlobals.mqttPb2 with
      | some protos => return request.answer { rt with protos := some protos }
      -- the `AttributeError` of `None` is raised in the `try` blocks
      | none =>
          match request with
          | .zerohopProtobuf _ => return .zerohopped (.ok .parseError)
          | .peekMeta _ => return .peeked []

/-- Any number of threads that ask for these. -/
def zerohopThreads :
    System (State ZerohopRequest ZerohopGlobals ZerohopAnswer)
      (Label ZerohopRequest ZerohopAnswer) :=
  threads (zerohopThread rt) .initial

/-- The changes of the globals of `zerohop`. -/
def zerohopRely : Rely ZerohopGlobals where
  rel g g' := Filled rt.protos g.mqttPb2 g'.mqttPb2
  refl _ := .refl _ _
  trans h h' := h.trans h'

end Zerohop

section ZerohopThreads

variable {rt : Runtime} {g : ZerohopGlobals} {request : ZerohopRequest}
  {t : State ZerohopRequest ZerohopGlobals ZerohopAnswer}
  {ls : List (Label ZerohopRequest ZerohopAnswer)}

/-- What a thread finds after `_load_protos`. -/
def ZerohopLoaded (rt : Runtime) (r : Except PyErr Unit) (g : ZerohopGlobals) : Prop :=
  (r = .ok () ∧ rt.protos.isSome = true ∧ g.mqttPb2 = rt.protos) ∨
    ∃ e, r = .error e ∧ rt.loadProtos = .error e

theorem ZerohopLoaded.later {r : Except PyErr Unit} {g' : ZerohopGlobals}
    (h : ZerohopLoaded rt r g) (hg : (zerohopRely rt).rel g g') : ZerohopLoaded rt r g' := by
  rcases h with ⟨rfl, hprotos, hmqtt⟩ | ⟨e, rfl, herror⟩
  · exact Or.inl ⟨rfl, hprotos, (hg.isSome (hmqtt ▸ hprotos)).trans hmqtt⟩
  · exact Or.inr ⟨e, rfl, herror⟩

/-- After `_load_protos`, `_mqtt_pb2` is set. -/
theorem holds_loadZerohopProtos (hg : Filled rt.protos none g.mqttPb2) :
    Holds (zerohopRely rt) (ZerohopLoaded rt) (loadZerohopProtos rt).run g := by
  refine holds_getGlobal fun g₁ hg₁ => ?_
  have hto₁ := hg.trans hg₁
  cases hmqtt : g₁.mqttPb2 with
  | some protos =>
      have hprotos := protos_of_filled hto₁ hmqtt
      have hloaded : ZerohopLoaded rt (.ok ()) g₁ :=
        Or.inl ⟨rfl, by rw [hprotos]; rfl, hmqtt.trans hprotos.symm⟩
      exact fun g' hg' => hloaded.later hg'
  | none =>
      cases hload : rt.loadProtos with
      | error e => exact fun g' _ => Or.inr ⟨e, rfl, hload⟩
      | ok protos =>
          have hprotos : rt.protos = some protos := by
            rw [Runtime.loadProtos] at hload
            split at hload
            · next protos' hprotos => rw [hprotos, Except.ok.inj hload]
            · cases hload
          refine holds_setGlobal fun g₂ hg₂ => ?_
          have hstep₂ : Filled rt.protos g₂.mqttPb2 (some protos) :=
            hprotos ▸ (hto₁.trans hg₂).fill
          refine ⟨hstep₂, fun g₃ hg₃ => ⟨.refl _ _, fun g' hg' => ?_⟩⟩
          have hmqtt₃ : g₃.mqttPb2 = some protos := hg₃.isSome rfl
          have hloaded : ZerohopLoaded rt (.ok ()) { g₃ with meshPb2 := some protos } :=
            Or.inl ⟨rfl, by rw [hprotos]; rfl, hmqtt₃.trans hprotos.symm⟩
          exact hloaded.later hg'

/-- A thread answers as one thread alone. -/
theorem holds_zerohopThread (hg : Filled rt.protos none g.mqttPb2) (request : ZerohopRequest) :
    Holds (zerohopRely rt) (fun a _ => a = request.answer rt) (zerohopThread rt request) g := by
  refine (holds_loadZerohopProtos hg).bind fun r g' hloaded => ?_
  rcases hloaded with ⟨rfl, hprotos, hmqtt⟩ | ⟨e, rfl, herror⟩
  · refine holds_read fun g'' hg'' => ?_
    obtain ⟨protos, hprotos⟩ := Option.isSome_iff_exists.mp hprotos
    have hmqtt'' : g''.mqttPb2 = some protos :=
      (hg''.isSome (by rw [hmqtt, hprotos]; rfl)).trans (hmqtt.trans hprotos)
    rw [hmqtt'']
    refine fun _ _ => ?_
    rw [← hprotos]
  · cases request with
    | zerohopProtobuf payload =>
        refine fun _ _ => ?_
        rw [ZerohopRequest.answer, Ports.zerohopProtobuf, herror]
        rfl
    | peekMeta payload =>
        refine fun _ _ => ?_
        rw [ZerohopRequest.answer, Ports.peekMeta, herror]
        rfl

/-- Every answer is that of one thread alone, however the threads are scheduled: only the
global that is set first is read. -/
theorem zerohop_threads_exact (hrun : (zerohopThreads rt).Run ⟨.initial, []⟩ ls t)
    {a : ZerohopAnswer} (hmem : .answer request a ∈ ls) : a = request.answer rt := by
  obtain ⟨-, -, hanswer⟩ := answer_of_run hrun
    (fun q g hg => holds_zerohopThread hg q) (fun job hjob => absurd hjob List.not_mem_nil) hmem
  exact hanswer

/-- Two threads inside `_load_protos`, both of which find nothing and set the globals. -/
theorem zerohop_threads_exact_demo :
    ∃ ls t a b, (zerohopThreads ctrRuntime).Run ⟨.initial, []⟩
        ([.start (.zerohopProtobuf ctrPayload), .access, .start (.peekMeta ctrPayload), .access,
          .access, .access] ++ ls) t ∧
      .answer (.zerohopProtobuf ctrPayload) a ∈ ls ∧ .answer (.peekMeta ctrPayload) b ∈ ls ∧
      a = ZerohopRequest.answer ctrRuntime (.zerohopProtobuf ctrPayload) ∧
      b = ZerohopRequest.answer ctrRuntime (.peekMeta ctrPayload) := by
  obtain ⟨g, code, code', hload⟩ : ∃ g code code', (zerohopThreads ctrRuntime).Run ⟨.initial, []⟩
      [.start (.zerohopProtobuf ctrPayload), .access, .start (.peekMeta ctrPayload), .access,
        .access, .access]
      ⟨g, [⟨.zerohopProtobuf ctrPayload, code⟩, ⟨.peekMeta ctrPayload, code'⟩]⟩ :=
    ⟨_, _, _, .cons (.start _) (.cons (.access_at [] [] rfl) (.cons (.start _)
      (.cons (.access_at [_] [] rfl) (.cons (.access_at [] [_] rfl)
        (.single (.access_at [_] [] rfl))))))⟩
  obtain ⟨n, hfirst⟩ := exists_run_job (zerohopThread ctrRuntime) .initial
    (s := ⟨g, [⟨.zerohopProtobuf ctrPayload, code⟩, ⟨.peekMeta ctrPayload, code'⟩]⟩)
    (List.nil_append _).symm
  obtain ⟨m, hsecond⟩ := exists_run_job (zerohopThread ctrRuntime) .initial
    (s := ⟨(code.run g).2, [⟨.peekMeta ctrPayload, code'⟩]⟩) (List.nil_append _).symm
  have hrun := hload.append (hfirst.append hsecond)
  refine ⟨_, _, _, _, hrun, List.mem_append_left _ List.mem_concat_self,
    List.mem_append_right _ List.mem_concat_self, zerohop_threads_exact hrun ?_,
    zerohop_threads_exact hrun ?_⟩
  · exact List.mem_append_right _ (List.mem_append_left _ List.mem_concat_self)
  · exact List.mem_append_right _ (List.mem_append_right _ List.mem_concat_self)

end ZerohopThreads

end Floodgate.Ports
