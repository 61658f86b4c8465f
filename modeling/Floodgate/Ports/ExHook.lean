import Floodgate.Ports.PacketView

/-!
# The ExHook response

`OnProviderLoaded` tells EMQX which hook to call, and for which topics.
`OnMessagePublish` translates the answer of `process_message` into the response
that tells EMQX what to do with a publish: ignore the hook, deliver a modified
message, or deny the publish through a message header.
-/

namespace Floodgate.Ports

open Floodgate.Verified
open Floodgate.Verified.FailOpen

/-- An `emqx.exhook` `Message`. -/
structure ExMessage where
  node : PyStr
  id : PyStr
  qos : UInt32
  sender : PyStr
  topic : PyStr
  payload : Bytes
  timestamp : UInt64
  headers : OrderedDict PyStr PyStr

/-- `ValuedResponse.ResponsedType`. -/
inductive ResponsedType where
  | continue | ignore | stopAndReturn
  deriving DecidableEq, Repr

/-- The `value` of a `ValuedResponse`. -/
inductive ResponseValue where
  | boolResult (b : Bool)
  | message (msg : ExMessage)

/-- `ValuedResponse`. -/
structure ValuedResponse where
  type : ResponsedType
  value : Option ResponseValue

/-- `ValuedResponse()`. -/
def ValuedResponse.new : ValuedResponse := ⟨.continue, none⟩

/-- The response for an answer.  A `bytes` field refuses `None`. -/
def responseFor (msg : ExMessage) (result : ProcessResult) :
    Except PyErr ValuedResponse :=
  let resp := ValuedResponse.new
  match result.action with
  | .modify =>
      match result.payload with
      | some payload =>
          .ok { resp with
            type := .stopAndReturn
            value := some (.message { msg with payload := payload }) }
      | none => .error ⟨.typeError, py "bad argument type for built-in operation"⟩
  | .drop =>
      .ok { resp with
        type := .stopAndReturn
        value := some (.message
          { msg with headers := msg.headers.set (py "allow_publish") (py "false") }) }
  | .passthru => .ok { resp with type := .ignore }

/-- `OnMessagePublish`. -/
def onMessagePublish (rt : Runtime) (plan : FaultPlan) (config : Config)
    (msg : ExMessage) (w : World) : Except PyErr ValuedResponse × World :=
  let (result, w) := processMessage rt plan msg.topic msg.payload config w
  (responseFor msg result, w)

/-- A `HookSpec`: a hook by its name, and the topic filters it is called for. -/
structure HookSpec where
  name : PyStr
  topics : List PyStr

/-- The `hooks` of the response of `OnProviderLoaded`; a value that a `string` field
refuses raises. -/
def onProviderLoaded (config : Config) : Option (List HookSpec) :=
  match (config.get? (py "topic_filter")).getD (.str (py "msh/#")) with
  | .str topicFilter =>
      if topicFilter.any PyChar.isSurrogate then none
      else some [⟨py "message.publish", [topicFilter]⟩]
  | _ => none

/-- EMQX is told to go on as if there were no hook. -/
def ValuedResponse.IsIgnore (resp : ValuedResponse) : Prop :=
  resp = ⟨.ignore, none⟩

/-- EMQX is told to deliver the message with another payload. -/
def ValuedResponse.Rewrites (resp : ValuedResponse) (msg : ExMessage)
    (payload : Bytes) : Prop :=
  resp = ⟨.stopAndReturn, some (.message { msg with payload := payload })⟩

/-- EMQX is told to deny the publish: the message is returned with
`allow_publish` set to `false` and every other header kept. -/
def ValuedResponse.Denies (resp : ValuedResponse) (msg : ExMessage) : Prop :=
  ∃ headers : OrderedDict PyStr PyStr,
    resp = ⟨.stopAndReturn, some (.message { msg with headers := headers })⟩ ∧
      headers.get? (py "allow_publish") = some (py "false") ∧
      ∀ key, key ≠ py "allow_publish" → headers.get? key = msg.headers.get? key

theorem responseFor_passthru (msg : ExMessage) :
    ∃ resp, responseFor msg .passthru = .ok resp ∧ resp.IsIgnore := ⟨_, rfl, rfl⟩

theorem responseFor_modify (msg : ExMessage) (payload : Bytes) :
    ∃ resp, responseFor msg (.modify (some payload)) = .ok resp ∧
      resp.Rewrites msg payload := ⟨_, rfl, rfl⟩

theorem responseFor_drop (msg : ExMessage) :
    ∃ resp, responseFor msg .drop = .ok resp ∧ resp.Denies msg := by
  refine ⟨_, rfl, msg.headers.set (py "allow_publish") (py "false"), rfl,
    OrderedDict.get?_set_self _ _ _, fun key hkey => ?_⟩
  exact OrderedDict.get?_set_ne _ _ fun e => hkey e.symm

/-- Denial is told apart from the other responses by its headers. -/
theorem ValuedResponse.Denies.not_ignore {resp : ValuedResponse} {msg : ExMessage}
    (h : resp.Denies msg) : ¬ resp.IsIgnore := by
  rintro rfl
  obtain ⟨_, h, -, -⟩ := h
  cases h

end Floodgate.Ports
