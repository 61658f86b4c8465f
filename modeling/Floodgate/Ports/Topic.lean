import Floodgate.Ports.PyStr

/-!
# Meshtastic topics

A packet topic is `msh/…/{encoding}/{channel}/!{node}`.  The prefix has any
depth, so the parser indexes from the right.  Topics of any other shape (map
reports, stat topics, foreign traffic) are not packets.
-/

namespace Floodgate.Ports

/-- The payload encodings that are processed. -/
inductive Encoding where
  | e | json
  deriving DecidableEq, Repr

def Encoding.text : Encoding → PyStr
  | .e => py "e"
  | .json => py "json"

/-- `encoding in ("e", "json")`, with the encoding it is. -/
def Encoding.ofText (s : PyStr) : Option Encoding :=
  if s = py "e" then some .e
  else if s = py "json" then some .json
  else none

/-- `parse_meshtastic_topic`: the channel and the encoding of a packet topic. -/
def parseMeshtasticTopic (topic : PyStr) : Option (PyStr × Encoding) :=
  let parts := topic.splitOn (PyChar.ofChar '/')
  if parts.length < 5 || parts.head? != some (py "msh") then none
  else match parts.reverse with
    | nodeId :: channel :: encoding :: _ =>
        if !(py "!").isPrefixOf nodeId then none
        else (Encoding.ofText encoding).map fun enc => (channel, enc)
    | _ => none

example : parseMeshtasticTopic (py "msh/US/2/json/LongFast/!deadbeef") =
    some (py "LongFast", .json) := by decide

end Floodgate.Ports
