import Floodgate.Verified.OrderedDict
import Floodgate.Ports.PyValue

/-!
# JSON values as Python holds them

`json.loads` returns `None`, a `bool`, an `int`, a `float`, a `str`, a `list`
or a `dict` with string keys.  The keys of a `dict` are distinct and ordered
by insertion; `JsonDoc` carries that as its invariant, at every depth, so a
document with a repeated key cannot be built.

Floats are IEEE doubles by their bits, which is what tells a NaN apart.

As with the values of a configuration, `repr` can raise; `Json.reprFault` says what,
and on which values.

## Main results

* `JsonDoc.asDict_eq_some`: `isinstance(data, dict)`, inverted.
* `JsonObject.get?_setInt`: `data[key] = n` as a functional update.
* `Json.clean_setInt`: writing an integer keeps a value free of surrogates and
  NaNs.
-/

namespace Floodgate.Ports

open Floodgate.Verified

/-- An IEEE double, by its bits. -/
abbrev PyFloat := BitVec 64

def PyFloat.isNaN (x : PyFloat) : Bool :=
  x.extractLsb' 52 11 == 0x7FF#11 && x.extractLsb' 0 52 != 0#52

/-- Neither infinite nor a NaN. -/
def PyFloat.isFinite (x : PyFloat) : Bool := x.extractLsb' 52 11 != 0x7FF#11

/-- Both zeros: the only falsy floats. -/
def PyFloat.isZero (x : PyFloat) : Bool := x.extractLsb' 0 63 == 0#63

/-- A value of `json.loads`. -/
inductive Json where
  | null
  | bool (b : Bool)
  | int (n : Int)
  | float (x : PyFloat)
  | str (s : PyStr)
  | list (xs : List Json)
  | dict (members : List (PyStr × Json))

namespace Json

/-- `bool(value)`. -/
def truthy : Json → Bool
  | .null => false
  | .bool b => b
  | .int n => n != 0
  | .float x => !x.isZero
  | .str s => !s.isEmpty
  | .list xs => !xs.isEmpty
  | .dict ms => !ms.isEmpty

/-- The value when it is an `int` and not a `bool`. -/
def asInt : Json → Option Int
  | .int n => some n
  | _ => none

/-- The value when it is a `str`. -/
def asStr : Json → Option PyStr
  | .str s => some s
  | _ => none

/-- The value is a `list` or a `dict`. -/
def isContainer : Json → Bool
  | .list _ | .dict _ => true
  | _ => false

mutual
/-- What `repr` of a value raises when it can follow `depth` levels of nesting. -/
def reprFault : Json → Nat → Option PyErr
  | .int n, _ => if PyVal.hugeInt n then some PyVal.digitLimitError else none
  | .list xs, depth => reprFaultItem xs depth
  | .dict ms, depth => reprFaultMember ms depth
  | _, _ => none

/-- The first raise of a list's items, each one level down. -/
def reprFaultItem : List Json → Nat → Option PyErr
  | [], _ => none
  | _ :: _, 0 => some PyVal.reprRecursionError
  | x :: xs, depth + 1 => (reprFault x depth).or (reprFaultItem xs (depth + 1))

/-- The first raise of a dict's values; its keys are strings. -/
def reprFaultMember : List (PyStr × Json) → Nat → Option PyErr
  | [], _ => none
  | _ :: _, 0 => some PyVal.reprRecursionError
  | (_, v) :: ms, depth + 1 => (reprFault v depth).or (reprFaultMember ms (depth + 1))
end

mutual
/-- Keys are distinct in every object. -/
def wf : Json → Bool
  | .list xs => wfList xs
  | .dict ms => decide (Assoc.keys ms).Nodup && wfMembers ms
  | _ => true

def wfList : List Json → Bool
  | [] => true
  | x :: xs => x.wf && wfList xs

def wfMembers : List (PyStr × Json) → Bool
  | [] => true
  | (_, v) :: ms => v.wf && wfMembers ms
end

mutual
/-- No string, key included, has a surrogate code point, and no float is a
NaN: the values that a decode of an encode gives back. -/
def clean : Json → Bool
  | .float x => !x.isNaN
  | .str s => !s.any PyChar.isSurrogate
  | .list xs => cleanList xs
  | .dict ms => cleanMembers ms
  | _ => true

def cleanList : List Json → Bool
  | [] => true
  | x :: xs => x.clean && cleanList xs

def cleanMembers : List (PyStr × Json) → Bool
  | [] => true
  | (k, v) :: ms => !k.any PyChar.isSurrogate && v.clean && cleanMembers ms
end

/-- Only a container is rendered through its members. -/
theorem reprFault_of_scalar {v : Json} (h : v.isContainer = false) (depth depth' : Nat) :
    v.reprFault depth = v.reprFault depth' := by
  cases v <;> first | rfl | cases h

mutual
/-- Only the limits on digits and on nesting are raised. -/
theorem reprFault_cases {depth : Nat} {e : PyErr} :
    (v : Json) → v.reprFault depth = some e →
      e = PyVal.digitLimitError ∨ e = PyVal.reprRecursionError
  | .null | .bool _ | .float _ | .str _ => fun h => by simp [reprFault] at h
  | .int n => fun h => by
      rw [reprFault, Option.ite_none_right_eq_some] at h
      exact Or.inl (Option.some.inj h.2).symm
  | .list xs => fun h => reprFaultItem_cases xs (by rwa [reprFault] at h)
  | .dict ms => fun h => reprFaultMember_cases ms (by rwa [reprFault] at h)

theorem reprFaultItem_cases {depth : Nat} {e : PyErr} :
    (xs : List Json) → reprFaultItem xs depth = some e →
      e = PyVal.digitLimitError ∨ e = PyVal.reprRecursionError
  | [] => fun h => by simp [reprFaultItem] at h
  | x :: xs => fun h => by
      cases depth with
      | zero =>
          rw [reprFaultItem] at h
          exact Or.inr (Option.some.inj h).symm
      | succ depth =>
          rw [reprFaultItem, Option.or_eq_some_iff] at h
          exact h.elim (reprFault_cases x) fun h => reprFaultItem_cases xs h.2

theorem reprFaultMember_cases {depth : Nat} {e : PyErr} :
    (ms : List (PyStr × Json)) → reprFaultMember ms depth = some e →
      e = PyVal.digitLimitError ∨ e = PyVal.reprRecursionError
  | [] => fun h => by simp [reprFaultMember] at h
  | (_, v) :: ms => fun h => by
      cases depth with
      | zero =>
          rw [reprFaultMember] at h
          exact Or.inr (Option.some.inj h).symm
      | succ depth =>
          rw [reprFaultMember, Option.or_eq_some_iff] at h
          exact h.elim (reprFault_cases v) fun h => reprFaultMember_cases ms h.2
end

theorem wfList_iff (xs : List Json) : wfList xs = true ↔ ∀ x ∈ xs, x.wf = true := by
  induction xs with
  | nil => simp [wfList]
  | cons x xs ih => simp [wfList, ih]

theorem wfMembers_iff (ms : List (PyStr × Json)) :
    wfMembers ms = true ↔ ∀ kv ∈ ms, kv.2.wf = true := by
  induction ms with
  | nil => simp [wfMembers]
  | cons kv ms ih => simp [wfMembers, ih]

theorem cleanList_iff (xs : List Json) :
    cleanList xs = true ↔ ∀ x ∈ xs, x.clean = true := by
  induction xs with
  | nil => simp [cleanList]
  | cons x xs ih => simp [cleanList, ih]

theorem cleanMembers_iff (ms : List (PyStr × Json)) :
    cleanMembers ms = true ↔
      ∀ kv ∈ ms, kv.1.any PyChar.isSurrogate = false ∧ kv.2.clean = true := by
  induction ms with
  | nil => simp [cleanMembers]
  | cons kv ms ih => simp [cleanMembers, ih, and_assoc]

/-- Writing a well-formed value keeps an object well formed. -/
theorem wf_set {ms : List (PyStr × Json)} {v : Json} (k : PyStr)
    (hms : (Json.dict ms).wf = true) (hv : v.wf = true) :
    (Json.dict (Assoc.set ms k v)).wf = true := by
  simp only [wf, Bool.and_eq_true, decide_eq_true_eq] at hms ⊢
  refine ⟨Assoc.nodup_keys_set k v hms.1, (wfMembers_iff _).mpr ?_⟩
  intro kv hkv
  rcases Assoc.mem_set hkv with rfl | hmem
  · exact hv
  · exact (wfMembers_iff ms).mp hms.2 kv hmem

/-- Writing an integer keeps an object free of surrogates and NaNs. -/
theorem clean_setInt {ms : List (PyStr × Json)} {k : PyStr} (n : Int)
    (hk : k.any PyChar.isSurrogate = false)
    (hms : (Json.dict ms).clean = true) :
    (Json.dict (Assoc.set ms k (.int n))).clean = true := by
  simp only [clean] at hms ⊢
  refine (cleanMembers_iff _).mpr ?_
  intro kv hkv
  rcases Assoc.mem_set hkv with rfl | hmem
  · exact ⟨hk, rfl⟩
  · exact (cleanMembers_iff ms).mp hms kv hmem

end Json

/-- A decoded document: a value with distinct keys throughout. -/
structure JsonDoc where
  val : Json
  wf : val.wf = true

/-- A decoded object: the members of a document that is a `dict`. -/
structure JsonObject where
  members : List (PyStr × Json)
  wf : (Json.dict members).wf = true

namespace JsonObject

/-- `data.get(key)`, with absence kept apart from `None`. -/
def get? (o : JsonObject) (k : PyStr) : Option Json := Assoc.get? o.members k

/-- `key in data`. -/
def contains (o : JsonObject) (k : PyStr) : Bool := (o.get? k).isSome

/-- `data.get(key)`: `None` when the key is absent. -/
def get (o : JsonObject) (k : PyStr) : Json := (o.get? k).getD .null

/-- `data[key] = n`. -/
def setInt (o : JsonObject) (k : PyStr) (n : Int) : JsonObject :=
  ⟨Assoc.set o.members k (.int n), Json.wf_set k o.wf rfl⟩

def toDoc (o : JsonObject) : JsonDoc := ⟨.dict o.members, o.wf⟩

@[simp] theorem get?_setInt_self (o : JsonObject) (k : PyStr) (n : Int) :
    (o.setInt k n).get? k = some (.int n) := Assoc.get?_set_self _ _ _

theorem get?_setInt (o : JsonObject) (k k' : PyStr) (n : Int) :
    (o.setInt k n).get? k' = if k = k' then some (.int n) else o.get? k' :=
  Assoc.get?_set _ _ _ _

/-- Every member but the written one reads as before. -/
theorem get_setInt_ne (o : JsonObject) {k k' : PyStr} (n : Int) (h : k ≠ k') :
    (o.setInt k n).get k' = o.get k' := by
  simp [get, get?_setInt, h]

end JsonObject

namespace JsonDoc

theorem ext {d d' : JsonDoc} (h : d.val = d'.val) : d = d' := by
  obtain ⟨v, hv⟩ := d
  obtain ⟨v', hv'⟩ := d'
  obtain rfl : v = v' := h
  rfl

/-- A list of documents. -/
def list (ds : List JsonDoc) : JsonDoc :=
  ⟨.list (ds.map val), by
    rw [Json.wf, Json.wfList_iff]
    intro x hx
    obtain ⟨d, -, rfl⟩ := List.mem_map.mp hx
    exact d.wf⟩

/-- Members written into an empty `dict`: of those with one key the last is left,
where the first one was. -/
def dict (ms : List (PyStr × JsonDoc)) : JsonDoc :=
  ⟨.dict (Assoc.update [] (ms.map fun m => (m.1, m.2.val))), by
    rw [Json.wf, Bool.and_eq_true, decide_eq_true_eq, Json.wfMembers_iff]
    refine ⟨Assoc.nodup_keys_update (d := []) _ List.nodup_nil, ?_⟩
    intro kv hkv
    rcases Assoc.mem_update hkv with hnil | hmem
    · exact absurd hnil List.not_mem_nil
    · obtain ⟨m, -, rfl⟩ := List.mem_map.mp hmem
      exact m.2.wf⟩

/-- The document as an object: `isinstance(data, dict)`. -/
def asDict : JsonDoc → Option JsonObject
  | ⟨.dict ms, h⟩ => some ⟨ms, h⟩
  | _ => none

theorem asDict_eq_some {d : JsonDoc} {o : JsonObject} :
    d.asDict = some o ↔ d = o.toDoc := by
  obtain ⟨v, h⟩ := d
  obtain ⟨ms, ho⟩ := o
  cases v <;> simp [asDict, JsonObject.toDoc]

@[simp] theorem asDict_toDoc (o : JsonObject) : o.toDoc.asDict = some o := rfl

theorem toDoc_injective : Function.Injective JsonObject.toDoc := by
  intro o o' h
  exact Option.some.inj (congrArg asDict h)

end JsonDoc

/-- Python's `json` module, as far as the source calls it: `json.loads(payload)`
on bytes and `json.dumps(data).encode()`. -/
structure JsonRuntime where
  loads : Bytes → Except PyErr JsonDoc
  dumps : JsonDoc → Bytes
  /-- How deep `repr` follows the nesting of a member that was loaded. -/
  reprDepth : Nat

/-- Decoding what was encoded gives the document back. -/
def JsonRuntime.RoundTrips (J : JsonRuntime) (d : JsonDoc) : Prop :=
  J.loads (J.dumps d) = .ok d

end Floodgate.Ports
