import Mathlib
import Floodgate.Ports.PyStr

/-!
# Python values in a configuration

A configuration is read with `yaml.safe_load`, whose constructors give `None`,
booleans, integers, floats, strings, bytes, dates, lists, tuples, sets and
mappings with keys of any of these kinds.  The validated configuration also
holds sets of strings, which are the same `set` values.

The operations below are the ones that the source applies to a value whose
type it does not know: truth, `in`, the type's name and `repr`.  Python refuses
to render an integer of more than 4300 decimal digits, and follows nested
containers only as deep as its recursion limit allows, so `repr` can raise;
`PyVal.reprFault` says what and on which values.

## Main results

* `PyVal.contains_strSet`: membership in a set of strings never raises.
* `PyVal.reprFaultAny_filter_not_isStr`: the entries that are not strings decide
  what rendering a list raises.
-/

namespace Floodgate.Ports

/-- A value of `yaml.safe_load`, or of the configuration built from it. -/
inductive PyVal where
  | none
  | bool (b : Bool)
  | int (n : Int)
  | float (bits : BitVec 64)
  | str (s : PyStr)
  | bytes (b : Bytes)
  | date (iso : PyStr)
  | datetime (iso : PyStr)
  | list (xs : List PyVal)
  | tuple (xs : List PyVal)
  | set (xs : List PyVal)
  | dict (entries : List (PyVal × PyVal))

namespace PyVal

/-- `type(value).__name__`. -/
def typeName : PyVal → PyStr
  | .none => py "NoneType"
  | .bool _ => py "bool"
  | .int _ => py "int"
  | .float _ => py "float"
  | .str _ => py "str"
  | .bytes _ => py "bytes"
  | .date _ => py "date"
  | .datetime _ => py "datetime"
  | .list _ => py "list"
  | .tuple _ => py "tuple"
  | .set _ => py "set"
  | .dict _ => py "dict"

/-- `bool(value)`. -/
def truthy : PyVal → Bool
  | .none => false
  | .bool b => b
  | .int n => n != 0
  | .float x => x.extractLsb' 0 63 != 0#63
  | .str s => !s.isEmpty
  | .bytes b => !b.isEmpty
  | .date _ => true
  | .datetime _ => true
  | .list xs => !xs.isEmpty
  | .tuple xs => !xs.isEmpty
  | .set xs => !xs.isEmpty
  | .dict es => !es.isEmpty

/-- The value when it is a `str`. -/
def asStr : PyVal → Option PyStr
  | .str s => some s
  | _ => Option.none

def isStr (v : PyVal) : Bool := v.asStr.isSome

/-- `value == s` for a string `s`. -/
def eqStr (v : PyVal) (s : PyStr) : Bool := v.asStr == some s

/-- `s in value` for a string `s`. -/
def contains (s : PyStr) : PyVal → Except PyErr Bool
  | .list xs => .ok (xs.any (eqStr · s))
  | .tuple xs => .ok (xs.any (eqStr · s))
  | .set xs => .ok (xs.any (eqStr · s))
  | .dict es => .ok (es.any (eqStr ·.1 s))
  | .str t => .ok (t.tails.any (s.isPrefixOf ·))
  | .bytes _ => .error ⟨.typeError,
      py "a bytes-like object is required, not 'str'"⟩
  | v => .error ⟨.typeError,
      py "argument of type '" ++ v.typeName ++ py "' is not iterable"⟩

/-- A Python set of strings. -/
def strSet (names : List PyStr) : PyVal := .set (names.map .str)

/-- More decimal digits than Python converts an integer to (4300). -/
def hugeInt (n : Int) : Bool := decide (10 ^ 4300 ≤ n.natAbs)

/-- The `ValueError` of an integer too long to convert. -/
def digitLimitError : PyErr :=
  ⟨.valueError, py "Exceeds the limit (4300 digits) for integer string conversion; use sys.set_int_max_str_digits() to increase the limit"⟩

/-- The `RecursionError` of a value nested too deep. -/
def reprRecursionError : PyErr :=
  ⟨.recursionError, py "maximum recursion depth exceeded while getting the repr of an object"⟩

mutual
/-- What `repr` of a value raises when it can follow `depth` levels of nesting.
A set is rendered through the list of its members. -/
def reprFault : PyVal → Nat → Option PyErr
  | .int n, _ => if hugeInt n then some digitLimitError else Option.none
  | .list xs, depth => reprFaultAny xs depth
  | .tuple xs, depth => reprFaultAny xs depth
  | .set xs, depth =>
      if xs.isEmpty then Option.none
      else match depth with
        | 0 => some reprRecursionError
        | depth + 1 => reprFaultAny xs depth
  | .dict es, depth => reprFaultEntry es depth
  | _, _ => Option.none

/-- The first raise of a container's entries, each one level down. -/
def reprFaultAny : List PyVal → Nat → Option PyErr
  | [], _ => Option.none
  | _ :: _, 0 => some reprRecursionError
  | x :: xs, depth + 1 => (reprFault x depth).or (reprFaultAny xs (depth + 1))

def reprFaultEntry : List (PyVal × PyVal) → Nat → Option PyErr
  | [], _ => Option.none
  | _ :: _, 0 => some reprRecursionError
  | (k, v) :: es, depth + 1 =>
      ((reprFault k depth).or (reprFault v depth)).or (reprFaultEntry es (depth + 1))
end

theorem asStr_eq_some {v : PyVal} {s : PyStr} :
    v.asStr = some s ↔ v = .str s := by
  cases v <;> simp [asStr]

theorem isStr_iff {v : PyVal} : v.isStr = true ↔ ∃ s, v = .str s := by
  cases v <;> simp [isStr, asStr]

theorem eqStr_iff {v : PyVal} {s : PyStr} : v.eqStr s = true ↔ v = .str s := by
  rw [eqStr, beq_iff_eq, asStr_eq_some]

/-- Membership in a set of strings is decided without raising. -/
theorem contains_strSet (names : List PyStr) (s : PyStr) :
    (strSet names).contains s = .ok (decide (s ∈ names)) := by
  have hany : (names.map PyVal.str).any (eqStr · s) = decide (s ∈ names) := by
    rw [Bool.eq_iff_iff, List.any_eq_true, decide_eq_true_iff]
    constructor
    · rintro ⟨v, hv, hs⟩
      obtain ⟨t, ht, rfl⟩ := List.mem_map.mp hv
      have hts : PyVal.str t = .str s := eqStr_iff.mp hs
      injection hts with hts
      exact hts ▸ ht
    · intro hs
      exact ⟨.str s, List.mem_map_of_mem hs, eqStr_iff.mpr rfl⟩
  rw [strSet, contains, hany]

/-- Rendering a string raises nothing. -/
theorem reprFault_of_isStr {v : PyVal} (h : v.isStr = true) (depth : Nat) :
    v.reprFault depth = Option.none := by
  obtain ⟨s, rfl⟩ := isStr_iff.mp h
  simp [reprFault]

/-- The entries that are not strings decide what rendering a list raises. -/
theorem reprFaultAny_filter_not_isStr (xs : List PyVal) (depth : Nat) :
    reprFaultAny (xs.filter (!·.isStr)) (depth + 1) = reprFaultAny xs (depth + 1) := by
  induction xs with
  | nil => rfl
  | cons x xs ih =>
      cases hx : x.isStr with
      | true => simp [hx, reprFaultAny, reprFault_of_isStr hx, ih]
      | false => simp [hx, reprFaultAny, ih]

end PyVal

/-- An integer with few digits can be printed. -/
theorem hugeInt_eq_false {n : Int} {k : Nat} (hk : k ≤ 4300) (h : n.natAbs < 10 ^ k) :
    PyVal.hugeInt n = false := by
  have hpow : ∀ m, k ≤ m → n.natAbs < 10 ^ m := fun m hm =>
    h.trans_le (Nat.pow_le_pow_right (by decide) hm)
  exact decide_eq_false (Nat.not_le.mpr (hpow 4300 hk))

end Floodgate.Ports
