import Floodgate.Verified.Binary64
import Floodgate.Ports.Json
import Floodgate.Ports.JsonText
import Floodgate.Ports.PyValue
import Floodgate.Ports.TextEncoding

/-!
# The values of JSON texts

The second half of the decoder: the values of the literals, and of the
containers from those of their parts.  An integer literal becomes an `int`, and
is refused when it has more than 4300 digits; a literal with a fraction or an
exponent becomes the nearest double, an infinity when there is none.  Two
escapes that spell a surrogate pair are one character.  Of members with the same
key, the last is kept.

## Main results

* `NumberLit.isFinite_double`: which literals become an infinity.
* `build_eq_ok_iff`: the value of a text, by the values of its parts.
* `nonFinite_build_iff`: a strict text has an infinity in its value exactly when
  a literal that is kept overflows.
-/

namespace Floodgate.Ports

open Floodgate.Verified

/-! ## Numbers -/

/-- A run of decimal digits as a number. -/
def digitsValue (ds : List Digit) : Nat := ds.foldl (fun n d => n * 10 + d.val) 0

/-- A number with its sign. -/
def signed (neg : Bool) (n : Nat) : Int := if neg then -(n : Int) else n

def Exponent.value (e : Exponent) : Int :=
  signed (decide (e.sign = some true)) (digitsValue e.digits)

namespace NumberLit

/-- Written with a fraction or an exponent. -/
def isFloat (lit : NumberLit) : Bool := !lit.frac.isEmpty || lit.exp.isSome

def intValue (lit : NumberLit) : Int := signed lit.neg (digitsValue lit.int.digits)

/-- The digits before the exponent, without the point. -/
def significand (lit : NumberLit) : Nat := digitsValue (lit.int.digits ++ lit.frac)

/-- The power of ten that the significand counts. -/
def scale (lit : NumberLit) : Int := lit.exp.elim 0 Exponent.value - lit.frac.length

/-- The literal without its sign is `numerator / denominator`. -/
def numerator (lit : NumberLit) : Nat := lit.significand * 10 ^ lit.scale.toNat

def denominator (lit : NumberLit) : Nat := 10 ^ (-lit.scale).toNat

end NumberLit

/-- A double by its sign and its magnitude bits. -/
def PyFloat.ofMagnitude (neg : Bool) (bits : Nat) : PyFloat :=
  BitVec.ofNat 64 (if neg then 2 ^ 63 + bits else bits)

/-- `float(text)`. -/
def NumberLit.double (lit : NumberLit) : PyFloat :=
  .ofMagnitude lit.neg (Binary64.nearest lit.numerator lit.denominator)

/-- The number that `match_number` makes of a literal. -/
def NumberLit.value (lit : NumberLit) : Except PyErr JsonDoc :=
  if lit.isFloat then .ok ⟨.float lit.double, rfl⟩
  else if 4300 < lit.int.digits.length then .error PyVal.digitLimitError
  else .ok ⟨.int lit.intValue, rfl⟩

/-! ## Strings -/

/-- The code unit of a `\uXXXX` escape. -/
def hexCode (a b c d : HexDigit) : Nat :=
  a.value * 0x1000 + b.value * 0x100 + c.value * 0x10 + d.value

theorem HexDigit.value_lt (x : HexDigit) : x.value < 16 := by
  have h := x.spells
  unfold hexValue? at h
  split at h
  · have := Option.some.inj h
    omega
  · split at h
    · have := Option.some.inj h
      omega
    · split at h
      · have := Option.some.inj h
        omega
      · cases h

theorem hexCode_lt (a b c d : HexDigit) : hexCode a b c d < 0x110000 := by
  have ha := a.value_lt
  have hb := b.value_lt
  have hc := c.value_lt
  have hd := d.value_lt
  unfold hexCode
  omega

/-- The character of one unit. -/
def StrUnit.value : StrUnit → PyChar
  | .plain c _ => c
  | .simple e => e.value
  | .unicode a b c d => ⟨hexCode a b c d, hexCode_lt a b c d⟩

/-- The character that two escapes stand for together. -/
def joinPair : StrUnit → StrUnit → Option PyChar
  | .unicode a b c d, .unicode a' b' c' d' =>
      if h : isHighSurrogate (hexCode a b c d) ∧ isLowSurrogate (hexCode a' b' c' d') then
        some ⟨joinSurrogates (hexCode a b c d) (hexCode a' b' c' d'), by
          simp only [isHighSurrogate, isLowSurrogate, decide_eq_true_eq] at h
          unfold joinSurrogates
          omega⟩
      else none
  | _, _ => none

/-- The string that some units spell. -/
def unitsValue : List StrUnit → PyStr
  | [] => []
  | [u] => [u.value]
  | u :: u' :: us =>
      match joinPair u u' with
      | some c => c :: unitsValue us
      | none => u.value :: unitsValue (u' :: us)

/-! ## Values -/

def JsonWord.value : JsonWord → JsonDoc
  | .null => ⟨.null, rfl⟩
  | .true => ⟨.bool Bool.true, rfl⟩
  | .false => ⟨.bool Bool.false, rfl⟩
  | .nan => ⟨.float 0x7FF8000000000000#64, rfl⟩
  | .infinity => ⟨.float 0x7FF0000000000000#64, rfl⟩
  | .negInfinity => ⟨.float 0xFFF0000000000000#64, rfl⟩

mutual
/-- The value of a text by its syntax. -/
def build : JsonTree → Except PyErr JsonDoc
  | .word w => .ok w.value
  | .number lit => lit.value
  | .str units => .ok ⟨.str (unitsValue units), rfl⟩
  | .arr items => (buildList items).map JsonDoc.list
  | .obj members => (buildMembers members).map JsonDoc.dict

def buildList : List JsonTree → Except PyErr (List JsonDoc)
  | [] => .ok []
  | t :: ts => do return (← build t) :: (← buildList ts)

def buildMembers : List (List StrUnit × JsonTree) → Except PyErr (List (PyStr × JsonDoc))
  | [] => .ok []
  | (key, t) :: ms => do return (unitsValue key, ← build t) :: (← buildMembers ms)
end

/-! ## Containers, by their parts -/

theorem buildList_eq_ok_iff {ts : List JsonTree} {ds : List JsonDoc} :
    buildList ts = .ok ds ↔ List.Forall₂ (fun t d => build t = .ok d) ts ds := by
  induction ts generalizing ds with
  | nil =>
      rw [buildList, List.forall₂_nil_left_iff, Except.ok.injEq]
      exact eq_comm
  | cons t ts ih =>
      rw [buildList, bind_eq_ok_iff, List.forall₂_cons_left_iff]
      simp only [bind_eq_ok_iff, ← ih]
      constructor
      · rintro ⟨d, hd, ds', hds, hok⟩
        exact ⟨d, ds', hd, hds, (Except.ok.inj hok).symm⟩
      · rintro ⟨d, ds', hd, hds, rfl⟩
        exact ⟨d, hd, ds', hds, rfl⟩

/-- A member of a text and of its value. -/
def BuildsMember (m : List StrUnit × JsonTree) (kv : PyStr × JsonDoc) : Prop :=
  kv.1 = unitsValue m.1 ∧ build m.2 = .ok kv.2

theorem buildMembers_eq_ok_iff {ms : List (List StrUnit × JsonTree)}
    {kvs : List (PyStr × JsonDoc)} :
    buildMembers ms = .ok kvs ↔ List.Forall₂ BuildsMember ms kvs := by
  induction ms generalizing kvs with
  | nil =>
      rw [buildMembers, List.forall₂_nil_left_iff, Except.ok.injEq]
      exact eq_comm
  | cons m ms ih =>
      obtain ⟨key, t⟩ := m
      rw [buildMembers, bind_eq_ok_iff, List.forall₂_cons_left_iff]
      simp only [bind_eq_ok_iff, ← ih]
      constructor
      · rintro ⟨d, hd, kvs', hkvs, hok⟩
        exact ⟨(unitsValue key, d), kvs', ⟨rfl, hd⟩, hkvs, (Except.ok.inj hok).symm⟩
      · rintro ⟨⟨_, d⟩, kvs', ⟨rfl, hd⟩, hkvs, rfl⟩
        exact ⟨d, hd, kvs', hkvs, rfl⟩

/-- A text and its value, one level deep. -/
inductive Builds : JsonTree → JsonDoc → Prop
  | word (w : JsonWord) : Builds (.word w) w.value
  | float {lit : NumberLit} (h : lit.isFloat = true) :
      Builds (.number lit) ⟨.float lit.double, rfl⟩
  | int {lit : NumberLit} (h : lit.isFloat = false) (hlen : lit.int.digits.length ≤ 4300) :
      Builds (.number lit) ⟨.int lit.intValue, rfl⟩
  | str (units : List StrUnit) : Builds (.str units) ⟨.str (unitsValue units), rfl⟩
  | arr {items : List JsonTree} {ds : List JsonDoc}
      (h : List.Forall₂ (fun t d => build t = .ok d) items ds) : Builds (.arr items) (.list ds)
  | obj {members : List (List StrUnit × JsonTree)} {kvs : List (PyStr × JsonDoc)}
      (h : List.Forall₂ BuildsMember members kvs) : Builds (.obj members) (.dict kvs)

theorem build_eq_ok_iff {t : JsonTree} {d : JsonDoc} : build t = .ok d ↔ Builds t d := by
  constructor
  · intro h
    cases t with
    | word w =>
        cases h
        exact .word w
    | number lit =>
        rw [build, NumberLit.value] at h
        split at h
        · next hfloat =>
          cases h
          exact .float hfloat
        · next hfloat =>
          split at h
          · cases h
          · next hlen =>
            cases h
            exact .int (Bool.eq_false_of_not_eq_true hfloat) (Nat.le_of_not_lt hlen)
    | str units =>
        cases h
        exact .str units
    | arr items =>
        obtain ⟨ds, hitems, rfl⟩ := map_eq_ok_iff.mp h
        exact .arr (buildList_eq_ok_iff.mp hitems)
    | obj members =>
        obtain ⟨kvs, hmembers, rfl⟩ := map_eq_ok_iff.mp h
        exact .obj (buildMembers_eq_ok_iff.mp hmembers)
  · intro h
    cases h with
    | word w => rfl
    | float h => rw [build, NumberLit.value, if_pos h]
    | int h hlen =>
        rw [build, NumberLit.value, if_neg (by simp [h]), if_neg (Nat.not_lt.mpr hlen)]
    | str units => rfl
    | arr h =>
        rw [build, buildList_eq_ok_iff.mpr h]
        rfl
    | obj h =>
        rw [build, buildMembers_eq_ok_iff.mpr h]
        rfl

/-- A position on the left of two related lists is one on the right. -/
theorem exists_split_of_forall₂ {α β : Type} {R : α → β → Prop} {pre post : List α} {a : α}
    {bs : List β} (h : List.Forall₂ R (pre ++ a :: post) bs) :
    ∃ pre' b post', bs = pre' ++ b :: post' ∧ R a b ∧ List.Forall₂ R post post' := by
  induction pre generalizing bs with
  | nil =>
      obtain ⟨b, post', hab, hpost, rfl⟩ := List.forall₂_cons_left_iff.mp h
      exact ⟨[], b, post', rfl, hab, hpost⟩
  | cons c pre ih =>
      obtain ⟨d, bs', -, hrest, rfl⟩ := List.forall₂_cons_left_iff.mp h
      obtain ⟨pre', b, post', rfl, hb⟩ := ih hrest
      exact ⟨d :: pre', b, post', rfl, hb⟩

theorem exists_of_forall₂_left {α β : Type} {R : α → β → Prop} {as : List α} {bs : List β}
    (h : List.Forall₂ R as bs) {a : α} (ha : a ∈ as) : ∃ b ∈ bs, R a b := by
  obtain ⟨pre, post, rfl⟩ := List.append_of_mem ha
  obtain ⟨pre', b, post', rfl, hab, -⟩ := exists_split_of_forall₂ h
  exact ⟨b, List.mem_append_right _ List.mem_cons_self, hab⟩

theorem exists_of_forall₂_right {α β : Type} {R : α → β → Prop} {as : List α} {bs : List β}
    (h : List.Forall₂ R as bs) {b : β} (hb : b ∈ bs) : ∃ a ∈ as, R a b :=
  exists_of_forall₂_left (R := flip R) h.flip hb

/-! ## Infinities -/

/-- The literal is too large for a double: at or above the midpoint between the
largest one and `2 ^ 1024`. -/
def NumberLit.Overflows (lit : NumberLit) : Prop :=
  lit.isFloat = true ∧ (2 ^ 54 - 1) * 2 ^ 970 * lit.denominator ≤ lit.numerator

/-- A word occurs in a text. -/
inductive JsonTree.HasWord (w : JsonWord) : JsonTree → Prop
  | word : HasWord w (.word w)
  | arr {items : List JsonTree} {t : JsonTree} (hmem : t ∈ items) (h : HasWord w t) :
      HasWord w (.arr items)
  | obj {members : List (List StrUnit × JsonTree)} {m : List StrUnit × JsonTree}
      (hmem : m ∈ members) (h : HasWord w m.2) : HasWord w (.obj members)

/-- A text of the standard: no word but `null`, `true` and `false`. -/
def JsonTree.Strict (t : JsonTree) : Prop := ∀ w, t.HasWord w → w.strict = true

/-- No later member has the key of this one. -/
def LastOfKey (members : List (List StrUnit × JsonTree)) (m : List StrUnit × JsonTree) : Prop :=
  ∃ before after, members = before ++ m :: after ∧
    ∀ m' ∈ after, unitsValue m'.1 ≠ unitsValue m.1

/-- A literal that is too large for a double is kept in the value. -/
inductive JsonTree.Overflows : JsonTree → Prop
  | number {lit : NumberLit} (h : lit.Overflows) : Overflows (.number lit)
  | arr {items : List JsonTree} {t : JsonTree} (hmem : t ∈ items) (h : Overflows t) :
      Overflows (.arr items)
  | obj {members : List (List StrUnit × JsonTree)} {m : List StrUnit × JsonTree}
      (hlast : LastOfKey members m) (h : Overflows m.2) : Overflows (.obj members)

/-- A float of the value is infinite or a NaN. -/
inductive Json.NonFinite : Json → Prop
  | float {x : PyFloat} (h : x.isFinite = false) : NonFinite (.float x)
  | list {xs : List Json} {x : Json} (hmem : x ∈ xs) (h : NonFinite x) : NonFinite (.list xs)
  | dict {ms : List (PyStr × Json)} {kv : PyStr × Json} (hmem : kv ∈ ms)
      (h : NonFinite kv.2) : NonFinite (.dict ms)

theorem isFinite_ofMagnitude {neg : Bool} {bits : Nat} (h : bits ≤ Binary64.infinity) :
    (PyFloat.ofMagnitude neg bits).isFinite = false ↔ bits = Binary64.infinity := by
  have hexponent : ((PyFloat.ofMagnitude neg bits).extractLsb' 52 11).toNat = bits / 2 ^ 52 := by
    rw [BitVec.extractLsb'_toNat, PyFloat.ofMagnitude, BitVec.toNat_ofNat,
      Nat.shiftRight_eq_div_pow]
    unfold Binary64.infinity at h
    split <;> omega
  rw [PyFloat.isFinite, bne_eq_false_iff_eq, ← BitVec.toNat_inj, hexponent]
  unfold Binary64.infinity at h ⊢
  simp only [BitVec.toNat_ofNat]
  omega

theorem NumberLit.denominator_pos (lit : NumberLit) : 0 < lit.denominator :=
  Nat.pow_pos (by decide)

/-- A literal becomes an infinity when it is too large for a double. -/
theorem NumberLit.isFinite_double (lit : NumberLit) : lit.double.isFinite = false ↔
    (2 ^ 54 - 1) * 2 ^ 970 * lit.denominator ≤ lit.numerator := by
  rw [NumberLit.double, isFinite_ofMagnitude (Binary64.nearest_le_infinity _ _),
    Binary64.nearest_eq_infinity_iff lit.denominator_pos]

theorem nonFinite_of_overflows {t : JsonTree} (h : t.Overflows) {d : JsonDoc}
    (hd : build t = .ok d) : d.val.NonFinite := by
  induction h generalizing d with
  | @number lit h =>
      cases build_eq_ok_iff.mp hd with
      | float _ => exact .float (lit.isFinite_double.mpr h.2)
      | int hint _ => exact absurd h.1 (by simp [hint])
  | @arr items t hmem _ ih =>
      cases build_eq_ok_iff.mp hd with
      | arr hds =>
        obtain ⟨d', hmem', hd'⟩ := exists_of_forall₂_left hds hmem
        exact .list (List.mem_map_of_mem hmem') (ih hd')
  | @obj members m hlast _ ih =>
      cases build_eq_ok_iff.mp hd with
      | obj hkvs =>
        obtain ⟨before, after, rfl, hafter⟩ := hlast
        obtain ⟨before', kv, after', rfl, hkv, hafter'⟩ := exists_split_of_forall₂ hkvs
        have hlast : kv.1 ∉ Assoc.keys (after'.map fun kv => (kv.1, kv.2.val)) := by
          rw [Assoc.keys, List.map_map]
          intro hmem
          obtain ⟨kv', hmem', hkey⟩ := List.mem_map.mp hmem
          obtain ⟨m', hm', hkv'⟩ := exists_of_forall₂_right hafter' hmem'
          exact hafter m' hm' (hkv'.1.symm.trans (hkey.trans hkv.1))
        have hkept : (kv.1, kv.2.val) ∈
            Assoc.update [] ((before' ++ kv :: after').map fun kv => (kv.1, kv.2.val)) :=
          Assoc.mem_update_nil_iff.mpr ⟨_, _, List.map_append, hlast⟩
        exact .dict hkept (ih hkv.2)

theorem overflows_of_nonFinite {v : Json} (h : v.NonFinite) {t : JsonTree} {d : JsonDoc}
    (hstrict : t.Strict) (hd : build t = .ok d) (hv : d.val = v) : t.Overflows := by
  induction h generalizing t d with
  | @float x hx =>
      cases build_eq_ok_iff.mp hd with
      | word w =>
          have hw := hstrict w .word
          cases w <;> cases hv <;> cases hw
      | @float lit hfloat =>
          cases hv
          exact .number ⟨hfloat, lit.isFinite_double.mp hx⟩
      | int _ _ | str _ | arr _ | obj _ => cases hv
  | @list xs x hmem _ ih =>
      cases build_eq_ok_iff.mp hd with
      | word w => cases w <;> cases hv
      | arr hds =>
          cases hv
          obtain ⟨d', hmem', rfl⟩ := List.mem_map.mp hmem
          obtain ⟨t', ht', hd'⟩ := exists_of_forall₂_right hds hmem'
          exact .arr ht' (ih (fun w hw => hstrict w (.arr ht' hw)) hd' rfl)
      | float _ | int _ _ | str _ | obj _ => cases hv
  | @dict ms kv hmem _ ih =>
      cases build_eq_ok_iff.mp hd with
      | word w => cases w <;> cases hv
      | obj hkvs =>
          cases hv
          obtain ⟨before, after, hsplit, hafter⟩ := Assoc.mem_update_nil_iff.mp hmem
          obtain ⟨before', rest, rfl, rfl, hrest⟩ := List.map_eq_append_iff.mp hsplit
          obtain ⟨kv', after', rfl, rfl, rfl⟩ := List.map_eq_cons_iff.mp hrest
          obtain ⟨pre, m, post, rfl, hm, hpost⟩ :=
            exists_split_of_forall₂ (R := flip BuildsMember) hkvs.flip
          have hlast : LastOfKey (pre ++ m :: post) m := by
            refine ⟨pre, post, rfl, ?_⟩
            intro m' hm' hkey
            obtain ⟨kv'', hmem'', hkv''⟩ := exists_of_forall₂_right (R := flip BuildsMember)
              hpost hm'
            refine hafter ?_
            rw [Assoc.keys, List.map_map]
            exact List.mem_map.mpr ⟨kv'', hmem'', hkv''.1.trans (hkey.trans hm.1.symm)⟩
          have hstrict' : m.2.Strict := fun w hw =>
            hstrict w (.obj (List.mem_append_right _ List.mem_cons_self) hw)
          exact .obj hlast (ih hstrict' hm.2 rfl)
      | float _ | int _ _ | str _ | arr _ => cases hv

/-- A strict text has an infinity in its value exactly when a literal that is too
large is kept. -/
theorem nonFinite_build_iff {t : JsonTree} {d : JsonDoc} (hstrict : t.Strict)
    (hd : build t = .ok d) : d.val.NonFinite ↔ t.Overflows :=
  ⟨fun h => overflows_of_nonFinite h hstrict hd rfl, fun h => nonFinite_of_overflows h hd⟩

end Floodgate.Ports
