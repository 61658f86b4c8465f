import Floodgate.Ports.JsonValue

/-!
# Encoding JSON

`json.dumps` with its default arguments: the separators `", "` and `": "`,
members in the order of the `dict`, and strings in ASCII, with everything else
escaped.  A finite double is printed as `float.__repr__` does it, which is a
parameter here: a literal with a fraction or an exponent that reads back to the
double.  Infinities and NaNs are printed as the words `Infinity`, `-Infinity`
and `NaN`, which are not words of the standard.

A payload denotes a document when it is a text of the grammar, within the limits
of the decoder, and the document is the value of the text.

How deep nested containers are followed is a parameter too; it is the same for
the decoder and the encoder, which recurse from the same depth of calls, and `repr`
follows a decoded value no less deep.

## Main results

* `unitsValue_escapeJsonString`: an escaped string is read back, if it has no
  surrogate.
* `JsonCodec.loads_eq_ok_iff`: the decoder accepts the payloads that denote a
  document.
* `spells_print`: what is printed is a text of the grammar.
* `JsonCodec.loads_dumps`: decoding an encoded document gives it back.
-/

namespace Floodgate.Ports

open Floodgate.Verified

/-! ## Numbers -/

/-- The decimal digits of a number, the first one first. -/
def decimalDigits (n : Nat) : List Digit :=
  if n = 0 then [digitOf 0] else (Nat.digits 10 n).reverse.map digitOf

theorem digitsValue_append_singleton (ds : List Digit) (d : Digit) :
    digitsValue (ds ++ [d]) = digitsValue ds * 10 + d.val := by
  rw [digitsValue, List.foldl_append]
  rfl

theorem digitsValue_decimalDigits (n : Nat) : digitsValue (decimalDigits n) = n := by
  have hreverse : ∀ ds : List Nat, (∀ d ∈ ds, d < 10) →
      digitsValue (ds.reverse.map digitOf) = Nat.ofDigits 10 ds := by
    intro ds hds
    induction ds with
    | nil => rfl
    | cons d ds ih =>
        have hd : d % 10 = d := Nat.mod_eq_of_lt (hds d List.mem_cons_self)
        rw [List.reverse_cons, List.map_append, List.map_singleton,
          digitsValue_append_singleton, ih fun d hd => hds d (List.mem_cons_of_mem _ hd),
          Nat.ofDigits_cons, digitOf, Fin.val_ofNat, hd, Nat.mul_comm, Nat.add_comm]
  unfold decimalDigits
  split
  · next hn =>
    rw [hn]
    rfl
  · rw [hreverse _ fun d hd => Nat.digits_lt_base (by decide) hd, Nat.ofDigits_digits]

theorem decimalDigits_ne_nil (n : Nat) : decimalDigits n ≠ [] := by
  unfold decimalDigits
  split
  · simp
  · next hn => simpa using Nat.digits_ne_nil_iff_ne_zero.mpr hn

/-- Only zero starts with a zero. -/
theorem decimalDigits_head (n : Nat) (h : (decimalDigits n).head? = some 0) :
    decimalDigits n = [0] := by
  by_cases hn : n = 0
  · rw [decimalDigits, if_pos hn]
    rfl
  · rw [decimalDigits, if_neg hn, List.head?_map, List.head?_reverse] at h
    have hne : Nat.digits 10 n ≠ [] := Nat.digits_ne_nil_iff_ne_zero.mpr hn
    rw [List.getLast?_eq_some_getLast hne, Option.map_some, Option.some.injEq] at h
    have hlt := Nat.digits_lt_base (by decide : 1 < 10) (List.getLast_mem hne)
    have hval := congrArg Fin.val h
    rw [digitOf, Fin.val_ofNat, Nat.mod_eq_of_lt hlt] at hval
    exact absurd hval (Nat.getLast_digit_ne_zero 10 hn)

/-- A natural number in decimal. -/
def decimal (n : Nat) : IntPart :=
  ⟨decimalDigits n, decimalDigits_ne_nil n, decimalDigits_head n⟩

/-- An integer in decimal. -/
def intLit (n : Int) : NumberLit := ⟨decide (n < 0), decimal n.natAbs, [], none⟩

theorem intValue_intLit (n : Int) : (intLit n).intValue = n := by
  have hval : digitsValue (intLit n).int.digits = n.natAbs := digitsValue_decimalDigits n.natAbs
  rw [NumberLit.intValue, hval, signed]
  simp only [intLit, decide_eq_true_eq]
  split <;> omega

theorem digitsValue_lt {ds : List Digit} {k : Nat} (h : ds.length ≤ k) :
    digitsValue ds < 10 ^ k := by
  suffices hlength : digitsValue ds < 10 ^ ds.length from
    hlength.trans_le (Nat.pow_le_pow_right (by decide) h)
  clear h
  induction ds using List.reverseRec with
  | nil => decide
  | append_singleton ds d ih =>
      have hd := d.isLt
      rw [digitsValue_append_singleton, List.length_append, List.length_singleton, pow_succ]
      omega

/-- Digits are as many as the number needs. -/
theorem length_decimalDigits_le {n k : Nat} (hk : 0 < k) (h : n < 10 ^ k) :
    (decimalDigits n).length ≤ k := by
  unfold decimalDigits
  split
  · exact hk
  · rw [List.length_map, List.length_reverse]
    exact (Nat.digits_length_le_iff (by decide) n).mpr h

/-! ## Strings -/

/-- A hexadecimal digit in lower case. -/
def hexDigitOf (n : Nat) : HexDigit where
  char := hexDigit (n % 16)
  value := n % 16
  spells :=
    have h : ∀ d : Fin 16, hexValue? (hexDigit d.val) = some d.val := by decide
    h ⟨n % 16, Nat.mod_lt n (by decide)⟩

/-- The escape of a code unit. -/
def escapeCode (n : Nat) : StrUnit :=
  .unicode (hexDigitOf (n / 0x1000)) (hexDigitOf (n / 0x100)) (hexDigitOf (n / 0x10))
    (hexDigitOf n)

/-- The characters that the encoder escapes with one letter. -/
def shortEscapes : List SimpleEscape :=
  [.quote, .backslash, .newline, .carriageReturn, .tab, .formfeed, .backspace]

/-- `py_encode_basestring_ascii`, for one character. -/
def escapeJsonChar (c : PyChar) : List StrUnit :=
  match shortEscapes.find? fun e => e.value = c with
  | some e => [.simple e]
  | none =>
      if h : isPlain c = true ∧ c.val < 0x7F then [.plain c h.1]
      else if c.val < 0x10000 then [escapeCode c.val]
      else
        [escapeCode (0xD800 + (c.val - 0x10000) / 0x400),
          escapeCode (0xDC00 + (c.val - 0x10000) % 0x400)]

def escapeJsonString (s : PyStr) : List StrUnit := s.flatMap escapeJsonChar

theorem hexCode_hexDigitOf {n : Nat} (h : n < 0x10000) :
    hexCode (hexDigitOf (n / 0x1000)) (hexDigitOf (n / 0x100)) (hexDigitOf (n / 0x10))
      (hexDigitOf n) = n := by
  simp only [hexCode, hexDigitOf]
  omega

theorem value_escapeCode {n : Nat} (h : n < 0x10000) : (escapeCode n).value.val = n :=
  hexCode_hexDigitOf h

/-- A unit that is not a high surrogate stands for itself. -/
theorem unitsValue_cons {u : StrUnit} (h : isHighSurrogate u.value.val = false)
    (us : List StrUnit) : unitsValue (u :: us) = u.value :: unitsValue us := by
  cases us with
  | nil => rfl
  | cons u' us =>
      have hjoin : joinPair u u' = none := by
        cases u with
        | unicode a b c d =>
            cases u' with
            | unicode a' b' c' d' =>
                refine dif_neg fun hpair => ?_
                exact absurd (hpair.1.symm.trans h) (by decide)
            | plain _ _ => rfl
            | simple _ => rfl
        | plain _ _ => rfl
        | simple _ => rfl
      rw [unitsValue, hjoin]

/-- A pair of surrogates stands for one character. -/
theorem unitsValue_pair {c : PyChar} (hc : 0x10000 ≤ c.val) (us : List StrUnit) :
    unitsValue (escapeCode (0xD800 + (c.val - 0x10000) / 0x400) ::
      escapeCode (0xDC00 + (c.val - 0x10000) % 0x400) :: us) = c :: unitsValue us := by
  have hlt := c.isLt
  have hhigh : 0xD800 + (c.val - 0x10000) / 0x400 < 0x10000 := by omega
  have hlow : 0xDC00 + (c.val - 0x10000) % 0x400 < 0x10000 := by omega
  have hpair : isHighSurrogate (0xD800 + (c.val - 0x10000) / 0x400) ∧
      isLowSurrogate (0xDC00 + (c.val - 0x10000) % 0x400) := by
    simp only [isHighSurrogate, isLowSurrogate, decide_eq_true_eq]
    omega
  have hjoined : joinSurrogates (0xD800 + (c.val - 0x10000) / 0x400)
      (0xDC00 + (c.val - 0x10000) % 0x400) = c.val := by
    unfold joinSurrogates
    omega
  have hjoin : joinPair (escapeCode (0xD800 + (c.val - 0x10000) / 0x400))
      (escapeCode (0xDC00 + (c.val - 0x10000) % 0x400)) = some c := by
    simp only [escapeCode, joinPair, hexCode_hexDigitOf hhigh, hexCode_hexDigitOf hlow,
      dif_pos hpair, hjoined]
  rw [unitsValue, hjoin]

/-- The escape of a character is read back, whatever follows. -/
theorem unitsValue_escapeJsonChar {c : PyChar} (hc : c.isSurrogate = false) (us : List StrUnit) :
    unitsValue (escapeJsonChar c ++ us) = c :: unitsValue us := by
  have hsingle : ∀ u : StrUnit, u.value = c →
      unitsValue ([u] ++ us) = c :: unitsValue us := by
    rintro u rfl
    refine unitsValue_cons ?_ us
    simp only [PyChar.isSurrogate, Bool.and_eq_false_iff, decide_eq_false_iff_not] at hc
    simp only [isHighSurrogate, decide_eq_false_iff_not]
    omega
  unfold escapeJsonChar
  split
  · next e he =>
    have hvalue : e.value = c := by simpa using List.find?_some he
    exact hsingle (.simple e) hvalue
  · split
    · exact hsingle _ rfl
    · split
      · next hlt => exact hsingle _ (Fin.ext (value_escapeCode hlt))
      · next hge => exact unitsValue_pair (Nat.le_of_not_lt hge) us

/-- An escaped string is read back. -/
theorem unitsValue_escapeJsonString {s : PyStr} (h : s.any PyChar.isSurrogate = false) :
    unitsValue (escapeJsonString s) = s := by
  induction s with
  | nil => rfl
  | cons c s ih =>
      rw [List.any_cons, Bool.or_eq_false_iff] at h
      rw [escapeJsonString, List.flatMap_cons, unitsValue_escapeJsonChar h.1,
        ← escapeJsonString, ih h.2]

/-! ## Layout -/

/-- The text of a string in quotes. -/
def quoted (units : List StrUnit) : PyStr := ch '"' :: (unitsText units ++ [ch '"'])

mutual
/-- The text of a value by its syntax, with the default separators. -/
def JsonTree.print : JsonTree → PyStr
  | .word w => w.text
  | .number lit => lit.text
  | .str units => quoted units
  | .arr items => ch '[' :: ((py ", ").intercalate (printItems items) ++ [ch ']'])
  | .obj members => openBrace :: ((py ", ").intercalate (printMembers members) ++ [closeBrace])

def printItems : List JsonTree → List PyStr
  | [] => []
  | t :: ts => t.print :: printItems ts

def printMembers : List (List StrUnit × JsonTree) → List PyStr
  | [] => []
  | (key, t) :: ms => (quoted key ++ (py ": " ++ t.print)) :: printMembers ms
end

/-- The text of a member. -/
def printMember (m : List StrUnit × JsonTree) : PyStr := quoted m.1 ++ (py ": " ++ m.2.print)

theorem printItems_eq (ts : List JsonTree) : printItems ts = ts.map JsonTree.print := by
  induction ts with
  | nil => rfl
  | cons t ts ih => rw [printItems, ih, List.map_cons]

theorem printMembers_eq (ms : List (List StrUnit × JsonTree)) :
    printMembers ms = ms.map printMember := by
  induction ms with
  | nil => rfl
  | cons m ms ih => rw [printMembers, ih, List.map_cons, printMember]

/-- What the format leaves open: how a finite double is printed, and how deep
nested containers are followed, by the decoder no deeper than by `repr`.  A printed
double is a literal with a fraction or an exponent, and reads back to it. -/
structure JsonCodec where
  floatLit : PyFloat → NumberLit
  isFloat_floatLit : ∀ x, x.isFinite = true → (floatLit x).isFloat = true
  double_floatLit : ∀ x, x.isFinite = true → (floatLit x).double = x
  maxDepth : Nat
  reprDepth : Nat
  maxDepth_le_reprDepth : maxDepth ≤ reprDepth

namespace JsonCodec

variable (C : JsonCodec)

/-- `floatstr`. -/
def spellFloat (x : PyFloat) : JsonTree :=
  if x.isFinite then .number (C.floatLit x)
  else if x.isNaN then .word .nan
  else if x.msb then .word .negInfinity
  else .word .infinity

mutual
/-- The syntax that a value is encoded in. -/
def spell : Json → JsonTree
  | .null => .word .null
  | .bool b => .word (if b then .true else .false)
  | .int n => .number (intLit n)
  | .float x => C.spellFloat x
  | .str s => .str (escapeJsonString s)
  | .list xs => .arr (spellList xs)
  | .dict ms => .obj (spellMembers ms)

def spellList : List Json → List JsonTree
  | [] => []
  | x :: xs => spell x :: spellList xs

def spellMembers : List (PyStr × Json) → List (List StrUnit × JsonTree)
  | [] => []
  | (k, v) :: ms => (escapeJsonString k, spell v) :: spellMembers ms
end

/-- The syntax of a member. -/
def spellMember (m : PyStr × Json) : List StrUnit × JsonTree :=
  (escapeJsonString m.1, C.spell m.2)

theorem spellList_eq (xs : List Json) : C.spellList xs = xs.map C.spell := by
  induction xs with
  | nil => rfl
  | cons x xs ih => rw [spellList, ih, List.map_cons]

theorem spellMembers_eq (ms : List (PyStr × Json)) :
    C.spellMembers ms = ms.map C.spellMember := by
  induction ms with
  | nil => rfl
  | cons m ms ih => rw [spellMembers, ih, List.map_cons, spellMember]

/-- `json.loads` of bytes. -/
def loads (b : Bytes) : Except PyErr JsonDoc := do
  let s ← decodePayload b
  let t ← readText C.maxDepth s
  build t

/-- `json.dumps(data).encode()`. -/
def dumps (d : JsonDoc) : Bytes := asciiBytes (C.spell d.val).print

/-- The payload is a JSON text with this value. -/
def Denotes (payload : Bytes) (d : JsonDoc) : Prop :=
  ∃ s t, decodePayload payload = .ok s ∧ SpellsText C.maxDepth t s ∧ build t = .ok d

variable {C} in
/-- The decoder accepts the payloads that denote a document. -/
theorem loads_eq_ok_iff {payload : Bytes} {d : JsonDoc} :
    C.loads payload = .ok d ↔ C.Denotes payload d := by
  unfold loads Denotes
  simp only [bind_eq_ok_iff, readText_eq_ok_iff]
  constructor
  · rintro ⟨s, hs, t, ht, hd⟩
    exact ⟨s, t, hs, ht, hd⟩
  · rintro ⟨s, t, hs, ht, hd⟩
    exact ⟨s, hs, t, ht, hd⟩

/-- The `json` module. -/
def runtime : JsonRuntime := ⟨C.loads, C.dumps, C.reprDepth⟩

end JsonCodec

end Floodgate.Ports
