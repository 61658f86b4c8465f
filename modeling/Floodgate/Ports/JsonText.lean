import Floodgate.Verified.Enclosed
import Floodgate.Ports.PyStr

/-!
# JSON texts

The decoder of Python's `json` module, up to the point where values are made:
a text is scanned to a syntax tree in which every literal keeps its spelling.
The scanner follows the module (`scan_once`, `scanstring`, `match_number`); it
takes the words `NaN`, `Infinity` and `-Infinity` beside those of the standard,
and follows nested containers only to a limit.

The grammar is that of RFC 8259, section by section, with the same three words
added.  A tree is strict when it has none of them.

## Main results

* `scanNumber_text`, `scanString_text`: a literal is scanned to itself.
* `readText_eq_ok_iff`: the decoder accepts exactly the grammar, with one tree
  for each text.
* `SpellsText.unique`: the tree does not depend on the limit.
-/

namespace Floodgate.Ports

open Floodgate.Verified

/-! ## Numbers -/

/-- A decimal digit. -/
abbrev Digit := Fin 10

/-- The last decimal digit of a number. -/
def digitOf (n : Nat) : Digit := Fin.ofNat 10 n

/-- A digit as a character. -/
def digitChar (d : Digit) : PyChar := ⟨0x30 + d.val, by omega⟩

/-- The digit that a character is. -/
def charDigit? (c : PyChar) : Option Digit :=
  if h : 0x30 ≤ c.val ∧ c.val < 0x3A then some ⟨c.val - 0x30, by omega⟩ else none

/-- The integer part of a number: no zero in front of other digits. -/
structure IntPart where
  digits : List Digit
  ne_nil : digits ≠ []
  no_leading_zero : digits.head? = some 0 → digits = [0]

/-- The exponent of a number. -/
structure Exponent where
  /-- Written with `E`. -/
  upper : Bool
  /-- `true` for a minus sign. -/
  sign : Option Bool
  digits : List Digit
  ne_nil : digits ≠ []

/-- A number as it is spelled.  Without a fraction, `frac` has no digits. -/
structure NumberLit where
  neg : Bool
  int : IntPart
  frac : List Digit
  exp : Option Exponent

def digitsText (ds : List Digit) : PyStr := ds.map digitChar

def signText : Option Bool → PyStr
  | none => []
  | some true => [ch '-']
  | some false => [ch '+']

def fracText (frac : List Digit) : PyStr :=
  if frac = [] then [] else ch '.' :: digitsText frac

def expText : Option Exponent → PyStr
  | none => []
  | some e => ch (if e.upper then 'E' else 'e') :: (signText e.sign ++ digitsText e.digits)

def NumberLit.unsignedText (lit : NumberLit) : PyStr :=
  digitsText lit.int.digits ++ (fracText lit.frac ++ expText lit.exp)

def NumberLit.text (lit : NumberLit) : PyStr :=
  if lit.neg then ch '-' :: lit.unsignedText else lit.unsignedText

/-- `[0-9]*`. -/
def scanDigits : PyStr → List Digit × PyStr
  | [] => ([], [])
  | c :: s =>
      match charDigit? c with
      | some d => (d :: (scanDigits s).1, (scanDigits s).2)
      | none => ([], c :: s)

/-- `0|[1-9][0-9]*`. -/
def scanInt : PyStr → Option (IntPart × PyStr)
  | [] => none
  | c :: s =>
      match charDigit? c with
      | none => none
      | some d =>
          if h : d = 0 then some (⟨[0], by simp, by simp⟩, s)
          else some (⟨d :: (scanDigits s).1, by simp, by simp [h]⟩, (scanDigits s).2)

/-- `(\.[0-9]+)?`. -/
def scanFrac : PyStr → List Digit × PyStr
  | [] => ([], [])
  | c :: s =>
      if c = ch '.' ∧ (scanDigits s).1 ≠ [] then scanDigits s else ([], c :: s)

/-- `[-+]?`. -/
def scanSign : PyStr → Option Bool × PyStr
  | [] => (none, [])
  | c :: s =>
      if c = ch '-' then (some true, s)
      else if c = ch '+' then (some false, s)
      else (none, c :: s)

/-- `([eE][-+]?[0-9]+)?`. -/
def scanExp : PyStr → Option Exponent × PyStr
  | [] => (none, [])
  | c :: s =>
      if h : (c = ch 'e' ∨ c = ch 'E') ∧ (scanDigits (scanSign s).2).1 ≠ [] then
        (some ⟨decide (c = ch 'E'), (scanSign s).1, (scanDigits (scanSign s).2).1, h.2⟩,
          (scanDigits (scanSign s).2).2)
      else (none, c :: s)

/-- A number behind its sign. -/
def scanUnsigned (neg : Bool) (s : PyStr) : Option (NumberLit × PyStr) :=
  (scanInt s).map fun r =>
    (⟨neg, r.1, (scanFrac r.2).1, (scanExp (scanFrac r.2).2).1⟩,
      (scanExp (scanFrac r.2).2).2)

/-- `match_number`. -/
def scanNumber : PyStr → Option (NumberLit × PyStr)
  | [] => none
  | c :: s => if c = ch '-' then scanUnsigned true s else scanUnsigned false (c :: s)

@[simp] theorem charDigit?_digitChar (d : Digit) : charDigit? (digitChar d) = some d := by
  have h : 0x30 ≤ (digitChar d).val ∧ (digitChar d).val < 0x3A := by
    simp only [digitChar]
    omega
  rw [charDigit?, dif_pos h]
  simp [digitChar]

theorem charDigit?_eq_some {c : PyChar} {d : Digit} (h : charDigit? c = some d) :
    c = digitChar d := by
  unfold charDigit? at h
  split at h
  · cases h
    apply Fin.ext
    simp only [digitChar]
    omega
  · cases h

/-- The text does not go on with a digit. -/
def NoDigit (s : PyStr) : Prop := ∀ c ∈ s.head?, charDigit? c = none

theorem scanDigits_text (ds : List Digit) {rest : PyStr} (h : NoDigit rest) :
    scanDigits (digitsText ds ++ rest) = (ds, rest) := by
  induction ds with
  | nil =>
      cases rest with
      | nil => rfl
      | cons c rest => simp [digitsText, scanDigits, h c rfl]
  | cons d ds ih =>
      simp only [digitsText, List.map_cons, List.cons_append, scanDigits,
        charDigit?_digitChar] at ih ⊢
      rw [ih]

theorem scanDigits_sound (s : PyStr) :
    s = digitsText (scanDigits s).1 ++ (scanDigits s).2 := by
  induction s with
  | nil => rfl
  | cons c s ih =>
      rw [scanDigits]
      cases h : charDigit? c with
      | none => rfl
      | some d =>
          simp only [digitsText, List.map_cons, List.cons_append, List.cons.injEq]
          exact ⟨charDigit?_eq_some h, ih⟩

/-- The text does not go on with a character that a number could continue with. -/
def NumberEnds (s : PyStr) : Prop :=
  ∀ c ∈ s.head?, charDigit? c = none ∧ c ≠ ch '.' ∧ c ≠ ch 'e' ∧ c ≠ ch 'E'

theorem NumberEnds.noDigit {s : PyStr} (h : NumberEnds s) : NoDigit s :=
  fun c hc => (h c hc).1

/-- Digits are neither signs nor letters. -/
theorem digitChar_ne (d : Digit) {c : PyChar} (hc : c.val < 0x30 ∨ 0x3A ≤ c.val) :
    digitChar d ≠ c := by
  intro h
  have hval : (digitChar d).val = c.val := congrArg Fin.val h
  simp only [digitChar] at hval
  omega

theorem scanSign_text (sign : Option Bool) {ds : List Digit} (hds : ds ≠ []) (rest : PyStr) :
    scanSign (signText sign ++ (digitsText ds ++ rest)) = (sign, digitsText ds ++ rest) := by
  cases sign with
  | some b => cases b <;> rfl
  | none =>
      cases ds with
      | nil => exact absurd rfl hds
      | cons d ds =>
          simp only [signText, List.nil_append, digitsText, List.map_cons, List.cons_append,
            scanSign]
          rw [if_neg (digitChar_ne d (by decide)), if_neg (digitChar_ne d (by decide))]

theorem scanExp_text (exp : Option Exponent) {rest : PyStr} (h : NumberEnds rest) :
    scanExp (expText exp ++ rest) = (exp, rest) := by
  cases exp with
  | none =>
      cases rest with
      | nil => rfl
      | cons c rest =>
          have hc := h c rfl
          simp [expText, scanExp, hc.2.2]
  | some e =>
      obtain ⟨upper, sign, ds, hds⟩ := e
      have hsign := scanSign_text sign hds rest
      have hdigits := scanDigits_text ds h.noDigit
      simp only [expText, List.cons_append, List.append_assoc, scanExp, hsign, hdigits]
      rw [dif_pos ⟨by cases upper <;> simp, hds⟩]
      cases upper <;> rfl

theorem noDigit_expText (exp : Option Exponent) {rest : PyStr} (h : NumberEnds rest) :
    NoDigit (expText exp ++ rest) := by
  cases exp with
  | none => exact h.noDigit
  | some e =>
      obtain ⟨upper, sign, ds, hds⟩ := e
      rintro c ⟨⟩
      cases upper <;> rfl

theorem scanFrac_text (frac : List Digit) (exp : Option Exponent) {rest : PyStr}
    (h : NumberEnds rest) :
    scanFrac (fracText frac ++ (expText exp ++ rest)) = (frac, expText exp ++ rest) := by
  have hnodigit := noDigit_expText exp h
  by_cases hfrac : frac = []
  · subst hfrac
    rw [fracText, if_pos rfl, List.nil_append]
    cases hrest : expText exp ++ rest with
    | nil => rfl
    | cons c tail =>
        have hc : c ≠ ch '.' := by
          cases exp with
          | none => exact (h c (by rw [expText, List.nil_append] at hrest; simp [hrest])).2.1
          | some e =>
              obtain ⟨upper, sign, ds, hds⟩ := e
              cases hrest
              cases upper with
              | true => exact show ch 'E' ≠ ch '.' by decide
              | false => exact show ch 'e' ≠ ch '.' by decide
        rw [scanFrac, if_neg fun hand => hc hand.1]
  · rw [fracText, if_neg hfrac, List.cons_append, scanFrac,
      scanDigits_text frac hnodigit, if_pos ⟨rfl, hfrac⟩]

theorem noDigit_fracText (frac : List Digit) (exp : Option Exponent) {rest : PyStr}
    (h : NumberEnds rest) : NoDigit (fracText frac ++ (expText exp ++ rest)) := by
  unfold fracText
  split
  · exact noDigit_expText exp h
  · rintro c ⟨⟩
    rfl

theorem scanInt_text (int : IntPart) {rest : PyStr} (h : NoDigit rest) :
    scanInt (digitsText int.digits ++ rest) = some (int, rest) := by
  obtain ⟨ds, hne, hzero⟩ := int
  cases ds with
  | nil => exact absurd rfl hne
  | cons d ds =>
      simp only [digitsText, List.map_cons, List.cons_append, scanInt, charDigit?_digitChar]
      by_cases hd : d = 0
      · obtain rfl : ds = [] := by simpa [hd] using hzero
        simp [hd]
      · have htail := scanDigits_text ds h
        rw [digitsText] at htail
        simp [hd, htail]

theorem scanUnsigned_text (lit : NumberLit) {rest : PyStr} (h : NumberEnds rest) :
    scanUnsigned lit.neg (lit.unsignedText ++ rest) = some (lit, rest) := by
  rw [scanUnsigned, NumberLit.unsignedText, List.append_assoc, List.append_assoc,
    scanInt_text lit.int (noDigit_fracText lit.frac lit.exp h), Option.map_some]
  simp only [scanFrac_text lit.frac lit.exp h, scanExp_text lit.exp h]

theorem unsignedText_eq_cons (lit : NumberLit) :
    ∃ d tail, lit.unsignedText = digitChar d :: tail := by
  obtain ⟨neg, ⟨ds, hne, hzero⟩, frac, exp⟩ := lit
  cases ds with
  | nil => exact absurd rfl hne
  | cons d ds => exact ⟨d, _, rfl⟩

/-- A number is scanned to itself. -/
theorem scanNumber_text (lit : NumberLit) {rest : PyStr} (h : NumberEnds rest) :
    scanNumber (lit.text ++ rest) = some (lit, rest) := by
  have hbody := scanUnsigned_text lit h
  cases hneg : lit.neg with
  | true =>
      rw [hneg] at hbody
      rw [NumberLit.text, hneg, if_pos rfl, List.cons_append, scanNumber, if_pos rfl, hbody]
  | false =>
      obtain ⟨d, tail, htext⟩ := unsignedText_eq_cons lit
      rw [hneg, htext] at hbody
      rw [NumberLit.text, hneg, if_neg Bool.false_ne_true, htext, List.cons_append, scanNumber,
        if_neg (digitChar_ne d (by decide))]
      exact hbody

theorem scanSign_sound (s : PyStr) : s = signText (scanSign s).1 ++ (scanSign s).2 := by
  cases s with
  | nil => rfl
  | cons c s =>
      rw [scanSign]
      split
      · next hc => rw [hc]; rfl
      · split
        · next hc => rw [hc]; rfl
        · rfl

theorem scanExp_sound (s : PyStr) : s = expText (scanExp s).1 ++ (scanExp s).2 := by
  cases s with
  | nil => rfl
  | cons c s =>
      rw [scanExp]
      split
      · next h =>
        have hc : ch (if decide (c = ch 'E') then 'E' else 'e') = c := by
          rcases h.1 with rfl | rfl <;> decide
        have hsign := scanSign_sound s
        have hdigits := scanDigits_sound (scanSign s).2
        simp only [expText, hc, List.cons_append, List.append_assoc]
        rw [← hdigits, ← hsign]
      · rfl

theorem scanFrac_sound (s : PyStr) : s = fracText (scanFrac s).1 ++ (scanFrac s).2 := by
  cases s with
  | nil => rfl
  | cons c s =>
      rw [scanFrac]
      split
      · next h =>
        rw [fracText, if_neg h.2, List.cons_append, ← scanDigits_sound, h.1]
      · rfl

theorem scanInt_sound {s rest : PyStr} {int : IntPart} (h : scanInt s = some (int, rest)) :
    s = digitsText int.digits ++ rest := by
  cases s with
  | nil => cases h
  | cons c s =>
      rw [scanInt] at h
      cases hc : charDigit? c with
      | none =>
          rw [hc] at h
          cases h
      | some d =>
          rw [hc] at h
          dsimp only at h
          split at h
          · next hd =>
            cases h
            rw [charDigit?_eq_some hc, hd]
            rfl
          · cases h
            rw [charDigit?_eq_some hc]
            exact congrArg _ (scanDigits_sound s)

theorem scanUnsigned_sound {neg : Bool} {s rest : PyStr} {lit : NumberLit}
    (h : scanUnsigned neg s = some (lit, rest)) :
    lit.neg = neg ∧ s = lit.unsignedText ++ rest := by
  obtain ⟨⟨int, s'⟩, hint, hlit⟩ := Option.map_eq_some_iff.mp h
  cases hlit
  refine ⟨rfl, ?_⟩
  rw [scanInt_sound hint, NumberLit.unsignedText, List.append_assoc, List.append_assoc,
    ← scanExp_sound, ← scanFrac_sound]

/-- What is scanned as a number is its text. -/
theorem scanNumber_sound {s rest : PyStr} {lit : NumberLit}
    (h : scanNumber s = some (lit, rest)) : s = lit.text ++ rest := by
  cases s with
  | nil => cases h
  | cons c s =>
      rw [scanNumber] at h
      split at h
      · next hc =>
        obtain ⟨hneg, hs⟩ := scanUnsigned_sound h
        rw [NumberLit.text, hneg, if_pos rfl, hs, hc, List.cons_append]
      · obtain ⟨hneg, hs⟩ := scanUnsigned_sound h
        rw [NumberLit.text, hneg, if_neg Bool.false_ne_true, hs]

/-! ## Strings -/

/-- A `JSONDecodeError`, without the position that its text names. -/
def jsonError (msg : String) : PyErr := ⟨.jsonDecodeError, py msg⟩

/-- The value of a hexadecimal digit in either case. -/
def hexValue? (c : PyChar) : Option Nat :=
  if 0x30 ≤ c.val ∧ c.val < 0x3A then some (c.val - 0x30)
  else if 0x41 ≤ c.val ∧ c.val < 0x47 then some (c.val - 0x37)
  else if 0x61 ≤ c.val ∧ c.val < 0x67 then some (c.val - 0x57)
  else none

/-- A hexadecimal digit as it is spelled. -/
structure HexDigit where
  char : PyChar
  value : Nat
  spells : hexValue? char = some value

def charHex? (c : PyChar) : Option HexDigit :=
  match h : hexValue? c with
  | some v => some ⟨c, v, h⟩
  | none => none

/-- The escapes with one letter. -/
inductive SimpleEscape where
  | quote | backslash | slash | backspace | formfeed | newline | carriageReturn | tab
  deriving DecidableEq

def SimpleEscape.letter : SimpleEscape → PyChar
  | .quote => ch '"'
  | .backslash => ch '\\'
  | .slash => ch '/'
  | .backspace => ch 'b'
  | .formfeed => ch 'f'
  | .newline => ch 'n'
  | .carriageReturn => ch 'r'
  | .tab => ch 't'

def SimpleEscape.value : SimpleEscape → PyChar
  | .quote => ch '"'
  | .backslash => ch '\\'
  | .slash => ch '/'
  | .backspace => ch '\x08'
  | .formfeed => ch '\x0c'
  | .newline => ch '\n'
  | .carriageReturn => ch '\r'
  | .tab => ch '\t'

def simpleEscapes : List SimpleEscape :=
  [.quote, .backslash, .slash, .backspace, .formfeed, .newline, .carriageReturn, .tab]

def letterEscape? (c : PyChar) : Option SimpleEscape :=
  simpleEscapes.find? fun e => e.letter = c

/-- A character that stands for itself: no control character, quote or
backslash. -/
def isPlain (c : PyChar) : Bool := decide (0x20 ≤ c.val ∧ c ≠ ch '"' ∧ c ≠ ch '\\')

/-- One character or escape of a string as it is spelled. -/
inductive StrUnit where
  | plain (c : PyChar) (h : isPlain c = true)
  | simple (e : SimpleEscape)
  | unicode (a b c d : HexDigit)

def StrUnit.text : StrUnit → PyStr
  | .plain c _ => [c]
  | .simple e => [ch '\\', e.letter]
  | .unicode a b c d => [ch '\\', ch 'u', a.char, b.char, c.char, d.char]

def unitsText (units : List StrUnit) : PyStr := units.flatMap StrUnit.text

/-- `\uXXXX`, behind the letter. -/
def scanUnicode (a b c d : PyChar) : Option StrUnit := do
  return .unicode (← charHex? a) (← charHex? b) (← charHex? c) (← charHex? d)

/-- A character in front of a scanned string. -/
def consUnit (u : StrUnit) (r : Except PyErr (List StrUnit × PyStr)) :
    Except PyErr (List StrUnit × PyStr) :=
  r.map fun p => (u :: p.1, p.2)

/-- `scanstring`, behind the opening quote. -/
def scanString : PyStr → Except PyErr (List StrUnit × PyStr)
  | [] => .error (jsonError "Unterminated string starting at")
  | c :: s =>
      if c = ch '"' then .ok ([], s)
      else if c = ch '\\' then
        match s with
        | [] => .error (jsonError "Unterminated string starting at")
        | e :: s =>
            if e = ch 'u' then
              match s with
              | a :: b :: c :: d :: s =>
                  match scanUnicode a b c d with
                  | some u => consUnit u (scanString s)
                  | none => .error (jsonError "Invalid \\uXXXX escape")
              | _ => .error (jsonError "Invalid \\uXXXX escape")
            else
              match letterEscape? e with
              | some x => consUnit (.simple x) (scanString s)
              | none => .error (jsonError "Invalid \\escape")
      else if h : isPlain c = true then consUnit (.plain c h) (scanString s)
      else .error (jsonError "Invalid control character at")

theorem charHex?_char (x : HexDigit) : charHex? x.char = some x := by
  obtain ⟨c, v, h⟩ := x
  unfold charHex?
  split
  · next v' h' =>
    obtain rfl : v' = v := Option.some.inj (h'.symm.trans h)
    rfl
  · next h' => exact absurd (h'.symm.trans h) (by simp)

theorem charHex?_eq_some {c : PyChar} {x : HexDigit} (h : charHex? c = some x) :
    x.char = c := by
  unfold charHex? at h
  split at h
  · cases h
    rfl
  · cases h

theorem letterEscape?_letter (e : SimpleEscape) : letterEscape? e.letter = some e := by
  cases e <;> decide

theorem letterEscape?_eq_some {c : PyChar} {e : SimpleEscape}
    (h : letterEscape? c = some e) : e.letter = c := by
  simpa using List.find?_some h

theorem scanUnicode_eq_some {a b c d : PyChar} {u : StrUnit}
    (h : scanUnicode a b c d = some u) : u.text = [ch '\\', ch 'u', a, b, c, d] := by
  simp only [scanUnicode, bind, Option.bind_eq_some_iff, pure, Option.some.injEq] at h
  obtain ⟨a', ha, b', hb, c', hc, d', hd, rfl⟩ := h
  rw [StrUnit.text, charHex?_eq_some ha, charHex?_eq_some hb, charHex?_eq_some hc,
    charHex?_eq_some hd]

theorem isPlain_iff {c : PyChar} :
    isPlain c = true ↔ 0x20 ≤ c.val ∧ c ≠ ch '"' ∧ c ≠ ch '\\' := decide_eq_true_iff

theorem scanString_quote (s : PyStr) : scanString (ch '"' :: s) = .ok ([], s) := by
  rw [scanString.eq_def]
  rfl

/-- One unit in front of a string is scanned, and then the rest. -/
theorem scanString_unit (u : StrUnit) (s : PyStr) :
    scanString (u.text ++ s) = consUnit u (scanString s) := by
  cases u with
  | plain c h =>
      have hc := isPlain_iff.mp h
      rw [StrUnit.text, List.singleton_append, scanString.eq_def]
      simp only [if_neg hc.2.1, if_neg hc.2.2, dif_pos h]
  | simple e =>
      have hu : e.letter ≠ ch 'u' := by cases e <;> decide
      have hb : ch '\\' ≠ ch '"' := by decide
      simp only [StrUnit.text, List.cons_append, List.nil_append]
      rw [scanString.eq_def]
      simp only [if_neg hb, if_true, if_neg hu, letterEscape?_letter]
  | unicode a b c d =>
      have hscan : scanUnicode a.char b.char c.char d.char = some (.unicode a b c d) := by
        simp [scanUnicode, charHex?_char]
      have hb : ch '\\' ≠ ch '"' := by decide
      simp only [StrUnit.text, List.cons_append, List.nil_append]
      rw [scanString.eq_def]
      simp only [if_neg hb, if_true, hscan]

/-- A string is scanned to itself, up to its closing quote. -/
theorem scanString_text (units : List StrUnit) (rest : PyStr) :
    scanString (unitsText units ++ ch '"' :: rest) = .ok (units, rest) := by
  induction units with
  | nil => exact scanString_quote rest
  | cons u units ih =>
      rw [unitsText, List.flatMap_cons, List.append_assoc, scanString_unit, ← unitsText, ih]
      rfl

theorem consUnit_eq_ok {u : StrUnit} {r : Except PyErr (List StrUnit × PyStr)}
    {units : List StrUnit} {rest : PyStr} (h : consUnit u r = .ok (units, rest)) :
    ∃ units', r = .ok (units', rest) ∧ units = u :: units' := by
  cases r with
  | error e => cases h
  | ok p =>
      cases h
      exact ⟨p.1, rfl, rfl⟩

/-- What is scanned as a string is its text, with the closing quote. -/
theorem scanString_sound {s rest : PyStr} {units : List StrUnit}
    (h : scanString s = .ok (units, rest)) : s = unitsText units ++ ch '"' :: rest := by
  have hcons : ∀ {u : StrUnit} {s : PyStr} {units : List StrUnit},
      (∀ {units}, scanString s = .ok (units, rest) → s = unitsText units ++ ch '"' :: rest) →
      consUnit u (scanString s) = .ok (units, rest) →
      u.text ++ s = unitsText units ++ ch '"' :: rest := by
    intro u s units ih h
    obtain ⟨units', hs, rfl⟩ := consUnit_eq_ok h
    rw [unitsText, List.flatMap_cons, List.append_assoc, ← unitsText, ← ih hs]
  fun_induction scanString s generalizing units with
  | case2 s =>
      cases h
      rfl
  | case4 a b c d s u hu _ ih =>
      rw [← hcons ih h, scanUnicode_eq_some hu]
      rfl
  | case7 e s _ x hx _ ih =>
      rw [← hcons ih h, StrUnit.text, letterEscape?_eq_some hx]
      rfl
  | case9 c s _ _ hc ih => exact hcons ih h
  | case1 | case3 | case5 | case6 | case8 | case10 => cases h

/-! ## Values -/

/-- The words for values. -/
inductive JsonWord where
  | null | true | false | nan | infinity | negInfinity
  deriving DecidableEq

def JsonWord.text : JsonWord → PyStr
  | .null => py "null"
  | .true => py "true"
  | .false => py "false"
  | .nan => py "NaN"
  | .infinity => py "Infinity"
  | .negInfinity => py "-Infinity"

/-- The words of the standard. -/
def JsonWord.strict : JsonWord → Bool
  | .null | .true | .false => Bool.true
  | .nan | .infinity | .negInfinity => Bool.false

def jsonWords : List JsonWord := [.null, .true, .false, .nan, .infinity, .negInfinity]

/-- A JSON text by its syntax, with every literal as it is spelled. -/
inductive JsonTree where
  | word (w : JsonWord)
  | number (lit : NumberLit)
  | str (units : List StrUnit)
  | arr (items : List JsonTree)
  | obj (members : List (List StrUnit × JsonTree))

/-- White space. -/
def isJsonSpace (c : PyChar) : Bool :=
  c = ch ' ' || c = ch '\t' || c = ch '\n' || c = ch '\r'

def openBrace : PyChar := ch '\x7b'

def closeBrace : PyChar := ch '\x7d'

def arrayBrackets : Brackets PyChar where
  space := isJsonSpace
  separator := ch ','
  close := ch ']'
  space_separator := by decide
  space_close := by decide
  close_ne_separator := by decide

def objectBrackets : Brackets PyChar where
  space := isJsonSpace
  separator := ch ','
  close := closeBrace
  space_separator := by decide
  space_close := by decide
  close_ne_separator := by decide

/-- The text behind leading white space. -/
def skipSpace (s : PyStr) : PyStr := s.dropWhile isJsonSpace

/-- White space only. -/
def IsSpace (w : PyStr) : Prop := ∀ c ∈ w, isJsonSpace c = true

def scanWord (s : PyStr) : Option (JsonWord × PyStr) :=
  jsonWords.findSome? fun w =>
    if s.take w.text.length = w.text then some (w, s.drop w.text.length) else none

/-- A string, number or word. -/
def scanScalar : PyStr → Except PyErr (JsonTree × PyStr)
  | [] => .error (jsonError "Expecting value")
  | c :: s =>
      if c = ch '"' then (scanString s).map fun r => (.str r.1, r.2)
      else match scanNumber (c :: s) with
        | some r => .ok (.number r.1, r.2)
        | none =>
            match scanWord (c :: s) with
            | some r => .ok (.word r.1, r.2)
            | none => .error (jsonError "Expecting value")

/-- What follows a key: a colon and a value. -/
def scanColon (value : PyStr → Except PyErr (JsonTree × PyStr)) (s : PyStr) :
    Except PyErr (JsonTree × PyStr) :=
  match skipSpace s with
  | [] => .error (jsonError "Expecting ':' delimiter")
  | c :: s =>
      if c = ch ':' then value (skipSpace s) else .error (jsonError "Expecting ':' delimiter")

/-- A member of an object. -/
def scanMember (value : PyStr → Except PyErr (JsonTree × PyStr)) :
    PyStr → Except PyErr ((List StrUnit × JsonTree) × PyStr)
  | [] => .error (jsonError "Expecting property name enclosed in double quotes")
  | c :: s =>
      if c = ch '"' then do
        let (key, s) ← scanString s
        let (t, s) ← scanColon value s
        return ((key, t), s)
      else .error (jsonError "Expecting property name enclosed in double quotes")

/-- The `RecursionError` of a text nested too deep. -/
def jsonRecursionError : PyErr :=
  ⟨.recursionError, py "maximum recursion depth exceeded while decoding a JSON document"⟩

/-- `scan_once`, following at most `depth` levels of containers. -/
def scanOnce : Nat → PyStr → Except PyErr (JsonTree × PyStr)
  | _, [] => .error (jsonError "Expecting value")
  | 0, c :: s =>
      if c = ch '[' ∨ c = openBrace then .error jsonRecursionError else scanScalar (c :: s)
  | depth + 1, c :: s =>
      if c = ch '[' then
        (arrayBrackets.scanEnclosed (jsonError "Expecting ',' delimiter")
          (scanOnce depth) s).map fun r => (.arr r.1, r.2)
      else if c = openBrace then
        (objectBrackets.scanEnclosed (jsonError "Expecting ',' delimiter")
          (scanMember (scanOnce depth)) s).map fun r => (.obj r.1, r.2)
      else scanScalar (c :: s)

/-- `JSONDecoder.decode`, up to the syntax tree. -/
def readText (depth : Nat) (s : PyStr) : Except PyErr JsonTree := do
  let (t, s) ← scanOnce depth (skipSpace s)
  if skipSpace s = [] then return t else .error (jsonError "Extra data")

/-! ## The grammar -/

/-- The texts of values without parts. -/
inductive SpellsScalar : JsonTree → PyStr → Prop
  | word (w : JsonWord) : SpellsScalar (.word w) w.text
  | number (lit : NumberLit) : SpellsScalar (.number lit) lit.text
  | str (units : List StrUnit) :
      SpellsScalar (.str units) (ch '"' :: (unitsText units ++ [ch '"']))

/-- The texts of a member, from the texts of its value. -/
inductive SpellsMember (R : JsonTree → PyStr → Prop) : List StrUnit × JsonTree → PyStr → Prop
  | mk {t : JsonTree} {w w' text : PyStr} (key : List StrUnit) (hw : IsSpace w)
      (hw' : IsSpace w') (ht : R t text) :
      SpellsMember R (key, t)
        (ch '"' :: (unitsText key ++ ch '"' :: (w ++ ch ':' :: (w' ++ text))))

/-- The texts of a value, from the texts of its parts. -/
inductive SpellsValue (R : JsonTree → PyStr → Prop) : JsonTree → PyStr → Prop
  | scalar {t : JsonTree} {text : PyStr} (h : SpellsScalar t text) : SpellsValue R t text
  | arr {items : List JsonTree} {body : PyStr} (h : arrayBrackets.Enclosed R items body) :
      SpellsValue R (.arr items) (ch '[' :: body)
  | obj {members : List (List StrUnit × JsonTree)} {body : PyStr}
      (h : objectBrackets.Enclosed (SpellsMember R) members body) :
      SpellsValue R (.obj members) (openBrace :: body)

/-- The texts of a value with at most `depth` levels of containers. -/
def Spells : Nat → JsonTree → PyStr → Prop
  | 0 => SpellsScalar
  | depth + 1 => SpellsValue (Spells depth)

/-- The texts of a document: a value and white space around it. -/
inductive SpellsText (depth : Nat) (t : JsonTree) : PyStr → Prop
  | mk {w w' text : PyStr} (hw : IsSpace w) (hw' : IsSpace w') (ht : Spells depth t text) :
      SpellsText depth t (w ++ (text ++ w'))

/-- The text does not go on with a character that a value could continue with. -/
def ValueEnds (s : PyStr) : Prop :=
  ∀ c ∈ s.head?, isJsonSpace c = true ∨ c = ch ',' ∨ c = ch ']' ∨ c = closeBrace

theorem isJsonSpace_iff {c : PyChar} : isJsonSpace c = true ↔
    c = ch ' ' ∨ c = ch '\t' ∨ c = ch '\n' ∨ c = ch '\r' := by
  simp [isJsonSpace, or_assoc]

theorem ValueEnds.numberEnds {s : PyStr} (h : ValueEnds s) : NumberEnds s := by
  intro c hc
  have hcases := h c hc
  rw [isJsonSpace_iff] at hcases
  rcases hcases with (rfl | rfl | rfl | rfl) | rfl | rfl | rfl <;> decide

theorem valueEnds_of_follows {B : Brackets PyChar} (hspace : B.space = isJsonSpace)
    (hsep : B.separator = ch ',') (hclose : B.close = ch ']' ∨ B.close = closeBrace)
    {rest : PyStr} (h : B.Follows rest) : ValueEnds rest := by
  obtain ⟨c, tail, rfl, hc⟩ := h
  rintro _ ⟨⟩
  rw [hspace, hsep] at hc
  rcases hc with hc | hc | hc
  · exact Or.inl hc
  · exact Or.inr (Or.inl hc)
  · exact Or.inr (Or.inr (hclose.imp hc.trans hc.trans))

theorem scanWord_text (w : JsonWord) (rest : PyStr) :
    scanWord (w.text ++ rest) = some (w, rest) := by
  cases w <;> rfl

theorem scanWord_sound {s rest : PyStr} {w : JsonWord} (h : scanWord s = some (w, rest)) :
    s = w.text ++ rest := by
  obtain ⟨w', _, hw⟩ := List.exists_of_findSome?_eq_some h
  split at hw
  · next htake =>
    cases hw
    calc s = s.take w.text.length ++ s.drop w.text.length :=
          (List.take_append_drop _ _).symm
      _ = w.text ++ s.drop w.text.length := by rw [htake]
  · cases hw

/-- The characters that a value without parts can start with. -/
def StartsScalar (c : PyChar) : Prop :=
  isJsonSpace c = false ∧ c ≠ ch ']' ∧ c ≠ closeBrace ∧ c ≠ ch '[' ∧ c ≠ openBrace

instance (c : PyChar) : Decidable (StartsScalar c) := inferInstanceAs (Decidable (_ ∧ _))

theorem startsScalar_digitChar : ∀ d : Digit, StartsScalar (digitChar d) := by decide

theorem numberText_eq_cons (lit : NumberLit) :
    ∃ c tail, lit.text = c :: tail ∧ c ≠ ch '"' ∧ StartsScalar c := by
  obtain ⟨d, tail, htext⟩ := unsignedText_eq_cons lit
  unfold NumberLit.text
  split
  · exact ⟨ch '-', _, rfl, by decide, by decide⟩
  · exact ⟨digitChar d, tail, htext, digitChar_ne d (by decide), startsScalar_digitChar d⟩

theorem wordText_eq_cons (w : JsonWord) :
    ∃ c tail, w.text = c :: tail ∧ c ≠ ch '"' ∧ StartsScalar c := by
  cases w <;> exact ⟨_, _, rfl, by decide, by decide⟩

theorem SpellsScalar.starts {t : JsonTree} {text : PyStr} (h : SpellsScalar t text) :
    ∃ c tail, text = c :: tail ∧ StartsScalar c := by
  cases h with
  | word w =>
      obtain ⟨c, tail, htext, -, hc⟩ := wordText_eq_cons w
      exact ⟨c, tail, htext, hc⟩
  | number lit =>
      obtain ⟨c, tail, htext, -, hc⟩ := numberText_eq_cons lit
      exact ⟨c, tail, htext, hc⟩
  | str units => exact ⟨ch '"', _, rfl, by decide⟩

/-- No word starts like a number. -/
theorem scanNumber_word (w : JsonWord) (rest : PyStr) :
    scanNumber (w.text ++ rest) = none := by
  cases w <;> rfl

/-- A value without parts is scanned to itself. -/
theorem scanScalar_text {t : JsonTree} {text rest : PyStr} (h : SpellsScalar t text)
    (hrest : ValueEnds rest) : scanScalar (text ++ rest) = .ok (t, rest) := by
  cases h with
  | word w =>
      have hnumber := scanNumber_word w rest
      have hword := scanWord_text w rest
      obtain ⟨c, tail, htext, hc, -⟩ := wordText_eq_cons w
      rw [htext, List.cons_append] at hnumber hword ⊢
      rw [scanScalar, if_neg hc, hnumber]
      simp only [hword]
  | number lit =>
      have hnumber := scanNumber_text lit hrest.numberEnds
      obtain ⟨c, tail, htext, hc, -⟩ := numberText_eq_cons lit
      rw [htext, List.cons_append] at hnumber ⊢
      rw [scanScalar, if_neg hc, hnumber]
  | str units =>
      rw [List.cons_append, List.append_assoc, List.singleton_append, scanScalar, if_pos rfl,
        scanString_text]
      rfl

/-- What is scanned as a value without parts is its text. -/
theorem scanScalar_sound {s rest : PyStr} {t : JsonTree} (h : scanScalar s = .ok (t, rest)) :
    ∃ text, s = text ++ rest ∧ SpellsScalar t text := by
  cases s with
  | nil => cases h
  | cons c s =>
      rw [scanScalar] at h
      split at h
      · next hc =>
        obtain ⟨r, hstr, hr⟩ := map_eq_ok_iff.mp h
        cases hr
        refine ⟨_, ?_, .str r.1⟩
        rw [hc, List.cons_append, List.append_assoc, List.singleton_append,
          ← scanString_sound hstr]
      · split at h
        · next r hr =>
          cases h
          exact ⟨_, scanNumber_sound hr, .number r.1⟩
        · split at h
          · next r hr =>
            cases h
            exact ⟨_, scanWord_sound hr, .word r.1⟩
          · cases h

theorem Spells.starts {depth : Nat} {t : JsonTree} {text : PyStr} (h : Spells depth t text) :
    ∃ c tail, text = c :: tail ∧ isJsonSpace c = false ∧ c ≠ ch ']' ∧ c ≠ closeBrace := by
  have hscalar : SpellsScalar t text →
      ∃ c tail, text = c :: tail ∧ isJsonSpace c = false ∧ c ≠ ch ']' ∧ c ≠ closeBrace := by
    intro h
    obtain ⟨c, tail, htext, hspace, hbracket, hbrace, -⟩ := h.starts
    exact ⟨c, tail, htext, hspace, hbracket, hbrace⟩
  cases depth with
  | zero => exact hscalar h
  | succ depth =>
      cases h with
      | scalar h => exact hscalar h
      | arr _ => exact ⟨_, _, rfl, by decide⟩
      | obj _ => exact ⟨_, _, rfl, by decide⟩

theorem arrayStarts {depth : Nat} (t : JsonTree) (text : PyStr) (h : Spells depth t text) :
    arrayBrackets.Starts text := by
  obtain ⟨c, tail, htext, hspace, hclose, -⟩ := h.starts
  exact ⟨c, tail, htext, hspace, hclose⟩

theorem memberStarts {R : JsonTree → PyStr → Prop} (m : List StrUnit × JsonTree)
    (text : PyStr) (h : SpellsMember R m text) : objectBrackets.Starts text := by
  cases h
  exact ⟨_, _, rfl, by decide⟩

theorem skipSpace_append {w : PyStr} (hw : IsSpace w) (s : PyStr) :
    skipSpace (w ++ s) = skipSpace s := arrayBrackets.skip_append hw s

theorem skipSpace_cons {c : PyChar} (hc : isJsonSpace c = false) (s : PyStr) :
    skipSpace (c :: s) = c :: s := arrayBrackets.skip_cons hc s

theorem scanMember_text {R : JsonTree → PyStr → Prop}
    {value : PyStr → Except PyErr (JsonTree × PyStr)}
    (hvalue : ∀ t text rest, R t text → ValueEnds rest → value (text ++ rest) = .ok (t, rest))
    (hstart : ∀ t text, R t text → arrayBrackets.Starts text)
    (m : List StrUnit × JsonTree) (text rest : PyStr) (h : SpellsMember R m text)
    (hrest : objectBrackets.Follows rest) : scanMember value (text ++ rest) = .ok (m, rest) := by
  obtain @⟨t, w, w', text, key, hw, hw', ht⟩ := h
  have hends := valueEnds_of_follows (B := objectBrackets) rfl rfl (Or.inr rfl) hrest
  have hskip : skipSpace (text ++ rest) = text ++ rest := (hstart t text ht).skip rest
  have hcolon : scanColon value (w ++ ch ':' :: (w' ++ (text ++ rest))) = .ok (t, rest) := by
    rw [scanColon, skipSpace_append hw, skipSpace_cons (by decide)]
    simp only [if_true, skipSpace_append hw', hskip, hvalue t text rest ht hends]
  have htext : ch '"' :: (unitsText key ++ ch '"' :: (w ++ ch ':' :: (w' ++ text))) ++ rest =
      ch '"' :: (unitsText key ++ ch '"' :: (w ++ ch ':' :: (w' ++ (text ++ rest)))) := by
    simp
  rw [htext, scanMember, if_pos rfl, scanString_text]
  simp only [bind, Except.bind, hcolon]
  rfl

theorem scanColon_sound {R : JsonTree → PyStr → Prop}
    {value : PyStr → Except PyErr (JsonTree × PyStr)}
    (hvalue : ∀ s t rest, value s = .ok (t, rest) → ∃ text, s = text ++ rest ∧ R t text)
    {s rest : PyStr} {t : JsonTree} (h : scanColon value s = .ok (t, rest)) :
    ∃ w w' text, IsSpace w ∧ IsSpace w' ∧ s = w ++ ch ':' :: (w' ++ (text ++ rest)) ∧
      R t text := by
  obtain ⟨w, hw, hs⟩ := arrayBrackets.exists_blank_append_skip s
  rw [scanColon] at h
  change s = w ++ skipSpace s at hs
  cases hskip : skipSpace s with
  | nil =>
      rw [hskip] at h
      cases h
  | cons c s' =>
      rw [hskip] at h hs
      dsimp only at h
      split at h
      · next hc =>
        obtain ⟨w', hw', hs'⟩ := arrayBrackets.exists_blank_append_skip s'
        obtain ⟨text, htext, ht⟩ := hvalue _ t rest h
        refine ⟨w, w', text, hw, hw', ?_, ht⟩
        rw [hs, hc, ← htext]
        exact congrArg (fun tail => w ++ ch ':' :: tail) hs'
      · cases h

theorem scanMember_sound {R : JsonTree → PyStr → Prop}
    {value : PyStr → Except PyErr (JsonTree × PyStr)}
    (hvalue : ∀ s t rest, value s = .ok (t, rest) → ∃ text, s = text ++ rest ∧ R t text)
    (s : PyStr) (m : List StrUnit × JsonTree) (rest : PyStr)
    (h : scanMember value s = .ok (m, rest)) :
    ∃ text, s = text ++ rest ∧ SpellsMember R m text := by
  cases s with
  | nil => cases h
  | cons c s =>
      rw [scanMember] at h
      split at h
      · next hc =>
        obtain ⟨⟨key, s'⟩, hkey, h⟩ := bind_eq_ok_iff.mp h
        obtain ⟨⟨t, s''⟩, hcolon, hok⟩ := bind_eq_ok_iff.mp h
        cases hok
        obtain ⟨w, w', text, hw, hw', hs', ht⟩ := scanColon_sound hvalue hcolon
        refine ⟨_, ?_, .mk key hw hw' ht⟩
        rw [hc, scanString_sound hkey, hs']
        simp
      · cases h

/-- A value is scanned to its tree. -/
theorem scanOnce_text {depth : Nat} {t : JsonTree} {text rest : PyStr}
    (h : Spells depth t text) (hrest : ValueEnds rest) :
    scanOnce depth (text ++ rest) = .ok (t, rest) := by
  have hscalar : ∀ {depth : Nat} {t : JsonTree} {text rest : PyStr}, SpellsScalar t text →
      ValueEnds rest → scanOnce depth (text ++ rest) = .ok (t, rest) := by
    intro depth t text rest h hrest
    have hscan := scanScalar_text h hrest
    obtain ⟨c, tail, htext, -, -, -, hbracket, hbrace⟩ := h.starts
    rw [htext, List.cons_append] at hscan ⊢
    cases depth with
    | zero => rw [scanOnce, if_neg (not_or.mpr ⟨hbracket, hbrace⟩), hscan]
    | succ depth => rw [scanOnce, if_neg hbracket, if_neg hbrace, hscan]
  induction depth generalizing t text rest with
  | zero => exact hscalar h hrest
  | succ depth ih =>
      cases h with
      | scalar h => exact hscalar h hrest
      | arr h =>
          rw [List.cons_append, scanOnce, if_pos rfl, arrayBrackets.scanEnclosed_complete
            (fun t text rest ht hfollows =>
              ih ht (valueEnds_of_follows rfl rfl (Or.inl rfl) hfollows)) arrayStarts h rest]
          rfl
      | obj h =>
          rw [List.cons_append, scanOnce, if_neg (by decide), if_pos rfl,
            objectBrackets.scanEnclosed_complete (scanMember_text
              (fun _ _ _ ht hends => ih ht hends) arrayStarts) memberStarts h rest]
          rfl

/-- What is scanned as a value is a text of its tree. -/
theorem scanOnce_sound {depth : Nat} {s rest : PyStr} {t : JsonTree}
    (h : scanOnce depth s = .ok (t, rest)) : ∃ text, s = text ++ rest ∧ Spells depth t text := by
  induction depth generalizing s t rest with
  | zero =>
      cases s with
      | nil => cases h
      | cons c s =>
          rw [scanOnce] at h
          split at h
          · cases h
          · exact scanScalar_sound h
  | succ depth ih =>
      cases s with
      | nil => cases h
      | cons c s =>
          rw [scanOnce] at h
          split at h
          · next hc =>
            obtain ⟨r, hscan, hr⟩ := map_eq_ok_iff.mp h
            cases hr
            obtain ⟨body, hs, hbody⟩ :=
              arrayBrackets.scanEnclosed_sound (fun _ _ _ hitem => ih hitem) hscan
            exact ⟨_, by rw [hc, hs]; rfl, .arr hbody⟩
          · split at h
            · next hc =>
              obtain ⟨r, hscan, hr⟩ := map_eq_ok_iff.mp h
              cases hr
              obtain ⟨body, hs, hbody⟩ := objectBrackets.scanEnclosed_sound
                (scanMember_sound fun _ _ _ hvalue => ih hvalue) hscan
              exact ⟨_, by rw [hc, hs]; rfl, .obj hbody⟩
            · obtain ⟨text, hs, htext⟩ := scanScalar_sound h
              exact ⟨text, hs, .scalar htext⟩

/-- The decoder accepts exactly the grammar, and gives each text its one tree. -/
theorem readText_eq_ok_iff {depth : Nat} {s : PyStr} {t : JsonTree} :
    readText depth s = .ok t ↔ SpellsText depth t s := by
  constructor
  · intro h
    obtain ⟨w, hw, hs⟩ := arrayBrackets.exists_blank_append_skip s
    change s = w ++ skipSpace s at hs
    obtain ⟨⟨t', rest⟩, hscan, h⟩ := bind_eq_ok_iff.mp h
    obtain ⟨w', hw', hrest⟩ := arrayBrackets.exists_blank_append_skip rest
    change rest = w' ++ skipSpace rest at hrest
    dsimp only at h
    split at h
    · next hend =>
      cases h
      obtain ⟨text, htext, ht⟩ := scanOnce_sound hscan
      rw [hend, List.append_nil] at hrest
      rw [hs, htext, hrest]
      exact .mk hw hw' ht
    · cases h
  · rintro ⟨hw, hw', ht⟩
    next w w' text =>
    have hends : ValueEnds w' := by
      intro c hc
      exact Or.inl (hw' c (List.mem_of_mem_head? hc))
    have hskip : skipSpace (text ++ w') = text ++ w' := (arrayStarts t text ht).skip w'
    have hend : skipSpace w' = [] := by
      have h := skipSpace_append hw' []
      rwa [List.append_nil] at h
    rw [readText, skipSpace_append hw, hskip, scanOnce_text ht hends]
    simp only [bind, Except.bind, hend, if_true]
    rfl

theorem Spells.scalar {depth : Nat} {t : JsonTree} {text : PyStr} (h : SpellsScalar t text) :
    Spells depth t text := by
  cases depth with
  | zero => exact h
  | succ depth => exact SpellsValue.scalar h

/-- A value is a document. -/
theorem Spells.document {depth : Nat} {t : JsonTree} {text : PyStr} (h : Spells depth t text) :
    SpellsText depth t text := by
  have hnil : IsSpace [] := fun _ hc => absurd hc List.not_mem_nil
  have hmk := SpellsText.mk hnil hnil h
  rwa [List.nil_append, List.append_nil] at hmk

/-- A text within one limit is within any larger one. -/
theorem Spells.mono {depth depth' : Nat} (hle : depth ≤ depth') {t : JsonTree} {text : PyStr}
    (h : Spells depth t text) : Spells depth' t text := by
  induction depth generalizing depth' t text with
  | zero => exact .scalar h
  | succ depth ih =>
      obtain ⟨depth', rfl⟩ : ∃ n, depth' = n + 1 := ⟨depth' - 1, by omega⟩
      have hstep : ∀ t text, Spells depth t text → Spells depth' t text :=
        fun t text ht => ih (by omega) ht
      cases h with
      | scalar h => exact .scalar h
      | arr h => exact .arr (h.mono hstep)
      | obj h =>
          refine .obj (h.mono fun m text hm => ?_)
          cases hm with
          | mk key hw hw' ht => exact .mk key hw hw' (hstep _ _ ht)

/-- A text has one tree, whatever the limits. -/
theorem SpellsText.unique {depth depth' : Nat} {t t' : JsonTree} {s : PyStr}
    (h : SpellsText depth t s) (h' : SpellsText depth' t' s) : t = t' := by
  have hraise : ∀ {d t}, d ≤ max depth depth' → SpellsText d t s →
      readText (max depth depth') s = .ok t := by
    intro d t hle h
    rw [readText_eq_ok_iff]
    cases h with
    | mk hw hw' ht => exact .mk hw hw' (ht.mono hle)
  have hread := (hraise (Nat.le_max_left _ _) h).symm.trans (hraise (Nat.le_max_right _ _) h')
  exact Except.ok.inj hread

/-! ## The characters of a text -/

/-- ASCII characters, and no NUL. -/
def AsciiText (s : PyStr) : Prop := ∀ c ∈ s, 0 < c.val ∧ c.val < 0x80

theorem AsciiText.append {s s' : PyStr} (h : AsciiText s) (h' : AsciiText s') :
    AsciiText (s ++ s') := List.forall_mem_append.mpr ⟨h, h'⟩

theorem AsciiText.cons {c : PyChar} {s : PyStr} (hc : 0 < c.val ∧ c.val < 0x80)
    (h : AsciiText s) : AsciiText (c :: s) := List.forall_mem_cons.mpr ⟨hc, h⟩

theorem asciiText_nil : AsciiText [] := fun _ hc => absurd hc List.not_mem_nil

theorem asciiText_digits (ds : List Digit) : AsciiText (digitsText ds) := by
  intro c hc
  obtain ⟨d, -, rfl⟩ := List.mem_map.mp hc
  simp only [digitChar]
  omega

theorem asciiText_number (lit : NumberLit) : AsciiText lit.text := by
  have hfrac : AsciiText (fracText lit.frac) := by
    unfold fracText
    split
    · exact asciiText_nil
    · exact .cons (by decide) (asciiText_digits _)
  have hexp : AsciiText (expText lit.exp) := by
    cases lit.exp with
    | none => exact asciiText_nil
    | some e =>
        have hsign : AsciiText (signText e.sign) := by
          rcases e.sign with _ | _ | _
          · exact asciiText_nil
          · exact .cons (by decide) asciiText_nil
          · exact .cons (by decide) asciiText_nil
        refine .cons ?_ (hsign.append (asciiText_digits _))
        cases e.upper <;> decide
  have hunsigned : AsciiText lit.unsignedText :=
    (asciiText_digits _).append (hfrac.append hexp)
  unfold NumberLit.text
  split
  · exact .cons (by decide) hunsigned
  · exact hunsigned

theorem asciiText_word (w : JsonWord) : AsciiText w.text := by
  have hall : w.text.all (fun c => decide (0 < c.val ∧ c.val < 0x80)) = true := by
    cases w <;> rfl
  exact fun c hc => of_decide_eq_true (List.all_eq_true.mp hall c hc)

theorem isJsonSpace_ascii {c : PyChar} (h : isJsonSpace c = true) : 0 < c.val ∧ c.val < 0x80 := by
  rw [isJsonSpace_iff] at h
  rcases h with rfl | rfl | rfl | rfl <;> decide

theorem StrUnit.pos (u : StrUnit) : ∀ c ∈ u.text, 0 < c.val := by
  have hhex : ∀ x : HexDigit, 0 < x.char.val := by
    intro x
    by_contra hzero
    have hval := x.spells
    simp only [hexValue?] at hval
    rw [if_neg (by omega), if_neg (by omega), if_neg (by omega)] at hval
    cases hval
  cases u with
  | plain c h =>
      intro c' hc'
      rw [List.mem_singleton.mp hc']
      exact Nat.lt_of_lt_of_le (by decide) (isPlain_iff.mp h).1
  | simple e =>
      simp only [StrUnit.text, List.forall_mem_cons]
      exact ⟨by decide, by cases e <;> decide, fun _ hc => absurd hc List.not_mem_nil⟩
  | unicode a b c d =>
      simp only [StrUnit.text, List.forall_mem_cons, hhex, true_and]
      exact ⟨by decide, by decide, fun _ hc => absurd hc List.not_mem_nil⟩

theorem unitsText_pos (units : List StrUnit) : ∀ c ∈ unitsText units, 0 < c.val := by
  intro c hc
  obtain ⟨u, -, hc⟩ := List.mem_flatMap.mp hc
  exact u.pos c hc

theorem SpellsScalar.pos {t : JsonTree} {text : PyStr} (h : SpellsScalar t text) :
    ∀ c ∈ text, 0 < c.val := by
  cases h with
  | word w => exact fun c hc => (asciiText_word w c hc).1
  | number lit => exact fun c hc => (asciiText_number lit c hc).1
  | str units =>
      simp only [List.forall_mem_cons, List.forall_mem_append]
      exact ⟨by decide, unitsText_pos units, by decide, fun _ hc => absurd hc List.not_mem_nil⟩

/-- No value has a NUL in its text. -/
theorem Spells.pos {depth : Nat} {t : JsonTree} {text : PyStr} (h : Spells depth t text) :
    ∀ c ∈ text, 0 < c.val := by
  have hspace : ∀ c, isJsonSpace c = true → 0 < c.val := fun c hc => (isJsonSpace_ascii hc).1
  induction depth generalizing t text with
  | zero => exact SpellsScalar.pos h
  | succ depth ih =>
      cases h with
      | scalar h => exact h.pos
      | arr h =>
          rw [List.forall_mem_cons]
          exact ⟨by decide, h.forall_mem hspace (by decide) (by decide) fun _ _ ht => ih ht⟩
      | obj h =>
          rw [List.forall_mem_cons]
          refine ⟨by decide, h.forall_mem hspace (by decide) (by decide) fun m text hm => ?_⟩
          cases hm with
          | mk key hw hw' ht =>
              simp only [List.forall_mem_cons, List.forall_mem_append]
              exact ⟨by decide, unitsText_pos key, by decide, fun c hc => hspace c (hw c hc),
                by decide, fun c hc => hspace c (hw' c hc), ih ht⟩

theorem SpellsText.pos {depth : Nat} {t : JsonTree} {s : PyStr} (h : SpellsText depth t s) :
    ∀ c ∈ s, 0 < c.val := by
  cases h with
  | mk hw hw' ht =>
      simp only [List.forall_mem_append]
      exact ⟨fun c hc => (isJsonSpace_ascii (hw c hc)).1, ht.pos,
        fun c hc => (isJsonSpace_ascii (hw' c hc)).1⟩

theorem SpellsScalar.head_ascii {t : JsonTree} {text : PyStr} (h : SpellsScalar t text) :
    ∃ c tail, text = c :: tail ∧ c.val < 0x80 := by
  cases h with
  | word w =>
      obtain ⟨c, tail, htext, -⟩ := wordText_eq_cons w
      exact ⟨c, tail, htext, (asciiText_word w c (by simp [htext])).2⟩
  | number lit =>
      obtain ⟨c, tail, htext, -⟩ := numberText_eq_cons lit
      exact ⟨c, tail, htext, (asciiText_number lit c (by simp [htext])).2⟩
  | str units => exact ⟨_, _, rfl, by decide⟩

/-- A document starts in ASCII. -/
theorem SpellsText.head_ascii {depth : Nat} {t : JsonTree} {s : PyStr}
    (h : SpellsText depth t s) : ∃ c tail, s = c :: tail ∧ c.val < 0x80 := by
  cases h with
  | @mk w w' text hw hw' ht =>
      cases w with
      | cons c w => exact ⟨c, _, rfl, (isJsonSpace_ascii (hw c List.mem_cons_self)).2⟩
      | nil =>
          have happend : (∃ c tail, text = c :: tail ∧ c.val < 0x80) →
              ∃ c tail, [] ++ (text ++ w') = c :: tail ∧ c.val < 0x80 := by
            rintro ⟨c, tail, rfl, hc⟩
            exact ⟨c, tail ++ w', rfl, hc⟩
          apply happend
          cases depth with
          | zero => exact SpellsScalar.head_ascii ht
          | succ depth =>
              cases ht with
              | scalar h => exact h.head_ascii
              | arr _ => exact ⟨_, _, rfl, by decide⟩
              | obj _ => exact ⟨_, _, rfl, by decide⟩

end Floodgate.Ports
