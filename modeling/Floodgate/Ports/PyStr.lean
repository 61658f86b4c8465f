import Mathlib.Algebra.Group.Nat.Defs
import Mathlib.Data.List.Basic

/-!
# Python strings

A Python `str` is a sequence of code points, lone surrogates included, so it
is a list over `Fin 0x110000` here and not a Lean `String`.  `py` embeds the
literals of the source.

What the source uses of the Unicode database (`str.isprintable`, `str.upper`,
`str.lower`) is a parameter, `UnicodeDb`.  Its one law is the part of
`isprintable` that the log format rests on: in the ASCII range exactly the
code points from space to tilde are printable.
-/

namespace Floodgate.Ports

/-- A Unicode code point, surrogates included. -/
abbrev PyChar := Fin 0x110000

/-- A Python `str`. -/
abbrev PyStr := List PyChar

/-- A Python `bytes`. -/
abbrev Bytes := List UInt8

/-- `s in names`. -/
instance decidableMemNames (s : PyStr) (names : List PyStr) : Decidable (s ∈ names) :=
  inferInstance

def PyChar.ofChar (c : Char) : PyChar :=
  ⟨c.toNat, by
    rcases c.valid with h | h
    · exact Nat.lt_trans h (by decide)
    · exact h.2⟩

/-- A character of the source. -/
abbrev ch (c : Char) : PyChar := PyChar.ofChar c

/-- A string literal of the source. -/
def py (s : String) : PyStr := s.toList.map PyChar.ofChar

theorem PyChar.ofChar_injective : Function.Injective PyChar.ofChar := by
  intro c d h
  have hv : c.toNat = d.toNat := (Fin.ext_iff.mp h :)
  exact Char.toNat_inj.mp hv

/-- Two literals are equal as Python strings exactly when they are equal. -/
@[simp] theorem py_inj {s t : String} : py s = py t ↔ s = t := by
  constructor
  · intro h
    exact String.toList_injective
      (List.map_injective_iff.mpr PyChar.ofChar_injective h)
  · exact congrArg py

/-- A lone surrogate: a code point that no UTF-8 text contains. -/
def PyChar.isSurrogate (c : PyChar) : Bool :=
  decide (0xD800 ≤ c.val) && decide (c.val < 0xE000)

/-- The part of Python's Unicode database that the source uses. -/
structure UnicodeDb where
  /-- `str.isprintable` of a one-character string. -/
  isprintable : PyChar → Bool
  /-- `str.upper`. -/
  upper : PyStr → PyStr
  /-- `str.lower`. -/
  lower : PyStr → PyStr
  isprintable_ascii : ∀ c : PyChar, c.val < 0x80 →
    isprintable c = decide (0x20 ≤ c.val ∧ c.val < 0x7F)

/-- Shift the code points of one ASCII range. -/
private def shiftAscii (low high : Char) (f : Nat → Nat) (c : PyChar) : PyChar :=
  if low.toNat ≤ c.val ∧ c.val ≤ high.toNat then Fin.ofNat 0x110000 (f c.val) else c

/-- The database of a Python that knows ASCII only. -/
def UnicodeDb.ascii : UnicodeDb where
  isprintable c := decide (0x20 ≤ c.val ∧ c.val < 0x7F)
  upper s := s.map (shiftAscii 'a' 'z' (· - 32))
  lower s := s.map (shiftAscii 'A' 'Z' (· + 32))
  isprintable_ascii _ _ := rfl

/-- `sep.join(parts)`. -/
def PyStr.join (sep : PyStr) : List PyStr → PyStr
  | [] => []
  | [part] => part
  | part :: parts => part ++ sep ++ PyStr.join sep parts

theorem PyStr.join_eq_intercalate (sep : PyStr) (parts : List PyStr) :
    PyStr.join sep parts = sep.intercalate parts := by
  induction parts with
  | nil => rfl
  | cons part parts ih =>
      cases parts with
      | nil => simp [PyStr.join]
      | cons part' parts =>
          rw [List.intercalate_cons_cons, ← ih]
          rfl

/-- A joined text has the characters of its parts and of the separator. -/
theorem PyStr.mem_join {sep : PyStr} {parts : List PyStr} {c : PyChar}
    (h : c ∈ PyStr.join sep parts) : c ∈ sep ∨ ∃ part ∈ parts, c ∈ part := by
  induction parts with
  | nil => exact absurd h List.not_mem_nil
  | cons part parts ih =>
      cases parts with
      | nil => exact Or.inr ⟨part, List.mem_cons_self, h⟩
      | cons part' parts =>
          rw [PyStr.join, List.mem_append, List.mem_append] at h
          · rcases h with (h | h) | h
            · exact Or.inr ⟨part, List.mem_cons_self, h⟩
            · exact Or.inl h
            · rcases ih h with hsep | ⟨q, hq, hc⟩
              · exact Or.inl hsep
              · exact Or.inr ⟨q, List.mem_cons_of_mem _ hq, hc⟩
          · exact fun hnil => List.cons_ne_nil part' parts hnil

/-! ## Number formatting -/

/-- `f"{n}"` for an integer. -/
def intText (n : Int) : PyStr := py (toString n)

/-- The lowercase hexadecimal digits of a natural number, without prefix. -/
def hexText (n : Nat) : PyStr := (Nat.toDigits 16 n).map PyChar.ofChar

/-- Zero-fill on the left to a width. -/
def zeroFill (width : Nat) (s : PyStr) : PyStr :=
  List.replicate (width - s.length) (PyChar.ofChar '0') ++ s

/-- `f"{n:08x}"`: the sign counts towards the width of eight. -/
def fmt08x (n : Int) : PyStr :=
  if n < 0 then py "-" ++ zeroFill 7 (hexText n.natAbs)
  else zeroFill 8 (hexText n.natAbs)

/-- `f"{n:02x}"` for a natural number. -/
def fmt02x (n : Nat) : PyStr := zeroFill 2 (hexText n)

/-- One lowercase hexadecimal digit. -/
def hexDigit (d : Nat) : PyChar := PyChar.ofChar (Nat.digitChar d)

/-- The last `width` hexadecimal digits of a number. -/
def hexFixed : Nat → Nat → PyStr
  | 0, _ => []
  | width + 1, n => hexDigit (n / 16 ^ width % 16) :: hexFixed width n

example : fmt08x 0xdeadbeef = py "deadbeef" ∧ fmt08x (-1) = py "-0000001" := by
  decide

/-! ## Python exceptions -/

/-- The exception classes that the source raises, catches or lets through. -/
inductive ErrKind where
  | importError | keyError | indexError | typeError | valueError | unicodeDecodeError
  | osError | yamlError | jsonDecodeError | protoDecodeError | runtimeError
  | recursionError
  deriving DecidableEq, Repr

/-- A raised exception: its class and `str(exc)`. -/
structure PyErr where
  kind : ErrKind
  text : PyStr

end Floodgate.Ports
