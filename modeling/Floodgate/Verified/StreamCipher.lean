import Mathlib.Data.List.Basic

/-!
# Stream ciphers

A stream cipher combines every symbol of a text with the symbol of a keystream
at the same place.  When combining twice with the same symbol is the identity,
as it is for exclusive or, encryption and decryption are one operation, and a
text is recovered exactly, whatever its length, by the same keystream.

## Main results

* `mask_mask`: masking twice with one keystream is the identity.
-/

namespace Floodgate.Verified.StreamCipher

variable {α : Type}

/-- Combine a text with a keystream, from position `start` on. -/
def maskFrom (combine : α → α → α) (keystream : Nat → α) : Nat → List α → List α
  | _, [] => []
  | start, x :: text => combine x (keystream start) ::
      maskFrom combine keystream (start + 1) text

/-- Combine a text with a keystream. -/
def mask (combine : α → α → α) (keystream : Nat → α) (text : List α) : List α :=
  maskFrom combine keystream 0 text

/-- Combining twice with the same symbol is the identity. -/
def SelfInverse (combine : α → α → α) : Prop := ∀ x k, combine (combine x k) k = x

theorem maskFrom_maskFrom {combine : α → α → α} (h : SelfInverse combine)
    (keystream : Nat → α) (start : Nat) (text : List α) :
    maskFrom combine keystream start (maskFrom combine keystream start text) = text := by
  induction text generalizing start with
  | nil => rfl
  | cons x text ih => rw [maskFrom, maskFrom, h, ih]

/-- Masking twice with one keystream is the identity. -/
theorem mask_mask {combine : α → α → α} (h : SelfInverse combine)
    (keystream : Nat → α) (text : List α) :
    mask combine keystream (mask combine keystream text) = text :=
  maskFrom_maskFrom h keystream 0 text

end Floodgate.Verified.StreamCipher
