import Mathlib.Algebra.Group.Nat.Defs
import Mathlib.Order.MinMax
import Mathlib.Tactic.Ring

/-!
# Rounding to binary64

A nonnegative rational `num / den` is rounded to the magnitude bits of the
nearest double, ties to even.  Everything is counted in units of `2^-1074`, the
least subnormal: with `k` bits to spare beyond the 53 of a significand, the
quotient is rounded to a multiple of `2^k`, and the bit pattern is that
multiple beside the exponent `k`.  A carry out of the significand moves into
the exponent by itself, and whatever is too large becomes infinity.

## Main results

* `nearest_of_exact`: a value that a double has is rounded to that double.
* `nearest_eq_infinity_iff`: what is too large, exactly.
-/

namespace Floodgate.Verified.Binary64

/-- The magnitude bits of infinity. -/
def infinity : Nat := 0x7FF * 2 ^ 52

/-- The value of finite magnitude bits, in units of `2^-1074`. -/
def units (bits : Nat) : Nat :=
  if bits < 2 ^ 52 then bits
  else (2 ^ 52 + bits % 2 ^ 52) * 2 ^ (bits / 2 ^ 52 - 1)

/-- The integer nearest to `n / d`, the even one of two. -/
def roundHalfEven (n d : Nat) : Nat :=
  if 2 * (n % d) < d ∨ (2 * (n % d) = d ∧ n / d % 2 = 0) then n / d else n / d + 1

/-- The magnitude bits of the double nearest to `num / den`. -/
def nearest (num den : Nat) : Nat :=
  let n := num * 2 ^ 1074
  let k := (n / den).log2 - 52
  min (k * 2 ^ 52 + roundHalfEven n (den * 2 ^ k)) infinity

theorem nearest_le_infinity (num den : Nat) : nearest num den ≤ infinity :=
  Nat.min_le_right _ _

theorem roundHalfEven_mul (m : Nat) {d : Nat} (hd : 0 < d) : roundHalfEven (m * d) d = m := by
  rw [roundHalfEven, Nat.mul_mod_left, Nat.mul_div_cancel m hd]
  exact if_pos (Or.inl hd)

/-- The exponent of a normal double is read off its value. -/
theorem log2_units {bits : Nat} (h : 2 ^ 52 ≤ bits) :
    (units bits).log2 = 52 + (bits / 2 ^ 52 - 1) := by
  have hmod : bits % 2 ^ 52 < 2 ^ 52 := Nat.mod_lt _ (by decide)
  rw [units, if_neg (by omega)]
  generalize bits / 2 ^ 52 - 1 = k
  have hpos : 0 < (2 ^ 52 + bits % 2 ^ 52) * 2 ^ k :=
    Nat.mul_pos (by omega) (Nat.two_pow_pos k)
  apply Nat.le_antisymm
  · have hlt : (2 ^ 52 + bits % 2 ^ 52) * 2 ^ k < 2 ^ (53 + k) := by
      rw [pow_add]
      exact Nat.mul_lt_mul_of_pos_right (by omega) (Nat.two_pow_pos k)
    have := (Nat.log2_lt hpos.ne').mpr hlt
    omega
  · rw [Nat.le_log2 hpos.ne', pow_add]
    exact Nat.mul_le_mul_right _ (Nat.le_add_right _ _)

/-- A value that a finite double has is rounded to that double. -/
theorem nearest_of_exact {num den bits : Nat} (hden : 0 < den) (hbits : bits < infinity)
    (h : num * 2 ^ 1074 = units bits * den) : nearest num den = bits := by
  have hquot : num * 2 ^ 1074 / den = units bits := by
    rw [h, Nat.mul_div_cancel _ hden]
  unfold nearest
  dsimp only
  rw [hquot, h]
  by_cases hsub : bits < 2 ^ 52
  · have hunits : units bits = bits := if_pos hsub
    have hlog : bits.log2 - 52 = 0 := by
      rcases Nat.eq_zero_or_pos bits with rfl | hpos
      · rfl
      · have := (Nat.log2_lt hpos.ne').mpr hsub
        omega
    rw [hunits, hlog, pow_zero, mul_one, roundHalfEven_mul bits hden, Nat.zero_mul,
      Nat.zero_add, Nat.min_eq_left hbits.le]
  · have hnormal : 2 ^ 52 ≤ bits := Nat.le_of_not_lt hsub
    have hdiv : 1 ≤ bits / 2 ^ 52 := (Nat.le_div_iff_mul_le (by decide)).mpr (by omega)
    have hunits : units bits * den =
        (2 ^ 52 + bits % 2 ^ 52) * (den * 2 ^ (bits / 2 ^ 52 - 1)) := by
      rw [units, if_neg hsub]
      ring
    rw [log2_units hnormal, Nat.add_sub_cancel_left, hunits,
      roundHalfEven_mul _ (Nat.mul_pos hden (Nat.two_pow_pos _))]
    have hsplit := Nat.div_add_mod bits (2 ^ 52)
    have hsum : (bits / 2 ^ 52 - 1) * 2 ^ 52 + (2 ^ 52 + bits % 2 ^ 52) = bits := by omega
    rw [hsum, Nat.min_eq_left hbits.le]

theorem roundHalfEven_bounds (n d : Nat) :
    n / d ≤ roundHalfEven n d ∧ roundHalfEven n d ≤ n / d + 1 := by
  unfold roundHalfEven
  split <;> omega

/-- Where rounding passes an odd number: halfway to the next one, which is even. -/
theorem lt_roundHalfEven_iff {n d m : Nat} (hd : 0 < d) (hm : m % 2 = 1) :
    m < roundHalfEven n d ↔ (2 * m + 1) * d ≤ 2 * n := by
  have hsplit : n = d * (n / d) + n % d := (Nat.div_add_mod n d).symm
  have hmod : n % d < d := Nat.mod_lt n hd
  have hscale : (2 * m + 1) * d = 2 * (d * m) + d := by ring
  have hround := roundHalfEven_bounds n d
  rcases Nat.lt_trichotomy (n / d) m with hlt | heq | hgt
  · have hprod : d * (n / d) + d ≤ d * m := Nat.mul_le_mul_left d hlt
    omega
  · rw [heq] at hsplit
    rw [roundHalfEven, heq]
    split <;> omega
  · have hprod : d * m + d ≤ d * (n / d) := Nat.mul_le_mul_left d hgt
    omega

/-- Rounding reaches the exponent `e + 3` from halfway between the last
significand below it and the next power of two on. -/
theorem exponent_le_iff {n den e : Nat} (hden : 0 < den) :
    (e + 3) * 2 ^ 52 ≤ ((n / den).log2 - 52) * 2 ^ 52 +
        roundHalfEven n (den * 2 ^ ((n / den).log2 - 52)) ↔
      (2 ^ 54 - 1) * 2 ^ e * den ≤ n := by
  have hcarry : ∀ r, (e + 3) * 2 ^ 52 ≤ (e + 1) * 2 ^ 52 + r ↔ 2 ^ 53 - 1 < r := by
    intro r
    omega
  rw [← Nat.le_div_iff_mul_le hden]
  have hlog : n / den < 2 ^ ((n / den).log2 + 1) := Nat.lt_log2_self
  have hpow : ∀ i j, (2 : Nat) ^ (i + j) = 2 ^ i * 2 ^ j := pow_add 2
  obtain ⟨k, hk⟩ : ∃ k, k = (n / den).log2 - 52 := ⟨_, rfl⟩
  rw [← hk]
  have hround := roundHalfEven_bounds n (den * 2 ^ k)
  have hfine : ∀ b, b ≤ n / (den * 2 ^ k) ↔ b * 2 ^ k ≤ n / den := by
    intro b
    rw [← Nat.div_div_eq_div_mul, Nat.le_div_iff_mul_le (Nat.two_pow_pos k)]
  have hscale : 0 < 2 ^ e := Nat.two_pow_pos e
  rcases Nat.lt_trichotomy k (e + 1) with hlt | rfl | hgt
  · have hquot : n / den < 2 ^ 53 * 2 ^ k := by
      rw [← hpow]
      exact hlog.trans_le (Nat.pow_le_pow_right (by decide) (by omega))
    have hfine := (hfine (2 ^ 53)).not.mpr (Nat.not_le.mpr hquot)
    have hmono : 2 ^ k ≤ 2 ^ e := Nat.pow_le_pow_right (by decide) (by omega)
    omega
  · have hodd := lt_roundHalfEven_iff (n := n) (m := 2 ^ 53 - 1)
      (Nat.mul_pos hden (Nat.two_pow_pos (e + 1))) (by decide)
    have hdouble : (2 * (2 ^ 53 - 1) + 1) * (den * 2 ^ (e + 1)) =
        2 * ((2 ^ 54 - 1) * 2 ^ e * den) := by
      rw [pow_succ]
      ring
    rw [hcarry, hodd, hdouble, Nat.le_div_iff_mul_le hden]
    exact Nat.mul_le_mul_left_iff Nat.two_pos
  · have hne : n / den ≠ 0 := by
      intro hzero
      rw [hzero] at hk
      simp at hk
      omega
    have hquot : 2 ^ 52 * 2 ^ k ≤ n / den := by
      rw [← hpow, ← Nat.le_log2 hne]
      omega
    have hfine := (hfine (2 ^ 52)).mpr hquot
    have hmono : 2 ^ (e + 2) ≤ 2 ^ k := Nat.pow_le_pow_right (by decide) (by omega)
    rw [hpow] at hmono
    omega

/-- A rational becomes infinity from halfway between the largest double and
`2 ^ 1024` on. -/
theorem nearest_eq_infinity_iff {num den : Nat} (hden : 0 < den) :
    nearest num den = infinity ↔ (2 ^ 54 - 1) * 2 ^ 970 * den ≤ num := by
  have hexponent := exponent_le_iff (n := num * 2 ^ 1074) (e := 970 + 1074) hden
  have hcancel : ∀ i j, (2 ^ 54 - 1) * 2 ^ (i + j) * den ≤ num * 2 ^ j ↔
      (2 ^ 54 - 1) * 2 ^ i * den ≤ num := by
    intro i j
    have hcomm : (2 ^ 54 - 1) * 2 ^ (i + j) * den = (2 ^ 54 - 1) * 2 ^ i * den * 2 ^ j := by
      rw [pow_add]
      ring
    rw [hcomm, Nat.mul_le_mul_right_iff (Nat.two_pow_pos j)]
  exact min_eq_right_iff.trans (hexponent.trans (hcancel 970 1074))

end Floodgate.Verified.Binary64
