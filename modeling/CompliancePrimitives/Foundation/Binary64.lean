import Mathlib

/-!
# Rounding to binary64

The double that a rational is rounded to, if it is not negative: the nearest with 53 significant
bits and an exponent that is not below that of the subnormal numbers, of two the even one. Beyond
the largest there is none. Doubles stand for their values, so that there is one zero.

Natural numbers below `2 ^ 53` are doubles (`nearest_natCast`). This is all that is said here: which
other numbers are, and how far the rounding goes, is not.

The place of the last bit follows from the magnitude (`lastPlace`), and what is rounded to an
integer is the number as a multiple of that place. So one definition is enough for all magnitudes,
subnormal numbers included, and it can be evaluated.
-/

namespace Binary64

/-- The integer nearest to a rational, of two the even one. -/
def roundEven (x : ℚ) : ℤ :=
  if Int.fract x < 1 / 2 then ⌊x⌋ else if 1 / 2 < Int.fract x then ⌊x⌋ + 1 else ⌊x⌋ + ⌊x⌋ % 2

@[simp] theorem roundEven_intCast (n : ℤ) : roundEven n = n := by
  simp [roundEven]

/-- The exponent of the last significant bit. -/
def lastPlace (x : ℚ) : ℤ := max (Int.log 2 x - 52) (-1074)

/-- The nearest double; `none` if the rounding overflows. -/
def nearest (x : ℚ) : Option ℚ :=
  let y : ℚ := roundEven (x / 2 ^ lastPlace x) * 2 ^ lastPlace x
  if y < 2 ^ 1024 then some y else none

/-- A number that is a multiple of its last place is not rounded. -/
theorem nearest_eq_some {x : ℚ} {k : ℤ} (h : x = k * 2 ^ lastPlace x) (hlt : x < 2 ^ 1024) :
    nearest x = some x := by
  have hplace : (2 : ℚ) ^ lastPlace x ≠ 0 := zpow_ne_zero _ two_ne_zero
  have hquotient : x / 2 ^ lastPlace x = k := (div_eq_iff hplace).2 h
  rw [nearest, hquotient, roundEven_intCast, ← h]
  exact if_pos hlt

/-- **A natural number with at most 53 bits is a double.** -/
theorem nearest_natCast {n : ℕ} (h : n < 2 ^ 53) : nearest n = some (n : ℚ) := by
  have hlog : Nat.log 2 n < 53 := by
    rcases Nat.eq_zero_or_pos n with rfl | hpos
    · decide
    · exact Nat.log_lt_of_lt_pow hpos.ne' h
  -- the last place is at most that of the units
  obtain ⟨k, hk⟩ : ∃ k : ℕ, lastPlace (n : ℚ) = -k :=
    ⟨(-lastPlace (n : ℚ)).toNat, by rw [lastPlace, Int.log_natCast]; omega⟩
  have hmultiple : (n : ℚ) = ((n * 2 ^ k : ℕ) : ℤ) * 2 ^ lastPlace (n : ℚ) := by
    rw [hk, zpow_neg, zpow_natCast]
    push_cast
    rw [mul_inv_cancel_right₀ (pow_ne_zero k two_ne_zero)]
  have hbound : (n : ℚ) < 2 ^ 1024 := by
    calc (n : ℚ) < 2 ^ 53 := by exact_mod_cast h
      _ ≤ 2 ^ 1024 := pow_le_pow_right₀ one_le_two (by decide)
  exact nearest_eq_some hmultiple hbound

end Binary64
