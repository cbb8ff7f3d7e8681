import Mathlib

/-!
# Rounding of rationals

Rounding to the nearest integer and to a fixed number of significant bits, ties
to even, as binary floating-point formats do.
-/

namespace Foundation

def roundHalfEven (value : ℚ) : ℤ :=
  let below := ⌊value⌋
  let rest := value - below
  if rest < 1 / 2 then below
  else if 1 / 2 < rest then below + 1
  else if below % 2 = 0 then below
  else below + 1

@[simp]
theorem roundHalfEven_intCast (value : ℤ) : roundHalfEven value = value := by
  simp [roundHalfEven]

theorem roundHalfEven_le (value : ℚ) : (roundHalfEven value : ℚ) ≤ value + 1 / 2 := by
  have floor : (⌊value⌋ : ℚ) ≤ value := Int.floor_le value
  unfold roundHalfEven
  dsimp only
  by_cases down : value - ⌊value⌋ < 1 / 2
  · rw [if_pos down]
    linarith
  · rw [if_neg down]
    by_cases up : 1 / 2 < value - ⌊value⌋
    · rw [if_pos up]
      push_cast
      linarith
    · rw [if_neg up]
      split
      · linarith
      · push_cast
        linarith

theorem roundHalfEven_nonneg {value : ℚ} (nonneg : 0 ≤ value) : 0 ≤ roundHalfEven value := by
  have floor : 0 ≤ ⌊value⌋ := Int.floor_nonneg.mpr nonneg
  unfold roundHalfEven
  dsimp only
  split_ifs <;> omega

def roundSignificant (bits : ℕ) (value : ℚ) : ℚ :=
  let unit : ℚ := 2 ^ (Int.log 2 |value| - (bits - 1 : ℕ) : ℤ)
  roundHalfEven (value / unit) * unit

theorem roundSignificant_intCast {bits : ℕ} {value : ℤ}
    (small : |value| < 2 ^ bits) :
    roundSignificant bits value = value := by
  rcases eq_or_ne value 0 with rfl | nonzero
  · simpa [roundSignificant] using roundHalfEven_intCast 0
  have positive : 0 < |(value : ℚ)| := by
    exact abs_pos.mpr (Int.cast_ne_zero.mpr nonzero)
  have bounded : |(value : ℚ)| < 2 ^ (bits : ℤ) := by
    rw [zpow_natCast, ← Int.cast_abs]
    exact_mod_cast small
  have logBounded : Int.log 2 |(value : ℚ)| < bits :=
    (Int.lt_zpow_iff_log_lt (by norm_num) positive).mp bounded
  -- The unit is the reciprocal of a power of two, so the quotient is an integer.
  obtain ⟨shift, shifted⟩ : ∃ shift : ℕ,
      Int.log 2 |(value : ℚ)| - ((bits - 1 : ℕ) : ℤ) = -(shift : ℤ) :=
    ⟨(((bits - 1 : ℕ) : ℤ) - Int.log 2 |(value : ℚ)|).toNat, by omega⟩
  have quotient : (value : ℚ) / 2 ^ (-(shift : ℤ)) = ((value * 2 ^ shift : ℤ) : ℚ) := by
    rw [zpow_neg, zpow_natCast]
    push_cast
    field_simp
  rw [roundSignificant]
  simp only [shifted, quotient, roundHalfEven_intCast]
  rw [zpow_neg, zpow_natCast]
  push_cast
  field_simp

end Foundation
