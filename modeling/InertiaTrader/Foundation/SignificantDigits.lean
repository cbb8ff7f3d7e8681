import InertiaTrader.Foundation.Numeral

/-!
# Significant digits

Which natural numbers a fixed number of binary or decimal digits can hold, and
the text of a number with a limited number of decimal digits.
-/

namespace Foundation

def FitsDigits (base digits value : ℕ) : Prop :=
  ∃ mantissa exponent, value = mantissa * base ^ exponent ∧ mantissa < base ^ digits

def roundDigits (digits value : ℕ) : ℕ :=
  let unit : ℕ := 10 ^ ((natText value).length - digits)
  (roundHalfEven ((value : ℚ) / unit)).toNat * unit

/-- The text of a number with a limited number of significant digits: plain below
`10 ^ 15`, with an exponent from there on. -/
def shortText (digits value : ℕ) : List Char :=
  let rounded := roundDigits digits value
  if rounded < 10 ^ 15 then natText rounded
  else
    let mantissa := (natText rounded).rdropWhile (· = '0')
    let fraction := if mantissa.tail = [] then [] else '.' :: mantissa.tail
    mantissa.take 1 ++ fraction ++ 'e' :: natText ((natText rounded).length - 1)

theorem roundHalfEven_of_dvd {value unit : ℕ} (positive : 0 < unit) {whole : ℕ}
    (multiple : value = unit * whole) : roundHalfEven ((value : ℚ) / unit) = whole := by
  have nonzero : (unit : ℚ) ≠ 0 := by exact_mod_cast positive.ne'
  have quotient : (value : ℚ) / unit = ((whole : ℤ) : ℚ) := by
    rw [multiple]
    push_cast
    field_simp
  rw [quotient, roundHalfEven_intCast]

theorem natText_length_pow (value : ℕ) : value < 10 ^ (natText value).length := by
  have positive : 0 < (natText value).length := List.length_pos_iff.mpr (natText_ne_nil value)
  exact (Nat.length_toDigits_le_iff (by norm_num) positive).mp le_rfl

theorem natText_length_large (value : ℕ) :
    value = 0 ∨ 10 ^ ((natText value).length - 1) ≤ value := by
  rcases Nat.eq_zero_or_pos value with zero | nonzero
  · exact .inl zero
  · right
    by_cases single : (natText value).length - 1 = 0
    · rw [single]
      exact nonzero
    · by_contra small
      have shorter := natText_length_le (Nat.pos_of_ne_zero single) (not_le.mp small)
      omega

/-- With at most `length` digits, a number fits into some of them exactly when it
is a multiple of the unit of the last of these. -/
theorem fitsDigits_iff_dvd {base digits length value : ℕ} (proper : 1 < base)
    (small : value < base ^ length) (large : value = 0 ∨ base ^ (length - 1) ≤ value)
    (positive : 0 < digits) :
    FitsDigits base digits value ↔ base ^ (length - digits) ∣ value := by
  constructor
  · rintro ⟨mantissa, exponent, rfl, fits⟩
    rcases large with zero | large
    · rw [zero]
      exact dvd_zero _
    · have bounded : base ^ (length - 1) < base ^ (digits + exponent) := by
        calc base ^ (length - 1) ≤ mantissa * base ^ exponent := large
          _ < base ^ digits * base ^ exponent :=
            Nat.mul_lt_mul_of_pos_right fits (Nat.pow_pos (by omega))
          _ = base ^ (digits + exponent) := (pow_add ..).symm
      have shorter := (Nat.pow_lt_pow_iff_right proper).mp bounded
      exact (pow_dvd_pow base (by omega)).trans (dvd_mul_left ..)
  · rintro ⟨mantissa, rfl⟩
    refine ⟨mantissa, length - digits, Nat.mul_comm .., ?_⟩
    by_cases short : length ≤ digits
    · rw [Nat.sub_eq_zero_of_le short, pow_zero, one_mul] at small
      exact small.trans_le (Nat.pow_le_pow_right (by omega) short)
    · have total : base ^ length = base ^ (length - digits) * base ^ digits := by
        rw [← pow_add, Nat.sub_add_cancel (by omega)]
      rw [total] at small
      exact Nat.lt_of_mul_lt_mul_left small

theorem roundDigits_eq_self_iff {digits : ℕ} (positive : 0 < digits) (value : ℕ) :
    roundDigits digits value = value ↔ FitsDigits 10 digits value := by
  rw [fitsDigits_iff_dvd (by norm_num) (natText_length_pow value) (natText_length_large value)
    positive]
  constructor
  · intro same
    exact ⟨_, same.symm.trans (Nat.mul_comm ..)⟩
  · rintro ⟨whole, multiple⟩
    simp only [roundDigits, roundHalfEven_of_dvd (by positivity) multiple, Int.toNat_natCast]
    rw [Nat.mul_comm]
    exact multiple.symm

theorem roundSignificant_eq_self_iff {bits : ℕ} (positive : 0 < bits) (value : ℕ) :
    roundSignificant bits value = value ↔ FitsDigits 2 bits value := by
  by_cases small : value < 2 ^ bits
  · have magnitude : |(value : ℤ)| < 2 ^ bits := by
      rw [Nat.abs_cast]
      exact_mod_cast small
    have kept := roundSignificant_intCast magnitude
    rw [Int.cast_natCast] at kept
    exact iff_of_true kept ⟨value, 0, by simp, small⟩
  · have nonzero : value ≠ 0 := by
      rintro rfl
      exact small (by positivity)
    have long : bits ≤ Nat.log 2 value :=
      (Nat.le_log_iff_pow_le (by norm_num) nonzero).mpr (not_lt.mp small)
    have exponent : Int.log 2 |(value : ℚ)| - ((bits - 1 : ℕ) : ℤ) =
        ((Nat.log 2 value + 1 - bits : ℕ) : ℤ) := by
      rw [Nat.abs_cast, Int.log_natCast]
      omega
    rw [fitsDigits_iff_dvd (by norm_num) (Nat.lt_pow_succ_log_self (by norm_num) value)
      (.inr (by simpa using Nat.pow_log_le_self 2 nonzero)) positive]
    unfold roundSignificant
    simp only [exponent, zpow_natCast]
    generalize unitEq : 2 ^ (Nat.log 2 value + 1 - bits) = unit
    have unitCast : (2 : ℚ) ^ (Nat.log 2 value + 1 - bits) = unit := by
      rw [← unitEq]
      push_cast
      rfl
    rw [unitCast]
    constructor
    · intro same
      have whole : (roundHalfEven ((value : ℚ) / unit)) * (unit : ℤ) = value := by
        exact_mod_cast same
      exact Int.natCast_dvd_natCast.mp (whole ▸ dvd_mul_left ..)
    · rintro ⟨whole, multiple⟩
      rw [roundHalfEven_of_dvd (unitEq ▸ by positivity) multiple, multiple]
      push_cast
      ring

/-- A text of digits is the short text of its value exactly when it is written
plainly and nothing of it is rounded. -/
theorem shortText_eq_iff {digits : ℕ} (positive : 0 < digits) {text : List Char} {value : ℕ}
    (read : digitsValue text = some value) :
    shortText digits value = text ↔
      text = natText value ∧ value < 10 ^ 15 ∧ FitsDigits 10 digits value := by
  rw [← roundDigits_eq_self_iff positive]
  unfold shortText
  dsimp only
  split
  next plain =>
    constructor
    · rintro rfl
      rw [digitsValue_natText, Option.some.injEq] at read
      rw [read] at plain ⊢
      exact ⟨rfl, plain, rfl⟩
    · rintro ⟨rfl, -, same⟩
      rw [same]
  next large =>
    apply iff_of_false
    · intro same
      have exponent : 'e' ∈ text := by simp [← same]
      exact absurd (isDigit_of_mem_digits read exponent) (by decide)
    · rintro ⟨-, small, same⟩
      exact large (same.symm ▸ small)

end Foundation
