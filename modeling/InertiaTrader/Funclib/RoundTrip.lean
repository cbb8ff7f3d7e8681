import InertiaTrader.Funclib.Standard

/-!
# Reading numbers back

What `std::stoi` reads from digits, and what `std::stod` reads from the text of a
`double` that `std::to_string` has written.
-/

namespace InertiaTrader

open Foundation

theorem stoi_of_digitsValue {text : Text} {value : ℕ} (digits : digitsValue text = some value) :
    stoi text = if value < 2 ^ 31 then some (value : ℤ) else none := by
  have isDigits : ∀ symbol ∈ text, symbol.isDigit = true := fun symbol membership =>
    isDigit_of_mem_digits digits membership
  cases text with
  | nil => cases digits
  | cons symbol rest =>
      have first := isDigits symbol List.mem_cons_self
      have all : (symbol :: rest).takeWhile Char.isDigit = symbol :: rest :=
        List.takeWhile_eq_self_iff.mpr isDigits
      have read : Nat.ofDigitChars 10 (symbol :: rest) 0 = value := by
        rw [digitsValue, if_pos ⟨List.cons_ne_nil _ _, List.all_eq_true.mpr isDigits⟩] at digits
        exact Option.some.inj digits
      simp only [stoi, dropWhile_isSpace_of_isDigit first, splitSign_of_isDigit first, all,
        reduceCtorEq, if_false, read, Bool.false_eq_true]
      by_cases small : value < 2 ^ 31
      · rw [if_pos small, if_pos (by omega)]
      · rw [if_neg small, if_neg (by omega)]

theorem inDoubleRange_div {units : ℕ} (small : (units : ℚ) / 10 ^ 6 < 2 ^ 1024 - 2 ^ 970) :
    inDoubleRange ((units : ℚ) / 10 ^ 6) = true := by
  have nonneg : 0 ≤ (units : ℚ) / 10 ^ 6 := by positivity
  rw [inDoubleRange, decide_eq_true_eq, abs_of_nonneg nonneg]
  rcases Nat.eq_zero_or_pos units with rfl | positive
  · left
    norm_num
  · refine .inr ⟨?_, small⟩
    have one : (1 : ℚ) ≤ units := by exact_mod_cast positive
    have large : (10 : ℚ) ^ 6 ≤ 2 ^ 1022 :=
      calc (10 : ℚ) ^ 6 ≤ 2 ^ 20 := by norm_num
        _ ≤ 2 ^ 1022 := pow_le_pow_right₀ (by norm_num) (by norm_num)
    calc (1 / 2 ^ 1022 : ℚ) ≤ 1 / 10 ^ 6 := one_div_le_one_div_of_le (by norm_num) large
      _ ≤ (units : ℚ) / 10 ^ 6 := div_le_div_of_nonneg_right one (by norm_num)

theorem mem_fixedText {places units : ℕ} {symbol : Char}
    (membership : symbol ∈ fixedText places units) : symbol = '.' ∨ symbol.isDigit = true := by
  rcases List.mem_append.mp membership with whole | later
  · exact .inr (isDigit_of_mem_natText whole)
  · rcases List.mem_cons.mp later with rfl | fraction
    · exact .inl rfl
    · exact .inr (isDigit_of_mem_digits (digitsValue_paddedText _ _) fraction)

theorem decimalFloat_fixedText (units : ℕ) :
    decimalFloat (fixedText 6 units) = some ((units : ℚ) / 10 ^ 6) := by
  have small : units % 10 ^ 6 < 10 ^ 6 := Nat.mod_lt _ (by norm_num)
  have padded : ∀ symbol ∈ paddedText 6 (units % 10 ^ 6), symbol.isDigit = true :=
    fun symbol membership => isDigit_of_mem_digits (digitsValue_paddedText _ _) membership
  have whole : (fixedText 6 units).takeWhile Char.isDigit = natText (units / 10 ^ 6) := by
    rw [fixedText, List.takeWhile_append_of_pos fun symbol => isDigit_of_mem_natText]
    simp
  have rest : (fixedText 6 units).dropWhile Char.isDigit =
      '.' :: paddedText 6 (units % 10 ^ 6) := by
    rw [fixedText, List.dropWhile_append_of_pos fun symbol => isDigit_of_mem_natText]
    simp
  have parts : mantissaPart Char.isDigit (fixedText 6 units) =
      (natText (units / 10 ^ 6), paddedText 6 (units % 10 ^ 6), []) := by
    simp only [mantissaPart, whole, rest, List.takeWhile_eq_self_iff.mpr padded,
      List.dropWhile_eq_nil_iff.mpr padded]
  have value : Nat.ofDigitChars 10
      (natText (units / 10 ^ 6) ++ paddedText 6 (units % 10 ^ 6)) 0 = units := by
    have wholeRead : Nat.ofDigitChars 10 (natText (units / 10 ^ 6)) 0 = units / 10 ^ 6 :=
      Nat.ofDigitChars_ten_toDigits
    have fractionRead : Nat.ofDigitChars 10 (paddedText 6 (units % 10 ^ 6)) 0 =
        units % 10 ^ 6 := by
      rw [paddedText, Nat.ofDigitChars_append, Nat.ofDigitChars_replicate_zero, Nat.mul_zero]
      exact Nat.ofDigitChars_ten_toDigits
    rw [Nat.ofDigitChars_append, Nat.ofDigitChars_eq_ofDigitChars_zero, wholeRead, fractionRead,
      paddedText_length (by norm_num) small]
    exact Nat.div_add_mod units (10 ^ 6)
  simp only [decimalFloat, parts, List.append_eq_nil_iff, natText_ne_nil, false_and, if_false,
    value, paddedText_length (show 0 < 6 by norm_num) small, exponentPart]
  rfl

theorem toLower_ne_of_isDigit {symbol letter : Char} (digit : symbol.isDigit = true)
    (noDigit : letter.isDigit = false) : symbol.toLower ≠ letter := by
  have same : symbol.toLower = symbol := by
    simp only [Char.isDigit, Bool.and_eq_true, decide_eq_true_eq] at digit
    unfold Char.toLower
    rw [dif_neg]
    rintro ⟨above, -⟩
    have upper : 65 ≤ symbol.val.toNat := above
    have lower : symbol.val.toNat ≤ 57 := digit.2
    omega
  rw [same]
  exact ne_of_isDigit digit noDigit

theorem hexFloat_fixedText (units : ℕ) : hexFloat (fixedText 6 units) = none := by
  unfold hexFloat
  split
  next marker text starts =>
    have membership : marker ∈ fixedText 6 units := by rw [starts]; simp
    rw [if_neg]
    intro isMarker
    rcases mem_fixedText membership with rfl | digit
    · exact absurd isMarker (by decide)
    · exact toLower_ne_of_isDigit digit (by decide) isMarker
  next => rfl

theorem fixedText_cons (places units : ℕ) :
    ∃ symbol rest, fixedText places units = symbol :: rest ∧ symbol.isDigit = true := by
  cases whole : natText (units / 10 ^ places) with
  | nil => exact absurd whole (natText_ne_nil _)
  | cons symbol rest =>
      refine ⟨symbol, _, by rw [fixedText, whole, List.cons_append], ?_⟩
      exact isDigit_of_mem_natText (whole ▸ List.mem_cons_self)

theorem startsWithWord_fixedText (units : ℕ) {letter : Char} {word : Text}
    (noDigit : letter.isDigit = false) :
    startsWithWord (letter :: word) (fixedText 6 units) = false := by
  obtain ⟨symbol, rest, text, digit⟩ := fixedText_cons 6 units
  simp only [text, startsWithWord, decide_eq_false_iff_not, List.length_cons,
    List.take_succ_cons, List.map_cons, List.cons.injEq]
  intro same
  exact toLower_ne_of_isDigit digit noDigit same.1

theorem stod_of_fixedText {text : Text} {negative : Bool} {units : ℕ}
    (signed : splitSign (text.dropWhile isSpace) = (negative, fixedText 6 units))
    (small : (units : ℚ) / 10 ^ 6 < 2 ^ 1024 - 2 ^ 970) :
    stod text =
      some (.fin (if negative then -((units : ℚ) / 10 ^ 6) else (units : ℚ) / 10 ^ 6)) := by
  have inRange := inDoubleRange_div small
  have inRangeNeg : inDoubleRange (-((units : ℚ) / 10 ^ 6)) = true := by
    simpa only [inDoubleRange, neg_eq_zero, abs_neg] using inRange
  have notInf : startsWithWord ('i' :: "nf".toList) (fixedText 6 units) = false :=
    startsWithWord_fixedText units (by decide)
  have notNan : startsWithWord ('n' :: "an".toList) (fixedText 6 units) = false :=
    startsWithWord_fixedText units (by decide)
  have infText : "inf".toList = 'i' :: "nf".toList := rfl
  have nanText : "nan".toList = 'n' :: "an".toList := rfl
  simp only [stod, signed, infText, nanText, notInf, notNan, Bool.false_eq_true, if_false,
    hexFloat_fixedText, decimalFloat_fixedText, Option.none_or]
  cases negative with
  | false => simp only [Bool.false_eq_true, if_false, inRange, if_true]
  | true => simp only [if_true, inRangeNeg]

def sixPlaces : Price → Price
  | .fin value =>
      let magnitude : ℚ := (roundHalfEven (|value| * 10 ^ 6)).toNat / 10 ^ 6
      .fin (if value < 0 then -magnitude else magnitude)
  | price => price

def IsDouble (price : Price) : Prop := ∀ value, price = .fin value → |value| ≤ 2 ^ 1024 - 2 ^ 971

theorem rounded_lt {magnitude : ℚ} (nonneg : 0 ≤ magnitude)
    (small : magnitude ≤ 2 ^ 1024 - 2 ^ 971) :
    ((roundHalfEven (magnitude * 10 ^ 6)).toNat : ℚ) / 10 ^ 6 < 2 ^ 1024 - 2 ^ 970 := by
  have units : ((roundHalfEven (magnitude * 10 ^ 6)).toNat : ℚ) =
      roundHalfEven (magnitude * 10 ^ 6) := by
    rw [← Int.cast_natCast, Int.toNat_of_nonneg (roundHalfEven_nonneg (by positivity))]
  have near := roundHalfEven_le (magnitude * 10 ^ 6)
  have gap : (1 : ℚ) ≤ 2 ^ 970 := one_le_pow₀ (by norm_num)
  have double : (2 : ℚ) ^ 971 = 2 * 2 ^ 970 := pow_succ' 2 970
  rw [units, div_lt_iff₀ (by norm_num)]
  rw [double] at small
  generalize (roundHalfEven (magnitude * 10 ^ 6) : ℚ) = rounded at near ⊢
  generalize (2 : ℚ) ^ 970 = step at gap small ⊢
  generalize (2 : ℚ) ^ 1024 = top at small ⊢
  linarith only [near, small, gap]

theorem stod_toStringDouble {price : Price} (double : IsDouble price) :
    stod (toStringDouble price) = some (sixPlaces price) := by
  cases price with
  | nan | negInf | posInf => decide +kernel
  | fin value =>
      have rounded : ((roundHalfEven (|value| * 10 ^ 6)).toNat : ℚ) / 10 ^ 6 <
          2 ^ 1024 - 2 ^ 970 :=
        rounded_lt (abs_nonneg value) (double value rfl)
      by_cases negative : value < 0
      · have signed : splitSign ((toStringDouble (.fin value)).dropWhile isSpace) =
            (true, fixedText 6 (roundHalfEven (|value| * 10 ^ 6)).toNat) := by
          simp [toStringDouble, sixDecimals, negative, isSpace, splitSign]
        rw [stod_of_fixedText signed rounded]
        simp only [if_true, sixPlaces, negative]
      · obtain ⟨symbol, rest, text, digit⟩ :=
          fixedText_cons 6 (roundHalfEven (|value| * 10 ^ 6)).toNat
        have signed : splitSign ((toStringDouble (.fin value)).dropWhile isSpace) =
            (false, fixedText 6 (roundHalfEven (|value| * 10 ^ 6)).toNat) := by
          simp only [toStringDouble, sixDecimals, negative, if_false, text,
            dropWhile_isSpace_of_isDigit digit, splitSign_of_isDigit digit]
        rw [stod_of_fixedText signed rounded]
        simp only [Bool.false_eq_true, if_false, sixPlaces, negative]

end InertiaTrader
