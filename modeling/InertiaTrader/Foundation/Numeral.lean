import InertiaTrader.Foundation.Rounding

/-!
# Decimal numerals

Writing integers and fixed-point numbers in decimal and reading such literals
back.
-/

namespace Foundation

def digitsValue (text : List Char) : Option ℕ :=
  if text ≠ [] ∧ text.all Char.isDigit then some (Nat.ofDigitChars 10 text 0) else none

def unsignedValue (text : List Char) : Option ℚ :=
  match text.dropWhile (· ≠ '.') with
  | [] => (digitsValue text).map fun whole => (whole : ℚ)
  | _ :: fraction =>
      match digitsValue (text.takeWhile (· ≠ '.')), digitsValue fraction with
      | some whole, some part => some (whole + part / 10 ^ fraction.length)
      | _, _ => none

def literalValue : List Char → Option ℚ
  | '-' :: text => (unsignedValue text).map (- ·)
  | text => unsignedValue text

def natText (value : ℕ) : List Char := Nat.toDigits 10 value

def intText : ℤ → List Char
  | .ofNat value => natText value
  | .negSucc value => '-' :: natText (value + 1)

def paddedText (width value : ℕ) : List Char :=
  List.replicate (width - (natText value).length) '0' ++ natText value

/-- `units / 10 ^ places` with exactly `places` decimals. -/
def fixedText (places units : ℕ) : List Char :=
  natText (units / 10 ^ places) ++ '.' :: paddedText places (units % 10 ^ places)

def sixDecimals (value : ℚ) : List Char :=
  let text := fixedText 6 (roundHalfEven (|value| * 10 ^ 6)).toNat
  if value < 0 then '-' :: text else text

theorem isDigit_of_mem_natText {value : ℕ} {symbol : Char} (membership : symbol ∈ natText value) :
    symbol.isDigit = true :=
  Nat.isDigit_of_mem_toDigits (by norm_num) (by norm_num) membership

theorem ne_of_isDigit {symbol other : Char} (digit : symbol.isDigit = true)
    (noDigit : other.isDigit = false) : symbol ≠ other := by
  rintro rfl
  rw [digit] at noDigit
  exact Bool.noConfusion noDigit

theorem natText_ne_nil (value : ℕ) : natText value ≠ [] := Nat.toDigits_ne_nil

@[simp]
theorem digitsValue_natText (value : ℕ) : digitsValue (natText value) = some value := by
  have digits : (natText value).all Char.isDigit = true :=
    List.all_eq_true.mpr fun _ membership => isDigit_of_mem_natText membership
  rw [digitsValue, if_pos ⟨natText_ne_nil value, digits⟩, natText, Nat.ofDigitChars_ten_toDigits]

theorem natText_length_le {width value : ℕ} (positive : 0 < width) (small : value < 10 ^ width) :
    (natText value).length ≤ width :=
  (Nat.length_toDigits_le_iff (by norm_num) positive).mpr small

theorem paddedText_length {width value : ℕ} (positive : 0 < width) (small : value < 10 ^ width) :
    (paddedText width value).length = width := by
  have short := natText_length_le positive small
  simp only [paddedText, List.length_append, List.length_replicate]
  omega

theorem digitsValue_paddedText (width value : ℕ) :
    digitsValue (paddedText width value) = some value := by
  have digits : (paddedText width value).all Char.isDigit = true := by
    rw [List.all_eq_true]
    intro symbol membership
    rcases List.mem_append.mp membership with zero | digit
    · rw [(List.mem_replicate.mp zero).2]
      rfl
    · exact isDigit_of_mem_natText digit
  have nonempty : paddedText width value ≠ [] := by
    simp [paddedText, natText_ne_nil]
  rw [digitsValue, if_pos ⟨nonempty, digits⟩, paddedText, Nat.ofDigitChars_append,
    Nat.ofDigitChars_replicate_zero, Nat.mul_zero, natText, Nat.ofDigitChars_ten_toDigits]

theorem takeWhile_natText_append (value : ℕ) (rest : List Char) :
    (natText value ++ '.' :: rest).takeWhile (· ≠ '.') = natText value := by
  rw [List.takeWhile_append_of_pos]
  · simp
  · intro symbol membership
    simpa using ne_of_isDigit (isDigit_of_mem_natText membership) (by decide)

theorem dropWhile_natText_append (value : ℕ) (rest : List Char) :
    (natText value ++ '.' :: rest).dropWhile (· ≠ '.') = '.' :: rest := by
  rw [List.dropWhile_append_of_pos]
  · simp
  · intro symbol membership
    simpa using ne_of_isDigit (isDigit_of_mem_natText membership) (by decide)

@[simp]
theorem unsignedValue_natText (value : ℕ) : unsignedValue (natText value) = some (value : ℚ) := by
  have noPoint : (natText value).dropWhile (· ≠ '.') = [] := by
    rw [List.dropWhile_eq_nil_iff]
    intro symbol membership
    simpa using ne_of_isDigit (isDigit_of_mem_natText membership) (by decide)
  rw [unsignedValue, noPoint]
  simp

theorem unsignedValue_fixedText (places : ℕ) (positive : 0 < places) (units : ℕ) :
    unsignedValue (fixedText places units) = some ((units : ℚ) / 10 ^ places) := by
  have small : units % 10 ^ places < 10 ^ places := Nat.mod_lt _ (by positivity)
  rw [unsignedValue, fixedText, dropWhile_natText_append]
  simp only [takeWhile_natText_append, digitsValue_natText, digitsValue_paddedText,
    paddedText_length positive small, Option.some.injEq]
  have split : (units : ℚ) = (10 ^ places : ℕ) * (units / 10 ^ places : ℕ) +
      (units % 10 ^ places : ℕ) := by
    exact_mod_cast (Nat.div_add_mod units (10 ^ places)).symm
  rw [eq_div_iff (by positivity), add_mul, div_mul_cancel₀ _ (by positivity)]
  push_cast at split
  linarith

theorem literalValue_of_isDigit {symbol : Char} {rest : List Char}
    (digit : symbol.isDigit = true) :
    literalValue (symbol :: rest) = unsignedValue (symbol :: rest) := by
  unfold literalValue
  split
  next text equality =>
    simp only [List.cons.injEq] at equality
    exact absurd equality.1 (ne_of_isDigit digit (by decide))
  next => rfl

theorem literalValue_natText_append (value : ℕ) (rest : List Char) :
    literalValue (natText value ++ rest) = unsignedValue (natText value ++ rest) := by
  cases digits : natText value with
  | nil => exact absurd digits (natText_ne_nil value)
  | cons symbol tail =>
      have first : symbol ∈ natText value := by simp [digits]
      exact literalValue_of_isDigit (isDigit_of_mem_natText first)

@[simp]
theorem literalValue_intText (value : ℤ) : literalValue (intText value) = some (value : ℚ) := by
  cases value with
  | ofNat value =>
      have read := literalValue_natText_append value []
      rw [List.append_nil] at read
      simp [intText, read]
  | negSucc value =>
      rw [intText, literalValue, unsignedValue_natText]
      simp [Int.cast_negSucc]

theorem isDigit_of_mem_digits {text : List Char} {value : ℕ} (read : digitsValue text = some value)
    {symbol : Char} (membership : symbol ∈ text) : symbol.isDigit = true := by
  unfold digitsValue at read
  split at read
  next digits => exact List.all_eq_true.mp digits.2 symbol membership
  next => cases read

theorem mem_unsignedValue {text : List Char} {value : ℚ} (read : unsignedValue text = some value)
    {symbol : Char} (membership : symbol ∈ text) : symbol = '.' ∨ symbol.isDigit = true := by
  have parts := List.takeWhile_append_dropWhile (p := (· ≠ '.')) (l := text)
  unfold unsignedValue at read
  split at read
  next whole =>
    obtain ⟨_, wholeRead, -⟩ := Option.map_eq_some_iff.mp read
    obtain ⟨_, digits, -⟩ := Option.bind_eq_some_iff.mp wholeRead
    exact .inr (isDigit_of_mem_digits digits membership)
  next point fraction pointed =>
    split at read
    next _ _ wholeRead fractionRead =>
      have isPoint : point = '.' := by
        have stopped := List.head?_dropWhile_not (· ≠ '.') text
        rw [pointed] at stopped
        simpa using stopped
      rw [← parts, pointed, List.mem_append, List.mem_cons] at membership
      rcases membership with whole | rfl | fraction
      · exact .inr (isDigit_of_mem_digits wholeRead whole)
      · exact .inl isPoint
      · exact .inr (isDigit_of_mem_digits fractionRead fraction)
    next => cases read

theorem mem_literalValue {text : List Char} {value : ℚ} (read : literalValue text = some value)
    {symbol : Char} (membership : symbol ∈ text) :
    symbol = '-' ∨ symbol = '.' ∨ symbol.isDigit = true := by
  unfold literalValue at read
  split at read
  next text =>
    rw [Option.map_eq_some_iff] at read
    obtain ⟨_, unsigned, -⟩ := read
    rcases List.mem_cons.mp membership with rfl | later
    · exact .inl rfl
    · exact .inr (mem_unsignedValue unsigned later)
  next => exact .inr (mem_unsignedValue read membership)

theorem literalValue_sixDecimals_isSome (value : ℚ) :
    (literalValue (sixDecimals value)).isSome = true := by
  have unsigned (units : ℕ) : (unsignedValue (fixedText 6 units)).isSome = true := by
    rw [unsignedValue_fixedText 6 (by norm_num)]
    rfl
  unfold sixDecimals
  dsimp only
  split
  next =>
    rw [literalValue, Option.isSome_map]
    exact unsigned _
  next =>
    rw [fixedText, literalValue_natText_append, ← fixedText]
    exact unsigned _

theorem literalValue_sixDecimals {value : ℚ} {units : ℤ} (exact : value * 10 ^ 6 = units) :
    literalValue (sixDecimals value) = some value := by
  have magnitude : |value| * 10 ^ 6 = ((|units| : ℤ) : ℚ) := by
    rw [Int.cast_abs, ← exact, abs_mul]
    norm_num
  have unitsText : unsignedValue (fixedText 6 (roundHalfEven (|value| * 10 ^ 6)).toNat) =
      some |value| := by
    have read := unsignedValue_fixedText 6 (by norm_num) (|units|).toNat
    have whole : (((|units|).toNat : ℕ) : ℚ) = |value| * 10 ^ 6 := by
      rw [magnitude, ← Int.cast_natCast, Int.toNat_of_nonneg (abs_nonneg units)]
    rw [magnitude, roundHalfEven_intCast, read, whole]
    norm_num
  by_cases negative : value < 0
  · rw [sixDecimals, if_pos negative, literalValue, unitsText, Option.map_some,
      abs_of_neg negative, neg_neg]
  · have unsigned := literalValue_natText_append
      ((roundHalfEven (|value| * 10 ^ 6)).toNat / 10 ^ 6)
      ('.' :: paddedText 6 ((roundHalfEven (|value| * 10 ^ 6)).toNat % 10 ^ 6))
    rw [sixDecimals, if_neg negative]
    refine unsigned.trans (unitsText.trans ?_)
    rw [abs_of_nonneg (not_lt.mp negative)]

theorem literalValue_of_digitsValue {text : List Char} {value : ℕ}
    (read : digitsValue text = some value) : literalValue text = some (value : ℚ) := by
  have digits : ∀ symbol ∈ text, symbol.isDigit = true := fun symbol membership =>
    isDigit_of_mem_digits read membership
  have noPoint : text.dropWhile (· ≠ '.') = [] := by
    rw [List.dropWhile_eq_nil_iff]
    intro symbol membership
    simpa using ne_of_isDigit (digits symbol membership) (by decide)
  have unsigned : unsignedValue text = some (value : ℚ) := by
    rw [unsignedValue, noPoint]
    simp [read]
  cases text with
  | nil => exact unsigned
  | cons symbol rest =>
      rw [literalValue_of_isDigit (digits symbol List.mem_cons_self)]
      exact unsigned

end Foundation
