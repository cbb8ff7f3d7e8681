import InertiaTrader.Foundation.ExtendedRat
import InertiaTrader.Foundation.Numeral

/-!
# The conversions of the standard library

Texts are lists of characters.  A `double` is an exact rational extended with
the infinities and NaN, so no rounding happens when a number is read; `none`
stands for the exceptions `std::invalid_argument` and `std::out_of_range`.
-/

namespace InertiaTrader

open Foundation

abbrev Text := List Char

abbrev Price := ExtendedRat

def isSpace (symbol : Char) : Bool :=
  symbol ∈ [' ', '\t', '\n', '\x0b', '\x0c', '\r']

def splitSign : Text → Bool × Text
  | '-' :: rest => (true, rest)
  | '+' :: rest => (false, rest)
  | rest => (false, rest)

/-- `std::stoi`: blanks, a sign and at least one digit; anything after the
digits is ignored, a value outside `int` is an exception. -/
def stoi (text : Text) : Option ℤ :=
  let (negative, body) := splitSign (text.dropWhile isSpace)
  let digits := body.takeWhile Char.isDigit
  if digits = [] then none
  else
    let magnitude : ℤ := Nat.ofDigitChars 10 digits 0
    let value := if negative then -magnitude else magnitude
    if -2 ^ 31 ≤ value ∧ value < 2 ^ 31 then some value else none

/-- `mantissa * base ^ exponent`. -/
def scaled (base mantissa : ℕ) : ℤ → ℚ
  | .ofNat exponent => mantissa * base ^ exponent
  | .negSucc exponent => mantissa / base ^ (exponent + 1)

def exponentPart (marker : Char) : Text → ℤ
  | [] => 0
  | symbol :: rest =>
      if symbol.toLower = marker then
        let (negative, body) := splitSign rest
        let magnitude : ℤ := Nat.ofDigitChars 10 (body.takeWhile Char.isDigit) 0
        if negative then -magnitude else magnitude
      else 0

def mantissaPart (digit : Char → Bool) (text : Text) : Text × Text × Text :=
  let whole := text.takeWhile digit
  match text.dropWhile digit with
  | '.' :: rest => (whole, rest.takeWhile digit, rest.dropWhile digit)
  | rest => (whole, [], rest)

def decimalFloat (text : Text) : Option ℚ :=
  let (whole, fraction, rest) := mantissaPart Char.isDigit text
  if whole ++ fraction = [] then none
  else
    some (scaled 10 (Nat.ofDigitChars 10 (whole ++ fraction) 0)
      (exponentPart 'e' rest - fraction.length))

def isHexDigit (symbol : Char) : Bool :=
  symbol.isDigit || symbol.toLower ∈ ['a', 'b', 'c', 'd', 'e', 'f']

def hexDigitValue (symbol : Char) : ℕ :=
  if symbol.isDigit then symbol.toNat - '0'.toNat else symbol.toLower.toNat - 'a'.toNat + 10

def hexFloat : Text → Option ℚ
  | '0' :: marker :: text =>
      if marker.toLower = 'x' then
        let (whole, fraction, rest) := mantissaPart isHexDigit text
        if whole ++ fraction = [] then none
        else
          let mantissa := (whole ++ fraction).foldl
            (fun value symbol => 16 * value + hexDigitValue symbol) 0
          some (scaled 2 mantissa (exponentPart 'p' rest - 4 * fraction.length))
      else none
  | _ => none

def startsWithWord (word text : Text) : Bool :=
  (text.take word.length).map Char.toLower = word

/-- A magnitude that `double` neither overflows nor rounds into its
subnormals.  An exact subnormal such as `0x1p-1074` counts as out of range here;
whether `strtod` reports one is up to the implementation. -/
def inDoubleRange (value : ℚ) : Bool :=
  value = 0 ∨ (1 / 2 ^ 1022 ≤ |value| ∧ |value| < 2 ^ 1024 - 2 ^ 970)

/-- `std::stod`: the longest prefix that `strtod` reads, after blanks. -/
def stod (text : Text) : Option Price :=
  let (negative, body) := splitSign (text.dropWhile isSpace)
  if startsWithWord "inf".toList body then
    some (if negative then .negInf else .posInf)
  else if startsWithWord "nan".toList body then
    some .nan
  else
    match (hexFloat body).or (decimalFloat body) with
    | none => none
    | some magnitude =>
        let value := if negative then -magnitude else magnitude
        if inDoubleRange value then some (.fin value) else none

/-- `std::to_string` of a `double`. -/
def toStringDouble : Price → Text
  | .nan => "nan".toList
  | .negInf => "-inf".toList
  | .posInf => "inf".toList
  | .fin value => sixDecimals value

/-- `std::to_string` of an `int` or a `long`. -/
def toStringInt (value : ℤ) : Text := intText value

theorem dropWhile_isSpace_of_isDigit {symbol : Char} {rest : Text}
    (digit : symbol.isDigit = true) :
    (symbol :: rest).dropWhile isSpace = symbol :: rest := by
  have noSpace : isSpace symbol = false := by
    by_contra space
    simp only [isSpace, List.mem_cons, List.not_mem_nil, or_false, decide_eq_false_iff_not,
      not_not] at space
    rcases space with rfl | rfl | rfl | rfl | rfl | rfl <;> exact absurd digit (by decide)
  simp [noSpace]

theorem splitSign_of_isDigit {symbol : Char} {rest : Text}
    (digit : symbol.isDigit = true) :
    splitSign (symbol :: rest) = (false, symbol :: rest) := by
  unfold splitSign
  split
  next equality =>
    simp only [List.cons.injEq] at equality
    exact absurd equality.1 (ne_of_isDigit digit (by decide))
  next equality =>
    simp only [List.cons.injEq] at equality
    exact absurd equality.1 (ne_of_isDigit digit (by decide))
  next => rfl

theorem dropWhile_isSpace_natText (value : ℕ) :
    (natText value).dropWhile isSpace = natText value := by
  cases text : natText value with
  | nil => rfl
  | cons symbol rest =>
      have first : symbol ∈ natText value := by simp [text]
      exact dropWhile_isSpace_of_isDigit (isDigit_of_mem_natText first)

theorem splitSign_natText (value : ℕ) : splitSign (natText value) = (false, natText value) := by
  cases text : natText value with
  | nil => rfl
  | cons symbol rest =>
      have first : symbol ∈ natText value := by simp [text]
      exact splitSign_of_isDigit (isDigit_of_mem_natText first)

theorem stoi_toStringInt (value : ℤ) :
    stoi (toStringInt value) = if -2 ^ 31 ≤ value ∧ value < 2 ^ 31 then some value else none := by
  have digits (magnitude : ℕ) : (natText magnitude).takeWhile Char.isDigit = natText magnitude :=
    List.takeWhile_eq_self_iff.mpr fun _ membership => isDigit_of_mem_natText membership
  have read (magnitude : ℕ) : Nat.ofDigitChars 10 (natText magnitude) 0 = magnitude :=
    Nat.ofDigitChars_ten_toDigits
  cases value with
  | ofNat magnitude =>
      change stoi (natText magnitude) = _
      simp only [stoi, dropWhile_isSpace_natText, splitSign_natText, digits, natText_ne_nil,
        if_false, read, Bool.false_eq_true, Int.ofNat_eq_natCast]
  | negSucc magnitude =>
      change stoi ('-' :: natText (magnitude + 1)) = _
      have spaces : ('-' :: natText (magnitude + 1)).dropWhile isSpace =
          '-' :: natText (magnitude + 1) := by simp [isSpace]
      simp only [stoi, spaces, splitSign, digits, natText_ne_nil, if_false, read, if_true,
        Int.negSucc_eq, Nat.cast_add, Nat.cast_one]

theorem mem_toStringInt {value : ℤ} {symbol : Char} (membership : symbol ∈ toStringInt value) :
    symbol = '-' ∨ symbol.isDigit = true := by
  cases value with
  | ofNat magnitude => exact .inr (isDigit_of_mem_natText membership)
  | negSucc magnitude =>
      rcases List.mem_cons.mp membership with rfl | digit
      · exact .inl rfl
      · exact .inr (isDigit_of_mem_natText digit)

theorem toStringInt_ne_nil (value : ℤ) : toStringInt value ≠ [] := by
  cases value with
  | ofNat magnitude => exact natText_ne_nil magnitude
  | negSucc magnitude => exact List.cons_ne_nil _ _

end InertiaTrader
