import InertiaTrader.Foundation.Tokens
import InertiaTrader.Funclib.Standard

/-!
# Splitting texts

`split` copies its argument with `strcpy`, which stops at a NUL, and hands the
copy to `strtok` until no token is left.  Between these calls `strtok` keeps its
position in a static variable, so the result is that of a call of `split` during
which no other thread calls it.
-/

namespace InertiaTrader

open Foundation

/-- What `strcpy` copies of a text. -/
def cString (text : Text) : Text := text.takeWhile (· ≠ '\x00')

def split (str delim : Text) : List Text :=
  if str = [] then []
  else tokens (fun symbol => decide (symbol ∈ cString delim)) (cString str)

def isDelimiter (delimiter symbol : Char) : Bool := symbol = delimiter

theorem cString_of_noNul {text : Text} (noNul : '\x00' ∉ text) : cString text = text := by
  rw [cString, List.takeWhile_eq_self_iff]
  rintro symbol membership
  simp only [ne_eq, decide_not, Bool.not_eq_eq_eq_not, Bool.not_true, decide_eq_false_iff_not]
  rintro rfl
  exact noNul membership

theorem noNul_of_mem_split {str delim part : Text} (listed : part ∈ split str delim) :
    '\x00' ∉ part := by
  unfold split at listed
  split at listed
  next => simp at listed
  next =>
    intro membership
    have copied : '\x00' ∈ cString str := mem_of_mem_tokens listed membership
    simpa using List.mem_takeWhile_imp copied

theorem split_eq_tokens {text : Text} {delimiter : Char}
    (noNul : '\x00' ∉ text) (printable : delimiter ≠ '\x00') :
    split text [delimiter] = tokens (isDelimiter delimiter) text := by
  have delimiterText : cString [delimiter] = [delimiter] :=
    cString_of_noNul (by simpa using printable.symm)
  have sameTest : (fun symbol => decide (symbol ∈ [delimiter])) = isDelimiter delimiter := by
    funext symbol
    simp [isDelimiter]
  rw [split, cString_of_noNul noNul, delimiterText, sameTest]
  split
  next empty => rw [empty, tokens_nil]
  next => rfl

theorem split_append_delimiter {first rest : Text} {delimiter : Char}
    (firstNoNul : '\x00' ∉ first) (restNoNul : '\x00' ∉ rest)
    (printable : delimiter ≠ '\x00') :
    split (first ++ delimiter :: rest) [delimiter] =
      split first [delimiter] ++ split rest [delimiter] := by
  have noNul : '\x00' ∉ first ++ delimiter :: rest := by
    simp [firstNoNul, restNoNul, printable.symm]
  rw [split_eq_tokens noNul printable, split_eq_tokens firstNoNul printable,
    split_eq_tokens restNoNul printable]
  exact tokens_append_separator first rest delimiter (by simp [isDelimiter])

theorem split_plain {text : Text} {delimiter : Char}
    (nonempty : text ≠ []) (noNul : '\x00' ∉ text) (printable : delimiter ≠ '\x00')
    (plain : delimiter ∉ text) :
    split text [delimiter] = [text] := by
  rw [split_eq_tokens noNul printable]
  refine tokens_plain nonempty fun symbol membership => ?_
  simp only [isDelimiter, decide_eq_false_iff_not]
  rintro rfl
  exact plain membership

end InertiaTrader
