import Mathlib

/-!
# Rationals with infinities and a value that is no number

The exact counterpart of a floating-point type: finite values are rationals,
and every comparison that involves `nan` is false.  In particular `≤` is not
reflexive, so it is no preorder; the numbers alone are linearly ordered.
-/

namespace Foundation

inductive ExtendedRat where
  | nan
  | negInf
  | fin (value : ℚ)
  | posInf
  deriving DecidableEq

namespace ExtendedRat

def Le : ExtendedRat → ExtendedRat → Prop
  | nan, _ | _, nan => False
  | negInf, _ | _, posInf => True
  | fin first, fin second => first ≤ second
  | fin _, negInf | posInf, _ => False

def Lt : ExtendedRat → ExtendedRat → Prop
  | nan, _ | _, nan => False
  | negInf, negInf | posInf, posInf => False
  | negInf, _ | _, posInf => True
  | fin first, fin second => first < second
  | fin _, negInf | posInf, _ => False

instance : LE ExtendedRat := ⟨Le⟩

instance : LT ExtendedRat := ⟨Lt⟩

instance (first second : ExtendedRat) : Decidable (first ≤ second) := by
  change Decidable (Le first second)
  cases first <;> cases second <;> unfold Le <;> infer_instance

instance (first second : ExtendedRat) : Decidable (first < second) := by
  change Decidable (Lt first second)
  cases first <;> cases second <;> unfold Lt <;> infer_instance

def scale (factor : ℚ) : ExtendedRat → ExtendedRat
  | nan => nan
  | negInf => negInf
  | fin value => fin (value * factor)
  | posInf => posInf

@[simp]
theorem fin_le_fin {first second : ℚ} : fin first ≤ fin second ↔ first ≤ second := Iff.rfl

@[simp]
theorem fin_lt_fin {first second : ℚ} : fin first < fin second ↔ first < second := Iff.rfl

theorem le_self_of_le {first second : ExtendedRat} (below : first ≤ second) : first ≤ first := by
  cases first with
  | nan => exact below.elim
  | negInf | posInf => trivial
  | fin value => exact le_refl value

theorem le_antisymm {first second : ExtendedRat} (below : first ≤ second)
    (above : second ≤ first) : first = second := by
  cases first <;> cases second <;> first
    | rfl
    | exact below.elim
    | exact above.elim
    | exact congrArg fin (fin_le_fin.mp below |>.antisymm (fin_le_fin.mp above))

theorem le_trans {first second third : ExtendedRat} (lower : first ≤ second)
    (upper : second ≤ third) : first ≤ third := by
  cases first <;> cases second <;> cases third <;> first
    | trivial
    | exact lower.elim
    | exact upper.elim
    | exact (fin_le_fin.mp lower).trans (fin_le_fin.mp upper)

theorem le_total {first second : ExtendedRat} (number : first ≠ nan) (other : second ≠ nan) :
    first ≤ second ∨ second ≤ first := by
  cases first <;> cases second <;> first
    | exact absurd rfl number
    | exact absurd rfl other
    | exact .inl trivial
    | exact .inr trivial
    | exact Rat.le_total

theorem lt_iff_le_not_ge {first second : ExtendedRat} :
    first < second ↔ first ≤ second ∧ ¬ second ≤ first := by
  cases first <;> cases second <;> first
    | exact Rat.lt_iff_le_not_ge ..
    | exact ⟨fun below => below.elim, fun below => below.1.elim⟩
    | exact ⟨fun _ => ⟨trivial, id⟩, fun _ => trivial⟩
    | exact ⟨fun below => below.elim, fun below => (below.2 trivial).elim⟩

end ExtendedRat

@[ext]
structure Number where
  value : ExtendedRat
  isNumber : value ≠ .nan
  deriving DecidableEq

instance : LinearOrder Number where
  le first second := first.value ≤ second.value
  lt first second := first.value < second.value
  le_refl number := (ExtendedRat.le_total number.isNumber number.isNumber).elim id id
  le_trans _ _ _ := ExtendedRat.le_trans
  lt_iff_le_not_ge _ _ := ExtendedRat.lt_iff_le_not_ge
  le_antisymm _ _ below above := Number.ext (ExtendedRat.le_antisymm below above)
  le_total first second := ExtendedRat.le_total first.isNumber second.isNumber
  toDecidableLE first second := inferInstanceAs (Decidable (first.value ≤ second.value))
  toDecidableLT first second := inferInstanceAs (Decidable (first.value < second.value))

end Foundation
