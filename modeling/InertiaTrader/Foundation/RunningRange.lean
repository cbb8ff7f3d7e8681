import Mathlib

/-!
# Running ranges

The lowest, the last and the highest of a sequence of values, kept up to date one
value at a time.  A new value is compared with the highest only when it is not
below the lowest; that this is enough rests on the order of the three.
-/

namespace Foundation

universe u

structure RunningRange (Value : Type u) [LinearOrder Value] where
  low : Value
  last : Value
  high : Value
  low_le_last : low ≤ last
  last_le_high : last ≤ high

namespace RunningRange

variable {Value : Type u} [LinearOrder Value]

theorem low_le_high (range : RunningRange Value) : range.low ≤ range.high :=
  range.low_le_last.trans range.last_le_high

def record (range : RunningRange Value) (value : Value) : RunningRange Value :=
  if below : value < range.low then
    { range with
      low := value
      last := value
      low_le_last := le_refl value
      last_le_high := below.le.trans range.low_le_high }
  else if above : range.high < value then
    { range with
      last := value
      high := value
      low_le_last := not_lt.mp below
      last_le_high := le_refl value }
  else
    { range with
      last := value
      low_le_last := not_lt.mp below
      last_le_high := not_lt.mp above }

@[simp]
theorem record_last (range : RunningRange Value) (value : Value) :
    (range.record value).last = value := by
  unfold record
  split
  next => rfl
  next => split <;> rfl

theorem record_low (range : RunningRange Value) (value : Value) :
    (range.record value).low = min range.low value := by
  unfold record
  split
  next below => exact (min_eq_right below.le).symm
  next notBelow =>
    rw [min_eq_left (not_lt.mp notBelow)]
    split <;> rfl

theorem record_high (range : RunningRange Value) (value : Value) :
    (range.record value).high = max range.high value := by
  unfold record
  split
  next below =>
    -- The highest is not compared here, and need not be.
    exact (max_eq_left (below.le.trans range.low_le_high)).symm
  next =>
    split
    next above => exact (max_eq_right above.le).symm
    next notAbove => exact (max_eq_left (not_lt.mp notAbove)).symm

/-- The values that a range shows. -/
def shown (range : RunningRange Value) : Set Value := {range.low, range.last, range.high}

theorem isLeast_shown (range : RunningRange Value) : IsLeast range.shown range.low := by
  refine ⟨.inl rfl, ?_⟩
  rintro value (rfl | rfl | rfl)
  · exact le_refl _
  · exact range.low_le_last
  · exact range.low_le_high

theorem isGreatest_shown (range : RunningRange Value) : IsGreatest range.shown range.high := by
  refine ⟨.inr (.inr rfl), ?_⟩
  rintro value (rfl | rfl | rfl)
  · exact range.low_le_high
  · exact range.last_le_high
  · exact le_refl _

theorem foldl_record_last (range : RunningRange Value) (values : List Value) :
    (values.foldl record range).last = values.getLastD range.last := by
  induction values generalizing range with
  | nil => rfl
  | cons value values inductionHypothesis =>
      rw [List.foldl_cons, inductionHypothesis, record_last, List.getLastD_cons]

theorem isLeast_foldl_record {range : RunningRange Value} {seen : Set Value}
    (least : IsLeast seen range.low) (values : List Value) :
    IsLeast (seen ∪ {value | value ∈ values}) (values.foldl record range).low := by
  induction values generalizing range seen with
  | nil => simpa using least
  | cons value values inductionHypothesis =>
      have recorded : IsLeast (seen ∪ {value}) (range.record value).low := by
        rw [record_low]
        exact least.union isLeast_singleton
      have later := inductionHypothesis recorded
      rwa [Set.union_assoc, ← Set.insert_eq, ← List.setOfPred_mem_cons] at later

theorem isGreatest_foldl_record {range : RunningRange Value} {seen : Set Value}
    (greatest : IsGreatest seen range.high) (values : List Value) :
    IsGreatest (seen ∪ {value | value ∈ values}) (values.foldl record range).high := by
  induction values generalizing range seen with
  | nil => simpa using greatest
  | cons value values inductionHypothesis =>
      have recorded : IsGreatest (seen ∪ {value}) (range.record value).high := by
        rw [record_high]
        exact greatest.union isGreatest_singleton
      have later := inductionHypothesis recorded
      rwa [Set.union_assoc, ← Set.insert_eq, ← List.setOfPred_mem_cons] at later

end RunningRange

end Foundation
