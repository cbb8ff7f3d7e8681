import InertiaTrader.Funclib.Standard

/-!
# Faults

Code that can leave the defined behaviour of the program returns a `Fault` there.
-/

namespace InertiaTrader

/-- The ways in which a step leaves the defined behaviour of the program. -/
inductive Fault where
  /-- A vector is indexed past its end. -/
  | outOfRange
  /-- An exception of `std::stoi` or `std::stod` leaves the thread. -/
  | uncaughtException
  | nullPointer
  | endIterator
  /-- A member is read that was never set. -/
  | uninitialised
  deriving DecidableEq

def field (res : List Text) (index : ℕ) : Except Fault Text :=
  match res[index]? with
  | none => .error .outOfRange
  | some text => .ok text

def convert {Value : Type} (result : Option Value) : Except Fault Value :=
  match result with
  | none => .error .uncaughtException
  | some value => .ok value

theorem bind_eq_ok_iff {Value Result : Type} {first : Except Fault Value}
    {rest : Value → Except Fault Result} {result : Result} :
    first >>= rest = .ok result ↔ ∃ value, first = .ok value ∧ rest value = .ok result := by
  cases first with
  | error fault => simp [bind, Except.bind]
  | ok value => simp [bind, Except.bind]

theorem exists_bind_eq_ok_iff {Value Result : Type} {first : Except Fault Value}
    {rest : Value → Except Fault Result} :
    (∃ result, first >>= rest = .ok result) ↔
      ∃ value, first = .ok value ∧ ∃ result, rest value = .ok result := by
  simp only [bind_eq_ok_iff]
  constructor
  · rintro ⟨result, value, finished, returned⟩
    exact ⟨value, finished, result, returned⟩
  · rintro ⟨value, finished, result, returned⟩
    exact ⟨result, value, finished, returned⟩

@[simp]
theorem field_eq_ok_iff {res : List Text} {index : ℕ} {text : Text} :
    field res index = .ok text ↔ res[index]? = some text := by
  unfold field
  split
  next absent => simp [absent]
  next present => simp [present]

@[simp]
theorem convert_eq_ok_iff {Value : Type} {result : Option Value} {value : Value} :
    convert result = .ok value ↔ result = some value := by
  unfold convert
  split <;> simp

theorem exists_ok_of_any {Value : Type} (result : Except Fault Value) (property : Value → Bool)
    (evaluated : result.toOption.any property = true) :
    ∃ value, result = .ok value ∧ property value = true := by
  cases result with
  | error fault => cases evaluated
  | ok value => exact ⟨value, rfl, evaluated⟩

end InertiaTrader
