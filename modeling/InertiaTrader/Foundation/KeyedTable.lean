import Mathlib

/-!
# Tables with a primary key

Rows whose keys are pairwise distinct.  An insertion is refused when its key is
taken; an update rewrites rows in place and may not touch a key.
-/

namespace Foundation

universe u v

structure KeyedTable (Row : Type u) {Key : Type v} (key : Row → Key) where
  rows : List Row
  distinct : (rows.map key).Nodup

namespace KeyedTable

variable {Row : Type u} {Key : Type v} {key : Row → Key} [DecidableEq Key]

def empty : KeyedTable Row key := ⟨[], .nil⟩

/-- Append a row, unless its key is already in the table. -/
def insert (row : Row) (table : KeyedTable Row key) : Option (KeyedTable Row key) :=
  if taken : key row ∈ table.rows.map key then
    none
  else
    some ⟨table.rows ++ [row], by
      rw [List.map_append, List.map_singleton, ← List.concat_eq_append]
      exact table.distinct.concat taken⟩

theorem insert_eq_some_iff {row : Row} {table extended : KeyedTable Row key} :
    table.insert row = some extended ↔
      key row ∉ table.rows.map key ∧ extended.rows = table.rows ++ [row] := by
  unfold insert
  split
  next taken => simp [taken]
  next fresh =>
    cases extended
    simp [fresh, eq_comm]

/-- Rewrite the selected rows in place. -/
def update (selected : Row → Bool) (assign : Row → Row)
    (keeps : ∀ row, key (assign row) = key row) (table : KeyedTable Row key) :
    KeyedTable Row key :=
  ⟨table.rows.map fun row => if selected row then assign row else row, by
    have sameKeys : key ∘ (fun row => if selected row then assign row else row) = key := by
      funext row
      simp only [Function.comp_apply]
      split <;> simp [keeps]
    rw [List.map_map, sameKeys]
    exact table.distinct⟩

/-- The row stored under a key. -/
def find? (table : KeyedTable Row key) (wanted : Key) : Option Row :=
  table.rows.find? fun row => key row = wanted

theorem find?_eq_some_iff {table : KeyedTable Row key} {wanted : Key} {row : Row} :
    table.find? wanted = some row ↔ row ∈ table.rows ∧ key row = wanted := by
  constructor
  · intro found
    exact ⟨List.mem_of_find?_eq_some found, by simpa using List.find?_some found⟩
  · rintro ⟨membership, rfl⟩
    have isSome : (table.find? (key row)).isSome := by
      rw [find?, List.find?_isSome]
      exact ⟨row, membership, by simp⟩
    obtain ⟨other, found⟩ := Option.isSome_iff_exists.mp isSome
    have otherMembership := List.mem_of_find?_eq_some found
    have otherKey : key other = key row := by simpa using List.find?_some found
    -- A key occurs once, so the row found is the row asked for.
    rw [found, List.inj_on_of_nodup_map table.distinct otherMembership membership otherKey]

theorem find?_update (selected : Row → Bool) (assign : Row → Row)
    (keeps : ∀ row, key (assign row) = key row) (table : KeyedTable Row key) (wanted : Key) :
    (table.update selected assign keeps).find? wanted =
      (table.find? wanted).map fun row => if selected row then assign row else row := by
  unfold find? update
  rw [List.find?_map]
  congr 2
  funext row
  simp only [Function.comp_apply]
  split <;> simp [keeps]

/-- The frame rule: all rows but one keep their contents exactly when the
update assigns nothing new to any other selected row. -/
theorem update_frame_iff (selected : Row → Bool) (assign : Row → Row)
    (keeps : ∀ row, key (assign row) = key row) (table : KeyedTable Row key)
    (excepted : Key → Prop) :
    (∀ other, ¬ excepted other →
        (table.update selected assign keeps).find? other = table.find? other) ↔
      ∀ row ∈ table.rows, ¬ excepted (key row) → selected row = true → assign row = row := by
  constructor
  · intro kept row membership notExcepted isSelected
    have found := find?_eq_some_iff.mpr ⟨membership, rfl⟩
    have same := kept (key row) notExcepted
    rw [find?_update, found] at same
    simpa [isSelected] using same
  · intro unchanged other notExcepted
    rw [find?_update]
    cases found : table.find? other with
    | none => rfl
    | some row =>
        obtain ⟨membership, rfl⟩ := find?_eq_some_iff.mp found
        have same := unchanged row membership notExcepted
        simp only [Option.map_some, Option.some.injEq, ite_eq_right_iff]
        exact same

end KeyedTable

end Foundation
