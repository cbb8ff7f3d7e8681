import InertiaTrader.Foundation.KeyedTable

/-!
# Tables over time

What insertions and updates leave of a table: a key never disappears, whether a
key is taken depends on the keys alone, and what every update keeps of a row
stays as it is.
-/

namespace Foundation

universe u v

namespace KeyedTable

variable {Row : Type u} {Key : Type v} {key : Row → Key}

/-- The keys in the order in which they were inserted. -/
def keys (table : KeyedTable Row key) : List Key := table.rows.map key

@[simp]
theorem keys_update (selected : Row → Bool) (assign : Row → Row)
    (keeps : ∀ row, key (assign row) = key row) (table : KeyedTable Row key) :
    (table.update selected assign keeps).keys = table.keys := by
  unfold keys update
  rw [List.map_map]
  apply List.map_congr_left
  intro row _
  rw [Function.comp_apply]
  split
  next => exact keeps row
  next => rfl

variable [DecidableEq Key]

theorem insert_of_keys (row : Row) {table other : KeyedTable Row key}
    (same : table.keys = other.keys) :
    (table.insert row = none ∧ other.insert row = none) ∨
      ∃ extended extended', table.insert row = some extended ∧
        other.insert row = some extended' ∧ extended.keys = extended'.keys := by
  by_cases taken : key row ∈ table.keys
  · have taken' : key row ∈ other.keys := same ▸ taken
    exact .inl ⟨dif_pos taken, dif_pos taken'⟩
  · have free : key row ∉ other.keys := same ▸ taken
    refine .inr ⟨_, _, dif_neg taken, dif_neg free, ?_⟩
    change (table.rows ++ [row]).map key = (other.rows ++ [row]).map key
    rw [List.map_append, List.map_append]
    exact congrArg (· ++ [row].map key) same

/-- Every row of the first table is still in the second, changed at most in the
way that the relation allows. -/
def Evolves (change : Row → Row → Prop) (table later : KeyedTable Row key) : Prop :=
  ∀ wanted row, table.find? wanted = some row →
    ∃ row', later.find? wanted = some row' ∧ change row row'

section

variable {change : Row → Row → Prop} {table middle later : KeyedTable Row key}

theorem Evolves.refl (unchanged : ∀ row, change row row) (table : KeyedTable Row key) :
    table.Evolves change table :=
  fun _ row found => ⟨row, found, unchanged row⟩

theorem Evolves.trans (composes : ∀ first second third, change first second →
      change second third → change first third)
    (first : table.Evolves change middle) (second : middle.Evolves change later) :
    table.Evolves change later := by
  intro wanted row found
  obtain ⟨row', found', changed⟩ := first wanted row found
  obtain ⟨row'', found'', changed'⟩ := second wanted row' found'
  exact ⟨row'', found'', composes row row' row'' changed changed'⟩

theorem find?_of_insert {row : Row} (inserted : table.insert row = some later) {wanted : Key}
    {old : Row} (found : table.find? wanted = some old) : later.find? wanted = some old := by
  obtain ⟨membership, sameKey⟩ := find?_eq_some_iff.mp found
  apply find?_eq_some_iff.mpr ⟨_, sameKey⟩
  rw [(insert_eq_some_iff.mp inserted).2]
  exact List.mem_append_left _ membership

theorem Evolves.insert (unchanged : ∀ row, change row row) {row : Row}
    (inserted : table.insert row = some later) : table.Evolves change later :=
  fun _ old found => ⟨old, find?_of_insert inserted found, unchanged old⟩

theorem Evolves.update (unchanged : ∀ row, change row row) (selected : Row → Bool)
    (assign : Row → Row) (keeps : ∀ row, key (assign row) = key row)
    (assigned : ∀ row, change row (assign row)) (table : KeyedTable Row key) :
    table.Evolves change (table.update selected assign keeps) := by
  intro wanted row found
  refine ⟨if selected row then assign row else row, ?_, ?_⟩
  · rw [find?_update, found, Option.map_some]
  · split
    next => exact assigned row
    next => exact unchanged row

end

end KeyedTable

end Foundation
