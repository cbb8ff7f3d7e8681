import Mathlib

/-!
# Association lists

A map from keys to values as the list of its entries in the order of their keys.
-/

namespace Foundation

universe u v

variable {Key : Type u} {Value : Type v}

theorem lookup_mapValues [BEq Key] [LawfulBEq Key]
    (change : Key → Value → Value) (entries : List (Key × Value)) (key : Key) :
    (entries.map fun entry => (entry.1, change entry.1 entry.2)).lookup key =
      (entries.lookup key).map (change key) := by
  induction entries with
  | nil => rfl
  | cons entry entries inductionHypothesis =>
      rw [List.map_cons, List.lookup_cons, List.lookup_cons, inductionHypothesis]
      split
      next same => rw [eq_of_beq same, Option.map_some]
      next => rfl

theorem lookup_eq_some_iff_mem [BEq Key] [LawfulBEq Key] {entries : List (Key × Value)}
    (distinct : (entries.map Prod.fst).Nodup) {key : Key} {value : Value} :
    entries.lookup key = some value ↔ (key, value) ∈ entries := by
  induction entries with
  | nil => simp
  | cons entry entries inductionHypothesis =>
      obtain ⟨first, stored⟩ := entry
      rw [List.map_cons, List.nodup_cons] at distinct
      rw [List.lookup_cons, List.mem_cons, Prod.mk.injEq]
      split
      next same =>
        obtain rfl : key = first := eq_of_beq same
        constructor
        · intro found
          exact .inl ⟨rfl, (Option.some.inj found).symm⟩
        · rintro (⟨-, rfl⟩ | later)
          · rfl
          · exact absurd (List.mem_map_of_mem later) distinct.1
      next other =>
        rw [inductionHypothesis distinct.2]
        constructor
        · exact .inr
        · rintro (⟨rfl, -⟩ | later)
          · simp at other
          · exact later

section

variable [LinearOrder Key]

def insertNew (key : Key) (value : Value) (entries : List (Key × Value)) :
    List (Key × Value) :=
  if key ∈ entries.map Prod.fst then entries
  else entries.orderedInsert (fun first second => first.1 ≤ second.1) (key, value)

theorem insertNew_perm {key : Key} (value : Value) {entries : List (Key × Value)}
    (free : key ∉ entries.map Prod.fst) :
    (insertNew key value entries).Perm ((key, value) :: entries) := by
  rw [insertNew, if_neg free]
  exact List.perm_orderedInsert ..

theorem insertNew_nodup {key : Key} (value : Value) {entries : List (Key × Value)}
    (distinct : (entries.map Prod.fst).Nodup) :
    ((insertNew key value entries).map Prod.fst).Nodup := by
  by_cases taken : key ∈ entries.map Prod.fst
  · rwa [insertNew, if_pos taken]
  · rw [((insertNew_perm value taken).map Prod.fst).nodup_iff, List.map_cons, List.nodup_cons]
    exact ⟨taken, distinct⟩

theorem mem_keys_insertNew {key other : Key} {value : Value} {entries : List (Key × Value)} :
    other ∈ (insertNew key value entries).map Prod.fst ↔
      other = key ∨ other ∈ entries.map Prod.fst := by
  by_cases taken : key ∈ entries.map Prod.fst
  · rw [insertNew, if_pos taken]
    constructor
    · exact .inr
    · rintro (rfl | membership)
      · exact taken
      · exact membership
  · rw [((insertNew_perm value taken).map Prod.fst).mem_iff, List.map_cons, List.mem_cons]

theorem lookup_insertNew [BEq Key] [LawfulBEq Key] {key : Key} (value : Value)
    {entries : List (Key × Value)}
    (distinct : (entries.map Prod.fst).Nodup) (free : key ∉ entries.map Prod.fst) :
    (insertNew key value entries).lookup key = some value := by
  rw [lookup_eq_some_iff_mem (insertNew_nodup value distinct),
    (insertNew_perm value free).mem_iff]
  exact List.mem_cons_self

def insertAll (entries : List (Key × Value)) : List (Key × Value) :=
  entries.foldl (fun result entry => insertNew entry.1 entry.2 result) []

theorem insertAll_perm {entries : List (Key × Value)}
    (distinct : (entries.map Prod.fst).Nodup) : (insertAll entries).Perm entries := by
  suffices folded : ∀ result : List (Key × Value), ((entries ++ result).map Prod.fst).Nodup →
      (entries.foldl (fun result entry => insertNew entry.1 entry.2 result) result).Perm
        (entries ++ result) by
    have all := folded [] (by rwa [List.append_nil])
    rwa [List.append_nil] at all
  induction entries with
  | nil => exact fun result _ => .refl _
  | cons entry rest inductionHypothesis =>
      intro result fresh
      rw [List.cons_append, List.map_cons, List.nodup_cons, List.map_append] at fresh
      have free : entry.1 ∉ result.map Prod.fst := fun membership =>
        fresh.1 (List.mem_append_right _ membership)
      have inserted := insertNew_perm entry.2 free
      have later := inductionHypothesis (List.nodup_cons.mp distinct).2
        (insertNew entry.1 entry.2 result) (by
          rw [List.map_append]
          refine ((List.Perm.append_left (rest.map Prod.fst)
            (inserted.map Prod.fst)).nodup_iff).mpr ?_
          rw [List.map_cons, List.perm_middle.nodup_iff, List.nodup_cons]
          exact fresh)
      rw [List.foldl_cons]
      refine later.trans ?_
      rw [List.cons_append]
      exact (List.Perm.append_left rest inserted).trans List.perm_middle

theorem insertAll_nodup {entries : List (Key × Value)}
    (distinct : (entries.map Prod.fst).Nodup) : ((insertAll entries).map Prod.fst).Nodup :=
  ((insertAll_perm distinct).map Prod.fst).nodup_iff.mpr distinct

theorem lookup_insertAll_iff [BEq Key] [LawfulBEq Key] {entries : List (Key × Value)}
    (distinct : (entries.map Prod.fst).Nodup) {key : Key} {value : Value} :
    (insertAll entries).lookup key = some value ↔ (key, value) ∈ entries := by
  rw [lookup_eq_some_iff_mem (insertAll_nodup distinct), (insertAll_perm distinct).mem_iff]

def insertOrAssign (key : Key) (value : Value) : List (Key × Value) → List (Key × Value)
  | [] => [(key, value)]
  | entry :: entries =>
      if entry.1 < key then entry :: insertOrAssign key value entries
      else if entry.1 = key then (key, value) :: entries
      else (key, value) :: entry :: entries

theorem lookup_insertOrAssign [BEq Key] [LawfulBEq Key] (key : Key) (value : Value)
    (entries : List (Key × Value)) (other : Key) :
    (insertOrAssign key value entries).lookup other =
      if other = key then some value else entries.lookup other := by
  have first (rest : List (Key × Value)) : ((key, value) :: rest).lookup other =
      if other = key then some value else rest.lookup other := by
    rw [List.lookup_cons]
    by_cases same : other = key
    · rw [if_pos same, beq_iff_eq.mpr same]
    · rw [if_neg same, beq_eq_false_iff_ne.mpr same]
  induction entries with
  | nil => exact first []
  | cons entry entries inductionHypothesis =>
      rw [insertOrAssign]
      split
      next before =>
        rw [List.lookup_cons, inductionHypothesis, List.lookup_cons]
        split
        next same =>
          rw [if_neg]
          intro equal
          exact absurd (eq_of_beq same ▸ equal) before.ne
        next => rfl
      next =>
        split
        next taken =>
          rw [first, List.lookup_cons]
          split
          next => rfl
          next different =>
            rw [taken, beq_eq_false_iff_ne.mpr different]
        next => exact first _

def assignAll (writes entries : List (Key × Value)) : List (Key × Value) :=
  writes.foldl (fun result entry => insertOrAssign entry.1 entry.2 result) entries

theorem assignAll_append (first second entries : List (Key × Value)) :
    assignAll (first ++ second) entries = assignAll second (assignAll first entries) :=
  List.foldl_append

end

def LastAssigned (writes : List (Key × Value)) (key : Key) (value : Value) : Prop :=
  ∃ earlier later, writes = earlier ++ (key, value) :: later ∧ key ∉ later.map Prod.fst

theorem LastAssigned.mem {writes : List (Key × Value)} {key : Key} {value : Value}
    (last : LastAssigned writes key value) : key ∈ writes.map Prod.fst := by
  obtain ⟨earlier, later, rfl, _⟩ := last
  rw [List.map_append, List.map_cons]
  exact List.mem_append_right _ List.mem_cons_self

theorem lastAssigned_cons_iff {entry : Key × Value} {writes : List (Key × Value)} {key : Key}
    {value : Value} :
    LastAssigned (entry :: writes) key value ↔
      LastAssigned writes key value ∨ (entry = (key, value) ∧ key ∉ writes.map Prod.fst) := by
  constructor
  · rintro ⟨earlier, later, split, fresh⟩
    cases earlier with
    | nil =>
        obtain ⟨rfl, rfl⟩ := List.cons.inj split
        exact .inr ⟨rfl, fresh⟩
    | cons head earlier => exact .inl ⟨earlier, later, (List.cons.inj split).2, fresh⟩
  · rintro (⟨earlier, later, rfl, fresh⟩ | ⟨rfl, fresh⟩)
    · exact ⟨entry :: earlier, later, rfl, fresh⟩
    · exact ⟨[], writes, rfl, fresh⟩

theorem lastAssigned_append_iff {first second : List (Key × Value)} {key : Key} {value : Value} :
    LastAssigned (first ++ second) key value ↔
      LastAssigned second key value ∨
        (LastAssigned first key value ∧ key ∉ second.map Prod.fst) := by
  induction first with
  | nil =>
      rw [List.nil_append]
      refine ⟨.inl, fun either => either.resolve_right fun absent => ?_⟩
      exact absurd absent.1.mem List.not_mem_nil
  | cons entry first inductionHypothesis =>
      rw [List.cons_append, lastAssigned_cons_iff, lastAssigned_cons_iff, inductionHypothesis,
        List.map_append, List.mem_append, not_or]
      tauto

/-- What the items of a list write: the last write is in some item, and no item behind it
writes the key. -/
theorem lastAssigned_flatMap_iff {Item : Type u} {writes : Item → List (Key × Value)}
    {items : List Item} {key : Key} {value : Value} :
    LastAssigned (items.flatMap writes) key value ↔
      ∃ earlier item later, items = earlier ++ item :: later ∧
        LastAssigned (writes item) key value ∧
        ∀ other ∈ later, key ∉ (writes other).map Prod.fst := by
  have absentIff (list : List Item) : key ∉ (list.flatMap writes).map Prod.fst ↔
      ∀ other ∈ list, key ∉ (writes other).map Prod.fst := by
    rw [List.map_flatMap, List.mem_flatMap]
    push Not
    rfl
  induction items with
  | nil =>
      refine ⟨fun last => absurd last.mem List.not_mem_nil, ?_⟩
      rintro ⟨earlier, item, later, split, _⟩
      exact absurd split (by simp)
  | cons head items inductionHypothesis =>
      rw [List.flatMap_cons, lastAssigned_append_iff, absentIff]
      refine (or_congr_left inductionHypothesis).trans ?_
      constructor
      · rintro (⟨earlier, item, later, rfl, last, fresh⟩ | ⟨last, fresh⟩)
        · exact ⟨head :: earlier, item, later, rfl, last, fresh⟩
        · exact ⟨[], head, items, rfl, last, fresh⟩
      · rintro ⟨earlier, item, later, split, last, fresh⟩
        cases earlier with
        | nil =>
            obtain ⟨rfl, rfl⟩ := List.cons.inj split
            exact .inr ⟨last, fresh⟩
        | cons first earlier =>
            exact .inl ⟨earlier, item, later, (List.cons.inj split).2, last, fresh⟩

theorem LastAssigned.unique {writes : List (Key × Value)} {key : Key} {value other : Value}
    (last : LastAssigned writes key value) (last' : LastAssigned writes key other) :
    value = other := by
  induction writes with
  | nil => exact absurd last.mem List.not_mem_nil
  | cons entry writes inductionHypothesis =>
      rcases lastAssigned_cons_iff.mp last with later | ⟨same, absent⟩
      · rcases lastAssigned_cons_iff.mp last' with later' | ⟨_, absent'⟩
        · exact inductionHypothesis later later'
        · exact absurd later.mem absent'
      · rcases lastAssigned_cons_iff.mp last' with later' | ⟨same', _⟩
        · exact absurd later'.mem absent
        · exact (Prod.mk.inj (same.symm.trans same')).2

theorem exists_lastAssigned {writes : List (Key × Value)} {key : Key}
    (written : key ∈ writes.map Prod.fst) : ∃ value, LastAssigned writes key value := by
  induction writes with
  | nil => exact absurd written List.not_mem_nil
  | cons entry writes inductionHypothesis =>
      by_cases later : key ∈ writes.map Prod.fst
      · obtain ⟨value, last⟩ := inductionHypothesis later
        exact ⟨value, lastAssigned_cons_iff.mpr (.inl last)⟩
      · rw [List.map_cons, List.mem_cons] at written
        obtain rfl := written.resolve_right later
        exact ⟨entry.2, lastAssigned_cons_iff.mpr (.inr ⟨rfl, later⟩)⟩

theorem lookup_assignAll_iff [LinearOrder Key] [BEq Key] [LawfulBEq Key]
    {writes entries : List (Key × Value)} {key : Key} {value : Value} :
    (assignAll writes entries).lookup key = some value ↔
      LastAssigned writes key value ∨
        (key ∉ writes.map Prod.fst ∧ entries.lookup key = some value) := by
  induction writes generalizing entries with
  | nil =>
      rw [assignAll, List.foldl_nil]
      refine ⟨fun found => .inr ⟨List.not_mem_nil, found⟩, fun either => ?_⟩
      rcases either with last | ⟨_, found⟩
      · exact absurd last.mem List.not_mem_nil
      · exact found
  | cons entry writes inductionHypothesis =>
      obtain ⟨written, stored⟩ := entry
      have step : assignAll ((written, stored) :: writes) entries =
          assignAll writes (insertOrAssign written stored entries) := rfl
      rw [step, inductionHypothesis, lookup_insertOrAssign, lastAssigned_cons_iff, List.map_cons,
        List.mem_cons, Prod.mk.injEq]
      by_cases same : key = written
      · rw [if_pos same, Option.some.injEq]
        tauto
      · rw [if_neg same]
        tauto

end Foundation
