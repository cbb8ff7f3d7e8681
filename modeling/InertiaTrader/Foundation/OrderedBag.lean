import Mathlib

/-!
# Bags kept in the order of a key

The items of an ordered multiset, listed from its first to its last position.
Only the key decides where an item stands; erasing names a position.
-/

namespace Foundation

universe u

@[ext]
structure OrderedBag (Item : Type u) (key : Item → Nat) where
  items : List Item
  ordered : items.Pairwise fun first second => key first ≤ key second

namespace OrderedBag

variable {Item : Type u} {key : Item → Nat}

def empty : OrderedBag Item key := ⟨[], .nil⟩

@[simp]
theorem empty_items : (empty : OrderedBag Item key).items = [] := rfl

def insert (item : Item) (bag : OrderedBag Item key) : OrderedBag Item key :=
  ⟨bag.items.orderedInsert (fun first second => key first ≤ key second) item, by
    have total : Std.Total fun first second : Item => key first ≤ key second :=
      ⟨fun first second => Nat.le_total (key first) (key second)⟩
    have transitive : IsTrans Item fun first second => key first ≤ key second :=
      ⟨fun _ _ _ => Nat.le_trans⟩
    exact bag.ordered.orderedInsert _ _⟩

theorem insert_items_perm (item : Item) (bag : OrderedBag Item key) :
    (bag.insert item).items.Perm (item :: bag.items) :=
  List.perm_orderedInsert _ item bag.items

@[simp]
theorem mem_insert_items {item other : Item} {bag : OrderedBag Item key} :
    other ∈ (bag.insert item).items ↔ other = item ∨ other ∈ bag.items := by
  rw [(bag.insert_items_perm item).mem_iff, List.mem_cons]

theorem getLast?_insert_items {item last : Item} {bag : OrderedBag Item key}
    (isLast : bag.items.getLast? = some last) (below : key item < key last) :
    (bag.insert item).items.getLast? = some last := by
  change (bag.items.orderedInsert (fun first second => key first ≤ key second) item).getLast? = _
  generalize bag.items = items at isLast ⊢
  induction items with
  | nil => cases isLast
  | cons head rest inductionHypothesis =>
      rw [List.orderedInsert]
      split
      next => rwa [List.getLast?_cons_cons]
      next above =>
        cases rest with
        | nil =>
            cases isLast
            exact absurd below.le above
        | cons =>
            rw [List.getLast?_cons_cons] at isLast
            have later := inductionHypothesis isLast
            rw [List.getLast?_cons, later]
            rfl

def erase (bag : OrderedBag Item key) (position : Nat) : OrderedBag Item key :=
  ⟨bag.items.eraseIdx position, bag.ordered.sublist (List.eraseIdx_sublist ..)⟩

theorem cons_erase_items_perm {bag : OrderedBag Item key} {position : Nat} {item : Item}
    (found : bag.items[position]? = some item) :
    (item :: (bag.erase position).items).Perm bag.items := by
  obtain ⟨inside, rfl⟩ := List.getElem?_eq_some_iff.mp found
  exact List.getElem_cons_eraseIdx_perm inside

end OrderedBag

end Foundation
