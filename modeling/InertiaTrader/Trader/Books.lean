import InertiaTrader.Foundation.OrderedBag
import InertiaTrader.Server.Basic
import InertiaTrader.Trader.Order

/-!
# The raw books

`rawBuyside_` and `rawSellside_` are multisets of pointers, so their order is
the order of the addresses, not of the prices.  An order is never changed while
it rests in a book; a pointer therefore carries the order it points to.
-/

namespace InertiaTrader

open Foundation

/-- An `Order*` together with the object it points to. -/
structure OrderPtr where
  address : ℕ
  order : Order
  deriving DecidableEq

def OrderPtr.withExecPrice (pointer : OrderPtr) (execPrice : Price) : OrderPtr :=
  { pointer with order := { pointer.order with execPrice := some execPrice } }

def OrderPtr.unexecuted (pointer : OrderPtr) : OrderPtr :=
  { pointer with order := { pointer.order with execPrice := none } }

@[simp]
theorem OrderPtr.unexecuted_address (pointer : OrderPtr) :
    pointer.unexecuted.address = pointer.address := rfl

@[simp]
theorem OrderPtr.unexecuted_withExecPrice (pointer : OrderPtr) (execPrice : Price) :
    (pointer.withExecPrice execPrice).unexecuted = pointer.unexecuted := rfl

@[simp]
theorem OrderPtr.withExecPrice_address (pointer : OrderPtr) (execPrice : Price) :
    (pointer.withExecPrice execPrice).address = pointer.address := rfl

@[simp]
theorem OrderPtr.withExecPrice_side (pointer : OrderPtr) (execPrice : Price) :
    (pointer.withExecPrice execPrice).order.side_ = pointer.order.side_ := rfl

/-- `std::multiset<Order*>` -/
abbrev OrderSet := OrderedBag OrderPtr OrderPtr.address

/-- The members of `Trader` that decide what `matchup` executes. -/
@[ext]
structure Books where
  /-- The order received last; `none` before the first one. -/
  od : Option Order
  rawBuyside : OrderSet
  rawSellside : OrderSet

namespace Books

/-- The books of a trader that has received no order. -/
def empty : Books where
  od := none
  rawBuyside := .empty
  rawSellside := .empty

/-- `Trader::orderDataInsert` -/
def orderDataInsert (books : Books) (order : OrderPtr) : Books :=
  if order.order.side_ = some .buy then
    { books with rawBuyside := books.rawBuyside.insert order }
  else
    { books with rawSellside := books.rawSellside.insert order }

/-- The `for` loop of `matchup`: the buy orders from `it` on, against the last
sell order.  The price compared is the one of the member `od`. -/
def scan (od : Order) (ods : OrderPtr) : List OrderPtr → ℕ → Option (ℕ × OrderPtr)
  | [], _ => none
  | odb :: rest, it =>
      if ods.order.orderPrice ≤ od.orderPrice then some (it, odb) else scan od ods rest (it + 1)

/-- One pass of `matchup`: the books afterwards and the pair that it pushes to
`reportList_`, if any. -/
def matchup (books : Books) : Except Fault (Books × Option (OrderPtr × OrderPtr)) :=
  match books.rawBuyside.items, books.rawSellside.items.getLast? with
  | [], _ | _, none => .ok (books, none)
  | buys@(_ :: _), some ods =>
      match books.od with
      | none => .error .nullPointer
      | some od =>
          match scan od ods buys 0 with
          | none => .ok (books, none)
          | some (it, odb) =>
              let execPrice := ods.order.orderPrice
              .ok ({ books with
                  rawSellside := books.rawSellside.erase (books.rawSellside.items.length - 1)
                  rawBuyside := books.rawBuyside.erase it },
                some (odb.withExecPrice execPrice, ods.withExecPrice execPrice))

theorem orderDataInsert_xor (books : Books) (order : OrderPtr)
    (fresh : ∀ pointer ∈ books.rawBuyside.items ++ books.rawSellside.items,
      pointer.address ≠ order.address) :
    Xor (order ∈ (books.orderDataInsert order).rawBuyside.items)
      (order ∈ (books.orderDataInsert order).rawSellside.items) := by
  have notBuy : order ∉ books.rawBuyside.items := fun membership =>
    fresh order (List.mem_append_left _ membership) rfl
  have notSell : order ∉ books.rawSellside.items := fun membership =>
    fresh order (List.mem_append_right _ membership) rfl
  unfold orderDataInsert
  split <;> simp [Xor, notBuy, notSell]

/-- The test of the loop does not look at the buy order, so it fails for all of
them or succeeds for the first. -/
theorem scan_eq_none {od : Order} {ods : OrderPtr}
    (below : ¬ ods.order.orderPrice ≤ od.orderPrice) (buys : List OrderPtr) (it : ℕ) :
    scan od ods buys it = none := by
  induction buys generalizing it with
  | nil => rfl
  | cons odb rest inductionHypothesis => rw [scan, if_neg below, inductionHypothesis]

/-- What a pass can do: the pair is the buy order of the lowest address and the
sell order of the highest. -/
inductive Pass (books : Books) : Books → Option (OrderPtr × OrderPtr) → Prop where
  | idle :
      (∀ od odb ods, books.od = some od → books.rawBuyside.items.head? = some odb →
        books.rawSellside.items.getLast? = some ods →
        ¬ ods.order.orderPrice ≤ od.orderPrice) →
      Pass books books none
  | executes (od : Order) (odb ods : OrderPtr) :
      books.od = some od → books.rawBuyside.items.head? = some odb →
      books.rawSellside.items.getLast? = some ods →
      ods.order.orderPrice ≤ od.orderPrice →
      Pass books
        { books with
          rawSellside := books.rawSellside.erase (books.rawSellside.items.length - 1)
          rawBuyside := books.rawBuyside.erase 0 }
        (some (odb.withExecPrice ods.order.orderPrice, ods.withExecPrice ods.order.orderPrice))

/-- A pass takes one order out of each book; the pair is these two, at the
price of the sell order. -/
theorem Pass.removes {books next : Books} {odb ods : OrderPtr}
    (pass : Pass books next (some (odb, ods))) :
    ∃ buy sell, odb = buy.withExecPrice sell.order.orderPrice ∧
      ods = sell.withExecPrice sell.order.orderPrice ∧
      (buy :: next.rawBuyside.items).Perm books.rawBuyside.items ∧
      (sell :: next.rawSellside.items).Perm books.rawSellside.items := by
  cases pass with
  | executes od buy sell _ first last _ =>
      refine ⟨buy, sell, rfl, rfl, ?_, ?_⟩
      · exact OrderedBag.cons_erase_items_perm (by rw [← List.head?_eq_getElem?, first])
      · exact OrderedBag.cons_erase_items_perm (by rw [← List.getLast?_eq_getElem?, last])

def NextPair (books : Books) (odb ods : OrderPtr) : Prop :=
  ∃ od, books.od = some od ∧ books.rawBuyside.items.head? = some odb ∧
    books.rawSellside.items.getLast? = some ods ∧ ods.order.orderPrice ≤ od.orderPrice

theorem NextPair.unique {books : Books} {odb odb' ods ods' : OrderPtr}
    (pair : books.NextPair odb ods) (pair' : books.NextPair odb' ods') :
    odb = odb' ∧ ods = ods' := by
  obtain ⟨_, -, first, last, -⟩ := pair
  obtain ⟨_, -, first', last', -⟩ := pair'
  exact ⟨Option.some.inj (first.symm.trans first'), Option.some.inj (last.symm.trans last')⟩

theorem Pass.nextPair {books next : Books} {odb ods : OrderPtr}
    (pass : books.Pass next (some (odb, ods))) :
    ∃ buy sell, books.NextPair buy sell ∧ odb = buy.withExecPrice sell.order.orderPrice ∧
      ods = sell.withExecPrice sell.order.orderPrice := by
  cases pass with
  | executes od buy sell received first last crossed =>
      exact ⟨buy, sell, ⟨od, received, first, last, crossed⟩, rfl, rfl⟩

theorem Pass.not_nextPair {books next : Books} (pass : books.Pass next none)
    {odb ods : OrderPtr} : ¬ books.NextPair odb ods := by
  cases pass with
  | idle nothing =>
      rintro ⟨od, received, first, last, crossed⟩
      exact nothing od odb ods received first last crossed

theorem matchup_cases {books next : Books} {pair : Option (OrderPtr × OrderPtr)}
    (finished : books.matchup = .ok (next, pair)) : Pass books next pair := by
  unfold matchup at finished
  split at finished
  next noBuys =>
    cases finished
    exact .idle fun _ _ _ _ first => by simp [noBuys] at first
  next noSells _ =>
    cases finished
    exact .idle fun _ _ _ _ _ last => by simp [noSells] at last
  next odb rest ods buys last =>
    split at finished
    next => cases finished
    next od received =>
      by_cases crossed : ods.order.orderPrice ≤ od.orderPrice
      · rw [scan, if_pos crossed] at finished
        cases finished
        exact .executes od odb ods received (by rw [buys, List.head?_cons]) last crossed
      · rw [scan_eq_none crossed] at finished
        cases finished
        refine .idle fun od' _ ods' received' _ last' => ?_
        rw [received, Option.some.injEq] at received'
        rw [last, Option.some.injEq] at last'
        rwa [← received', ← last']

theorem matchup_of_pass {books next : Books} {odb ods : OrderPtr}
    (pass : Pass books next (some (odb, ods))) :
    books.matchup = .ok (next, some (odb, ods)) := by
  cases pass with
  | executes od buy sell received first last crossed =>
      obtain ⟨rest, buys⟩ : ∃ rest, books.rawBuyside.items = buy :: rest :=
        List.head?_eq_some_iff.mp first
      unfold matchup
      simp only [buys, last, received, scan, if_pos crossed]

theorem received_of_matchup {books next : Books} {pair : Option (OrderPtr × OrderPtr)}
    {odb ods : OrderPtr} (finished : books.matchup = .ok (next, pair))
    (first : books.rawBuyside.items.head? = some odb)
    (last : books.rawSellside.items.getLast? = some ods) : ∃ od, books.od = some od := by
  obtain ⟨rest, buys⟩ : ∃ rest, books.rawBuyside.items = odb :: rest :=
    List.head?_eq_some_iff.mp first
  cases received : books.od with
  | some od => exact ⟨od, rfl⟩
  | none =>
      unfold matchup at finished
      simp only [buys, last, received] at finished
      cases finished

theorem matchup_of_not_nextPair {books : Books}
    (received : books.od = none → books.rawBuyside.items = [])
    (nothing : ∀ odb ods, ¬ books.NextPair odb ods) : books.matchup = .ok (books, none) := by
  unfold matchup
  split
  next => rfl
  next => rfl
  next odb rest ods buys last =>
    split
    next absent =>
      rw [buys] at received
      exact absurd (received absent) (by simp)
    next od present =>
      have below : ¬ ods.order.orderPrice ≤ od.orderPrice := by
        intro crossed
        exact nothing odb ods ⟨od, present, by rw [buys, List.head?_cons], last, crossed⟩
      rw [scan_eq_none below]

/-- Another order received last makes no difference to a pass that takes the same
pair with it. -/
theorem matchup_with_od {books next : Books} {pair : Option (OrderPtr × OrderPtr)}
    (finished : books.matchup = .ok (next, pair)) {od : Option Order}
    (received : od = none → books.rawBuyside.items = [])
    (same : ∀ odb ods, books.NextPair odb ods ↔ { books with od }.NextPair odb ods) :
    { books with od }.matchup = .ok ({ next with od }, pair) := by
  cases matchup_cases finished with
  | idle nothing =>
      apply matchup_of_not_nextPair received
      intro odb ods isNext
      obtain ⟨od', present, first, last, crossed⟩ := (same odb ods).mpr isNext
      exact nothing od' odb ods present first last crossed
  | executes od' odb ods present first last crossed =>
      obtain ⟨received', present', -, -, crossed'⟩ :=
        (same odb ods).mp ⟨od', present, first, last, crossed⟩
      exact matchup_of_pass (.executes received' odb ods present' first last crossed')

theorem matchup_of_noBuys {books : Books} (noBuys : books.rawBuyside.items = []) :
    books.matchup = .ok (books, none) := by
  unfold matchup
  simp only [noBuys]

end Books

end InertiaTrader
