import InertiaTrader.Foundation.Machine
import InertiaTrader.Trader.Books

/-!
# Conservation of orders

The books under arriving orders and passes of `matchup`, together with the
history of what was inserted and what was pushed to `reportList_`.
-/

namespace InertiaTrader

open Foundation

/-- What happens to the books. -/
inductive BookEvent where
  /-- The member `od` is assigned. -/
  | received (od : Order)
  | orderDataInsert (order : OrderPtr)
  | matchup

/-- What becomes visible of the books. -/
inductive BookOutput where
  | inserted (order : OrderPtr)
  | executed (odb ods : OrderPtr)
  deriving DecidableEq

def executedOrders (outputs : List BookOutput) : List OrderPtr :=
  outputs.flatMap fun
    | .executed odb ods => [odb, ods]
    | .inserted _ => []

def insertedOrders (outputs : List BookOutput) : List OrderPtr :=
  outputs.filterMap fun
    | .inserted order => some order
    | .executed .. => none

structure Matching extends Books where
  inserted : List OrderPtr := []
  pushed : List OrderPtr := []

namespace Matching

def empty : Matching := { Books.empty with }

/-- An inserted order was allocated by `new Order`, so its address is new. -/
def step (matching : Matching) : BookEvent → Option (Matching × List BookOutput)
  | .received od => some ({ matching with od := some od }, [])
  | .orderDataInsert order =>
      if order.address ∈ matching.inserted.map OrderPtr.address then none
      else
        some ({ matching with
          toBooks := matching.toBooks.orderDataInsert order
          inserted := matching.inserted ++ [order] }, [.inserted order])
  | .matchup =>
      match matching.toBooks.matchup with
      | .error _ => none
      | .ok (toBooks, none) => some ({ matching with toBooks }, [])
      | .ok (toBooks, some (odb, ods)) =>
          some ({ matching with toBooks, pushed := matching.pushed ++ [odb, ods] },
            [.executed odb ods])

/-- What a step can do, guards included. -/
inductive Step (matching : Matching) : BookEvent → Matching → List BookOutput → Prop where
  | receives (od : Order) :
      Step matching (.received od) { matching with od := some od } []
  | inserts (order : OrderPtr) :
      order.address ∉ matching.inserted.map OrderPtr.address →
      Step matching (.orderDataInsert order)
        { matching with
          toBooks := matching.toBooks.orderDataInsert order
          inserted := matching.inserted ++ [order] } [.inserted order]
  | rests : Step matching .matchup matching []
  | executes (toBooks : Books) (odb ods : OrderPtr) :
      matching.toBooks.Pass toBooks (some (odb, ods)) →
      Step matching .matchup { matching with toBooks, pushed := matching.pushed ++ [odb, ods] }
        [.executed odb ods]

theorem step_cases {matching next : Matching} {event : BookEvent}
    {outputs : List BookOutput}
    (stepped : matching.step event = some (next, outputs)) :
    Step matching event next outputs := by
  cases event with
  | received od =>
      cases stepped
      exact .receives od
  | orderDataInsert order =>
      simp only [step] at stepped
      split at stepped
      next => cases stepped
      next fresh =>
        cases stepped
        exact .inserts order fresh
  | matchup =>
      simp only [step] at stepped
      split at stepped
      next => cases stepped
      next toBooks passed =>
        cases stepped
        cases Books.matchup_cases passed with
        | idle => exact .rests
      next toBooks odb ods passed =>
        cases stepped
        exact .executes toBooks odb ods (Books.matchup_cases passed)

def listed (matching : Matching) : List OrderPtr :=
  matching.rawBuyside.items ++ matching.rawSellside.items ++ matching.pushed

def isBuy (order : OrderPtr) : Bool := order.order.side_ = some .buy

structure Conserved (matching : Matching) : Prop where
  fresh : (matching.inserted.map OrderPtr.address).Nodup
  listed : (matching.listed.map OrderPtr.unexecuted).Perm
    (matching.inserted.map OrderPtr.unexecuted)
  buyside : ∀ order ∈ matching.rawBuyside.items, isBuy order = true
  sellside : ∀ order ∈ matching.rawSellside.items, isBuy order = false
  balanced : matching.pushed.countP isBuy = matching.pushed.countP (fun order => !isBuy order)

theorem conserved_empty : Conserved .empty where
  fresh := .nil
  listed := .nil
  buyside := by simp [empty, Books.empty]
  sellside := by simp [empty, Books.empty]
  balanced := rfl

theorem moved_perm {Item : Type} [DecidableEq Item] {buy sell : Item}
    {buys buysAfter sells sellsAfter : List Item} (pushed : List Item)
    (buyRemoved : (buy :: buysAfter).Perm buys) (sellRemoved : (sell :: sellsAfter).Perm sells) :
    (buysAfter ++ sellsAfter ++ (pushed ++ [buy, sell])).Perm (buys ++ sells ++ pushed) := by
  rw [List.perm_iff_count] at buyRemoved sellRemoved ⊢
  intro item
  have buyCount := buyRemoved item
  have sellCount := sellRemoved item
  simp only [List.count_append, List.count_cons, List.count_nil] at buyCount sellCount ⊢
  omega

theorem conserved_insert {matching : Matching} {order : OrderPtr} (conserved : Conserved matching)
    (new : order.address ∉ matching.inserted.map OrderPtr.address) :
    Conserved { matching with
      toBooks := matching.toBooks.orderDataInsert order
      inserted := matching.inserted ++ [order] } := by
  have fresh : ((matching.inserted ++ [order]).map OrderPtr.address).Nodup := by
    rw [List.map_append, List.map_singleton, ← List.concat_eq_append]
    exact conserved.fresh.concat new
  have inserted : ((order :: matching.listed).map OrderPtr.unexecuted).Perm
      ((matching.inserted ++ [order]).map OrderPtr.unexecuted) := by
    rw [List.map_cons, List.map_append, List.map_singleton]
    exact (conserved.listed.cons _).trans (List.perm_append_singleton ..).symm
  by_cases side : order.order.side_ = some .buy
  · refine ⟨fresh, .trans (.map _ ?_) inserted, ?_, ?_, conserved.balanced⟩
    · simp only [Matching.listed, Books.orderDataInsert, side, if_true]
      exact ((matching.rawBuyside.insert_items_perm order).append_right _).append_right _
    · simp only [Books.orderDataInsert, side, if_true, OrderedBag.mem_insert_items]
      rintro other (rfl | membership)
      · simpa [isBuy] using side
      · exact conserved.buyside other membership
    · simpa only [Books.orderDataInsert, side, if_true] using conserved.sellside
  · refine ⟨fresh, .trans (.map _ ?_) inserted, ?_, ?_, conserved.balanced⟩
    · simp only [Matching.listed, Books.orderDataInsert, side, if_false]
      refine (((matching.rawSellside.insert_items_perm order).append_left _).append_right _).trans ?_
      exact (List.perm_middle).append_right _
    · simpa only [Books.orderDataInsert, side, if_false] using conserved.buyside
    · simp only [Books.orderDataInsert, side, if_false, OrderedBag.mem_insert_items]
      rintro other (rfl | membership)
      · simpa [isBuy] using side
      · exact conserved.sellside other membership

theorem conserved_pass {matching : Matching} {toBooks : Books} {odb ods : OrderPtr}
    (conserved : Conserved matching)
    (pass : matching.toBooks.Pass toBooks (some (odb, ods))) :
    Conserved { matching with toBooks, pushed := matching.pushed ++ [odb, ods] } := by
  obtain ⟨buy, sell, rfl, rfl, buyRemoved, sellRemoved⟩ := pass.removes
  have buySide := conserved.buyside buy (buyRemoved.subset (by simp))
  have sellSide := conserved.sellside sell (sellRemoved.subset (by simp))
  refine ⟨conserved.fresh, .trans ?_ conserved.listed, ?_, ?_, ?_⟩
  · simpa [Matching.listed] using moved_perm (matching.pushed.map OrderPtr.unexecuted)
      (buyRemoved.map OrderPtr.unexecuted) (sellRemoved.map OrderPtr.unexecuted)
  · intro order membership
    exact conserved.buyside order (buyRemoved.subset (List.mem_cons_of_mem buy membership))
  · intro order membership
    exact conserved.sellside order (sellRemoved.subset (List.mem_cons_of_mem sell membership))
  · have balanced := conserved.balanced
    simp only [isBuy, decide_eq_true_eq, decide_eq_false_iff_not] at buySide sellSide
    simp only [isBuy] at balanced
    simp [isBuy, List.countP_append, buySide, sellSide, balanced]

theorem conserved_step {matching next : Matching} {event : BookEvent}
    {outputs : List BookOutput} (conserved : Conserved matching)
    (stepped : matching.step event = some (next, outputs)) : Conserved next := by
  cases step_cases stepped with
  | receives od => exact ⟨conserved.fresh, conserved.listed, conserved.buyside, conserved.sellside,
      conserved.balanced⟩
  | inserts order new => exact conserved_insert conserved new
  | rests => exact conserved
  | executes toBooks odb ods pass => exact conserved_pass conserved pass

end Matching

/-- The books as a machine. -/
def matching : Machine Matching BookEvent BookOutput := ⟨Matching.step⟩

namespace Matching

theorem conserved_run {state last : Matching} {events : List BookEvent}
    {outputs : List BookOutput} (conserved : Conserved state)
    (finished : matching.run state events = some (last, outputs)) : Conserved last := by
  apply matching.invariant_of_run (fun state _ => Conserved state) _ conserved finished
  intro current _ event next outputs conserved stepped
  exact conserved_step conserved stepped

theorem histories_run {state last : Matching} {events : List BookEvent}
    {outputs : List BookOutput} (finished : matching.run state events = some (last, outputs)) :
    last.inserted = state.inserted ++ insertedOrders outputs ∧
      last.pushed = state.pushed ++ executedOrders outputs := by
  apply matching.invariant_of_run
    (fun current seen => current.inserted = state.inserted ++ insertedOrders seen ∧
      current.pushed = state.pushed ++ executedOrders seen)
    _ ⟨by simp [insertedOrders], by simp [executedOrders]⟩ finished
  rintro current seen event next outputs ⟨inserted, pushed⟩ stepped
  cases step_cases stepped <;>
    simp [inserted, pushed, insertedOrders, executedOrders]

def occurrences (order : OrderPtr) (orders : List OrderPtr) : ℕ :=
  orders.countP fun other => other.address = order.address

/-- A pass changes nothing, or takes one order out of each book and pushes
exactly these two, at the price of the sell order. -/
def PassEffect (state next : Matching) : Prop :=
  next = state ∨
    ∃ odb ods, state.rawBuyside.items.Perm (odb :: next.rawBuyside.items) ∧
      state.rawSellside.items.Perm (ods :: next.rawSellside.items) ∧
      next.pushed = state.pushed ++ [odb.withExecPrice ods.order.orderPrice,
        ods.withExecPrice ods.order.orderPrice] ∧
      next.inserted = state.inserted

/-- Orders are neither lost nor duplicated nor put on the wrong side. -/
structure ConservesOrders (state : Matching) : Prop where
  once : ∀ order ∈ state.inserted,
    occurrences order state.rawBuyside.items + occurrences order state.rawSellside.items +
      occurrences order state.pushed = 1
  known : ∀ order ∈ state.rawBuyside.items ++ state.rawSellside.items ++ state.pushed,
    ∃ original ∈ state.inserted, order.unexecuted = original.unexecuted
  buyside : ∀ order ∈ state.rawBuyside.items, order.order.side_ = some .buy
  sellside : ∀ order ∈ state.rawSellside.items, order.order.side_ ≠ some .buy
  pass : ∀ next outputs, state.step .matchup = some (next, outputs) → PassEffect state next
  balanced : state.pushed.countP (fun order => order.order.side_ = some .buy) =
    state.pushed.countP (fun order => order.order.side_ ≠ some .buy)

theorem map_address_unexecuted (orders : List OrderPtr) :
    (orders.map OrderPtr.unexecuted).map OrderPtr.address = orders.map OrderPtr.address := by
  rw [List.map_map]
  rfl

theorem Conserved.addresses_perm {state : Matching} (conserved : Conserved state) :
    (state.listed.map OrderPtr.address).Perm (state.inserted.map OrderPtr.address) := by
  have moved := conserved.listed.map OrderPtr.address
  rwa [map_address_unexecuted, map_address_unexecuted] at moved

theorem Conserved.addresses_nodup {state : Matching} (conserved : Conserved state) :
    (state.listed.map OrderPtr.address).Nodup :=
  conserved.addresses_perm.nodup_iff.mpr conserved.fresh

theorem Conserved.once {state : Matching} (conserved : Conserved state) {order : OrderPtr}
    (membership : order ∈ state.inserted) : occurrences order state.listed = 1 := by
  have counted : occurrences order state.listed =
      (state.listed.map OrderPtr.address).count order.address := by
    simp only [occurrences, List.count, List.countP_map]
    rfl
  rw [counted]
  exact List.count_eq_one_of_mem conserved.addresses_nodup
    (conserved.addresses_perm.mem_iff.mpr (List.mem_map_of_mem membership))

theorem Conserved.original {state : Matching} (conserved : Conserved state) {order : OrderPtr}
    (membership : order ∈ state.listed) :
    ∃ original ∈ state.inserted, order.unexecuted = original.unexecuted := by
  have moved := conserved.listed.subset (List.mem_map_of_mem membership)
  obtain ⟨original, inserted, same⟩ := List.mem_map.mp moved
  exact ⟨original, inserted, same.symm⟩

theorem Conserved.not_pushed {state : Matching} (conserved : Conserved state) {order : OrderPtr}
    (membership : order ∈ state.rawBuyside.items ++ state.rawSellside.items) :
    order.address ∉ state.pushed.map OrderPtr.address := by
  have nodup := conserved.addresses_nodup
  rw [Matching.listed, List.map_append, List.nodup_append] at nodup
  intro pushed
  exact nodup.2.2 _ (List.mem_map_of_mem membership) _ pushed rfl

theorem step_matchup_effect {state next : Matching} {outputs : List BookOutput}
    (stepped : state.step .matchup = some (next, outputs)) : PassEffect state next := by
  cases step_cases stepped with
  | rests => exact .inl rfl
  | executes toBooks odb ods pass =>
      obtain ⟨buy, sell, rfl, rfl, buyRemoved, sellRemoved⟩ := pass.removes
      exact .inr ⟨buy, sell, buyRemoved.symm, sellRemoved.symm, rfl, rfl⟩

end Matching

/-- From empty books, whatever is inserted and however often `matchup` passes. -/
theorem matching_conserves_orders (events : List BookEvent) (state : Matching)
    (outputs : List BookOutput)
    (finished : matching.run .empty events = some (state, outputs)) :
    state.ConservesOrders := by
  have conserved := Matching.conserved_run Matching.conserved_empty finished
  refine ⟨fun order membership => ?_, fun order membership => ?_, fun order membership => ?_,
    fun order membership => ?_, fun _ _ => Matching.step_matchup_effect, ?_⟩
  · have once := conserved.once membership
    simpa only [Matching.occurrences, Matching.listed, List.countP_append] using once
  · exact conserved.original membership
  · simpa [Matching.isBuy] using conserved.buyside order membership
  · simpa [Matching.isBuy] using conserved.sellside order membership
  · simp only [ne_eq, decide_not]
    exact conserved.balanced

theorem matching_conserves_orders_pair :
    ∃ state outputs,
      matching.run .empty
        [.received { nid := [], orderPrice := .fin 60, side := 1 },
          .orderDataInsert ⟨10, { nid := [], orderPrice := .fin 60, side := 1, side_ := some .buy }⟩,
          .orderDataInsert ⟨20, { nid := [], orderPrice := .fin 60, side := 2, side_ := some .sell }⟩,
          .matchup] = some (state, outputs) ∧
      (executedOrders outputs).length = 2 ∧ state.ConservesOrders := by
  obtain ⟨state, outputs, finished, executed⟩ :=
    Machine.exists_run_of_any matching .empty
      [.received { nid := [], orderPrice := .fin 60, side := 1 },
        .orderDataInsert ⟨10, { nid := [], orderPrice := .fin 60, side := 1, side_ := some .buy }⟩,
        .orderDataInsert ⟨20, { nid := [], orderPrice := .fin 60, side := 2, side_ := some .sell }⟩,
        .matchup]
      (fun _ outputs => decide ((executedOrders outputs).length = 2)) (by decide +kernel)
  exact ⟨state, outputs, finished, of_decide_eq_true executed,
    matching_conserves_orders _ _ _ finished⟩

end InertiaTrader
