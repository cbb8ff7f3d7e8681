import InertiaTrader.Orders.HeldOrders

/-!
# What happens to an order

Apart from the matching thread, which executes and pushes orders, the threads put
orders into the books and report them, and do nothing else to them.
-/

namespace InertiaTrader

open Foundation

inductive StageEvent where
  | inserted
  | executed
  | pushed
  | reported
  deriving DecidableEq

/-- What an observation says of the order at this address. -/
def Observation.stageEvent (address : ℕ) : Observation → Option StageEvent
  | .inserted order => if order.address = address then some .inserted else none
  | .executed odb ods =>
      if odb.address = address ∨ ods.address = address then some .executed else none
  | .pushed order => if order.address = address then some .pushed else none
  | .reported order => if order.address = address then some .reported else none
  | _ => none

def Threads.listed (threads : Threads) : List OrderPtr :=
  threads.trader.reportList ++ threads.reporter.orders

/-- What a step of a thread other than `matchup` does to the orders. -/
inductive Threads.OtherStep (state next : Threads) (observations : List Observation) :
    Prop where
  | quiet :
      next.trader.rawBuyside = state.trader.rawBuyside →
      next.trader.rawSellside = state.trader.rawSellside →
      next.listed ⊆ state.listed → state.allocated ⊆ next.allocated →
      (∀ address, observations.filterMap (Observation.stageEvent address) = []) →
      OtherStep state next observations
  | inserts (order : OrderPtr) :
      order.address ∉ state.allocated → next.allocated = order.address :: state.allocated →
      next.trader.rawBuyside = (state.trader.toBooks.orderDataInsert order).rawBuyside →
      next.trader.rawSellside = (state.trader.toBooks.orderDataInsert order).rawSellside →
      next.listed = state.listed → state.trader.Accepts order.order →
      insertedIn observations = [order] →
      (∀ address, observations.filterMap (Observation.stageEvent address) =
        if order.address = address then [.inserted] else []) →
      OtherStep state next observations
  | reports (order : OrderPtr) :
      next.trader.rawBuyside = state.trader.rawBuyside →
      next.trader.rawSellside = state.trader.rawSellside →
      order ∈ state.listed → next.listed ⊆ state.listed → next.allocated = state.allocated →
      insertedIn observations = [] →
      (∀ address, observations.filterMap (Observation.stageEvent address) =
        if order.address = address then [.reported] else []) →
      OtherStep state next observations

section

variable {server : MariaDB} {state next : Threads} {event : Event}
    {observations : List Observation}

theorem insertedIn_of_quiet
    (silent : ∀ address, observations.filterMap (Observation.stageEvent address) = []) :
    insertedIn observations = [] := by
  rw [List.eq_nil_iff_forall_not_mem]
  intro order inserted
  have shown := List.filterMap_eq_nil_iff.mp (silent order.address) _ (mem_insertedIn.mp inserted)
  simp [Observation.stageEvent] at shown

theorem otherStep (stepped : state.step server event = some (next, observations))
    (notPass : event ≠ .matchup) (notPush : event ≠ .pushReport) :
    state.OtherStep next observations := by
  cases Threads.step_cases stepped with
  | communicates _ sr asking _ sends =>
      refine .quiet rfl rfl (List.Subset.refl _) (List.Subset.refl _) fun address => ?_
      exact Threads.filterMap_sends (fun _ _ => rfl) sends
  | rests => exact .quiet rfl rfl (List.Subset.refl _) (List.Subset.refl _) fun _ => rfl
  | handlesOrder address connected rest connId od cn trader _ fresh handling =>
      cases handling with
      | failed | insufficient =>
          exact .quiet rfl rfl (List.Subset.refl _) (List.subset_cons_self ..) fun _ => rfl
      | accepted =>
          let taken : Trader := { state.trader with sr := { state.trader.sr with dq := rest } }
          have accepts := (accepts_of_inserted stepped (.tail _ (.head _))).2
          refine .inserts ⟨address, taken.acceptedOrder od⟩ fresh rfl ?_ ?_ rfl accepts rfl ?_
          · change (Books.orderDataInsert _ _).rawBuyside = _
            unfold Books.orderDataInsert
            split <;> rfl
          · change (Books.orderDataInsert _ _).rawSellside = _
            unfold Books.orderDataInsert
            split <;> rfl
          · intro other
            simp only [List.filterMap_cons, List.filterMap_nil, Observation.stageEvent]
            split <;> simp_all
  | amends connected val rest trader _ queued amendment =>
      cases amendment with
      | cancelled chosen =>
          cases chosen <;>
            exact .quiet rfl rfl (List.Subset.refl _) (List.Subset.refl _) fun _ => rfl
      | modified | refused =>
          exact .quiet rfl rfl (List.Subset.refl _) (List.Subset.refl _) fun _ => rfl
  | executes => exact absurd rfl notPass
  | pushes => exact absurd rfl notPush
  | reads order idle isLast =>
      refine .quiet rfl rfl ?_ (List.Subset.refl _) fun _ => rfl
      apply List.append_subset.mpr
      refine ⟨List.subset_append_left _ _, ?_⟩
      intro other isOrder
      rw [List.mem_singleton.mp isOrder]
      exact List.mem_append_left _ (List.mem_of_getLast? isLast)
  | sends inserts updates order connId execPrice clientSerialNum cn reading =>
      refine .reports order rfl rfl ?_ ?_ rfl rfl ?_
      · simp [Threads.listed, reading, Reporter.orders]
      · exact List.append_subset.mpr ⟨List.subset_append_left _ _, List.nil_subset _⟩
      · intro address
        simp only [List.filterMap_cons, List.filterMap_nil, Observation.stageEvent]
        split <;> simp_all
  | pops sent =>
      refine .quiet rfl rfl ?_ (List.Subset.refl _) fun _ => rfl
      intro other listed
      rcases List.mem_append.mp listed with earlier | reading
      · exact List.mem_append_left _ (List.mem_of_mem_dropLast earlier)
      · cases reading

theorem Books.orderDataInsert_subset (books : Books) (order : OrderPtr) :
    books.rawBuyside.items ⊆ (books.orderDataInsert order).rawBuyside.items ∧
      books.rawSellside.items ⊆ (books.orderDataInsert order).rawSellside.items := by
  unfold orderDataInsert
  split
  next => exact ⟨fun _ rests => OrderedBag.mem_insert_items.mpr (.inr rests), List.Subset.refl _⟩
  next => exact ⟨List.Subset.refl _, fun _ rests => OrderedBag.mem_insert_items.mpr (.inr rests)⟩

theorem Books.orderDataInsert_perm (books : Books) (order : OrderPtr) :
    ((books.orderDataInsert order).rawBuyside.items ++
      (books.orderDataInsert order).rawSellside.items).Perm
        (order :: (books.rawBuyside.items ++ books.rawSellside.items)) := by
  unfold orderDataInsert
  split
  next => exact (books.rawBuyside.insert_items_perm order).append_right _
  next => exact ((books.rawSellside.insert_items_perm order).append_left _).trans List.perm_middle

theorem Threads.OtherStep.subset (step : state.OtherStep next observations) :
    state.trader.rawBuyside.items ⊆ next.trader.rawBuyside.items ∧
      state.trader.rawSellside.items ⊆ next.trader.rawSellside.items := by
  cases step with
  | quiet buys sells | reports _ buys sells =>
      rw [buys, sells]
      exact ⟨List.Subset.refl _, List.Subset.refl _⟩
  | inserts order _ _ buys sells =>
      rw [buys, sells]
      exact Books.orderDataInsert_subset _ order

theorem Threads.OtherStep.origin (step : state.OtherStep next observations) {order : OrderPtr}
    (rests : order ∈ next.trader.rawBuyside.items ++ next.trader.rawSellside.items) :
    order ∈ state.trader.rawBuyside.items ++ state.trader.rawSellside.items ∨
      state.trader.Accepts order.order := by
  cases step with
  | quiet buys sells | reports _ buys sells =>
      rw [buys, sells] at rests
      exact .inl rests
  | inserts new _ _ buys sells _ accepts =>
      rw [buys, sells, (Books.orderDataInsert_perm _ new).mem_iff, List.mem_cons] at rests
      rcases rests with rfl | before
      · exact .inr accepts
      · exact .inl before

theorem Threads.OtherStep.listed_subset (step : state.OtherStep next observations) :
    next.listed ⊆ state.listed := by
  cases step with
  | quiet _ _ listed | reports _ _ _ _ listed => exact listed
  | inserts _ _ _ _ _ listed =>
      rw [listed]
      exact List.Subset.refl _

end

end InertiaTrader
