import InertiaTrader.Matching.Simulation

/-!
# Cancelling orders

`getOrder` puts an order into a raw book; `getCancelOrder` searches the vectors
that were filled when the process started.  An order of the running process is
therefore never found.
-/

namespace InertiaTrader

open Foundation

def Trader.heldNids (trader : Trader) : List Text :=
  (trader.buyside.items ++ trader.sellside.items).map Order.nid

def orderedIn (observations : List Observation) : List Order :=
  observations.filterMap fun
    | .ordered od _ => some od
    | _ => none

/-- No nid is used twice, neither by loaded orders nor by those of the run. -/
def DistinctNids (started : Trader) (observations : List Observation) : Prop :=
  (started.heldNids ++ (orderedIn observations).map Order.nid).Nodup

instance (started : Trader) (observations : List Observation) :
    Decidable (DistinctNids started observations) :=
  inferInstanceAs (Decidable (List.Nodup _))

/-- The fields of a cancel message for an order. -/
structure Cancels (res : List Text) (order : Order) : Prop where
  code : res[0]? = some "88".toList
  nid : res[1]? = some order.nid
  side : res[3]? = some (if order.side_ = some .buy then "1".toList else "2".toList)

/-- The cancel was confirmed, the order is in no book, and no execution of it is
ever reported. -/
structure CancelEffective (server : MariaDB) (order : OrderPtr) (res : List Text)
    (seen handled : List Observation) (after : Threads) : Prop where
  confirmed : .amended res (order.order.nid ++ "|cancel order success".toList) ∈ handled
  removed : ∀ other ∈ after.trader.rawBuyside.items ++ after.trader.rawSellside.items,
    other.address ≠ order.address
  unreported : ∀ later last continued,
    (threads server).run after later = some (last, continued) →
      ∀ other, .reported other ∈ seen ++ handled ++ continued → other.address ≠ order.address

theorem map_nid_modify (orders : List Order) (it : ℕ) (orderPrice : Price) :
    (orders.modify it fun order => { order with orderPrice }).map Order.nid =
      orders.map Order.nid := by
  refine List.ext_getElem? fun position => ?_
  rw [List.getElem?_map, List.getElem?_map, List.getElem?_modify]
  cases orders[position]? with
  | none => rfl
  | some order =>
      simp only [Option.map_eq_map, Option.map_some]
      split <;> rfl

theorem heldNids_step {server : MariaDB} {state next : Threads} {event : Event}
    {observations : List Observation}
    (stepped : state.step server event = some (next, observations)) :
    next.trader.heldNids ⊆ state.trader.heldNids := by
  cases Threads.step_cases stepped with
  | handlesOrder address connected rest connId od cn trader _ fresh handling =>
      cases handling <;> exact List.Subset.refl _
  | amends connected val rest trader _ popped amendment =>
      cases amendment with
      | cancelled chosen nid it order cn =>
          cases chosen with
          | buyside =>
              exact (((List.eraseIdx_sublist ..).append (.refl _)).map Order.nid).subset
          | sellside =>
              exact (((List.Sublist.refl _).append (List.eraseIdx_sublist ..)).map Order.nid).subset
      | modified nid price orderPrice it order cn =>
          simp only [Trader.heldNids, Trader.setListing, List.map_append, map_nid_modify]
          exact List.Subset.refl _
      | refused => exact List.Subset.refl _
  | communicates | rests | executes | pushes | reads | sends | pops => exact List.Subset.refl _

theorem heldNids_run {server : MariaDB} {state last : Threads} {events : List Event}
    {observations : List Observation}
    (finished : (threads server).run state events = some (last, observations)) :
    last.trader.heldNids ⊆ state.trader.heldNids := by
  apply (threads server).invariant_of_run
    (fun current _ => current.trader.heldNids ⊆ state.trader.heldNids) _ _ finished
  · intro current _ event next observations held stepped
    exact List.Subset.trans (heldNids_step stepped) held
  · exact List.Subset.refl _

theorem held_of_confirmed {server : MariaDB} {state next : Threads} {connected : Bool}
    {val nid : Text} {rest : List Text} {observations : List Observation}
    (queued : state.trader.sr.dqOrderhandle = val :: rest)
    (nidField : (split val "|".toList)[1]? = some nid)
    (stepped : state.step server (.getCancelOrder connected) = some (next, observations))
    (confirmed : .amended (split val "|".toList) (nid ++ "|cancel order success".toList) ∈
      observations) :
    nid ∈ state.trader.heldNids := by
  cases Threads.step_cases stepped with
  | communicates _ sr asking _ sends =>
      obtain ⟨cn, text, equality⟩ := sends _ confirmed
      cases equality
  | rests => simp at confirmed
  | amends connected val' rest' trader _ popped amendment =>
      rw [queued, List.cons.injEq] at popped
      obtain ⟨rfl, rfl⟩ := popped
      cases amendment with
      | cancelled chosen nid' it order cn _ nidField' _ atPosition sameNid =>
          obtain rfl : nid = nid' := Option.some.inj (nidField.symm.trans nidField')
          have found := List.mem_of_getElem? atPosition
          subst sameNid
          cases chosen with
          | buyside => exact List.mem_map_of_mem (List.mem_append_left _ found)
          | sellside => exact List.mem_map_of_mem (List.mem_append_right _ found)
      | modified nid' price orderPrice it order cn _ nidField' _ _ atPosition sameNid =>
          obtain rfl : nid = nid' := Option.some.inj (nidField.symm.trans nidField')
          subst sameNid
          exact List.mem_map_of_mem (List.mem_append_left _ (List.mem_of_getElem? atPosition))
      | refused nid' verdict cn listed nidField' =>
          obtain rfl : nid = nid' := Option.some.inj (nidField.symm.trans nidField')
          have sameVerdict : "|cancel order success".toList = verdict := by simpa using confirmed
          subst sameVerdict
          exact absurd listed (by decide)

theorem not_held_of_distinct {server : MariaDB} {started before : Threads}
    {earlier : List Event} {seen later : List Observation} {od : Order} {reply : Text}
    (ran : (threads server).run started earlier = some (before, seen))
    (distinct : DistinctNids started.trader (seen ++ later))
    (answered : .ordered od reply ∈ seen) :
    od.nid ∉ before.trader.heldNids := by
  intro held
  have ordered : od ∈ orderedIn (seen ++ later) :=
    List.mem_filterMap.mpr ⟨_, List.mem_append_left later answered, rfl⟩
  exact (List.nodup_append.mp distinct).2.2 _ (heldNids_run ran held) _
    (List.mem_map_of_mem ordered) rfl

/-- A cancel of an order of the running process takes effect only when it comes
too late: when the order has left the books, which it does by being executed. -/
theorem cancel_takes_effect_iff (server : MariaDB) (db : Database) (rc : RiskController)
    (nidSub1 : BitVec 32) (sr : Server) (earlier : List Event) (before after : Threads)
    (connected : Bool) (seen handled : List Observation) (order : OrderPtr)
    (val : Text) (rest : List Text)
    (ran : (threads server).run (.start (.construct server db rc nidSub1 sr)) earlier =
      some (before, seen))
    (distinct : DistinctNids (.construct server db rc nidSub1 sr) (seen ++ handled))
    (inserted : .inserted order ∈ seen)
    (accepted : .ordered order.order (order.order.nid ++ "|success".toList) ∈ seen)
    (queued : before.trader.sr.dqOrderhandle = val :: rest)
    (cancels : Cancels (split val "|".toList) order.order)
    (stepped : (threads server).step before (.getCancelOrder connected) = some (after, handled)) :
    (order.address ∈ (executedIn seen).map OrderPtr.address ∨
        CancelEffective server order (split val "|".toList) seen handled after) ↔
      ∀ other ∈ before.trader.rawBuyside.items ++ before.trader.rawSellside.items,
        other.address ≠ order.address := by
  rw [← executed_iff_not_resting ran (mem_insertedIn.mpr inserted)]
  constructor
  · rintro (executed | effective)
    · exact executed
    · have held := held_of_confirmed queued cancels.nid stepped effective.confirmed
      exact absurd held (not_held_of_distinct ran distinct accepted)
  · exact .inl

/-- The order that the following run sends, accepts and tries to cancel. -/
def cancelledOrder : OrderPtr := ⟨10, {
  nid := "1".toList, orderPrice := .fin 60, symbol := "KKC".toList, userID := "0324027".toList
  clientSerialNum := some 4294967297, connId := some 0, side := 1, side_ := some .buy
  orderstatus := some .verified }⟩

def cancelRun : List Event :=
  [.firstLogin, .receive 0 "87|1|60|1|1|1|KKC".toList, .getOrder 10 true,
    .receive 0 "88|1|60|1|1|1|KKC".toList]

/-- The message that waits for `getCancelOrder` after the run. -/
def cancelMessage : Text := "88|1|60|1|1|1|KKC|0|".toList

theorem cancelMessage_cancels : Cancels (split cancelMessage "|".toList) cancelledOrder.order where
  code := by decide +kernel
  nid := by decide +kernel
  side := by decide +kernel

theorem cancelRun_evaluated :
    ∃ before seen after handled,
      (threads .literal).run .initial cancelRun = some (before, seen) ∧
        (threads .literal).step before (.getCancelOrder true) = some (after, handled) ∧
        DistinctNids Threads.initial.trader (seen ++ handled) ∧
        .inserted cancelledOrder ∈ seen ∧
        .ordered cancelledOrder.order (cancelledOrder.order.nid ++ "|success".toList) ∈ seen ∧
        before.trader.sr.dqOrderhandle = [cancelMessage] ∧
        cancelledOrder.address ∉ (executedIn seen).map OrderPtr.address ∧
        .amended (split cancelMessage "|".toList) "1|cancel order success".toList ∉ handled := by
  obtain ⟨before, seen, ran, evaluated⟩ :=
    Machine.exists_run_of_any (threads .literal) .initial cancelRun
      (fun before seen =>
        ((threads .literal).step before (.getCancelOrder true)).any
          fun (result : Threads × List Observation) => decide (
            DistinctNids Threads.initial.trader (seen ++ result.2) ∧
              Observation.inserted cancelledOrder ∈ seen ∧
              Observation.ordered cancelledOrder.order
                (cancelledOrder.order.nid ++ "|success".toList) ∈ seen ∧
              before.trader.sr.dqOrderhandle = [cancelMessage] ∧
              cancelledOrder.address ∉ (executedIn seen).map OrderPtr.address ∧
              Observation.amended (split cancelMessage "|".toList)
                "1|cancel order success".toList ∉ result.2))
      (by decide +kernel)
  obtain ⟨⟨after, handled⟩, stepped, holds⟩ := (Option.any_eq_true ..).mp evaluated
  exact ⟨before, seen, after, handled, ran, stepped, of_decide_eq_true holds⟩

theorem cancel_ignored :
    ∃ before seen after handled,
      (threads .literal).run .initial cancelRun = some (before, seen) ∧
        (threads .literal).step before (.getCancelOrder true) = some (after, handled) ∧
        DistinctNids Threads.initial.trader (seen ++ handled) ∧
        .inserted cancelledOrder ∈ seen ∧
        .ordered cancelledOrder.order (cancelledOrder.order.nid ++ "|success".toList) ∈ seen ∧
        before.trader.sr.dqOrderhandle = [cancelMessage] ∧
        Cancels (split cancelMessage "|".toList) cancelledOrder.order ∧
        ¬ (cancelledOrder.address ∈ (executedIn seen).map OrderPtr.address ∨
          CancelEffective .literal cancelledOrder (split cancelMessage "|".toList) seen handled
            after) := by
  obtain ⟨before, seen, after, handled, ran, stepped, distinct, inserted, accepted, queued,
    notExecuted, notConfirmed⟩ := cancelRun_evaluated
  refine ⟨before, seen, after, handled, ran, stepped, distinct, inserted, accepted, queued,
    cancelMessage_cancels, ?_⟩
  rintro (executed | effective)
  · exact notExecuted executed
  · exact notConfirmed effective.confirmed

theorem cancel_takes_effect_iff_cancelRun :
    ∃ before seen after handled,
      (threads .literal).run .initial cancelRun = some (before, seen) ∧
        (threads .literal).step before (.getCancelOrder true) = some (after, handled) ∧
        ((cancelledOrder.address ∈ (executedIn seen).map OrderPtr.address ∨
            CancelEffective .literal cancelledOrder (split cancelMessage "|".toList) seen handled
              after) ↔
          ∀ other ∈ before.trader.rawBuyside.items ++ before.trader.rawSellside.items,
            other.address ≠ cancelledOrder.address) := by
  obtain ⟨before, seen, after, handled, ran, stepped, distinct, inserted, accepted, queued, -, -⟩ :=
    cancelRun_evaluated
  exact ⟨before, seen, after, handled, ran, stepped, cancel_takes_effect_iff _ _ _ _ _ _ _ _ _ _ _
    _ _ _ ran distinct inserted accepted queued cancelMessage_cancels stepped⟩

end InertiaTrader
