import InertiaTrader.Trader.GetCancelOrder
import InertiaTrader.Trader.GetOrder
import InertiaTrader.Trader.Reports

/-!
# What the threads do not read

Apart from `matchup`, no thread reads the member `od` that another iteration has
left behind, and only `getOrder` and `msgHandler` touch the queue of orders.
-/

namespace InertiaTrader

open Foundation

namespace Trader

/-- The trader with other orders waiting. -/
def queued (dq : List Text) (trader : Trader) : Trader :=
  { trader with sr := { trader.sr with dq } }

def veiled (od : Option Order) (dq : List Text) (trader : Trader) : Trader :=
  { trader.queued dq with od }

section

variable (server : MariaDB) (connected : Bool) (od : Option Order) (dq : List Text)
    (trader : Trader)

theorem setListing_veiled (chosen : Listing) (items : List Order) :
    (trader.veiled od dq).setListing chosen items =
      (trader.setListing chosen items).veiled od dq := by
  cases chosen <;> rfl

theorem listing_veiled (chosen : Listing) :
    (trader.veiled od dq).listing chosen = trader.listing chosen := by
  cases chosen <;> rfl

theorem answer_veiled (res : List Text) (verdict : Text) :
    (trader.veiled od dq).answer res verdict = trader.answer res verdict := rfl

theorem cancelFrom_veiled (chosen : Listing) (res : List Text) :
    cancelFrom server connected chosen res (trader.veiled od dq) =
      Prod.map (veiled od dq) id <$> cancelFrom server connected chosen res trader := by
  simp only [cancelFrom, listing_veiled, map_bind]
  apply bind_congr
  intro nid
  split
  next =>
    simp only [setListing_veiled, answer_veiled, map_bind]
    rfl
  next =>
    simp only [answer_veiled, map_bind]
    rfl

theorem modifyBuyside_veiled (it : ℕ) (res : List Text) :
    modifyBuyside server connected it res (trader.veiled od dq) =
      Prod.map (veiled od dq) id <$> modifyBuyside server connected it res trader := by
  simp only [modifyBuyside, setListing_veiled, answer_veiled, map_bind]
  rfl

theorem modifyOrder_veiled (res : List Text) :
    modifyOrder server connected res (trader.veiled od dq) =
      Prod.map (veiled od dq) id <$> modifyOrder server connected res trader := by
  have buyside : (trader.veiled od dq).buyside = trader.buyside := rfl
  have sellside : (trader.veiled od dq).sellside = trader.sellside := rfl
  simp only [modifyOrder, modifyBuyside_veiled, answer_veiled, map_bind, buyside, sellside]
  apply bind_congr
  intro nid
  apply bind_congr
  intro side
  cases findNid nid trader.buyside.items with
  | some it => rfl
  | none =>
      dsimp only
      split
      next => rfl
      next =>
        simp only [map_bind]
        rfl

theorem amendOrder_veiled (res : List Text) :
    amendOrder server connected res (trader.veiled od dq) =
      Prod.map (veiled od dq) id <$> amendOrder server connected res trader := by
  simp only [amendOrder, cancelFrom_veiled, modifyOrder_veiled, answer_veiled, map_bind,
    apply_ite (Prod.map (veiled od dq) id <$> ·)]
  rfl

theorem getCancelOrder_veiled :
    getCancelOrder server connected (trader.veiled od dq) =
      Prod.map (veiled od dq) id <$> getCancelOrder server connected trader := by
  have waiting : (trader.veiled od dq).sr.dqOrderhandle = trader.sr.dqOrderhandle := rfl
  unfold getCancelOrder
  rw [waiting]
  cases trader.sr.dqOrderhandle with
  | nil => rfl
  | cons val rest =>
      exact amendOrder_veiled server connected od dq
        { trader with sr := { trader.sr with dqOrderhandle := rest } } (split val "|".toList)

theorem sendExecReport_veiled (inserts updates : Bool) (order : OrderPtr) :
    sendExecReport server inserts updates order (trader.veiled od dq) =
      Prod.map (veiled od dq) id <$> sendExecReport server inserts updates order trader := by
  unfold sendExecReport
  split
  next =>
    simp only [map_bind]
    rfl
  next => rfl

theorem acceptOrder_queued (address : ℕ) (connId : ℤ) (order : Order) :
    acceptOrder server address connected connId order (trader.queued dq) =
      Prod.map (queued dq) id <$> acceptOrder server address connected connId order trader := by
  simp only [acceptOrder, map_bind]
  rfl

theorem refuseOrder_queued (connId : ℤ) (reason : Text) (order : Order) :
    refuseOrder connId reason order (trader.queued dq) =
      Prod.map (queued dq) id <$> refuseOrder connId reason order trader := by
  simp only [refuseOrder, map_bind]
  rfl

theorem handleOrder_veiled (address : ℕ) (connId : ℤ) (order : Order) :
    handleOrder server address connected connId order (trader.veiled od dq) =
      Prod.map (queued dq) id <$>
        handleOrder server address connected connId order trader := by
  have accepts := acceptOrder_queued server connected dq
    { trader with od := some (trader.rc.verify order) } address connId (trader.rc.verify order)
  have refuses (reason : Text) := refuseOrder_queued dq
    { trader with od := some (trader.rc.verify order) } connId reason (trader.rc.verify order)
  unfold handleOrder
  apply (if_congr Iff.rfl ?_ (refuses _)).trans (apply_ite ..).symm
  simp only [map_bind]
  apply bind_congr
  rintro ⟨username, sufficient⟩
  cases sufficient with
  | true => exact (congrArg (· >>= _) accepts).trans (by simp)
  | false => exact (congrArg (· >>= _) (refuses _)).trans (by simp)

end

end Trader

end InertiaTrader
