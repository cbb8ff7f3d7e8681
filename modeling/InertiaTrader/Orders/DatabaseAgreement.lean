import InertiaTrader.Orders.Modification
import InertiaTrader.Trader.Loading

/-!
# Orders in memory and their rows

`getCancelOrder` changes a vector, answers the client and then updates the
table, without looking at what the update returns.
-/

namespace InertiaTrader

open Foundation Trader

/-- The value that an UPDATE writes into a row, if it is executed and selects the
row. -/
def MariaDB.written (server : MariaDB) (connected : Bool) (nid value : Text) (row : OrderRow) :
    Option ℚ :=
  if connected then
    (server.whereNid nid).bind fun selected => if selected row then server.quoted value else none
  else none

theorem find?_updateColumn (server : MariaDB) (connected : Bool) (column : OrderColumn)
    (nid value : Text) (db : Database) (key : ℚ × ℤ) :
    (updateColumn server connected column nid value db).2.order.find? key =
      (db.order.find? key).map fun row =>
        (server.written connected nid value row).elim row (column.assign · row) := by
  unfold updateColumn MariaDB.written
  cases connected with
  | false => exact Option.map_id'.symm
  | true =>
      cases quoted : server.quoted value with
      | none =>
          have unwritten : ∀ row : OrderRow, ((server.whereNid nid).bind fun selected =>
              if selected row then (none : Option ℚ) else none) = none := by simp
          simp only [if_true, unwritten]
          exact Option.map_id'.symm
      | some assigned =>
          cases whereNid : server.whereNid nid with
          | none => exact Option.map_id'.symm
          | some selected =>
              simp only [if_true, Option.bind_some, KeyedTable.find?_update]
              congr 1
              funext row
              split <;> rfl

/-- An order in a vector, the first with its nid, and the row it was loaded
from. -/
structure LoadedFrom (server : MariaDB) (trader : Trader) (chosen : Listing) (it : ℕ)
    (order : Order) (row : OrderRow) : Prop where
  found : findNid order.nid (trader.listing chosen).items = some it
  position : (trader.listing chosen).items[it]? = some order
  allocated : (trader.listing chosen).allocated = true
  inTable : row ∈ trader.db.order.rows
  live : row.orderSituation = 1
  nid : order.nid = server.floatText row.nid
  clientSerialNum : order.clientSerialNum = some row.clientSerialNum
  orderPrice : order.orderPrice = .fin row.orderPrice

theorem loadedFrom_construct {server : MariaDB} {db : Database} {rc : RiskController}
    {nidSub1 : BitVec 32} {sr : Server} {chosen : Listing} {it : ℕ} {order : Order}
    (found : findNid order.nid
      ((Trader.construct server db rc nidSub1 sr).listing chosen).items = some it)
    (position : ((Trader.construct server db rc nidSub1 sr).listing chosen).items[it]? =
      some order) :
    ∃ row, LoadedFrom server (.construct server db rc nidSub1 sr) chosen it order row := by
  have membership := List.mem_of_getElem? position
  have allocated := allocated_construct server db rc nidSub1 sr chosen
    (List.ne_nil_of_mem membership)
  rw [items_construct] at membership
  obtain ⟨existing, listed, rfl⟩ := List.mem_map.mp membership
  obtain ⟨row, isLive, rfl⟩ := List.mem_map.mp (List.mem_filter.mp listed).1
  obtain ⟨inTable, live⟩ := List.mem_filter.mp isLive
  exact ⟨row, {
    found
    position
    allocated
    inTable := by rwa [construct_db]
    live := of_decide_eq_true live
    nid := rfl
    clientSerialNum := rfl
    orderPrice := rfl }⟩

/-- What a message asks for. -/
inductive Change where
  | cancel
  | modify (price : Text) (orderPrice : Price)

namespace Change

def verdict : Change → Text
  | cancel => "|cancel order success".toList
  | modify _ _ => "|modify order success".toList

def RequestedBy (res : List Text) : Change → Prop
  | cancel => res[0]? = some "88".toList
  | modify price orderPrice =>
      res[0]? = some "89".toList ∧ res[2]? = some price ∧ stod price = some orderPrice

def MadeInMemory (before after : List Order) (it : ℕ) : Change → Prop
  | cancel => after = before.eraseIdx it
  | modify _ orderPrice => after = before.modify it fun order => { order with orderPrice }

def MadeInRow (row : OrderRow) : Change → Prop
  | cancel => row.orderSituation = 3
  | modify _ orderPrice => orderPrice = .fin row.orderPrice

end Change

/-- The fields of a message for an order of a vector. -/
structure Requests (res : List Text) (chosen : Listing) (nid : Text) (connId : ℤ)
    (change : Change) : Prop where
  change : change.RequestedBy res
  nid : res[1]? = some nid
  side : res[3]? = some chosen.sideText
  sender : res[7]?.bind stoi = some connId

/-- The order is cancelled in memory and in its row, or live in both with one
price. -/
def Agrees (before after : List Order) (it : ℕ) (row : OrderRow) : Prop :=
  (after = before.eraseIdx it ∧ row.orderSituation = 3) ∨
    (after = before.modify it (fun order => { order with orderPrice := .fin row.orderPrice }) ∧
      row.orderSituation = 1)

/-- After the iteration the order agrees with its row, and the client was told of
success exactly when both have changed. -/
def Atomic (server : MariaDB) (connected : Bool) (trader : Trader) (chosen : Listing) (it : ℕ)
    (nid : Text) (row : OrderRow) (change : Change) : Prop :=
  ∃ next observations row',
    trader.getCancelOrder server connected = .ok (next, observations) ∧
    next.db.order.find? row.key = some row' ∧
    Agrees (trader.listing chosen).items (next.listing chosen).items it row' ∧
    ((∃ cn, (cn, nid ++ change.verdict ++ "\n".toList) ∈ replies observations) ↔
      change.MadeInMemory (trader.listing chosen).items (next.listing chosen).items it ∧
        change.MadeInRow row')

/-- The UPDATE of a cancellation reaches the row.  A modification leaves the new
price in the row; one of a sell order asks for the price the order has, and
there is a buy order with the same nid. -/
def ReachesBoth (server : MariaDB) (connected : Bool) (trader : Trader) (chosen : Listing)
    (nid : Text) (row : OrderRow) : Change → Prop
  | .cancel => ∃ value, server.written connected nid "3".toList row = some value
  | .modify price orderPrice =>
      orderPrice = .fin ((server.written connected nid price row).getD row.orderPrice) ∧
        (chosen = .sellside → orderPrice = .fin row.orderPrice ∧
          ∃ order ∈ trader.buyside.items, order.nid = nid)

section

variable {server : MariaDB} {connected : Bool} {trader : Trader} {val : Text} {rest : List Text}
    {chosen : Listing} {nid : Text} {connId : ℤ} {cn : ConnRef} {it : ℕ} {order : Order}
    {row : OrderRow}

theorem written_situation {value : ℚ}
    (written : server.written connected nid "3".toList row = some value) : value = 3 := by
  have three := server.quoted_literal "3".toList 3 (by decide +kernel)
  unfold MariaDB.written at written
  split at written
  next =>
    obtain ⟨selected, -, assigned⟩ := Option.bind_eq_some_iff.mp written
    split at assigned
    next => exact Option.some.inj (assigned.symm.trans three)
    next => cases assigned
  next => cases written

theorem amendOrder_cancels {res : List Text}
    (message : Requests res chosen nid connId .cancel) :
    amendOrder server connected res trader = cancelFrom server connected chosen res trader := by
  have code : res[0]? = some "88".toList := message.change
  simp only [amendOrder, field, code, message.side, bind, Except.bind]
  cases chosen <;> rfl

theorem cancelFrom_eq_ok {res : List Text} (message : Requests res chosen order.nid connId .cancel)
    (registered : trader.sr.getConnObject connId = some cn)
    (found : findNid order.nid (trader.listing chosen).items = some it)
    (position : (trader.listing chosen).items[it]? = some order) :
    cancelFrom server connected chosen res trader =
      .ok ({ trader.setListing chosen ((trader.listing chosen).items.eraseIdx it) with
          db := (updateOrderSituation server connected order.nid "3".toList trader.db).2 },
        [.sent cn (order.nid ++ "|cancel order success".toList ++ "\n".toList),
          .amended res (order.nid ++ "|cancel order success".toList),
          .updated order ⟨.orderSituation, order.nid, "3".toList⟩]) := by
  obtain ⟨connText, connField, connRead⟩ := Option.bind_eq_some_iff.mp message.sender
  have answered :
      (trader.setListing chosen ((trader.listing chosen).items.eraseIdx it)).answer res
        "|cancel order success".toList = _ :=
    answer_eq_ok_iff.mpr ⟨connText, connId, order.nid, cn, connField, connRead, message.nid,
      (setListing_sr ..).symm ▸ registered, rfl⟩
  simp only [cancelFrom, field, message.nid, bind, Except.bind, found, answered, position,
    setListing_db]
  rfl

theorem items_setListing (trader : Trader) (chosen : Listing) (items : List Order)
    (db : Database) :
    (({ trader.setListing chosen items with db } : Trader).listing chosen).items = items := by
  cases chosen <;> rfl

theorem find?_of_loaded (loaded : LoadedFrom server trader chosen it order row) :
    trader.db.order.find? row.key = some row :=
  KeyedTable.find?_eq_some_iff.mpr ⟨loaded.inTable, rfl⟩

theorem atomic_iff_of_finished {next : Trader} {observations : List Observation} {change : Change}
    {row' : OrderRow}
    (finished : trader.getCancelOrder server connected = .ok (next, observations))
    (stored : next.db.order.find? row.key = some row') :
    Atomic server connected trader chosen it nid row change ↔
      Agrees (trader.listing chosen).items (next.listing chosen).items it row' ∧
        ((∃ cn, (cn, nid ++ change.verdict ++ "\n".toList) ∈ replies observations) ↔
          change.MadeInMemory (trader.listing chosen).items (next.listing chosen).items it ∧
            change.MadeInRow row') := by
  constructor
  · rintro ⟨next', observations', row'', finished', stored', agreed, told⟩
    rw [finished, Except.ok.injEq, Prod.mk.injEq] at finished'
    obtain ⟨rfl, rfl⟩ := finished'
    obtain rfl : row' = row'' := Option.some.inj (stored.symm.trans stored')
    exact ⟨agreed, told⟩
  · rintro ⟨agreed, told⟩
    exact ⟨next, observations, row', finished, stored, agreed, told⟩

theorem eraseIdx_ne_modify {orders : List Order} {orderPrice : Price}
    (position : orders[it]? = some order) :
    orders.eraseIdx it ≠ orders.modify it fun order => { order with orderPrice } := by
  intro same
  have inside := (List.getElem?_eq_some_iff.mp position).1
  have lengths := congrArg List.length same
  rw [List.length_eraseIdx_of_lt inside, List.length_modify] at lengths
  omega

theorem atomic_cancel_iff (queued : trader.sr.dqOrderhandle = val :: rest)
    (message : Requests (split val "|".toList) chosen order.nid connId .cancel)
    (registered : trader.sr.getConnObject connId = some cn)
    (loaded : LoadedFrom server trader chosen it order row) :
    Atomic server connected trader chosen it order.nid row .cancel ↔
      ∃ value, server.written connected order.nid "3".toList row = some value := by
  have finished := ((getCancelOrder_popped server connected queued).trans
    (amendOrder_cancels message)).trans
      (cancelFrom_eq_ok message registered loaded.found loaded.position)
  have stored := find?_updateColumn server connected .orderSituation order.nid "3".toList
    trader.db row.key
  rw [find?_of_loaded loaded, Option.map_some] at stored
  rw [atomic_iff_of_finished finished stored, items_setListing]
  have told : ∃ receiver, (receiver, order.nid ++ Change.cancel.verdict ++ "\n".toList) ∈ replies
      [.sent cn (order.nid ++ "|cancel order success".toList ++ "\n".toList),
        .amended (split val "|".toList) (order.nid ++ "|cancel order success".toList),
        .updated order ⟨.orderSituation, order.nid, "3".toList⟩] := ⟨cn, .head _⟩
  cases written : server.written connected order.nid "3".toList row with
  | none =>
      apply iff_of_false
      · rintro ⟨⟨-, cancelled⟩ | ⟨erased, -⟩, -⟩
        · exact absurd (loaded.live.symm.trans cancelled) (by decide)
        · exact eraseIdx_ne_modify loaded.position erased
      · exact fun ⟨value, impossible⟩ => nomatch impossible
  | some value =>
      obtain rfl : value = 3 := written_situation written
      have cancelled : intColumn 3 = 3 := intColumn_intCast 3
      exact iff_of_true ⟨.inl ⟨rfl, cancelled⟩, iff_of_true told ⟨rfl, cancelled⟩⟩ ⟨3, rfl⟩

theorem atomic_modify_iff {next : Trader} {observations : List Observation} {price : Text}
    {orderPrice remaining : Price}
    (loaded : LoadedFrom server trader chosen it order row)
    (finished : trader.getCancelOrder server connected = .ok (next, observations))
    (told : (cn, order.nid ++ "|modify order success".toList ++ "\n".toList) ∈
      replies observations)
    (updated : next.db = (updateOrderPrice server connected order.nid price trader.db).2)
    (after : (next.listing chosen).items = (trader.listing chosen).items.modify it
      fun order => { order with orderPrice := remaining }) :
    Atomic server connected trader chosen it order.nid row (.modify price orderPrice) ↔
      remaining = orderPrice ∧ orderPrice =
        .fin ((server.written connected order.nid price row).getD row.orderPrice) := by
  obtain ⟨row', stored, samePrice, stillLive⟩ : ∃ row',
      next.db.order.find? row.key = some row' ∧
        row'.orderPrice = (server.written connected order.nid price row).getD row.orderPrice ∧
        row'.orderSituation = 1 := by
    have stored := find?_updateColumn server connected .orderPrice order.nid price
      trader.db row.key
    rw [find?_of_loaded loaded, Option.map_some] at stored
    refine ⟨_, (congrArg (·.order.find? row.key) updated).trans stored, ?_⟩
    cases server.written connected order.nid price row with
    | none => exact ⟨rfl, loaded.live⟩
    | some assigned => exact ⟨rfl, loaded.live⟩
  rw [atomic_iff_of_finished finished stored, after, ← samePrice]
  have agrees_iff : Agrees (trader.listing chosen).items ((trader.listing chosen).items.modify it
      fun order => { order with orderPrice := remaining }) it row' ↔
        remaining = .fin row'.orderPrice := by
    constructor
    · rintro (⟨erased, -⟩ | ⟨same, -⟩)
      · exact absurd erased.symm (eraseIdx_ne_modify loaded.position)
      · exact (modify_orderPrice_inj loaded.position).mp same
    · intro same
      exact .inr ⟨(modify_orderPrice_inj loaded.position).mpr same, stillLive⟩
  rw [agrees_iff]
  constructor
  · rintro ⟨-, success⟩
    obtain ⟨same, inRow⟩ := success.mp ⟨cn, told⟩
    exact ⟨(modify_orderPrice_inj loaded.position).mp same, inRow⟩
  · rintro ⟨rfl, inRow⟩
    exact ⟨inRow, iff_of_true ⟨cn, told⟩ ⟨rfl, inRow⟩⟩

theorem Requests.modifies {res : List Text} {price : Text} {orderPrice : Price}
    (message : Requests res chosen nid connId (.modify price orderPrice)) :
    Modifies res nid chosen.sideText orderPrice connId := by
  obtain ⟨code, priceField, priceRead⟩ := message.change
  exact {
    code
    nid := message.nid
    price := by rw [priceField, Option.bind_some, priceRead]
    side := message.side
    sender := message.sender }

theorem atomic_modify_found_iff {price : Text} {orderPrice : Price} {itBuy : ℕ}
    (queued : trader.sr.dqOrderhandle = val :: rest)
    (message : Requests (split val "|".toList) chosen order.nid connId (.modify price orderPrice))
    (registered : trader.sr.getConnObject connId = some cn)
    (loaded : LoadedFrom server trader chosen it order row)
    (found : findNid order.nid trader.buyside.items = some itBuy) :
    Atomic server connected trader chosen it order.nid row (.modify price orderPrice) ↔
      orderPrice = .fin ((server.written connected order.nid price row).getD row.orderPrice) ∧
        (chosen = .sellside → orderPrice = .fin row.orderPrice) := by
  obtain ⟨-, priceField, -⟩ := message.change
  obtain ⟨inBuyside, atPosition, -, -⟩ := findNid_eq_some found
  have modified := (getCancelOrder_popped server connected queued).trans
    ((amendOrder_modifies message.modifies).trans (modifyOrder_found message.modifies found))
  have finished := modified.trans
    (modifyBuyside_eq_ok message.modifies priceField registered atPosition)
  cases chosen with
  | buyside =>
      obtain rfl : it = itBuy := Option.some.inj (loaded.found.symm.trans found)
      rw [atomic_modify_iff loaded finished (.head _) rfl rfl]
      simp
  | sellside =>
      have unchanged := (modify_eq_self_iff loaded.found).mpr
        ⟨it, order, loaded.found, loaded.position, loaded.orderPrice⟩
      rw [atomic_modify_iff loaded finished (.head _) rfl unchanged.symm, and_comm]
      simp [eq_comm]

theorem not_atomic_of_absent {change : Change} {price : Text} {orderPrice : Price}
    (queued : trader.sr.dqOrderhandle = val :: rest)
    (message : Requests (split val "|".toList) .sellside order.nid connId
      (.modify price orderPrice))
    (registered : trader.sr.getConnObject connId = some cn)
    (loaded : LoadedFrom server trader .sellside it order row)
    (absent : findNid order.nid trader.buyside.items = none) :
    ¬ Atomic server connected trader .sellside it order.nid row change := by
  have guard : Listing.sideText .sellside ≠ "1".toList ∧
      (trader.buyside.allocated ∨ trader.sellside.allocated) :=
    ⟨by decide, .inr loaded.allocated⟩
  have modified := (getCancelOrder_popped server connected queued).trans
    ((amendOrder_modifies message.modifies).trans
      (modifyOrder_absent message.modifies registered absent))
  rw [if_pos guard] at modified
  rintro ⟨next, observations, row', finished, -⟩
  cases modified.symm.trans finished

end

/-- An order and its row stay together exactly when the sender is connected and
the update reaches the row in the way the vector was changed. -/
theorem amendment_atomic_iff (server : MariaDB) (connected : Bool) (trader : Trader) (val : Text)
    (rest : List Text) (chosen : Listing) (it : ℕ) (order : Order) (row : OrderRow) (connId : ℤ)
    (change : Change) (queued : trader.sr.dqOrderhandle = val :: rest)
    (message : Requests (split val "|".toList) chosen order.nid connId change)
    (loaded : LoadedFrom server trader chosen it order row) :
    Atomic server connected trader chosen it order.nid row change ↔
      (∃ cn, trader.sr.getConnObject connId = some cn) ∧
        ReachesBoth server connected trader chosen order.nid row change := by
  cases registered : trader.sr.getConnObject connId with
  | none =>
      apply iff_of_false
      · rintro ⟨next, observations, row', finished, -⟩
        obtain ⟨cn, registered'⟩ := registered_of_finished queued message.sender finished
        cases registered.symm.trans registered'
      · rintro ⟨⟨cn, impossible⟩, -⟩
        cases impossible
  | some cn =>
      rw [and_iff_right ⟨cn, rfl⟩]
      cases change with
      | cancel => exact atomic_cancel_iff queued message registered loaded
      | modify price orderPrice =>
          cases found : findNid order.nid trader.buyside.items with
          | some itBuy =>
              obtain ⟨inBuyside, -, isBuy, sameNid⟩ := findNid_eq_some found
              have isFound : ∃ order' ∈ trader.buyside.items, order'.nid = order.nid :=
                ⟨inBuyside, isBuy, sameNid⟩
              rw [atomic_modify_found_iff queued message registered loaded found]
              simp only [ReachesBoth, isFound, and_true]
          | none =>
              cases chosen with
              | buyside => cases loaded.found.symm.trans found
              | sellside =>
                  apply iff_of_false
                  · exact not_atomic_of_absent queued message registered loaded found
                  · rintro ⟨-, sell⟩
                    obtain ⟨-, inBuyside, isBuy, sameNid⟩ := sell rfl
                    exact findNid_eq_none_iff.mp found inBuyside isBuy sameNid

def buyCancellation : Text := "88|7|60|1|1|1|KKC|0|".toList

theorem buyCancellation_requests :
    Requests (split buyCancellation "|".toList) .buyside "7".toList 0 .cancel where
  change := by
    change (split buyCancellation "|".toList)[0]? = some "88".toList
    decide +kernel
  nid := by decide +kernel
  side := by decide +kernel
  sender := by decide +kernel

def loadedBuy : Order :=
  { nid := "7".toList, orderPrice := .fin 60, side := 1, clientSerialNum := some 1 }

def loadedBuyRow : OrderRow where
  nid := 7
  orderPrice := 60
  symbol := "KKC".toList
  userID := 324027
  side := 1
  orderSituation := 1
  clientSerialNum := 1

theorem loadedBuy_loaded :
    LoadedFrom .literal (restarted bothSides buyCancellation) .buyside 0 loadedBuy
      loadedBuyRow where
  found := by decide +kernel
  position := by decide +kernel
  allocated := by decide +kernel
  inTable := by
    rw [restarted_db]
    exact .head _
  live := rfl
  nid := by decide +kernel
  clientSerialNum := rfl
  orderPrice := rfl

/-- The database is away: the order is gone in memory only, and the client is
told that it was cancelled. -/
theorem cancellation_not_atomic :
    (restarted bothSides buyCancellation).sr.dqOrderhandle = [buyCancellation] ∧
      Requests (split buyCancellation "|".toList) .buyside "7".toList 0 .cancel ∧
      LoadedFrom .literal (restarted bothSides buyCancellation) .buyside 0 loadedBuy
        loadedBuyRow ∧
      ¬ Atomic .literal false (restarted bothSides buyCancellation) .buyside 0 "7".toList
        loadedBuyRow .cancel := by
  refine ⟨restarted_queued _ _, buyCancellation_requests, loadedBuy_loaded, fun atomic => ?_⟩
  obtain ⟨value, written⟩ := (atomic_cancel_iff (restarted_queued _ _) buyCancellation_requests
    (restarted_registered _ _) loadedBuy_loaded).mp atomic
  cases written

theorem amendment_atomic_iff_buyCancellation :
    Atomic .literal true (restarted bothSides buyCancellation) .buyside 0 "7".toList
      loadedBuyRow .cancel :=
  (amendment_atomic_iff .literal true (restarted bothSides buyCancellation) _ [] .buyside 0
    loadedBuy loadedBuyRow 0 .cancel (restarted_queued _ _) buyCancellation_requests
    loadedBuy_loaded).mpr ⟨⟨0, restarted_registered _ _⟩, 3, by decide +kernel⟩

end InertiaTrader
