import InertiaTrader.Orders.Acceptance
import InertiaTrader.Trader.GetCancelOrder

/-!
# Modifying orders

`getCancelOrder` looks up the order of a modification once, in `buyside_`, and
uses the result in both branches.  The branch for the other side compares it with
the end of `sellside_`.
-/

namespace InertiaTrader

open Foundation

namespace Trader

/-- The fields of a modify message. -/
structure Modifies (res : List Text) (nid side : Text) (orderPrice : Price) (connId : ℤ) :
    Prop where
  code : res[0]? = some "89".toList
  nid : res[1]? = some nid
  price : res[2]?.bind stod = some orderPrice
  side : res[3]? = some side
  sender : res[7]?.bind stoi = some connId

def Listing.ofSide (side : Text) : Option Listing :=
  if side = "1".toList then some .buyside
  else if side = "2".toList then some .sellside
  else none

/-- The place of the order that a modification is about: the first one with the
nid in the vector of the side. -/
def target (trader : Trader) (side nid : Text) : Option (Listing × ℕ) := do
  let chosen ← Listing.ofSide side
  let it ← findNid nid (trader.listing chosen).items
  return (chosen, it)

def repriced (trader : Trader) (orderPrice : Price) (place : Option (Listing × ℕ))
    (chosen : Listing) : List Order :=
  match place with
  | some (hit, it) =>
      if chosen = hit then
        (trader.listing chosen).items.modify it fun order => { order with orderPrice }
      else (trader.listing chosen).items
  | none => (trader.listing chosen).items

/-- An iteration of `getCancelOrder` that ends with these vectors and this one
reply. -/
def Concludes (server : MariaDB) (connected : Bool) (trader : Trader)
    (vectors : Listing → List Order) (cn : ConnRef) (reply : Text) : Prop :=
  ∃ next observations, trader.getCancelOrder server connected = .ok (next, observations) ∧
    (fun chosen => (next.listing chosen).items) = vectors ∧
    replies observations = [(cn, reply ++ "\n".toList)]

def modifyVerdict (place : Option (Listing × ℕ)) : Text :=
  if place.isSome then "|modify order success".toList
  else "|no this order, modify failed".toList

/-- The order that the message is about gets the new price and nothing else
happens to the vectors; if there is no such order the client is told so. -/
def HitsTarget (server : MariaDB) (connected : Bool) (trader : Trader) (nid side : Text)
    (orderPrice : Price) (connId : ℤ) : Prop :=
  ∃ cn, trader.sr.getConnObject connId = some cn ∧
    Concludes server connected trader (trader.repriced orderPrice (trader.target side nid)) cn
      (nid ++ modifyVerdict (trader.target side nid))

section

variable {server : MariaDB} {connected : Bool} {trader : Trader} {val : Text} {rest : List Text}
    {nid side : Text} {orderPrice : Price} {connId : ℤ} {cn : ConnRef}

theorem getCancelOrder_popped (server : MariaDB) (connected : Bool)
    (queued : trader.sr.dqOrderhandle = val :: rest) :
    trader.getCancelOrder server connected =
      amendOrder server connected (split val "|".toList)
        { trader with sr := { trader.sr with dqOrderhandle := rest } } := by
  simp only [getCancelOrder, queued]

theorem registered_of_finished {result : Trader × List Observation}
    (queued : trader.sr.dqOrderhandle = val :: rest)
    (sender : (split val "|".toList)[7]?.bind stoi = some connId)
    (finished : trader.getCancelOrder server connected = .ok result) :
    ∃ cn, trader.sr.getConnObject connId = some cn := by
  have amended := (getCancelOrder_popped server connected queued).symm.trans finished
  obtain ⟨connId', cn, sender', registered⟩ := ((amendOrder_ok_iff ..).mp ⟨_, amended⟩).answerable
  obtain rfl : connId = connId' := Option.some.inj (sender.symm.trans sender')
  exact ⟨cn, registered⟩

theorem Concludes.iff {vectors vectors' : Listing → List Order} {reply reply' : Text}
    (concludes : Concludes server connected trader vectors cn reply) :
    Concludes server connected trader vectors' cn reply' ↔
      vectors' = vectors ∧ reply' = reply := by
  constructor
  · rintro ⟨next', observations', finished', same', replied'⟩
    obtain ⟨next, observations, finished, same, replied⟩ := concludes
    rw [finished, Except.ok.injEq, Prod.mk.injEq] at finished'
    obtain ⟨rfl, rfl⟩ := finished'
    rw [replied, List.cons.injEq, Prod.mk.injEq] at replied'
    exact ⟨same'.symm.trans same, (List.append_cancel_right replied'.1.2).symm⟩
  · rintro ⟨rfl, rfl⟩
    exact concludes

theorem amendOrder_modifies {res : List Text}
    (message : Modifies res nid side orderPrice connId) :
    amendOrder server connected res trader = modifyOrder server connected res trader := by
  simp only [amendOrder, field, message.code]
  rfl

theorem answer_modifies {res : List Text} (message : Modifies res nid side orderPrice connId)
    (registered : trader.sr.getConnObject connId = some cn) (verdict : Text) :
    trader.answer res verdict =
      .ok [.sent cn (nid ++ verdict ++ "\n".toList), .amended res (nid ++ verdict)] := by
  obtain ⟨connText, connField, connRead⟩ := Option.bind_eq_some_iff.mp message.sender
  exact answer_eq_ok_iff.mpr ⟨connText, connId, nid, cn, connField, connRead, message.nid,
    registered, rfl⟩

theorem modifyBuyside_eq_ok {res : List Text} {price : Text} {it : ℕ} {order : Order}
    (message : Modifies res nid side orderPrice connId)
    (priceField : res[2]? = some price) (registered : trader.sr.getConnObject connId = some cn)
    (atPosition : trader.buyside.items[it]? = some order) :
    modifyBuyside server connected it res trader =
      .ok ({ trader.setListing .buyside
          (trader.buyside.items.modify it fun order => { order with orderPrice }) with
            db := (updateOrderPrice server connected nid price trader.db).2 },
        [.sent cn (nid ++ "|modify order success".toList ++ "\n".toList),
          .amended res (nid ++ "|modify order success".toList),
          .updated order ⟨.orderPrice, nid, price⟩]) := by
  have priceRead : stod price = some orderPrice := by
    have read := message.price
    rwa [priceField, Option.bind_some] at read
  apply bind_eq_ok_iff.mpr
  refine ⟨nid, field_eq_ok_iff.mpr message.nid, bind_eq_ok_iff.mpr
    ⟨price, field_eq_ok_iff.mpr priceField, bind_eq_ok_iff.mpr
      ⟨orderPrice, convert_eq_ok_iff.mpr priceRead, bind_eq_ok_iff.mpr
        ⟨_, answer_modifies message ((setListing_sr ..).symm ▸ registered) _, ?_⟩⟩⟩⟩
  rw [atPosition, setListing_db]
  rfl

theorem modifyOrder_found {res : List Text} {it : ℕ}
    (message : Modifies res nid side orderPrice connId)
    (found : findNid nid trader.buyside.items = some it) :
    modifyOrder server connected res trader = modifyBuyside server connected it res trader := by
  simp only [modifyOrder, field, message.nid, message.side, bind, Except.bind, found]

theorem modifyOrder_absent {res : List Text}
    (message : Modifies res nid side orderPrice connId)
    (registered : trader.sr.getConnObject connId = some cn)
    (absent : findNid nid trader.buyside.items = none) :
    modifyOrder server connected res trader =
      if side ≠ "1".toList ∧ (trader.buyside.allocated ∨ trader.sellside.allocated) then
        .error .endIterator
      else
        .ok (trader, [.sent cn (nid ++ "|no this order, modify failed".toList ++ "\n".toList),
          .amended res (nid ++ "|no this order, modify failed".toList)]) := by
  simp only [modifyOrder, field, message.nid, message.side, bind, Except.bind, absent,
    answer_modifies message registered]
  rfl

theorem concludes_found (queued : trader.sr.dqOrderhandle = val :: rest)
    (message : Modifies (split val "|".toList) nid side orderPrice connId)
    (registered : trader.sr.getConnObject connId = some cn) {it : ℕ}
    (found : findNid nid trader.buyside.items = some it) :
    Concludes server connected trader (trader.repriced orderPrice (some (.buyside, it))) cn
      (nid ++ modifyVerdict (some (.buyside, it))) := by
  obtain ⟨price, priceField, -⟩ := Option.bind_eq_some_iff.mp message.price
  obtain ⟨order, atPosition, -, -⟩ := findNid_eq_some found
  have modified := (getCancelOrder_popped server connected queued).trans
    ((amendOrder_modifies message).trans (modifyOrder_found message found))
  have finished := modified.trans (modifyBuyside_eq_ok message priceField registered atPosition)
  refine ⟨_, _, finished, ?_, rfl⟩
  funext chosen
  cases chosen <;> rfl

theorem concludes_absent (queued : trader.sr.dqOrderhandle = val :: rest)
    (message : Modifies (split val "|".toList) nid side orderPrice connId)
    (registered : trader.sr.getConnObject connId = some cn)
    (absent : findNid nid trader.buyside.items = none)
    (guard : ¬ (side ≠ "1".toList ∧ (trader.buyside.allocated ∨ trader.sellside.allocated))) :
    Concludes server connected trader (trader.repriced orderPrice none) cn
      (nid ++ modifyVerdict none) := by
  have modified := (getCancelOrder_popped server connected queued).trans
    ((amendOrder_modifies message).trans (modifyOrder_absent message registered absent))
  exact ⟨_, _, modified.trans (if_neg guard), rfl, rfl⟩

theorem not_concludes_of_allocated (queued : trader.sr.dqOrderhandle = val :: rest)
    (message : Modifies (split val "|".toList) nid side orderPrice connId)
    (registered : trader.sr.getConnObject connId = some cn)
    (absent : findNid nid trader.buyside.items = none)
    (guard : side ≠ "1".toList ∧ (trader.buyside.allocated ∨ trader.sellside.allocated))
    (vectors : Listing → List Order) (reply : Text) :
    ¬ Concludes server connected trader vectors cn reply := by
  have modified := (getCancelOrder_popped server connected queued).trans
    ((amendOrder_modifies message).trans (modifyOrder_absent message registered absent))
  rintro ⟨next, observations, finished, -⟩
  cases finished.symm.trans (modified.trans (if_pos guard))

/-- A modification is confirmed when an order with its nid was found, and then
this is what has happened. -/
theorem modified_of_confirmed {next : Trader} {observations : List Observation}
    (queued : trader.sr.dqOrderhandle = val :: rest)
    (message : Modifies (split val "|".toList) nid side orderPrice connId)
    (finished : trader.getCancelOrder server connected = .ok (next, observations))
    (confirmed : .amended (split val "|".toList) (nid ++ "|modify order success".toList) ∈
      observations) :
    ∃ cn it order price, trader.sr.getConnObject connId = some cn ∧
      findNid nid trader.buyside.items = some it ∧ trader.buyside.items[it]? = some order ∧
      (split val "|".toList)[2]? = some price ∧
      next = { trader with
        sr := { trader.sr with dqOrderhandle := rest }
        buyside := { trader.buyside with
          items := trader.buyside.items.modify it fun order => { order with orderPrice } }
        db := (updateOrderPrice server connected nid price trader.db).2 } ∧
      observations = [.sent cn (nid ++ "|modify order success".toList ++ "\n".toList),
        .amended (split val "|".toList) (nid ++ "|modify order success".toList),
        .updated order ⟨.orderPrice, nid, price⟩] := by
  have modified := (getCancelOrder_popped server connected queued).trans
    (amendOrder_modifies message)
  obtain ⟨cn, registered⟩ := registered_of_finished queued message.sender finished
  obtain ⟨price, priceField, -⟩ := Option.bind_eq_some_iff.mp message.price
  cases found : findNid nid trader.buyside.items with
  | some it =>
      obtain ⟨order, atPosition, -, -⟩ := findNid_eq_some found
      have result := (modified.trans (modifyOrder_found message found)).trans
        (modifyBuyside_eq_ok message priceField registered atPosition)
      cases finished.symm.trans result
      exact ⟨cn, it, order, price, registered, rfl, atPosition, priceField, rfl, rfl⟩
  | none =>
      have result := modified.trans (modifyOrder_absent message registered found)
      split at result
      next => cases finished.symm.trans result
      next =>
        cases finished.symm.trans result
        simp at confirmed

def AlreadyPriced (nid : Text) (orderPrice : Price) (orders : List Order) : Prop :=
  ∃ it order, findNid nid orders = some it ∧ orders[it]? = some order ∧
    order.orderPrice = orderPrice

theorem modify_orderPrice_inj {orders : List Order} {it : ℕ} {order : Order} {first second : Price}
    (position : orders[it]? = some order) :
    (orders.modify it fun order => { order with orderPrice := first }) =
        (orders.modify it fun order => { order with orderPrice := second }) ↔
      first = second := by
  constructor
  · intro same
    have prices := congrArg (fun orders => (orders[it]?).map Order.orderPrice) same
    simpa only [List.getElem?_modify_eq, position, Option.map_eq_map, Option.map_some,
      Option.some.injEq] using prices
  · rintro rfl
    rfl

theorem modify_orderPrice_self {orders : List Order} {it : ℕ} {order : Order}
    (position : orders[it]? = some order) :
    (orders.modify it fun other => { other with orderPrice := order.orderPrice }) = orders := by
  refine List.ext_getElem? fun index => ?_
  rw [List.getElem?_modify]
  by_cases here : it = index
  · subst here
    rw [position]
    simp
  · simp [here]

theorem modify_eq_self_iff {orders : List Order} {it : ℕ}
    (found : findNid nid orders = some it) :
    (orders.modify it fun order => { order with orderPrice }) = orders ↔
      AlreadyPriced nid orderPrice orders := by
  obtain ⟨order, atPosition, -, -⟩ := findNid_eq_some found
  constructor
  · intro unchanged
    have same := unchanged.trans (modify_orderPrice_self atPosition).symm
    exact ⟨it, order, found, atPosition, ((modify_orderPrice_inj atPosition).mp same).symm⟩
  · rintro ⟨it', order', found', atPosition', rfl⟩
    obtain rfl : it = it' := Option.some.inj (found.symm.trans found')
    exact modify_orderPrice_self atPosition'

theorem target_buyside : trader.target "1".toList nid =
    (findNid nid trader.buyside.items).map (Listing.buyside, ·) := by
  cases found : findNid nid trader.buyside.items <;> simp [target, Listing.ofSide, listing, found]

theorem target_sellside : trader.target "2".toList nid =
    (findNid nid trader.sellside.items).map (Listing.sellside, ·) := by
  cases found : findNid nid trader.sellside.items <;>
    simp [target, Listing.ofSide, listing, found]

theorem target_other (notBuy : side ≠ "1".toList) (notSell : side ≠ "2".toList) :
    trader.target side nid = none := by
  simp only [target, Listing.ofSide, notBuy, notSell, if_false]
  rfl

theorem modifyVerdict_ne {place : Listing × ℕ} : modifyVerdict none ≠ modifyVerdict (some place) := by
  simp [modifyVerdict]

/-- A success for `buyside_` is right for an order of the other vector only when
neither order changes. -/
theorem hits_sellside_iff {it : ℕ} (found : findNid nid trader.buyside.items = some it) :
    (trader.repriced orderPrice (trader.target "2".toList nid) =
          trader.repriced orderPrice (some (.buyside, it)) ∧
        nid ++ modifyVerdict (trader.target "2".toList nid) =
          nid ++ modifyVerdict (some (.buyside, it))) ↔
      ∀ chosen : Listing, AlreadyPriced nid orderPrice (trader.listing chosen).items := by
  rw [target_sellside, List.append_cancel_left_eq]
  cases foundSell : findNid nid trader.sellside.items with
  | none =>
      constructor
      · rintro ⟨-, told⟩
        exact absurd told modifyVerdict_ne
      · intro priced
        obtain ⟨it', _, found', -⟩ := priced .sellside
        cases foundSell.symm.trans found'
  | some itSell =>
      constructor
      · rintro ⟨same, -⟩ chosen
        cases chosen with
        | buyside => exact (modify_eq_self_iff found).mp (congrFun same .buyside).symm
        | sellside => exact (modify_eq_self_iff foundSell).mp (congrFun same .sellside)
      · intro priced
        refine ⟨?_, rfl⟩
        funext chosen
        cases chosen with
        | buyside => exact ((modify_eq_self_iff found).mpr (priced .buyside)).symm
        | sellside => exact (modify_eq_self_iff foundSell).mpr (priced .sellside)

/-- When it does no harm that only `buyside_` is searched. -/
def SearchSuffices (trader : Trader) (nid side : Text) (orderPrice : Price) : Prop :=
  side = "1".toList ∨
    (side = "2".toList ∧
      ∀ chosen : Listing, AlreadyPriced nid orderPrice (trader.listing chosen).items) ∨
    (trader.target side nid = none ∧ findNid nid trader.buyside.items = none ∧
      ¬ (trader.buyside.allocated ∨ trader.sellside.allocated))

theorem search_suffices_of_found {it : ℕ} (found : findNid nid trader.buyside.items = some it) :
    (trader.repriced orderPrice (trader.target side nid) =
          trader.repriced orderPrice (some (.buyside, it)) ∧
        nid ++ modifyVerdict (trader.target side nid) =
          nid ++ modifyVerdict (some (.buyside, it))) ↔
      SearchSuffices trader nid side orderPrice := by
  by_cases buy : side = "1".toList
  · subst buy
    rw [target_buyside, found]
    exact iff_of_true ⟨rfl, rfl⟩ (.inl rfl)
  · by_cases sell : side = "2".toList
    · subst sell
      rw [hits_sellside_iff found]
      simp [SearchSuffices, found]
    · rw [target_other buy sell, List.append_cancel_left_eq]
      apply iff_of_false
      · exact fun hits => modifyVerdict_ne hits.2
      · rintro (isBuy | ⟨isSell, -⟩ | ⟨-, absent, -⟩)
        · exact buy isBuy
        · exact sell isSell
        · cases found.symm.trans absent

theorem search_suffices_of_absent (absent : findNid nid trader.buyside.items = none)
    (guard : ¬ (side ≠ "1".toList ∧ (trader.buyside.allocated ∨ trader.sellside.allocated))) :
    (trader.repriced orderPrice (trader.target side nid) = trader.repriced orderPrice none ∧
        nid ++ modifyVerdict (trader.target side nid) = nid ++ modifyVerdict none) ↔
      SearchSuffices trader nid side orderPrice := by
  rw [List.append_cancel_left_eq]
  constructor
  · rintro ⟨-, told⟩
    by_cases buy : side = "1".toList
    · exact .inl buy
    · refine .inr (.inr ⟨?_, absent, fun allocated => guard ⟨buy, allocated⟩⟩)
      cases place : trader.target side nid with
      | none => rfl
      | some place' =>
          rw [place] at told
          exact absurd told.symm modifyVerdict_ne
  · rintro (rfl | ⟨-, priced⟩ | ⟨nowhere, -, -⟩)
    · rw [target_buyside, absent]
      exact ⟨rfl, rfl⟩
    · obtain ⟨it, _, found, -⟩ := priced .buyside
      cases absent.symm.trans found
    · rw [nowhere]
      exact ⟨rfl, rfl⟩

theorem not_search_suffices (absent : findNid nid trader.buyside.items = none)
    (guard : side ≠ "1".toList ∧ (trader.buyside.allocated ∨ trader.sellside.allocated)) :
    ¬ SearchSuffices trader nid side orderPrice := by
  rintro (buy | ⟨-, priced⟩ | ⟨-, -, untouched⟩)
  · exact guard.1 buy
  · obtain ⟨it, _, found, -⟩ := priced .buyside
    cases absent.symm.trans found
  · exact untouched guard.2

theorem hitsTarget_iff (registered : trader.sr.getConnObject connId = some cn) :
    HitsTarget server connected trader nid side orderPrice connId ↔
      Concludes server connected trader (trader.repriced orderPrice (trader.target side nid)) cn
        (nid ++ modifyVerdict (trader.target side nid)) := by
  constructor
  · rintro ⟨cn', registered', concludes⟩
    obtain rfl : cn = cn' := Option.some.inj (registered.symm.trans registered')
    exact concludes
  · intro concludes
    exact ⟨cn, registered, concludes⟩

end

/-- A modification does what it says exactly when its sender is connected and one
search is enough: for a buy order, for two orders that have the price already,
and while both vectors are untouched. -/
theorem modification_hits_target_iff (server : MariaDB) (connected : Bool) (trader : Trader)
    (val : Text) (rest : List Text) (nid side : Text) (orderPrice : Price) (connId : ℤ)
    (queued : trader.sr.dqOrderhandle = val :: rest)
    (message : Modifies (split val "|".toList) nid side orderPrice connId) :
    HitsTarget server connected trader nid side orderPrice connId ↔
      (∃ cn, trader.sr.getConnObject connId = some cn) ∧
        SearchSuffices trader nid side orderPrice := by
  cases registered : trader.sr.getConnObject connId with
  | none =>
      constructor
      · rintro ⟨cn, registered', -⟩
        cases registered.symm.trans registered'
      · rintro ⟨⟨cn, impossible⟩, -⟩
        cases impossible
  | some cn =>
      rw [hitsTarget_iff registered, and_iff_right ⟨cn, rfl⟩]
      cases found : findNid nid trader.buyside.items with
      | some it =>
          rw [(concludes_found queued message registered found).iff]
          exact search_suffices_of_found found
      | none =>
          by_cases guard :
              side ≠ "1".toList ∧ (trader.buyside.allocated ∨ trader.sellside.allocated)
          · apply iff_of_false
            · exact not_concludes_of_allocated queued message registered found guard _ _
            · exact not_search_suffices found guard
          · rw [(concludes_absent queued message registered found guard).iff]
            exact search_suffices_of_absent found guard

/-- A buy order and a sell order with one nid, loaded from the database. -/
def bothSides : Database where
  order := ⟨[
    { nid := 7, orderPrice := 60, symbol := "KKC".toList, userID := 324027, side := 1
      orderSituation := 1, clientSerialNum := 1 },
    { nid := 7, orderPrice := 62, symbol := "KKC".toList, userID := 324027, side := 2
      orderSituation := 1, clientSerialNum := 2 }], by decide +kernel⟩
  execReport := .empty

def amendingServer (message : Text) : Server where
  dqOrderhandle := [message]
  connStorage := [(0, 0)]
  connections _ := ⟨0, "0324027".toList, true⟩
  userList := Server.initialUsers
  quotesList := Server.initialQuotes

def restarted (db : Database) (message : Text) : Trader :=
  .construct .literal db .initial 2 (amendingServer message)

@[simp]
theorem restarted_sr (db : Database) (message : Text) :
    (restarted db message).sr = amendingServer message := by
  obtain ⟨buyside, sellside, equality⟩ :=
    construct_eq .literal db .initial 2 (amendingServer message)
  rw [restarted, equality]

@[simp]
theorem restarted_db (db : Database) (message : Text) : (restarted db message).db = db := by
  obtain ⟨buyside, sellside, equality⟩ :=
    construct_eq .literal db .initial 2 (amendingServer message)
  rw [restarted, equality]

theorem restarted_queued (db : Database) (message : Text) :
    (restarted db message).sr.dqOrderhandle = [message] := by
  rw [restarted_sr]
  rfl

theorem restarted_registered (db : Database) (message : Text) :
    (restarted db message).sr.getConnObject 0 = some 0 := by
  rw [restarted_sr]
  rfl

def sellModification : Text := "89|7|61|2|1|1|KKC|0|".toList

def buyModification : Text := "89|7|61|1|1|1|KKC|0|".toList

theorem sellModification_modifies :
    Modifies (split sellModification "|".toList) "7".toList "2".toList (.fin 61) 0 where
  code := by decide +kernel
  nid := by decide +kernel
  price := by decide +kernel
  side := by decide +kernel
  sender := by decide +kernel

theorem buyModification_modifies :
    Modifies (split buyModification "|".toList) "7".toList "1".toList (.fin 61) 0 where
  code := by decide +kernel
  nid := by decide +kernel
  price := by decide +kernel
  side := by decide +kernel
  sender := by decide +kernel

/-- The modification of the sell order changes the buy order. -/
theorem sellModification_hits_buy :
    (restarted bothSides sellModification).sr.dqOrderhandle = [sellModification] ∧
      Modifies (split sellModification "|".toList) "7".toList "2".toList (.fin 61) 0 ∧
      ¬ HitsTarget .literal true (restarted bothSides sellModification) "7".toList "2".toList
        (.fin 61) 0 := by
  refine ⟨restarted_queued _ _, sellModification_modifies, ?_⟩
  rintro ⟨cn, -, next, observations, finished, vectors, -⟩
  obtain ⟨⟨next', observations'⟩, finished', changed⟩ :=
    exists_ok_of_any ((restarted bothSides sellModification).getCancelOrder .literal true)
      (fun result => decide ((result.1.listing .buyside).items ≠
        (restarted bothSides sellModification).repriced (.fin 61)
          ((restarted bothSides sellModification).target "2".toList "7".toList) .buyside))
      (by decide +kernel)
  cases finished.symm.trans finished'
  exact of_decide_eq_true changed (congrFun vectors .buyside)

theorem modification_hits_target_iff_buyModification :
    HitsTarget .literal true (restarted bothSides buyModification) "7".toList "1".toList
      (.fin 61) 0 :=
  (modification_hits_target_iff .literal true (restarted bothSides buyModification) _ []
    "7".toList "1".toList (.fin 61) 0 (restarted_queued _ _) buyModification_modifies).mpr
      ⟨⟨0, restarted_registered _ _⟩, .inl rfl⟩

end Trader

end InertiaTrader
