import InertiaTrader.Orders.Modification
import InertiaTrader.Orders.RiskBand

/-!
# What a modification may do

`getOrder` verifies an order and tests the balance of its sender.  The branch of
`getCancelOrder` that changes a price does neither, and does not ask whose order
it changes.
-/

namespace InertiaTrader

open Foundation Trader

def Trader.openOrders (trader : Trader) : List Order :=
  trader.buyside.items ++ trader.sellside.items ++
    (trader.rawBuyside.items ++ trader.rawSellside.items).map (·.order)

def Trader.OrdersInBand (trader : Trader) : Prop :=
  ∃ ref, trader.rc.reference = .fin ref ∧
    ∀ order ∈ trader.openOrders, InBand ref order.orderPrice

/-- A new order with the fields of a message passes `verify` and the balance
test. -/
def PassesAsNew (trader : Trader) (res : List Text) : Prop :=
  ∃ od connId username, newOrder (res.set 0 "87".toList) = .ok od ∧ od.connId = some connId ∧
    trader.rc.rejects od = false ∧ balanceTest trader.sr connId od = .ok (username, true)

/-- A modification that keeps to the rules for new orders. -/
structure KeepsRules (trader next : Trader) (res : List Text) (connId : ℤ)
    (observations : List Observation) : Prop where
  passes : PassesAsNew trader res
  inBand : trader.OrdersInBand → next.OrdersInBand
  owned : ∀ order update, .updated order update ∈ observations →
    ∃ cn, trader.sr.getConnObject connId = some cn ∧
      order.userID = (trader.sr.connections cn).username

/-- A side that is a number, a known symbol, a price in the band that the user of
the connection can pay, and an order of that user. -/
structure Admissible (trader : Trader) (res : List Text) (orderPrice : Price) (cn : ConnRef)
    (order : Order) : Prop where
  side : ∃ side, res[3]?.bind stoi = some side
  symbol : ∃ symbol ∈ trader.rc.productList, res[6]? = some symbol
  notAbove : ¬ trader.rc.reference.scale (11 / 10) < orderPrice
  notBelow : ¬ orderPrice < trader.rc.reference.scale (9 / 10)
  balance : ∃ user, trader.sr.userList.lookup (trader.sr.connections cn).username = some user ∧
    orderPrice.scale 1000 < user.balance
  owner : order.userID = (trader.sr.connections cn).username

section

variable {trader : Trader} {res : List Text} {nid side : Text} {orderPrice : Price}
    {connId : ℤ} {cn : ConnRef} {order : Order}

theorem Admissible.passesAsNew (message : Modifies res nid side orderPrice connId)
    (registered : trader.sr.getConnObject connId = some cn)
    (admissible : Admissible trader res orderPrice cn order) : PassesAsNew trader res := by
  obtain ⟨sideNumber, sideField⟩ := admissible.side
  obtain ⟨symbol, product, symbolField⟩ := admissible.symbol
  obtain ⟨user, known, sufficient⟩ := admissible.balance
  obtain ⟨priceText, priceField, priceRead⟩ := Option.bind_eq_some_iff.mp message.price
  obtain ⟨sideText, sideField, sideRead⟩ := Option.bind_eq_some_iff.mp sideField
  obtain ⟨connText, connField, connRead⟩ := Option.bind_eq_some_iff.mp message.sender
  refine ⟨_, connId, (trader.sr.connections cn).username, newOrder_eq_ok_iff.mpr
    ⟨nid, priceText, orderPrice, sideText, sideNumber, symbol, connText, connId, ?_, ?_, priceRead,
      ?_, sideRead, ?_, ?_, connRead, rfl⟩, rfl, ?_, ?_⟩
  · rw [List.getElem?_set_ne (by norm_num), message.nid]
  · rw [List.getElem?_set_ne (by norm_num), priceField]
  · rw [List.getElem?_set_ne (by norm_num), sideField]
  · rw [List.getElem?_set_ne (by norm_num), symbolField]
  · rw [List.getElem?_set_ne (by norm_num), connField]
  · simp [RiskController.rejects, admissible.notAbove, admissible.notBelow, product]
  · simp [balanceTest, registered, known, sufficient]

theorem admissible_of_passesAsNew (message : Modifies res nid side orderPrice connId)
    (registered : trader.sr.getConnObject connId = some cn)
    (owner : order.userID = (trader.sr.connections cn).username)
    (passes : PassesAsNew trader res) : Admissible trader res orderPrice cn order := by
  obtain ⟨od, connId', username, built, member, verified, tested⟩ := passes
  obtain ⟨nid', priceText, orderPrice', sideText, sideNumber, symbol, connText, connId'',
    nidField, priceField, priceRead, sideField, sideRead, symbolField, connField, connRead, rfl⟩ :=
    newOrder_eq_ok_iff.mp built
  rw [List.getElem?_set_ne (by norm_num)] at priceField sideField symbolField connField
  obtain rfl : orderPrice = orderPrice' := by
    have read := message.price
    rw [priceField, Option.bind_some, priceRead] at read
    exact (Option.some.inj read).symm
  obtain rfl : connId = connId' := by
    have read := message.sender
    rw [connField, Option.bind_some, connRead] at read
    exact (Option.some.inj read).symm.trans (Option.some.inj member)
  obtain ⟨rfl, user, known, sufficient⟩ := balanceTest_eq_ok registered tested
  simp only [RiskController.rejects, decide_eq_false_iff_not, not_or, not_not] at verified
  obtain ⟨notAbove, notBelow, product⟩ := verified
  exact {
    side := ⟨sideNumber, by rw [sideField, Option.bind_some, sideRead]⟩
    symbol := ⟨symbol, product, symbolField⟩
    notAbove
    notBelow
    balance := ⟨user, known, of_decide_eq_true sufficient.symm⟩
    owner }

theorem Admissible.inBand {ref : ℚ} (finite : trader.rc.reference = .fin ref)
    (admissible : Admissible trader res orderPrice cn order) : InBand ref orderPrice := by
  obtain ⟨symbol, product, -⟩ := admissible.symbol
  obtain ⟨user, -, sufficient⟩ := admissible.balance
  let renewed : Order := { nid := [], orderPrice, symbol, side := 0 }
  have verified : trader.rc.rejects renewed = false := by
    simp [RiskController.rejects, renewed, admissible.notAbove, admissible.notBelow, product]
  exact (inBand_of_passes finite verified sufficient).2

theorem inBand_modify {orders : List Order} {ref : ℚ} {it : ℕ} (inBand : InBand ref orderPrice)
    (before : ∀ order ∈ orders, InBand ref order.orderPrice) :
    ∀ order ∈ orders.modify it fun order => { order with orderPrice },
      InBand ref order.orderPrice := by
  intro order membership
  obtain ⟨position, atPosition⟩ := List.getElem?_of_mem membership
  rw [List.getElem?_modify] at atPosition
  obtain ⟨original, here, changed⟩ := Option.map_eq_some_iff.mp atPosition
  split at changed
  next =>
    rw [← changed]
    exact inBand
  next =>
    rw [← changed]
    exact before original (List.mem_of_getElem? here)

end

/-- A confirmed modification keeps to the rules for new orders exactly when it
happens to ask for what they allow. -/
theorem modification_keeps_rules_iff (server : MariaDB) (connected : Bool)
    (trader next : Trader) (observations : List Observation) (val : Text) (rest : List Text)
    (nid side : Text) (orderPrice : Price) (connId : ℤ)
    (queued : trader.sr.dqOrderhandle = val :: rest)
    (message : Modifies (split val "|".toList) nid side orderPrice connId)
    (finished : trader.getCancelOrder server connected = .ok (next, observations))
    (confirmed : .amended (split val "|".toList) (nid ++ "|modify order success".toList) ∈
      observations) :
    KeepsRules trader next (split val "|".toList) connId observations ↔
      ∃ cn it order, trader.sr.getConnObject connId = some cn ∧
        findNid nid trader.buyside.items = some it ∧ trader.buyside.items[it]? = some order ∧
        Admissible trader (split val "|".toList) orderPrice cn order := by
  obtain ⟨cn, it, order, price, registered, found, atPosition, -, rfl, rfl⟩ :=
    modified_of_confirmed queued message finished confirmed
  constructor
  · intro keeps
    obtain ⟨cn', registered', owner⟩ := keeps.owned order _ (.tail _ (.tail _ (.head _)))
    obtain rfl : cn = cn' := Option.some.inj (registered.symm.trans registered')
    exact ⟨cn, it, order, registered, found, atPosition,
      admissible_of_passesAsNew message registered owner keeps.passes⟩
  · rintro ⟨cn', it', order', registered', found', atPosition', admissible⟩
    obtain rfl : cn = cn' := Option.some.inj (registered.symm.trans registered')
    obtain rfl : it = it' := Option.some.inj (found.symm.trans found')
    obtain rfl : order = order' := Option.some.inj (atPosition.symm.trans atPosition')
    refine ⟨admissible.passesAsNew message registered, ?_, ?_⟩
    · rintro ⟨ref, finite, before⟩
      refine ⟨ref, finite, ?_⟩
      simp only [openOrders, List.mem_append, or_imp, forall_and] at before ⊢
      exact ⟨⟨inBand_modify (admissible.inBand finite) before.1.1, before.1.2⟩, before.2⟩
    · intro modified update membership
      simp only [List.mem_cons, reduceCtorEq, List.not_mem_nil, Observation.updated.injEq,
        false_or, or_false] at membership
      obtain ⟨rfl, -⟩ := membership
      exact ⟨cn, registered, admissible.owner⟩

/-- A price far below the band. -/
def cheapModification : Text := "89|7|1|1|1|1|KKC|0|".toList

/-- It is confirmed, and as a new order it would be rejected. -/
theorem cheapModification_confirmed :
    ∃ next observations,
      (restarted bothSides cheapModification).getCancelOrder .literal true =
        .ok (next, observations) ∧
      .amended (split cheapModification "|".toList) "7|modify order success".toList ∈
        observations ∧
      ¬ KeepsRules (restarted bothSides cheapModification) next
        (split cheapModification "|".toList) 0 observations := by
  obtain ⟨⟨next, observations⟩, finished, confirmed⟩ :=
    exists_ok_of_any ((restarted bothSides cheapModification).getCancelOrder .literal true)
      (fun result => decide (.amended (split cheapModification "|".toList)
        "7|modify order success".toList ∈ result.2))
      (by decide +kernel)
  refine ⟨next, observations, finished, of_decide_eq_true confirmed, fun keeps => ?_⟩
  obtain ⟨od, _, _, built, -, verified, -⟩ := keeps.passes
  obtain ⟨od', built', rejected⟩ :=
    exists_ok_of_any (newOrder ((split cheapModification "|".toList).set 0 "87".toList))
      RiskController.initial.rejects (by decide +kernel)
  cases built.symm.trans built'
  cases verified.symm.trans rejected

def ownedOrder : Order :=
  { nid := "7".toList, orderPrice := .fin 60, userID := "0324027".toList, side := 1 }

def ownedTrader : Trader :=
  { restarted bothSides buyModification with buyside := ⟨[ownedOrder], true⟩ }

theorem modification_keeps_rules_iff_ownedTrader :
    ∃ next observations,
      ownedTrader.getCancelOrder .literal true = .ok (next, observations) ∧
        KeepsRules ownedTrader next (split buyModification "|".toList) 0 observations := by
  obtain ⟨⟨next, observations⟩, finished, confirmed⟩ :=
    exists_ok_of_any (ownedTrader.getCancelOrder .literal true)
      (fun result => decide (.amended (split buyModification "|".toList)
        "7|modify order success".toList ∈ result.2))
      (by decide +kernel)
  refine ⟨next, observations, finished, (modification_keeps_rules_iff .literal true ownedTrader
    next observations _ [] "7".toList "1".toList (.fin 61) 0 (restarted_queued _ _)
    buyModification_modifies finished (of_decide_eq_true confirmed)).mpr
      ⟨0, 0, ownedOrder, restarted_registered _ _, by decide +kernel, rfl, ?_⟩⟩
  exact {
    side := ⟨1, by decide +kernel⟩
    symbol := ⟨"KKC".toList, by decide +kernel, by decide +kernel⟩
    notAbove := by decide +kernel
    notBelow := by decide +kernel
    balance := ⟨⟨.fin 1000000⟩, by decide +kernel, by decide +kernel⟩
    owner := rfl }

end InertiaTrader
