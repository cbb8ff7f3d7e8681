import InertiaTrader.Trader.Basic

/-!
# `Trader::getOrder`

One iteration of the thread that takes orders in.  `address` is what
`new Order` returns and `connected` whether the database executes the INSERT.
-/

namespace InertiaTrader

open Foundation

namespace Trader

/-- The order built from the fields of a message.  The fields are read and
converted in the order of the source. -/
def newOrder (res : List Text) : Except Fault Order := do
  let nid ← field res 1
  let orderPrice ← convert (stod (← field res 2))
  let sideText ← field res 3
  let side ← convert (stoi sideText)
  let symbol ← field res 6
  let connId ← convert (stoi (← field res 7))
  return {
    nid
    orderPrice
    side_ := some (if sideText = "1".toList then .buy else .sell)
    side
    symbol
    userID := "0324027".toList
    connId := some connId }

def newOrderData (od : Order) (clientSerialNum : ℤ) : OrderData where
  nid := od.nid
  orderPrice := od.orderPrice
  symbol := od.symbol
  userID := od.userID
  side := (od.side_.getD .none).toInt
  clientSerialnum := clientSerialNum

/-- The branch of an order that passed the risk control and the balance test. -/
def acceptOrder (server : MariaDB) (address : ℕ) (connected : Bool) (connId : ℤ) (od : Order)
    (trader : Trader) : Except Fault (Trader × List Observation) := do
  let (clientSerialNum, trader) := trader.generateNid
  let od := { od with clientSerialNum := some clientSerialNum }
  let trader := { trader with
    toBooks := { trader.toBooks with od := some od }.orderDataInsert ⟨address, od⟩ }
  let odt := newOrderData od clientSerialNum
  let (stored, db) := insertOrder server connected odt trader.db
  let trader := { trader with db }
  let msg := od.nid ++
    (if stored then "|success".toList else "|failed, repeat nid".toList)
  return (trader, [.inserted ⟨address, od⟩, .insertOrderToDB odt,
    ← trader.reply connId msg, .ordered od msg])

/-- An order that is answered without touching book or database. -/
def refuseOrder (connId : ℤ) (reason : Text) (od : Order) (trader : Trader) :
    Except Fault (Trader × List Observation) := do
  let msg := od.nid ++ reason
  return (trader, [← trader.reply connId msg, .ordered od msg])

/-- The balance test of `getOrder`: the user who is looked up, and whether the
balance is larger than a thousand times the price. -/
def balanceTest (sr : Server) (connId : ℤ) (od : Order) : Except Fault (Text × Bool) :=
  match sr.getConnObject connId with
  | none => .error .nullPointer
  | some cn =>
      let username := (sr.connections cn).username
      match sr.userList.lookup username with
      | none => .error .endIterator
      | some user => .ok (username, od.orderPrice.scale 1000 < user.balance)

/-- The part of an iteration that follows `new Order`. -/
def handleOrder (server : MariaDB) (address : ℕ) (connected : Bool) (connId : ℤ) (od : Order)
    (trader : Trader) : Except Fault (Trader × List Observation) := do
  let od := trader.rc.verify od
  let trader := { trader with od := some od }
  if od.orderstatus = some .verified then
    let (username, sufficient) ← balanceTest trader.sr connId od
    let (trader, observations) ←
      if sufficient then
        acceptOrder server address connected connId od trader
      else
        refuseOrder connId "|failed, Insufficient balance".toList od trader
    return (trader, .balanceTested username :: observations)
  else
    refuseOrder connId "|failed".toList od trader

/-- One iteration of `Trader::getOrder`. -/
def getOrder (server : MariaDB) (address : ℕ) (connected : Bool) (trader : Trader) :
    Except Fault (Trader × List Observation) :=
  match trader.sr.dq with
  | [] => .ok (trader, [])
  | msg :: rest => do
      let trader := { trader with sr := { trader.sr with dq := rest } }
      let res := split msg "|".toList
      let od ← newOrder res
      let connId ← convert (stoi (← field res 7))
      handleOrder server address connected connId od trader

def acceptedOrder (trader : Trader) (od : Order) : Order :=
  { trader.rc.verify od with clientSerialNum := some trader.generateNid.1 }

def afterAccept (server : MariaDB) (address : ℕ) (connected : Bool) (od : Order)
    (trader : Trader) : Trader :=
  let accepted := trader.acceptedOrder od
  { trader with
    toBooks := { trader.toBooks with od := some accepted }.orderDataInsert ⟨address, accepted⟩
    nidSub2 := trader.nidSub2 + 1
    db := (insertOrder server connected (newOrderData accepted trader.generateNid.1) trader.db).2 }

/-- What `insertOrderToDB` returns for an order. -/
def storesOrder (server : MariaDB) (connected : Bool) (od : Order) (trader : Trader) : Bool :=
  (insertOrder server connected
    (newOrderData (trader.acceptedOrder od) trader.generateNid.1) trader.db).1

def acceptReply (server : MariaDB) (connected : Bool) (od : Order) (trader : Trader) : Text :=
  (trader.acceptedOrder od).nid ++
    (if trader.storesOrder server connected od then "|success".toList
      else "|failed, repeat nid".toList)

@[simp]
theorem verify_nid (rc : RiskController) (od : Order) : (rc.verify od).nid = od.nid := by
  rw [rc.verify_eq]

inductive Handling (server : MariaDB) (address : ℕ) (connected : Bool) (connId : ℤ)
    (od : Order) (trader : Trader) (cn : ConnRef) : Trader → List Observation → Prop where
  | failed :
      trader.rc.rejects od = true →
      Handling server address connected connId od trader cn
        { trader with od := some (trader.rc.verify od) }
        [.sent cn (od.nid ++ "|failed".toList ++ "\n".toList),
          .ordered (trader.rc.verify od) (od.nid ++ "|failed".toList)]
  | insufficient (username : Text) :
      trader.rc.rejects od = false →
      balanceTest trader.sr connId od = .ok (username, false) →
      Handling server address connected connId od trader cn
        { trader with od := some (trader.rc.verify od) }
        [.balanceTested username,
          .sent cn (od.nid ++ "|failed, Insufficient balance".toList ++ "\n".toList),
          .ordered (trader.rc.verify od) (od.nid ++ "|failed, Insufficient balance".toList)]
  | accepted (username : Text) :
      trader.rc.rejects od = false →
      balanceTest trader.sr connId od = .ok (username, true) →
      Handling server address connected connId od trader cn
        (trader.afterAccept server address connected od)
        [.balanceTested username,
          .inserted ⟨address, trader.acceptedOrder od⟩,
          .insertOrderToDB (newOrderData (trader.acceptedOrder od) trader.generateNid.1),
          .sent cn (trader.acceptReply server connected od ++ "\n".toList),
          .ordered (trader.acceptedOrder od) (trader.acceptReply server connected od)]

theorem verify_orderstatus (rc : RiskController) (od : Order) :
    (rc.verify od).orderstatus = some .verified ↔ rc.rejects od = false := by
  rw [rc.verify_eq]
  cases rc.rejects od <;> simp

theorem balanceTest_verify (sr : Server) (connId : ℤ) (rc : RiskController) (od : Order) :
    balanceTest sr connId (rc.verify od) = balanceTest sr connId od := by
  rw [balanceTest, rc.verify_eq, balanceTest]

theorem refuseOrder_eq_ok_iff {connId : ℤ} (reason : Text) (od : Order) (trader : Trader)
    {result : Trader × List Observation} :
    refuseOrder connId reason od trader = .ok result ↔
      ∃ cn, trader.sr.getConnObject connId = some cn ∧
        result = (trader, [.sent cn (od.nid ++ reason ++ "\n".toList),
          .ordered od (od.nid ++ reason)]) := by
  simp only [refuseOrder, bind_eq_ok_iff, reply_eq_ok_iff]
  constructor
  · rintro ⟨_, ⟨cn, found, rfl⟩, returned⟩
    cases returned
    exact ⟨cn, found, rfl⟩
  · rintro ⟨cn, found, rfl⟩
    exact ⟨_, ⟨cn, found, rfl⟩, rfl⟩

theorem acceptOrder_eq_ok_iff (server : MariaDB) (address : ℕ) (connected : Bool)
    {connId : ℤ} (od : Order) (trader : Trader) (last : Order)
    {result : Trader × List Observation} :
    acceptOrder server address connected connId (trader.rc.verify od)
        { trader with od := some last } = .ok result ↔
      ∃ cn, trader.sr.getConnObject connId = some cn ∧
        result = (trader.afterAccept server address connected od,
          [.inserted ⟨address, trader.acceptedOrder od⟩,
            .insertOrderToDB (newOrderData (trader.acceptedOrder od) trader.generateNid.1),
            .sent cn (trader.acceptReply server connected od ++ "\n".toList),
            .ordered (trader.acceptedOrder od) (trader.acceptReply server connected od)]) := by
  simp only [acceptOrder, bind_eq_ok_iff, reply_eq_ok_iff]
  constructor
  · rintro ⟨_, ⟨cn, found, rfl⟩, returned⟩
    cases returned
    exact ⟨cn, found, rfl⟩
  · rintro ⟨cn, found, rfl⟩
    exact ⟨_, ⟨cn, found, rfl⟩, rfl⟩

theorem handleOrder_cases {server : MariaDB} {address : ℕ} {connected : Bool} {connId : ℤ}
    {od : Order} {trader next : Trader} {observations : List Observation}
    (handled : handleOrder server address connected connId od trader = .ok (next, observations)) :
    ∃ cn, trader.sr.getConnObject connId = some cn ∧
      Handling server address connected connId od trader cn next observations := by
  unfold handleOrder at handled
  simp only [verify_orderstatus, balanceTest_verify] at handled
  split at handled
  next passed =>
    obtain ⟨⟨username, sufficient⟩, tested, handled⟩ := bind_eq_ok_iff.mp handled
    cases sufficient with
    | true =>
        obtain ⟨_, answered, returned⟩ := bind_eq_ok_iff.mp handled
        obtain ⟨cn, found, rfl⟩ := (acceptOrder_eq_ok_iff ..).mp answered
        cases returned
        exact ⟨cn, found, .accepted username passed tested⟩
    | false =>
        obtain ⟨_, answered, returned⟩ := bind_eq_ok_iff.mp handled
        obtain ⟨cn, found, rfl⟩ := (refuseOrder_eq_ok_iff ..).mp answered
        cases returned
        refine ⟨cn, found, ?_⟩
        rw [verify_nid]
        exact .insufficient username passed tested
  next rejected =>
    obtain ⟨cn, found, equality⟩ := (refuseOrder_eq_ok_iff ..).mp handled
    cases equality
    refine ⟨cn, found, ?_⟩
    rw [verify_nid]
    exact .failed (by simpa using rejected)

/-- An iteration faults neither in the balance test nor in the answer when the
connection is known and, for an order that reaches the balance test, its user. -/
theorem handleOrder_total (server : MariaDB) (address : ℕ) (connected : Bool) {connId : ℤ}
    (od : Order) (trader : Trader) {cn : ConnRef}
    (found : trader.sr.getConnObject connId = some cn)
    (known : trader.rc.rejects od = false →
      ∃ user, trader.sr.userList.lookup (trader.sr.connections cn).username = some user) :
    ∃ result, handleOrder server address connected connId od trader = .ok result := by
  unfold handleOrder
  simp only [verify_orderstatus, balanceTest_verify]
  split
  next verified =>
    obtain ⟨user, known⟩ := known verified
    have tested : balanceTest trader.sr connId od =
        .ok ((trader.sr.connections cn).username, od.orderPrice.scale 1000 < user.balance) := by
      simp only [balanceTest, found, known]
    by_cases sufficient : od.orderPrice.scale 1000 < user.balance
    · have answered := (acceptOrder_eq_ok_iff server address connected od trader
        (trader.rc.verify od)).mpr ⟨cn, found, rfl⟩
      exact ⟨_, bind_eq_ok_iff.mpr ⟨_, tested, (if_pos (decide_eq_true sufficient)).trans
        (bind_eq_ok_iff.mpr ⟨_, answered, rfl⟩)⟩⟩
    · have answered := (refuseOrder_eq_ok_iff "|failed, Insufficient balance".toList
        (trader.rc.verify od) { trader with od := some (trader.rc.verify od) }).mpr
          ⟨cn, found, rfl⟩
      exact ⟨_, bind_eq_ok_iff.mpr ⟨_, tested, (if_neg (by simpa using sufficient)).trans
        (bind_eq_ok_iff.mpr ⟨_, answered, rfl⟩)⟩⟩
  next => exact ⟨_, (refuseOrder_eq_ok_iff ..).mpr ⟨cn, found, rfl⟩⟩

theorem newOrder_eq_ok_iff {res : List Text} {od : Order} :
    newOrder res = .ok od ↔
      ∃ nid priceText orderPrice sideText side symbol connText connId,
        res[1]? = some nid ∧ res[2]? = some priceText ∧ stod priceText = some orderPrice ∧
        res[3]? = some sideText ∧ stoi sideText = some side ∧ res[6]? = some symbol ∧
        res[7]? = some connText ∧ stoi connText = some connId ∧
        od = {
          nid
          orderPrice
          side_ := some (if sideText = "1".toList then .buy else .sell)
          side
          symbol
          userID := "0324027".toList
          connId := some connId } := by
  simp only [newOrder, bind_eq_ok_iff, field_eq_ok_iff, convert_eq_ok_iff]
  constructor
  · rintro ⟨nid, nidField, priceText, priceField, orderPrice, priceRead, sideText, sideField,
      side, sideRead, symbol, symbolField, connText, connField, connId, connRead, returned⟩
    cases returned
    exact ⟨nid, priceText, orderPrice, sideText, side, symbol, connText, connId, nidField,
      priceField, priceRead, sideField, sideRead, symbolField, connField, connRead, rfl⟩
  · rintro ⟨nid, priceText, orderPrice, sideText, side, symbol, connText, connId, nidField,
      priceField, priceRead, sideField, sideRead, symbolField, connField, connRead, rfl⟩
    exact ⟨nid, nidField, priceText, priceField, orderPrice, priceRead, sideText, sideField,
      side, sideRead, symbol, symbolField, connText, connField, connId, connRead, rfl⟩

theorem newOrder_connId {res : List Text} {od : Order} (built : newOrder res = .ok od) :
    ∃ text connId, res[7]? = some text ∧ stoi text = some connId ∧ od.connId = some connId := by
  obtain ⟨_, _, _, _, _, _, connText, connId, _, _, _, _, _, _, connField, connRead, rfl⟩ :=
    newOrder_eq_ok_iff.mp built
  exact ⟨connText, connId, connField, connRead, rfl⟩

theorem newOrder_userID {res : List Text} {od : Order} (built : newOrder res = .ok od) :
    od.userID = "0324027".toList := by
  obtain ⟨_, _, _, _, _, _, _, _, _, _, _, _, _, _, _, _, rfl⟩ := newOrder_eq_ok_iff.mp built
  rfl

theorem newOrder_execPrice {res : List Text} {od : Order} (built : newOrder res = .ok od) :
    od.execPrice = none := by
  obtain ⟨_, _, _, _, _, _, _, _, _, _, _, _, _, _, _, _, rfl⟩ := newOrder_eq_ok_iff.mp built
  rfl

@[simp]
theorem verify_connId (rc : RiskController) (od : Order) : (rc.verify od).connId = od.connId := by
  rw [rc.verify_eq]

@[simp]
theorem verify_userID (rc : RiskController) (od : Order) : (rc.verify od).userID = od.userID := by
  rw [rc.verify_eq]

@[simp]
theorem acceptedOrder_connId (trader : Trader) (od : Order) :
    (trader.acceptedOrder od).connId = od.connId := by
  rw [acceptedOrder, RiskController.verify_eq]

@[simp]
theorem acceptedOrder_userID (trader : Trader) (od : Order) :
    (trader.acceptedOrder od).userID = od.userID := by
  rw [acceptedOrder, RiskController.verify_eq]

@[simp]
theorem acceptedOrder_nid (trader : Trader) (od : Order) :
    (trader.acceptedOrder od).nid = od.nid := by
  rw [acceptedOrder, RiskController.verify_eq]

@[simp]
theorem acceptedOrder_orderPrice (trader : Trader) (od : Order) :
    (trader.acceptedOrder od).orderPrice = od.orderPrice := by
  rw [acceptedOrder, RiskController.verify_eq]

@[simp]
theorem acceptedOrder_execPrice (trader : Trader) (od : Order) :
    (trader.acceptedOrder od).execPrice = od.execPrice := by
  rw [acceptedOrder, RiskController.verify_eq]

@[simp]
theorem rejects_acceptedOrder (rc : RiskController) (trader : Trader) (od : Order) :
    rc.rejects (trader.acceptedOrder od) = rc.rejects od := by
  rw [acceptedOrder, RiskController.verify_eq]
  rfl

theorem balanceTest_eq_ok {sr : Server} {connId : ℤ} {od : Order} {username : Text}
    {sufficient : Bool} {cn : ConnRef} (found : sr.getConnObject connId = some cn)
    (tested : balanceTest sr connId od = .ok (username, sufficient)) :
    username = (sr.connections cn).username ∧
      ∃ user, sr.userList.lookup username = some user ∧
        sufficient = decide (od.orderPrice.scale 1000 < user.balance) := by
  simp only [balanceTest, found] at tested
  split at tested
  next => cases tested
  next user known =>
    cases tested
    exact ⟨rfl, user, known, rfl⟩

theorem Handling.answers {server : MariaDB} {address : ℕ} {connected : Bool} {connId : ℤ}
    {od : Order} {trader next : Trader} {cn : ConnRef} {observations : List Observation}
    (handling : Handling server address connected connId od trader cn next observations) :
    ∃ od' reply, .ordered od' reply ∈ observations ∧
      .sent cn (reply ++ "\n".toList) ∈ observations ∧
      od'.connId = od.connId ∧ od'.userID = od.userID := by
  cases handling with
  | failed =>
      exact ⟨_, _, .tail _ (.head _), .head _, verify_connId _ _, verify_userID _ _⟩
  | insufficient =>
      exact ⟨_, _, .tail _ (.tail _ (.head _)), .tail _ (.head _), verify_connId _ _,
        verify_userID _ _⟩
  | accepted =>
      exact ⟨_, _, .tail _ (.tail _ (.tail _ (.tail _ (.head _)))),
        .tail _ (.tail _ (.tail _ (.head _))), acceptedOrder_connId _ _, acceptedOrder_userID _ _⟩

theorem getOrder_cases {server : MariaDB} {address : ℕ} {connected : Bool}
    {trader next : Trader} {observations : List Observation}
    (finished : trader.getOrder server address connected = .ok (next, observations)) :
    (trader.sr.dq = [] ∧ next = trader ∧ observations = []) ∨
      ∃ msg rest od connId cn,
        trader.sr.dq = msg :: rest ∧
        newOrder (split msg "|".toList) = .ok od ∧ od.connId = some connId ∧
        trader.sr.getConnObject connId = some cn ∧
        Handling server address connected connId od
          { trader with sr := { trader.sr with dq := rest } } cn next observations := by
  unfold getOrder at finished
  split at finished
  next empty =>
    simp only [Except.ok.injEq, Prod.mk.injEq] at finished
    exact .inl ⟨empty, finished.1.symm, finished.2.symm⟩
  next msg rest popped =>
    obtain ⟨od, built, finished⟩ := bind_eq_ok_iff.mp finished
    obtain ⟨connText, connField, finished⟩ := bind_eq_ok_iff.mp finished
    obtain ⟨connId, connRead, finished⟩ := bind_eq_ok_iff.mp finished
    obtain ⟨cn, found, handling⟩ := handleOrder_cases finished
    obtain ⟨connText', connId', connField', connRead', memberRead⟩ := newOrder_connId built
    rw [field_eq_ok_iff, connField', Option.some.injEq] at connField
    subst connField
    rw [convert_eq_ok_iff, connRead', Option.some.injEq] at connRead
    subst connRead
    exact .inr ⟨msg, rest, od, connId', cn, popped, built, memberRead, found, handling⟩

/-- The fields of a message that `getOrder` can handle: two numbers, and the id
of a connection whose user is known, should the balance be tested. -/
structure Readable (trader : Trader) (res : List Text) (orderPrice : Price) (side : ℤ)
    (symbol : Text) (connId : ℤ) (cn : ConnRef) : Prop where
  priceField : res[2]?.bind stod = some orderPrice
  sideField : res[3]?.bind stoi = some side
  symbolField : res[6]? = some symbol
  connField : res[7]?.bind stoi = some connId
  registered : trader.sr.getConnObject connId = some cn
  known : trader.rc.rejects { nid := [], orderPrice, symbol, side } = false →
    ∃ user, trader.sr.userList.lookup (trader.sr.connections cn).username = some user

theorem getOrder_ok_iff (server : MariaDB) (address : ℕ) (connected : Bool) {trader : Trader}
    {msg : Text} {rest : List Text} (queued : trader.sr.dq = msg :: rest) :
    (∃ next observations,
        trader.getOrder server address connected = .ok (next, observations) ∧
          next.sr.dq = rest) ↔
      ∃ orderPrice side symbol connId cn,
        Readable trader (split msg "|".toList) orderPrice side symbol connId cn := by
  constructor
  · rintro ⟨next, observations, finished, -⟩
    rcases getOrder_cases finished with
      ⟨empty, -, -⟩ | ⟨msg', rest', od, connId, cn, popped, built, member, found, handling⟩
    · rw [queued] at empty
      cases empty
    · rw [queued, List.cons.injEq] at popped
      obtain ⟨rfl, rfl⟩ := popped
      obtain ⟨nid, priceText, orderPrice, sideText, side, symbol, connText, connId', nidField,
        priceField, priceRead, sideField, sideRead, symbolField, connField, connRead, rfl⟩ :=
        newOrder_eq_ok_iff.mp built
      obtain rfl : connId' = connId := Option.some.inj member
      refine ⟨orderPrice, side, symbol, connId', cn, ?_, ?_, symbolField, ?_, found, ?_⟩
      · rw [priceField, Option.bind_some, priceRead]
      · rw [sideField, Option.bind_some, sideRead]
      · rw [connField, Option.bind_some, connRead]
      · intro verified
        cases handling with
        | failed rejected => exact absurd (verified.symm.trans rejected) Bool.false_ne_true
        | insufficient username _ tested | accepted username _ tested =>
            obtain ⟨rfl, user, known, -⟩ := balanceTest_eq_ok found tested
            exact ⟨user, known⟩
  · rintro ⟨orderPrice, side, symbol, connId, cn, readable⟩
    obtain ⟨priceText, priceField, priceRead⟩ := Option.bind_eq_some_iff.mp readable.priceField
    obtain ⟨sideText, sideField, sideRead⟩ := Option.bind_eq_some_iff.mp readable.sideField
    obtain ⟨connText, connField, connRead⟩ := Option.bind_eq_some_iff.mp readable.connField
    obtain ⟨nid, nidField⟩ : ∃ nid, (split msg "|".toList)[1]? = some nid :=
      ⟨_, List.getElem?_eq_getElem (lt_trans (by norm_num)
        (List.getElem?_eq_some_iff.mp connField).1)⟩
    obtain ⟨od, built, sameTests⟩ : ∃ od, newOrder (split msg "|".toList) = .ok od ∧
        trader.rc.rejects od = trader.rc.rejects { nid := [], orderPrice, symbol, side } :=
      ⟨_, newOrder_eq_ok_iff.mpr ⟨nid, priceText, orderPrice, sideText, side, symbol, connText,
        connId, nidField, priceField, priceRead, sideField, sideRead, readable.symbolField,
        connField, connRead, rfl⟩, rfl⟩
    obtain ⟨⟨next, observations⟩, handled⟩ := handleOrder_total server address connected od
      { trader with sr := { trader.sr with dq := rest } } readable.registered
      fun verified => readable.known (sameTests.symm.trans verified)
    refine ⟨next, observations, ?_, ?_⟩
    · simp only [getOrder, queued]
      exact bind_eq_ok_iff.mpr ⟨_, built, bind_eq_ok_iff.mpr ⟨connText,
        field_eq_ok_iff.mpr connField, bind_eq_ok_iff.mpr ⟨connId,
          convert_eq_ok_iff.mpr connRead, handled⟩⟩⟩
    · obtain ⟨_, -, handling⟩ := handleOrder_cases handled
      cases handling <;> rfl

end Trader

end InertiaTrader
