import InertiaTrader.Trader.Basic

/-!
# `Trader::getCancelOrder`

One iteration of the thread that cancels and modifies orders.  It searches the
vectors `buyside_` and `sellside_`, which only `loadExistOrder` fills.
-/

namespace InertiaTrader

open Foundation

namespace Trader

/-- The two vectors that cancel messages search. -/
inductive Listing where
  | buyside
  | sellside
  deriving DecidableEq

def listing (trader : Trader) : Listing → OrderVector
  | .buyside => trader.buyside
  | .sellside => trader.sellside

def setListing (trader : Trader) : Listing → List Order → Trader
  | .buyside, items => { trader with buyside := { trader.buyside with items } }
  | .sellside, items => { trader with sellside := { trader.sellside with items } }

/-- `std::find_if` for an order with a given nid. -/
def findNid (nid : Text) (orders : List Order) : Option ℕ :=
  orders.findIdx? fun order => order.nid = nid

def answer (trader : Trader) (res : List Text) (verdict : Text) :
    Except Fault (List Observation) := do
  let connNum ← convert (stoi (← field res 7))
  let msg := (← field res 1) ++ verdict
  return [← trader.reply connNum msg, .amended res msg]

/-- The branches for sides `1` and `2` of a cancel message. -/
def cancelFrom (server : MariaDB) (connected : Bool) (chosen : Listing) (res : List Text)
    (trader : Trader) : Except Fault (Trader × List Observation) := do
  let nid ← field res 1
  let items := (trader.listing chosen).items
  match findNid nid items with
  | some it =>
      let trader := trader.setListing chosen (items.eraseIdx it)
      let observations ← trader.answer res "|cancel order success".toList
      let db := (updateOrderSituation server connected nid "3".toList trader.db).2
      let updates := items[it]?.toList.map fun order =>
        .updated order ⟨.orderSituation, nid, "3".toList⟩
      return ({ trader with db }, observations ++ updates)
  | none =>
      return (trader, ← trader.answer res "|no this order".toList)

/-- `(*it)->orderPrice = std::stod(res[2])` for `it` in `buyside_`, and the
rest of a successful modification. -/
def modifyBuyside (server : MariaDB) (connected : Bool) (it : ℕ) (res : List Text)
    (trader : Trader) : Except Fault (Trader × List Observation) := do
  let nid ← field res 1
  let price ← field res 2
  let orderPrice ← convert (stod price)
  let items := trader.buyside.items
  let trader := trader.setListing .buyside
    (items.modify it fun order => { order with orderPrice })
  let observations ← trader.answer res "|modify order success".toList
  let db := (updateOrderPrice server connected nid price trader.db).2
  let updates := items[it]?.toList.map fun order => .updated order ⟨.orderPrice, nid, price⟩
  return ({ trader with db }, observations ++ updates)

/-- The branch of a modify message.  Whatever the side, the search is in
`buyside_`; for a side other than `1` its result is compared with the end of
`sellside_`. -/
def modifyOrder (server : MariaDB) (connected : Bool) (res : List Text) (trader : Trader) :
    Except Fault (Trader × List Observation) := do
  let nid ← field res 1
  let side ← field res 3
  match findNid nid trader.buyside.items with
  | some it => modifyBuyside server connected it res trader
  | none =>
      -- The two end iterators differ unless both vectors never held an order.
      if side ≠ "1".toList ∧ (trader.buyside.allocated ∨ trader.sellside.allocated) then
        .error .endIterator
      else
        return (trader, ← trader.answer res "|no this order, modify failed".toList)

/-- What `getCancelOrder` does with the fields of a message. -/
def amendOrder (server : MariaDB) (connected : Bool) (res : List Text) (trader : Trader) :
    Except Fault (Trader × List Observation) := do
  if (← field res 0) = "88".toList then
    let side ← field res 3
    if side = "1".toList then
      cancelFrom server connected .buyside res trader
    else if side = "2".toList then
      cancelFrom server connected .sellside res trader
    else
      return (trader, ← trader.answer res "|cancel order error".toList)
  else
    modifyOrder server connected res trader

/-- One iteration of `Trader::getCancelOrder`. -/
def getCancelOrder (server : MariaDB) (connected : Bool) (trader : Trader) :
    Except Fault (Trader × List Observation) :=
  match trader.sr.dqOrderhandle with
  | [] => .ok (trader, [])
  | val :: rest =>
      amendOrder server connected (split val "|".toList)
        { trader with sr := { trader.sr with dqOrderhandle := rest } }

@[simp]
theorem setListing_sr (trader : Trader) (chosen : Listing) (items : List Order) :
    (trader.setListing chosen items).sr = trader.sr := by
  cases chosen <;> rfl

@[simp]
theorem setListing_db (trader : Trader) (chosen : Listing) (items : List Order) :
    (trader.setListing chosen items).db = trader.db := by
  cases chosen <;> rfl

theorem findNid_eq_some {nid : Text} {orders : List Order} {it : ℕ}
    (found : findNid nid orders = some it) :
    ∃ order, orders[it]? = some order ∧ order ∈ orders ∧ order.nid = nid := by
  obtain ⟨inside, matches', -⟩ := List.findIdx?_eq_some_iff_getElem.mp found
  exact ⟨orders[it], List.getElem?_eq_getElem inside, List.getElem_mem inside,
    by simpa using matches'⟩

theorem answer_eq_ok_iff {trader : Trader} {res : List Text} {verdict : Text}
    {observations : List Observation} :
    trader.answer res verdict = .ok observations ↔
      ∃ connText connNum nid cn, res[7]? = some connText ∧ stoi connText = some connNum ∧
        res[1]? = some nid ∧ trader.sr.getConnObject connNum = some cn ∧
        observations = [.sent cn (nid ++ verdict ++ "\n".toList), .amended res (nid ++ verdict)] := by
  simp only [answer, bind_eq_ok_iff, field_eq_ok_iff, convert_eq_ok_iff, reply_eq_ok_iff]
  constructor
  · rintro ⟨connText, connField, connNum, connRead, nid, nidField, _, ⟨cn, found, rfl⟩, returned⟩
    cases returned
    exact ⟨connText, connNum, nid, cn, connField, connRead, nidField, found, rfl⟩
  · rintro ⟨connText, connNum, nid, cn, connField, connRead, nidField, found, rfl⟩
    exact ⟨connText, connField, connNum, connRead, nid, nidField, _, ⟨cn, found, rfl⟩, rfl⟩

/-- The field that selects the vector of a cancel message. -/
def Listing.sideText : Listing → Text
  | .buyside => "1".toList
  | .sellside => "2".toList

inductive Amendment (server : MariaDB) (connected : Bool) (res : List Text) (trader : Trader) :
    Trader → List Observation → Prop where
  | cancelled (chosen : Listing) (nid : Text) (it : ℕ) (order : Order) (cn : ConnRef) :
      res[0]? = some "88".toList → res[1]? = some nid → res[3]? = some chosen.sideText →
      (trader.listing chosen).items[it]? = some order → order.nid = nid →
      Amendment server connected res trader
        { trader.setListing chosen ((trader.listing chosen).items.eraseIdx it) with
          db := (updateOrderSituation server connected nid "3".toList trader.db).2 }
        [.sent cn (nid ++ "|cancel order success".toList ++ "\n".toList),
          .amended res (nid ++ "|cancel order success".toList),
          .updated order ⟨.orderSituation, nid, "3".toList⟩]
  | modified (nid price : Text) (orderPrice : Price) (it : ℕ) (order : Order) (cn : ConnRef) :
      res[0]? ≠ some "88".toList → res[1]? = some nid → res[2]? = some price →
      stod price = some orderPrice →
      trader.buyside.items[it]? = some order → order.nid = nid →
      Amendment server connected res trader
        { trader.setListing .buyside
            (trader.buyside.items.modify it fun order => { order with orderPrice }) with
          db := (updateOrderPrice server connected nid price trader.db).2 }
        [.sent cn (nid ++ "|modify order success".toList ++ "\n".toList),
          .amended res (nid ++ "|modify order success".toList),
          .updated order ⟨.orderPrice, nid, price⟩]
  | refused (nid verdict : Text) (cn : ConnRef) :
      verdict ∈ ["|no this order".toList, "|cancel order error".toList,
        "|no this order, modify failed".toList] →
      res[1]? = some nid →
      Amendment server connected res trader trader
        [.sent cn (nid ++ verdict ++ "\n".toList), .amended res (nid ++ verdict)]

theorem amendment_of_refusal {server : MariaDB} {connected : Bool} {res : List Text}
    {trader next : Trader} {verdict : Text} {observations : List Observation}
    (listed : verdict ∈ ["|no this order".toList, "|cancel order error".toList,
      "|no this order, modify failed".toList])
    (finished : (do return (trader, ← trader.answer res verdict)) =
      (.ok (next, observations) : Except Fault _)) :
    Amendment server connected res trader next observations := by
  obtain ⟨_, answered, returned⟩ := bind_eq_ok_iff.mp finished
  obtain ⟨_, _, nid, cn, _, _, nidField, _, rfl⟩ := answer_eq_ok_iff.mp answered
  cases returned
  exact .refused nid verdict cn listed nidField

theorem cancelFrom_cases {server : MariaDB} {connected : Bool} {chosen : Listing}
    {res : List Text} {trader next : Trader} {observations : List Observation}
    (code : res[0]? = some "88".toList) (side : res[3]? = some chosen.sideText)
    (finished : cancelFrom server connected chosen res trader = .ok (next, observations)) :
    Amendment server connected res trader next observations := by
  obtain ⟨nid, nidField, finished⟩ := bind_eq_ok_iff.mp finished
  rw [field_eq_ok_iff] at nidField
  dsimp only at finished
  split at finished
  next it found =>
    obtain ⟨_, answered, returned⟩ := bind_eq_ok_iff.mp finished
    obtain ⟨_, _, nid', cn, _, _, nidField', _, rfl⟩ := answer_eq_ok_iff.mp answered
    obtain rfl : nid = nid' := by simpa [nidField] using nidField'
    obtain ⟨order, atPosition, -, sameNid⟩ := findNid_eq_some found
    simp only [atPosition, Option.toList_some, List.map_cons, List.map_nil] at returned
    cases returned
    rw [setListing_db]
    exact .cancelled chosen nid it order cn code nidField side atPosition sameNid
  next => exact amendment_of_refusal (by simp) finished

theorem modifyOrder_cases {server : MariaDB} {connected : Bool}
    {res : List Text} {trader next : Trader} {observations : List Observation}
    (code : res[0]? ≠ some "88".toList)
    (finished : modifyOrder server connected res trader = .ok (next, observations)) :
    Amendment server connected res trader next observations := by
  obtain ⟨nid, nidField, finished⟩ := bind_eq_ok_iff.mp finished
  obtain ⟨side, sideField, finished⟩ := bind_eq_ok_iff.mp finished
  rw [field_eq_ok_iff] at nidField
  split at finished
  next it found =>
    obtain ⟨nid', nidField', finished⟩ := bind_eq_ok_iff.mp finished
    obtain ⟨price, priceField, finished⟩ := bind_eq_ok_iff.mp finished
    obtain ⟨orderPrice, priceRead, finished⟩ := bind_eq_ok_iff.mp finished
    obtain ⟨_, answered, returned⟩ := bind_eq_ok_iff.mp finished
    obtain ⟨_, _, nid'', cn, _, _, nidField'', _, rfl⟩ := answer_eq_ok_iff.mp answered
    rw [field_eq_ok_iff] at nidField' priceField
    rw [convert_eq_ok_iff] at priceRead
    obtain rfl : nid = nid' := by simpa [nidField] using nidField'
    obtain rfl : nid = nid'' := by simpa [nidField] using nidField''
    obtain ⟨order, atPosition, -, sameNid⟩ := findNid_eq_some found
    simp only [atPosition, Option.toList_some, List.map_cons, List.map_nil] at returned
    cases returned
    rw [setListing_db]
    exact .modified nid price orderPrice it order cn code nidField priceField priceRead
      atPosition sameNid
  next =>
    split at finished
    next => cases finished
    next => exact amendment_of_refusal (by simp) finished

theorem getCancelOrder_cases {server : MariaDB} {connected : Bool}
    {trader next : Trader} {observations : List Observation}
    (finished : trader.getCancelOrder server connected = .ok (next, observations)) :
    (trader.sr.dqOrderhandle = [] ∧ next = trader ∧ observations = []) ∨
      ∃ val rest, trader.sr.dqOrderhandle = val :: rest ∧
        Amendment server connected (split val "|".toList)
          { trader with sr := { trader.sr with dqOrderhandle := rest } } next observations := by
  unfold getCancelOrder at finished
  split at finished
  next empty =>
    simp only [Except.ok.injEq, Prod.mk.injEq] at finished
    exact .inl ⟨empty, finished.1.symm, finished.2.symm⟩
  next val rest popped =>
    refine .inr ⟨val, rest, popped, ?_⟩
    obtain ⟨code, codeField, finished⟩ := bind_eq_ok_iff.mp finished
    rw [field_eq_ok_iff] at codeField
    split at finished
    next isCancel =>
      subst isCancel
      obtain ⟨side, sideField, finished⟩ := bind_eq_ok_iff.mp finished
      rw [field_eq_ok_iff] at sideField
      split at finished
      next buy => exact cancelFrom_cases codeField (by rw [sideField, buy]; rfl) finished
      next =>
        split at finished
        next sell => exact cancelFrom_cases codeField (by rw [sideField, sell]; rfl) finished
        next => exact amendment_of_refusal (by simp) finished
    next isModify =>
      refine modifyOrder_cases ?_ finished
      rw [codeField]
      exact fun equality => isModify (Option.some.inj equality)

def Answerable (trader : Trader) (res : List Text) : Prop :=
  ∃ connId cn, res[7]?.bind stoi = some connId ∧ trader.sr.getConnObject connId = some cn

/-- The fields of a message that `getCancelOrder` can handle.  For a modification
the price of an order that it finds must be a number, and if it finds none, then
only the side `1` or two vectors that never held an order keep it from using the
end of one vector in the other. -/
structure Amendable (trader : Trader) (res : List Text) : Prop where
  answerable : trader.Answerable res
  priced : res[0]? ≠ some "88".toList →
    (∃ order ∈ trader.buyside.items, res[1]? = some order.nid) →
    ∃ price, res[2]?.bind stod = some price
  listed : res[0]? ≠ some "88".toList →
    (∀ order ∈ trader.buyside.items, res[1]? ≠ some order.nid) →
    res[3]? = some "1".toList ∨ ¬ (trader.buyside.allocated ∨ trader.sellside.allocated)

theorem Answerable.field {trader : Trader} {res : List Text} (answerable : trader.Answerable res)
    (index : ℕ) (inside : index ≤ 7) : ∃ text, res[index]? = some text := by
  obtain ⟨connId, cn, connField, -⟩ := answerable
  obtain ⟨connText, present, -⟩ := Option.bind_eq_some_iff.mp connField
  exact ⟨_, List.getElem?_eq_getElem
    (lt_of_le_of_lt inside (List.getElem?_eq_some_iff.mp present).1)⟩

theorem answer_ok_iff {trader : Trader} {res : List Text} (verdict : Text) :
    (∃ observations, trader.answer res verdict = .ok observations) ↔ trader.Answerable res := by
  constructor
  · rintro ⟨observations, answered⟩
    obtain ⟨connText, connNum, _, cn, connField, connRead, -, found, -⟩ :=
      answer_eq_ok_iff.mp answered
    exact ⟨connNum, cn, by rw [connField, Option.bind_some, connRead], found⟩
  · intro answerable
    obtain ⟨nid, nidField⟩ := answerable.field 1 (by norm_num)
    obtain ⟨connId, cn, connField, found⟩ := answerable
    obtain ⟨connText, present, connRead⟩ := Option.bind_eq_some_iff.mp connField
    exact ⟨_, answer_eq_ok_iff.mpr ⟨connText, connId, nid, cn, present, connRead, nidField,
      found, rfl⟩⟩

theorem answered_ok_iff {Result : Type} {trader : Trader} {res : List Text} {verdict : Text}
    (result : List Observation → Result) :
    (∃ returned, (do return result (← trader.answer res verdict)) =
      (.ok returned : Except Fault Result)) ↔ trader.Answerable res := by
  rw [← answer_ok_iff verdict]
  constructor
  · rintro ⟨returned, finished⟩
    obtain ⟨observations, answered, -⟩ := bind_eq_ok_iff.mp finished
    exact ⟨observations, answered⟩
  · rintro ⟨observations, answered⟩
    exact ⟨_, bind_eq_ok_iff.mpr ⟨observations, answered, rfl⟩⟩

theorem answerable_setListing {trader : Trader} {res : List Text} (chosen : Listing)
    (items : List Order) :
    (trader.setListing chosen items).Answerable res ↔ trader.Answerable res := by
  rw [Answerable, setListing_sr, Answerable]

theorem findNid_eq_none_iff {nid : Text} {orders : List Order} :
    findNid nid orders = none ↔ ∀ order ∈ orders, order.nid ≠ nid := by
  simp [findNid]

theorem cancelFrom_ok_iff (server : MariaDB) (connected : Bool) (chosen : Listing)
    (res : List Text) (trader : Trader) :
    (∃ result, cancelFrom server connected chosen res trader = .ok result) ↔
      trader.Answerable res := by
  simp only [cancelFrom, exists_bind_eq_ok_iff, field_eq_ok_iff]
  constructor
  · rintro ⟨nid, -, finished⟩
    split at finished
    next => exact (answerable_setListing ..).mp ((answered_ok_iff _).mp finished)
    next => exact (answered_ok_iff _).mp finished
  · intro answerable
    obtain ⟨nid, nidField⟩ := answerable.field 1 (by norm_num)
    refine ⟨nid, nidField, ?_⟩
    split
    next => exact (answered_ok_iff _).mpr ((answerable_setListing ..).mpr answerable)
    next => exact (answered_ok_iff _).mpr answerable

theorem modifyBuyside_ok_iff (server : MariaDB) (connected : Bool) (it : ℕ)
    (res : List Text) (trader : Trader) :
    (∃ result, modifyBuyside server connected it res trader = .ok result) ↔
      trader.Answerable res ∧ ∃ price, res[2]?.bind stod = some price := by
  simp only [modifyBuyside, exists_bind_eq_ok_iff, field_eq_ok_iff, convert_eq_ok_iff]
  constructor
  · rintro ⟨nid, -, price, priceField, orderPrice, priceRead, finished⟩
    refine ⟨(answerable_setListing ..).mp ((answered_ok_iff _).mp
      (exists_bind_eq_ok_iff.mpr finished)), orderPrice, ?_⟩
    rw [priceField, Option.bind_some, priceRead]
  · rintro ⟨answerable, orderPrice, priceField⟩
    obtain ⟨nid, nidField⟩ := answerable.field 1 (by norm_num)
    obtain ⟨price, present, priceRead⟩ := Option.bind_eq_some_iff.mp priceField
    exact ⟨nid, nidField, price, present, orderPrice, priceRead,
      exists_bind_eq_ok_iff.mp ((answered_ok_iff _).mpr
        ((answerable_setListing ..).mpr answerable))⟩

/-- A modification is handled exactly when it can be answered and neither its
price nor the comparison of the two end iterators gets in its way. -/
theorem modifyOrder_ok_iff (server : MariaDB) (connected : Bool) (res : List Text)
    (trader : Trader) :
    (∃ result, modifyOrder server connected res trader = .ok result) ↔
      trader.Answerable res ∧
        ((∃ order ∈ trader.buyside.items, res[1]? = some order.nid) →
          ∃ price, res[2]?.bind stod = some price) ∧
        ((∀ order ∈ trader.buyside.items, res[1]? ≠ some order.nid) →
          res[3]? = some "1".toList ∨
            ¬ (trader.buyside.allocated ∨ trader.sellside.allocated)) := by
  simp only [modifyOrder, exists_bind_eq_ok_iff, field_eq_ok_iff]
  have found_iff {nid : Text} (nidField : res[1]? = some nid) :
      (∀ order ∈ trader.buyside.items, res[1]? ≠ some order.nid) ↔
        findNid nid trader.buyside.items = none := by
    rw [findNid_eq_none_iff, nidField]
    simp only [ne_eq, Option.some.injEq, eq_comm]
  constructor
  · rintro ⟨nid, nidField, side, sideField, finished⟩
    split at finished
    next it found =>
      obtain ⟨answerable, priced⟩ := (modifyBuyside_ok_iff ..).mp finished
      refine ⟨answerable, fun _ => priced, fun absent => ?_⟩
      rw [(found_iff nidField).mp absent] at found
      cases found
    next absent =>
      split at finished
      next =>
        obtain ⟨result, fault⟩ := finished
        cases fault
      next guard =>
        refine ⟨(answered_ok_iff _).mp finished, ?_, fun _ => ?_⟩
        · rintro ⟨order, listed, isNid⟩
          exact absurd isNid ((found_iff nidField).mpr absent order listed)
        · by_cases one : side = "1".toList
          · exact .inl (one ▸ sideField)
          · exact .inr fun allocated => guard ⟨one, allocated⟩
  · rintro ⟨answerable, priced, listed⟩
    obtain ⟨nid, nidField⟩ := answerable.field 1 (by norm_num)
    obtain ⟨side, sideField⟩ := answerable.field 3 (by norm_num)
    refine ⟨nid, nidField, side, sideField, ?_⟩
    split
    next it found =>
      obtain ⟨order, -, inBuyside, sameNid⟩ := findNid_eq_some found
      exact (modifyBuyside_ok_iff ..).mpr
        ⟨answerable, priced ⟨order, inBuyside, sameNid ▸ nidField⟩⟩
    next absent =>
      have guard : ¬ (side ≠ "1".toList ∧
          (trader.buyside.allocated ∨ trader.sellside.allocated)) := by
        rintro ⟨other, allocated⟩
        rcases listed ((found_iff nidField).mpr absent) with one | never
        · exact other (Option.some.inj (sideField.symm.trans one))
        · exact never allocated
      rw [if_neg guard]
      exact (answered_ok_iff _).mpr answerable

theorem amendOrder_ok_iff (server : MariaDB) (connected : Bool) (res : List Text)
    (trader : Trader) :
    (∃ result, amendOrder server connected res trader = .ok result) ↔ trader.Amendable res := by
  simp only [amendOrder, exists_bind_eq_ok_iff, field_eq_ok_iff]
  constructor
  · rintro ⟨code, codeField, finished⟩
    split at finished
    next isCancel =>
      have isCancelled : res[0]? = some "88".toList := isCancel ▸ codeField
      rw [exists_bind_eq_ok_iff] at finished
      obtain ⟨side, -, finished⟩ := finished
      refine ⟨?_, fun other => absurd isCancelled other, fun other => absurd isCancelled other⟩
      split at finished
      next => exact (cancelFrom_ok_iff ..).mp finished
      next =>
        split at finished
        next => exact (cancelFrom_ok_iff ..).mp finished
        next => exact (answered_ok_iff _).mp finished
    next =>
      obtain ⟨answerable, priced, listed⟩ := (modifyOrder_ok_iff ..).mp finished
      exact ⟨answerable, fun _ => priced, fun _ => listed⟩
  · intro amendable
    obtain ⟨code, codeField⟩ := amendable.answerable.field 0 (by norm_num)
    obtain ⟨side, sideField⟩ := amendable.answerable.field 3 (by norm_num)
    refine ⟨code, codeField, ?_⟩
    split
    next =>
      rw [exists_bind_eq_ok_iff]
      refine ⟨side, field_eq_ok_iff.mpr sideField, ?_⟩
      split
      next => exact (cancelFrom_ok_iff ..).mpr amendable.answerable
      next =>
        split
        next => exact (cancelFrom_ok_iff ..).mpr amendable.answerable
        next => exact (answered_ok_iff _).mpr amendable.answerable
    next isModify =>
      have other : res[0]? ≠ some "88".toList := by
        rw [codeField]
        exact fun equality => isModify (Option.some.inj equality)
      exact (modifyOrder_ok_iff ..).mpr
        ⟨amendable.answerable, amendable.priced other, amendable.listed other⟩

theorem getCancelOrder_ok_iff (server : MariaDB) (connected : Bool) {trader : Trader}
    {val : Text} {rest : List Text} (queued : trader.sr.dqOrderhandle = val :: rest) :
    (∃ next observations, trader.getCancelOrder server connected = .ok (next, observations) ∧
        next.sr.dqOrderhandle = rest) ↔
      trader.Amendable (split val "|".toList) := by
  have popped : trader.getCancelOrder server connected =
      amendOrder server connected (split val "|".toList)
        { trader with sr := { trader.sr with dqOrderhandle := rest } } := by
    simp only [getCancelOrder, queued]
  have amendable_iff := amendOrder_ok_iff server connected (split val "|".toList)
    { trader with sr := { trader.sr with dqOrderhandle := rest } }
  constructor
  · rintro ⟨next, observations, finished, -⟩
    obtain ⟨answerable, priced, listed⟩ := amendable_iff.mp ⟨_, popped ▸ finished⟩
    exact ⟨answerable, priced, listed⟩
  · rintro ⟨answerable, priced, listed⟩
    obtain ⟨⟨next, observations⟩, finished⟩ := amendable_iff.mpr ⟨answerable, priced, listed⟩
    rw [← popped] at finished
    refine ⟨next, observations, finished, ?_⟩
    rcases getCancelOrder_cases finished with ⟨empty, -, -⟩ | ⟨val', rest', popped', amendment⟩
    · rw [queued] at empty
      cases empty
    · rw [queued, List.cons.injEq] at popped'
      rw [popped'.2]
      cases amendment with
      | cancelled | modified => rw [setListing_sr]
      | refused => rfl

end Trader

end InertiaTrader
