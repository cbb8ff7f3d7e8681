import InertiaTrader.Trader.Basic

/-!
# Matching and execution reports

The pass of `Trader::matchup` on all members it writes, and the reporting of
what it pushed to `reportList_`.
-/

namespace InertiaTrader

open Foundation

namespace Trader

/-- The part of a pass of `matchup` that comes before its two calls of
`reportList_.push_back`; returns the orders that are still to be pushed. -/
def matchPair (trader : Trader) :
    Except Fault (Trader × List OrderPtr × List Observation) := do
  match ← trader.toBooks.matchup with
  | (_, none) => return (trader, [], [])
  | (toBooks, some (odb, ods)) =>
      let sr ← trader.sr.quoteUpdate "KKC".toList ods.order.orderPrice
      return ({ trader with toBooks, sr }, [odb, ods], [.executed odb ods])

/-- `reportList_.push_back` -/
def pushReport (order : OrderPtr) (trader : Trader) : Trader :=
  { trader with reportList := trader.reportList ++ [order] }

/-- `Trader::sendExecReport`; the two flags tell whether the database executes
the INSERT and the UPDATE. -/
def sendExecReport (server : MariaDB) (inserts updates : Bool) (order : OrderPtr)
    (trader : Trader) : Except Fault (Trader × List Observation) := do
  match order.order.connId, order.order.execPrice, order.order.clientSerialNum with
  | some connId, some execPrice, some clientSerialNum =>
      let nid := order.order.nid
      let notice ← trader.reply connId (nid ++ "|OrderExec".toList)
      let side := if order.order.side_ = some .buy then "1".toList else "2".toList
      let db := (insertReport server inserts nid (toStringDouble order.order.orderPrice)
        (toStringDouble execPrice) side (toStringInt clientSerialNum) trader.db).2
      let db := (updateOrderSituation server updates nid "2".toList db).2
      return ({ trader with db },
        [notice, .reported order, .updated order.order ⟨.orderSituation, nid, "2".toList⟩])
  | _, _, _ => .error .uninitialised

theorem matchPair_cases {trader next : Trader} {pushing : List OrderPtr}
    {observations : List Observation}
    (finished : trader.matchPair = .ok (next, pushing, observations)) :
    (next = trader ∧ pushing = [] ∧ observations = [] ∧ trader.toBooks.Pass trader.toBooks none) ∨
      ∃ toBooks odb ods sr, trader.toBooks.Pass toBooks (some (odb, ods)) ∧
        next = { trader with toBooks, sr } ∧ pushing = [odb, ods] ∧
        observations = [.executed odb ods] := by
  obtain ⟨⟨toBooks, pair⟩, passed, finished⟩ := bind_eq_ok_iff.mp finished
  have pass := Books.matchup_cases passed
  cases pair with
  | none =>
      cases finished
      cases pass with
      | idle nothing => exact .inl ⟨rfl, rfl, rfl, .idle nothing⟩
  | some pair =>
      obtain ⟨sr, _, returned⟩ := bind_eq_ok_iff.mp finished
      cases returned
      exact .inr ⟨toBooks, pair.1, pair.2, sr, pass, rfl, rfl, rfl⟩

def reportDatabase (server : MariaDB) (inserts updates : Bool) (order : Order)
    (execPrice : Price) (clientSerialNum : ℤ) (db : Database) : Database :=
  (updateOrderSituation server updates order.nid "2".toList
    (insertReport server inserts order.nid (toStringDouble order.orderPrice)
      (toStringDouble execPrice)
      (if order.side_ = some .buy then "1".toList else "2".toList)
      (toStringInt clientSerialNum) db).2).2

theorem sendExecReport_cases {server : MariaDB} {inserts updates : Bool} {order : OrderPtr}
    {trader next : Trader} {observations : List Observation}
    (finished : trader.sendExecReport server inserts updates order = .ok (next, observations)) :
    ∃ connId execPrice clientSerialNum cn,
      order.order.connId = some connId ∧ order.order.execPrice = some execPrice ∧
      order.order.clientSerialNum = some clientSerialNum ∧
      next = { trader with
        db := reportDatabase server inserts updates order.order execPrice clientSerialNum
          trader.db } ∧
      observations = [.sent cn (order.order.nid ++ "|OrderExec".toList ++ "\n".toList),
        .reported order,
        .updated order.order ⟨.orderSituation, order.order.nid, "2".toList⟩] := by
  unfold sendExecReport at finished
  split at finished
  next connId execPrice clientSerialNum connected executed numbered =>
    obtain ⟨notice, answered, returned⟩ := bind_eq_ok_iff.mp finished
    obtain ⟨cn, _, rfl⟩ := reply_eq_ok_iff.mp answered
    cases returned
    exact ⟨connId, execPrice, clientSerialNum, cn, connected, executed, numbered, rfl, rfl⟩
  next => cases finished

end Trader

end InertiaTrader
