import InertiaTrader.Database.TradingDataHandler
import InertiaTrader.Trader.Books

/-!
# `Trader`

The members of `Trader` together with the server and the database it works on,
and what its threads do that can be seen from outside.
-/

namespace InertiaTrader

open Foundation

/-- A `std::vector<Order*>`.  Its end iterator is null until the first element
was stored. -/
structure OrderVector where
  items : List Order := []
  allocated : Bool := false

def OrderVector.pushBack (vector : OrderVector) (order : Order) : OrderVector where
  items := vector.items ++ [order]
  allocated := true

/-- An UPDATE of the table `Order`. -/
structure Update where
  column : OrderColumn
  nid : Text
  value : Text
  deriving DecidableEq

/-- What the threads make visible. -/
inductive Observation where
  /-- `Connection::sendto` -/
  | sent (cn : ConnRef) (text : Text)
  /-- The balance of a user is tested. -/
  | balanceTested (user : Text)
  /-- `orderDataInsert` puts an order into a raw book. -/
  | inserted (order : OrderPtr)
  /-- `insertOrderToDB` is called. -/
  | insertOrderToDB (odt : OrderData)
  /-- `getOrder` built an order and answered. -/
  | ordered (od : Order) (reply : Text)
  /-- `matchup` takes a pair out of the books. -/
  | executed (odb ods : OrderPtr)
  /-- `reportList_.push_back` -/
  | pushed (order : OrderPtr)
  /-- `sendExecReport` is called. -/
  | reported (order : OrderPtr)
  /-- An UPDATE is issued on behalf of an order. -/
  | updated (order : Order) (update : Update)
  /-- `getCancelOrder` answered a message with these fields. -/
  | amended (res : List Text) (reply : Text)
  deriving DecidableEq

/-- The pair that is executed, with its execution price. -/
def Observation.execution : Observation → Option (OrderPtr × OrderPtr)
  | .executed odb ods => some (odb, ods)
  | _ => none

theorem Observation.execution_eq_some_iff {observation : Observation} {odb ods : OrderPtr} :
    observation.execution = some (odb, ods) ↔ observation = .executed odb ods := by
  cases observation with
  | executed => simp [execution]
  | _ => exact iff_of_false nofun nofun

structure Trader extends Books where
  sr : Server
  rc : RiskController
  db : Database
  nidSub1 : BitVec 32
  nidSub2 : BitVec 32 := 1
  buyside : OrderVector := {}
  sellside : OrderVector := {}
  reportList : List OrderPtr := []

namespace Trader

/-- `Trader::generateNid`: the key, and the trader with its counter advanced. -/
def generateNid (trader : Trader) : ℤ × Trader :=
  let key := trader.nidSub1.signExtend 64 <<< 32 ||| trader.nidSub2.signExtend 64
  (key.toInt, { trader with nidSub2 := trader.nidSub2 + 1 })

/-- `Server::sendToClient` as an observation. -/
def reply (trader : Trader) (connNum : ℤ) (msg : Text) : Except Fault Observation := do
  let (cn, text) ← trader.sr.sendToClient connNum msg
  return .sent cn text

theorem reply_eq_ok_iff {trader : Trader} {connNum : ℤ} {msg : Text} {observation : Observation} :
    trader.reply connNum msg = .ok observation ↔
      ∃ cn, trader.sr.getConnObject connNum = some cn ∧
        observation = .sent cn (msg ++ "\n".toList) := by
  simp only [reply, bind_eq_ok_iff, Server.sendToClient_eq_ok_iff]
  constructor
  · rintro ⟨_, ⟨cn, found, rfl⟩, answered⟩
    cases answered
    exact ⟨cn, found, rfl⟩
  · rintro ⟨cn, found, rfl⟩
    exact ⟨_, ⟨cn, found, rfl⟩, rfl⟩

/-- One turn of the loop in `Trader::loadExistOrder`. -/
def loadOrder (trader : Trader) (existing : OrderData) : Trader :=
  let od : Order := {
    nid := existing.nid
    orderPrice := existing.orderPrice
    side := existing.side
    clientSerialNum := some existing.clientSerialnum }
  if existing.side = 1 then
    { trader with buyside := trader.buyside.pushBack od }
  else
    { trader with sellside := trader.sellside.pushBack od }

/-- `Trader::loadExistOrder` -/
def loadExistOrder (server : MariaDB) (trader : Trader) : Trader :=
  (getExistOrder server trader.db).foldl loadOrder trader

/-- `Trader::Trader`, with what `essentialData_initialise` reads from the
database, and the `Server` that `startTransaction` adds. -/
def construct (server : MariaDB) (db : Database) (rc : RiskController) (nidSub1 : BitVec 32)
    (sr : Server) : Trader :=
  loadExistOrder server { Books.empty with sr, rc, db, nidSub1 }

theorem loadOrder_eq (trader : Trader) (existing : OrderData) :
    ∃ buyside sellside, trader.loadOrder existing = { trader with buyside, sellside } := by
  unfold loadOrder
  dsimp only
  split
  next => exact ⟨_, trader.sellside, rfl⟩
  next => exact ⟨trader.buyside, _, rfl⟩

theorem construct_eq (server : MariaDB) (db : Database) (rc : RiskController)
    (nidSub1 : BitVec 32) (sr : Server) :
    ∃ buyside sellside, construct server db rc nidSub1 sr =
      { Books.empty with sr, rc, db, nidSub1, buyside, sellside } := by
  suffices loaded : ∀ (existing : List OrderData) (trader : Trader),
      ∃ buyside sellside, existing.foldl loadOrder trader = { trader with buyside, sellside } from
    loaded _ _
  intro existing
  induction existing with
  | nil => exact fun trader => ⟨trader.buyside, trader.sellside, rfl⟩
  | cons od existing inductionHypothesis =>
      intro trader
      obtain ⟨buyside, sellside, first⟩ := loadOrder_eq trader od
      rw [List.foldl_cons, first]
      exact inductionHypothesis _

theorem construct_toBooks (server : MariaDB) (db : Database) (rc : RiskController)
    (nidSub1 : BitVec 32) (sr : Server) :
    (construct server db rc nidSub1 sr).toBooks = .empty := by
  obtain ⟨buyside, sellside, equality⟩ := construct_eq server db rc nidSub1 sr
  rw [equality]

end Trader

end InertiaTrader
