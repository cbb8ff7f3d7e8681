import InertiaTrader.Database.MariaDB

/-!
# `TradingDataHandler`

The statements issued while trading.  `connected` tells whether the server
executes the statement at all; each function returns what the code returns
together with the tables afterwards.
-/

namespace InertiaTrader

open Foundation

structure OrderData where
  nid : Text
  orderPrice : Price
  symbol : Text := []
  userID : Text := []
  side : ℤ
  clientSerialnum : ℤ
  deriving DecidableEq

def orderRow (server : MariaDB) (od : OrderData) : Option OrderRow := do
  let nid ← server.number od.nid
  let orderPrice ← server.number (toStringDouble od.orderPrice)
  let userID ← server.number od.userID
  let side ← server.number (toStringInt od.side)
  let clientSerialNum ← server.number (toStringInt od.clientSerialnum)
  return {
    nid := server.float nid
    orderPrice
    symbol := od.symbol
    userID := server.float userID
    side := intColumn side
    orderSituation := 1
    clientSerialNum := intColumn clientSerialNum }

/-- `TradingDataHandler::insertOrder` -/
def insertOrder (server : MariaDB) (connected : Bool) (od : OrderData) (db : Database) :
    Bool × Database :=
  match (if connected then orderRow server od else none).bind db.order.insert with
  | none => (false, db)
  | some order => (true, { db with order })

def reportRow (server : MariaDB) (nid orderPrice execPrice side clientSerialNum : Text) :
    Option ReportRow := do
  let nid ← server.number nid
  let orderPrice ← server.number orderPrice
  let execPrice ← server.number execPrice
  let side ← server.number side
  let clientSerialNum ← server.number clientSerialNum
  return {
    nid := server.float nid
    orderPrice
    execPrice := server.double22 execPrice
    side := intColumn side
    clientSerialNum := intColumn clientSerialNum }

/-- `TradingDataHandler::insertReport` -/
def insertReport (server : MariaDB) (connected : Bool)
    (nid orderPrice execPrice side clientSerialNum : Text) (db : Database) : Bool × Database :=
  match (if connected then reportRow server nid orderPrice execPrice side clientSerialNum
      else none).bind db.execReport.insert with
  | none => (false, db)
  | some execReport => (true, { db with execReport })

inductive OrderColumn where
  | orderSituation
  | orderPrice
  deriving DecidableEq

def OrderColumn.assign : OrderColumn → ℚ → OrderRow → OrderRow
  | .orderSituation, value, row => { row with orderSituation := intColumn value }
  | .orderPrice, value, row => { row with orderPrice := value }

@[simp]
theorem OrderColumn.key_assign (column : OrderColumn) (value : ℚ) (row : OrderRow) :
    (column.assign value row).key = row.key := by
  cases column <;> rfl

/-- ``UPDATE `Order` SET column='value' WHERE `NID`=nid`` -/
def updateColumn (server : MariaDB) (connected : Bool) (column : OrderColumn)
    (nid value : Text) (db : Database) : Bool × Database :=
  match connected, server.quoted value, server.whereNid nid with
  | true, some assigned, some selected =>
      (true, { db with
        order := db.order.update selected (column.assign assigned) (column.key_assign assigned) })
  | _, _, _ => (false, db)

/-- `TradingDataHandler::updateOrderSituation` -/
def updateOrderSituation (server : MariaDB) (connected : Bool) (nid status : Text)
    (db : Database) : Bool × Database :=
  updateColumn server connected .orderSituation nid status db

/-- `TradingDataHandler::updateOrderPrice` -/
def updateOrderPrice (server : MariaDB) (connected : Bool) (nid price : Text)
    (db : Database) : Bool × Database :=
  updateColumn server connected .orderPrice nid price db

/-- `TradingDataHandler::getExistOrder`: the rows of the view `Valid_Order`. -/
def getExistOrder (server : MariaDB) (db : Database) : List OrderData :=
  (db.order.rows.filter fun row => row.orderSituation = 1).map fun row =>
    { nid := server.floatText row.nid
      orderPrice := .fin row.orderPrice
      side := row.side
      clientSerialnum := row.clientSerialNum }

theorem insertOrder_eq_true {server : MariaDB} {connected : Bool} {od : OrderData}
    {db stored : Database} (inserted : insertOrder server connected od db = (true, stored)) :
    ∃ row, orderRow server od = some row ∧
      stored.order.rows = db.order.rows ++ [row] ∧ stored.execReport = db.execReport := by
  unfold insertOrder at inserted
  split at inserted
  next => simp at inserted
  next order found =>
    obtain ⟨row, rowFound, extended⟩ := Option.bind_eq_some_iff.mp found
    simp only [Prod.mk.injEq, true_and] at inserted
    subst inserted
    refine ⟨row, ?_, (KeyedTable.insert_eq_some_iff.mp extended).2, rfl⟩
    cases connected <;> simp_all

theorem insertOrder_eq_false {server : MariaDB} {connected : Bool} {od : OrderData}
    {db stored : Database} (refused : insertOrder server connected od db = (false, stored)) :
    stored = db := by
  unfold insertOrder at refused
  split at refused
  next => simpa using refused.symm
  next => simp at refused

@[simp]
theorem insertOrder_execReport (server : MariaDB) (connected : Bool) (od : OrderData)
    (db : Database) : (insertOrder server connected od db).2.execReport = db.execReport := by
  unfold insertOrder
  split <;> rfl

theorem insertReport_rows {server : MariaDB}
    {nid orderPrice execPrice side clientSerialNum : Text} {db : Database} {row : ReportRow}
    (described : reportRow server nid orderPrice execPrice side clientSerialNum = some row)
    (free : row.key ∉ db.execReport.rows.map ReportRow.key) :
    (insertReport server true nid orderPrice execPrice side clientSerialNum db).2.execReport.rows =
      db.execReport.rows ++ [row] := by
  obtain ⟨extended, inserted⟩ : ∃ extended, db.execReport.insert row = some extended := by
    simp [KeyedTable.insert, free]
  simp only [insertReport, if_true, described, Option.bind_some, inserted]
  exact (KeyedTable.insert_eq_some_iff.mp inserted).2

@[simp]
theorem insertReport_order (server : MariaDB) (connected : Bool)
    (nid orderPrice execPrice side clientSerialNum : Text) (db : Database) :
    (insertReport server connected nid orderPrice execPrice side clientSerialNum db).2.order =
      db.order := by
  unfold insertReport
  split <;> rfl

@[simp]
theorem updateColumn_execReport (server : MariaDB) (connected : Bool) (column : OrderColumn)
    (nid value : Text) (db : Database) :
    (updateColumn server connected column nid value db).2.execReport = db.execReport := by
  unfold updateColumn
  split <;> rfl

/-- An UPDATE leaves every row alone that is not excepted exactly when it gives
no such row that its WHERE clause selects a value it did not hold. -/
theorem updateColumn_frame_iff (server : MariaDB) (connected : Bool) (column : OrderColumn)
    (nid value : Text) (db : Database) (excepted : ℚ × ℤ → Prop) :
    (∀ key, ¬ excepted key →
        (updateColumn server connected column nid value db).2.order.find? key =
          db.order.find? key) ↔
      ∀ assigned selected, connected = true → server.quoted value = some assigned →
        server.whereNid nid = some selected →
        ∀ row ∈ db.order.rows, ¬ excepted row.key → selected row = true →
          column.assign assigned row = row := by
  unfold updateColumn
  split
  next assigned selected quoted whereNid =>
    rw [KeyedTable.update_frame_iff]
    constructor
    · intro unchanged assigned' selected' _ quoted' whereNid'
      rw [quoted, Option.some.injEq] at quoted'
      rw [whereNid, Option.some.injEq] at whereNid'
      subst quoted' whereNid'
      exact unchanged
    · exact fun unchanged => unchanged assigned selected rfl quoted whereNid
  next rejected =>
    constructor
    · intro _ assigned selected isConnected quoted whereNid
      exact absurd whereNid (rejected assigned selected isConnected quoted)
    · exact fun _ _ _ => rfl

end InertiaTrader
