import InertiaTrader.Reports.Reporting

/-!
# The records of executions

The table `ExecReport` has one row for a nid and a side, stores execution prices
without decimals, and what `insertReport` returns is only logged.
-/

namespace InertiaTrader

open Foundation

def Order.reportSide (order : Order) : ℤ := if order.side_ = some .buy then 1 else 2

structure Records (server : MariaDB) (order : Order) (row : ReportRow) : Prop where
  nid : server.number order.nid = some row.nid
  orderPrice : order.orderPrice = .fin row.orderPrice
  execPrice : order.execPrice = some (.fin row.execPrice)
  side : row.side = order.reportSide
  clientSerialNum : order.clientSerialNum = some row.clientSerialNum

def RowsApart (server : MariaDB) (first second : OrderPtr) : Prop :=
  ∀ firstRow secondRow, Records server first.order firstRow →
    Records server second.order secondRow → firstRow.key ≠ secondRow.key

instance (server : MariaDB) : Std.Symm (RowsApart server) where
  symm _ _ apart firstRow secondRow firstHasAll secondHasAll sameKey :=
    apart secondRow firstRow secondHasAll firstHasAll sameKey.symm

/-- Every executed order has its row, and no two compete for one. -/
structure ExecutionsRecorded (server : MariaDB) (last : Threads)
    (observations : List Observation) : Prop where
  recorded : ∀ order ∈ executedIn observations,
    ∃! row, row ∈ last.trader.db.execReport.rows ∧ Records server order.order row
  apart : ∀ first ∈ executedIn observations, ∀ second ∈ executedIn observations,
    first ≠ second → RowsApart server first second

structure Recordable (server : MariaDB) (order : Order) : Prop where
  nid : ∃ nid ∈ server.number order.nid, server.float nid = nid
  orderPrice : ∃ price ∈ server.number (toStringDouble order.orderPrice),
    order.orderPrice = .fin price
  execPrice : ∃ price ∈ order.execPrice, ∃ written ∈ server.number (toStringDouble price),
    price = .fin (server.double22 written)

instance (server : MariaDB) (order : Order) : Decidable (Recordable server order) :=
  decidable_of_iff
    ((∃ nid ∈ server.number order.nid, server.float nid = nid) ∧
      (∃ price ∈ server.number (toStringDouble order.orderPrice), order.orderPrice = .fin price) ∧
      ∃ price ∈ order.execPrice, ∃ written ∈ server.number (toStringDouble price),
        price = .fin (server.double22 written))
    ⟨fun ⟨nid, orderPrice, execPrice⟩ => ⟨nid, orderPrice, execPrice⟩,
      fun ⟨nid, orderPrice, execPrice⟩ => ⟨nid, orderPrice, execPrice⟩⟩

/-- The report that is about to be sent is inserted for a recordable order whose
nid and side are not yet in the table. -/
def InsertsRecordable (server : MariaDB) (db : Database) (inserts : Bool) : Reporter → Prop
  | .read order =>
      inserts = true ∧ Recordable server order.order ∧
        ∀ nid ∈ server.number order.order.nid,
          (nid, order.order.reportSide) ∉ db.execReport.rows.map ReportRow.key
  | _ => True

/-- Nothing is pushed inside an iteration of the reporting thread, and every
report can be inserted. -/
def ReportsRecordable (server : MariaDB) (state : Threads) : Event → Prop
  | .pushReport => state.reporter = .idle
  | .sendReport inserts _ => InsertsRecordable server state.trader.db inserts state.reporter
  | _ => True

instance (server : MariaDB) (db : Database) (inserts : Bool) :
    DecidablePred (InsertsRecordable server db inserts)
  | .read _ => inferInstanceAs (Decidable (_ ∧ _ ∧ _))
  | .idle | .sent => inferInstanceAs (Decidable True)

instance (server : MariaDB) (state : Threads) : DecidablePred (ReportsRecordable server state)
  | .pushReport => inferInstanceAs (Decidable (_ = _))
  | .sendReport inserts _ =>
      inferInstanceAs (Decidable (InsertsRecordable server state.trader.db inserts state.reporter))
  | .connect .. | .receive .. | .priceAsking _ | .getOrder .. | .getCancelOrder _ | .matchup
  | .readReport | .popReport => inferInstanceAs (Decidable True)

theorem ReportsRecordable.between {server : MariaDB} (state : Threads) (event : Event)
    (recordable : ReportsRecordable server state event) : PushesBetweenReports state event := by
  cases event with
  | pushReport => exact recordable
  | _ => trivial

/-- Whole execution prices, prices of up to six decimals and nids below 2 ^ 24
are recordable. -/
theorem recordable_of_whole {server : MariaDB} {order : Order} {nid whole units : ℤ} {price : ℚ}
    (nidText : order.nid = toStringInt nid) (nidSmall : |nid| < 2 ^ 24)
    (ordered : order.orderPrice = .fin price) (sixDecimals : price * 10 ^ 6 = units)
    (executed : order.execPrice = some (.fin whole)) (wholeSmall : |whole| < 10 ^ 22) :
    Recordable server order where
  nid := by
    rw [nidText]
    exact ⟨nid, server.number_literal _ _ (literalValue_intText nid),
      server.float_intCast nid nidSmall⟩
  orderPrice := by
    rw [ordered]
    exact ⟨price, server.number_literal _ _ (literalValue_sixDecimals sixDecimals), rfl⟩
  execPrice := by
    have units : (whole : ℚ) * 10 ^ 6 = (whole * 10 ^ 6 : ℤ) := by push_cast; ring
    have written : server.number (toStringDouble (.fin whole)) = some (whole : ℚ) :=
      server.number_literal _ _ (literalValue_sixDecimals units)
    exact ⟨.fin whole, executed, whole, written, by rw [server.double22_intCast whole wholeSmall]⟩

theorem whole_of_recordable {server : MariaDB} {order : Order}
    (recordable : Recordable server order) : ∃ whole : ℤ, order.execPrice = some (.fin whole) := by
  obtain ⟨price, executed, written, -, rfl⟩ := recordable.execPrice
  obtain ⟨whole, rounded⟩ := server.double22_whole written
  rw [rounded] at executed
  exact ⟨whole, executed⟩

theorem number_side (server : MariaDB) (order : Order) :
    server.number (if order.side_ = some .buy then "1".toList else "2".toList) =
      some (order.reportSide : ℚ) := by
  refine server.number_literal _ _ ?_
  unfold Order.reportSide
  split
  next => decide +kernel
  next => decide +kernel

theorem reportRow_of_recordable {server : MariaDB} {order : Order} {execPrice : Price}
    {clientSerialNum : ℤ} (recordable : Recordable server order)
    (executed : order.execPrice = some execPrice)
    (numbered : order.clientSerialNum = some clientSerialNum) :
    ∃ row, reportRow server order.nid (toStringDouble order.orderPrice)
        (toStringDouble execPrice) (if order.side_ = some .buy then "1".toList else "2".toList)
        (toStringInt clientSerialNum) = some row ∧ Records server order row := by
  obtain ⟨nid, nidRead, nidKept⟩ := recordable.nid
  obtain ⟨orderPrice, orderPriceRead, isOrderPrice⟩ := recordable.orderPrice
  obtain ⟨_, isExecPrice, written, execPriceRead, rfl⟩ := recordable.execPrice
  obtain rfl : execPrice = .fin (server.double22 written) :=
    Option.some.inj (executed.symm.trans isExecPrice)
  have serialRead : server.number (toStringInt clientSerialNum) = some (clientSerialNum : ℚ) :=
    server.number_literal _ _ (literalValue_intText clientSerialNum)
  refine ⟨⟨nid, orderPrice, server.double22 written, order.reportSide, clientSerialNum⟩, ?_,
    ⟨nidRead, isOrderPrice, isExecPrice, rfl, numbered⟩⟩
  rw [Option.mem_def] at nidRead orderPriceRead execPriceRead
  simp only [reportRow, nidRead, orderPriceRead, execPriceRead, number_side, serialRead, nidKept,
    intColumn_intCast, Option.bind_eq_bind, Option.bind_some, Option.pure_def]

theorem Records.unique {server : MariaDB} {order : Order} {first second : ReportRow}
    (hasAll : Records server order first) (hasAll' : Records server order second) :
    first = second := by
  obtain ⟨nid, orderPrice, execPrice, side, clientSerialNum⟩ := hasAll
  rw [hasAll'.nid, Option.some.injEq] at nid
  rw [hasAll'.orderPrice, ExtendedRat.fin.injEq] at orderPrice
  rw [hasAll'.execPrice, Option.some.injEq, ExtendedRat.fin.injEq] at execPrice
  rw [hasAll'.clientSerialNum, Option.some.injEq] at clientSerialNum
  have sameSide := side.trans hasAll'.side.symm
  cases first
  cases second
  simp_all

inductive RecordStep (server : MariaDB) (state next : Threads) :
    Event → List OrderPtr → Prop where
  | other (event : Event) :
      next.trader.db.execReport = state.trader.db.execReport →
      RecordStep server state next event []
  | sends (inserts updates : Bool) (order : OrderPtr) (execPrice : Price) (clientSerialNum : ℤ) :
      state.reporter = .read order → order.order.execPrice = some execPrice →
      order.order.clientSerialNum = some clientSerialNum →
      next.trader.db.execReport =
        (insertReport server inserts order.order.nid (toStringDouble order.order.orderPrice)
          (toStringDouble execPrice)
          (if order.order.side_ = some .buy then "1".toList else "2".toList)
          (toStringInt clientSerialNum) state.trader.db).2.execReport →
      RecordStep server state next (.sendReport inserts updates) [order]

section

variable {server : MariaDB} {state next last : Threads} {event : Event} {events : List Event}
    {seen observations : List Observation}

theorem recordStep (stepped : state.step server event = some (next, observations)) :
    RecordStep server state next event (reportedIn observations) := by
  cases Threads.step_cases stepped with
  | communicates _ sr asking _ sends =>
      have noReports : reportedIn observations = [] := Threads.filterMap_sends (fun _ _ => rfl) sends
      rw [noReports]
      exact .other _ rfl
  | handlesOrder address connected rest connId od cn trader _ fresh handling =>
      cases handling with
      | failed | insufficient => exact .other _ rfl
      | accepted => exact .other _ (insertOrder_execReport ..)
  | amends connected val rest trader _ popped amendment =>
      cases amendment with
      | cancelled | modified => exact .other _ (updateColumn_execReport ..)
      | refused => exact .other _ rfl
  | sends inserts updates order connId execPrice clientSerialNum cn reading _ executed numbered =>
      exact .sends inserts updates order execPrice clientSerialNum reading executed numbered
        (updateColumn_execReport ..)
  | rests | executes | pushes | reads | pops => exact .other _ rfl

structure ReportsRecorded (server : MariaDB) (threads : Threads) (reported : List OrderPtr) :
    Prop where
  recorded : ∀ order ∈ reported,
    ∃ row ∈ threads.trader.db.execReport.rows, Records server order.order row
  apart : reported.Pairwise (RowsApart server)

theorem RecordStep.recorded {reported reports : List OrderPtr}
    (step : RecordStep server state next event reports)
    (recordable : ReportsRecordable server state event)
    (recorded : ReportsRecorded server state reported) :
    ReportsRecorded server next (reported ++ reports) := by
  cases step with
  | other _ sameTable =>
      rw [List.append_nil]
      exact ⟨fun order membership => sameTable ▸ recorded.recorded order membership,
        recorded.apart⟩
  | sends inserts updates order execPrice clientSerialNum reading executed numbered table =>
      simp only [ReportsRecordable, reading, InsertsRecordable] at recordable
      obtain ⟨rfl, fits, free⟩ := recordable
      obtain ⟨row, described, hasAll⟩ := reportRow_of_recordable fits executed numbered
      have freeKey : row.key ∉ state.trader.db.execReport.rows.map ReportRow.key := by
        rw [ReportRow.key, hasAll.side]
        exact free row.nid hasAll.nid
      have extended := insertReport_rows described freeKey
      rw [← table] at extended
      refine ⟨?_, List.pairwise_append.mpr ⟨recorded.apart, List.pairwise_singleton .., ?_⟩⟩
      · intro other membership
        rw [extended]
        rcases List.mem_append.mp membership with earlier | now
        · obtain ⟨otherRow, inTable, otherHasAll⟩ := recorded.recorded other earlier
          exact ⟨otherRow, List.mem_append_left _ inTable, otherHasAll⟩
        · rw [List.mem_singleton.mp now]
          exact ⟨row, List.mem_append_right _ (List.mem_singleton_self row), hasAll⟩
      · intro earlier membership new isNew firstRow secondRow firstHasAll secondHasAll sameKey
        rw [List.mem_singleton] at isNew
        subst isNew
        obtain ⟨earlierRow, inTable, earlierHasAll⟩ := recorded.recorded earlier membership
        rw [firstHasAll.unique earlierHasAll, secondHasAll.unique hasAll] at sameKey
        exact freeKey (sameKey ▸ List.mem_map_of_mem inTable)

theorem reportsRecorded_start : ReportsRecorded server state (reportedIn []) :=
  ⟨by simp [reportedIn], .nil⟩

theorem recorded_run (recorded : ReportsRecorded server state (reportedIn seen))
    (along : (threads server).Along (ReportsRecordable server) state events)
    (finished : (threads server).run state events = some (last, observations)) :
    ReportsRecorded server last (reportedIn (seen ++ observations)) := by
  apply (threads server).run_invariant_along
    (fun current seen => ReportsRecorded server current (reportedIn seen))
    _ recorded along finished
  intro current seen event next observations recorded recordable stepped
  rw [reportedIn_append]
  exact (recordStep stepped).recorded recordable recorded

theorem pushing_start (server : MariaDB) (db : Database) (rc : RiskController)
    (nidSub1 : BitVec 32) (sr : Server) :
    executedIn [] =
      pushedIn [] ++ (Threads.start (.construct server db rc nidSub1 sr)).pushing := rfl

theorem pushing_run (balanced : executedIn seen = pushedIn seen ++ state.pushing)
    (finished : (threads server).run state events = some (last, observations)) :
    executedIn (seen ++ observations) = pushedIn (seen ++ observations) ++ last.pushing := by
  apply (threads server).run_invariant
    (fun current seen => executedIn seen = pushedIn seen ++ current.pushing)
    _ balanced finished
  intro current seen event next observations balanced stepped
  rw [executedIn_append, pushedIn_append, balanced, List.append_assoc, pushing_step stepped,
    List.append_assoc]

end

/-- Once everything executed was pushed and handled: if every report could be
inserted, every execution is recorded. -/
theorem executions_recorded (server : MariaDB) (db : Database) (rc : RiskController)
    (nidSub1 : BitVec 32) (sr : Server) (events : List Event) (last : Threads)
    (observations : List Observation)
    (finished : (threads server).run (.start (.construct server db rc nidSub1 sr)) events =
      some (last, observations))
    (pushedAll : last.pushing = []) (drained : last.trader.reportList = [])
    (idle : last.reporter = .idle)
    (recordable : (threads server).Along (ReportsRecordable server)
      (.start (.construct server db rc nidSub1 sr)) events) :
    ExecutionsRecorded server last observations := by
  have between := (threads server).along_mono ReportsRecordable.between recordable
  have balanced := balanced_run (balanced_start server db rc nidSub1 sr) between finished
  have recorded := recorded_run reportsRecorded_start recordable finished
  have pushed := pushing_run (pushing_start server db rc nidSub1 sr) finished
  rw [List.nil_append] at balanced recorded pushed
  simp only [Balanced, idle, drained, List.append_nil] at balanced
  have reported (order : OrderPtr) :
      order ∈ executedIn observations ↔ order ∈ reportedIn observations := by
    rw [pushed, pushedAll, List.append_nil, balanced.mem_iff]
  constructor
  · intro order executed
    obtain ⟨row, inTable, hasAll⟩ := recorded.recorded order ((reported order).mp executed)
    exact ⟨row, ⟨inTable, hasAll⟩, fun other otherHasAll => otherHasAll.2.unique hasAll⟩
  · intro first firstExecuted second secondExecuted different
    exact recorded.apart.forall ((reported first).mp firstExecuted)
      ((reported second).mp secondExecuted) different

def wholePriceRun : List Event :=
  [.firstLogin,
    .receive 0 "87|1|60.5|1|1|1|KKC".toList, .getOrder 10 true,
    .receive 0 "87|2|60|2|1|1|KKC".toList, .getOrder 20 true,
    .matchup, .pushReport, .pushReport, .readReport, .sendReport true true, .popReport,
    .readReport, .sendReport true true, .popReport]

theorem executions_recorded_wholePriceRun :
    ∃ last observations,
      (threads .literal).run .initial wholePriceRun = some (last, observations) ∧
        (executedIn observations).length = 2 ∧
        ExecutionsRecorded .literal last observations := by
  obtain ⟨last, observations, finished, evaluated⟩ :=
    Machine.exists_run_of_any (threads .literal) .initial wholePriceRun
      (fun last observations => decide (last.pushing = [] ∧
        last.trader.reportList = [] ∧ last.reporter = .idle ∧
        (executedIn observations).length = 2))
      (by decide +kernel)
  obtain ⟨pushedAll, drained, idle, executed⟩ := of_decide_eq_true evaluated
  exact ⟨last, observations, finished, executed,
    executions_recorded _ _ _ _ _ _ _ _ finished pushedAll drained idle (by decide +kernel)⟩

/-- The same two orders, but the price has a decimal. -/
def decimalPriceRun : List Event :=
  [.firstLogin,
    .receive 0 "87|1|60.5|1|1|1|KKC".toList, .getOrder 10 true,
    .receive 0 "87|2|60.4|2|1|1|KKC".toList, .getOrder 20 true,
    .matchup, .pushReport, .pushReport, .readReport, .sendReport true true, .popReport,
    .readReport, .sendReport true true, .popReport]

/-- Both orders are executed at 60.4, and the table says 60. -/
theorem execution_price_lost :
    ∃ last observations,
      (threads .literal).run .initial decimalPriceRun = some (last, observations) ∧
        last.pushing = [] ∧ last.trader.reportList = [] ∧ last.reporter = .idle ∧
        ¬ ExecutionsRecorded .literal last observations := by
  obtain ⟨last, observations, finished, evaluated⟩ :=
    Machine.exists_run_of_any (threads .literal) .initial decimalPriceRun
      (fun last observations => decide (last.pushing = [] ∧
        last.trader.reportList = [] ∧ last.reporter = .idle ∧
        ∃ order ∈ executedIn observations, ∀ row ∈ last.trader.db.execReport.rows,
          order.order.execPrice ≠ some (.fin row.execPrice)))
      (by decide +kernel)
  obtain ⟨pushedAll, drained, idle, order, executed, notStored⟩ := of_decide_eq_true evaluated
  refine ⟨last, observations, finished, pushedAll, drained, idle, fun recorded => ?_⟩
  obtain ⟨row, ⟨inTable, hasAll⟩, -⟩ := recorded.recorded order executed
  exact notStored row inTable hasAll.execPrice

end InertiaTrader
