import InertiaTrader.Database.Statements
import InertiaTrader.Orders.HeldOrders

/-!
# Client text in statements

Prices, sides and serial numbers are converted before they are written into a
statement.  The nid of an order stays the text that the client has sent, from
its message to the report of its execution.
-/

namespace InertiaTrader

open Foundation

def insertReportQuery (order : Order) (execPrice : Price) (clientSerialNum : ℤ) : Text :=
  insertReportText order.nid (toStringDouble order.orderPrice) (toStringDouble execPrice)
    (if order.side_ = some .buy then "1".toList else "2".toList) (toStringInt clientSerialNum)

/-- The statements of an accepted order are the fixed ones. -/
def Observation.KeepsStatement : Observation → Prop
  | .inserted order => IsDigits order.order.nid
  | .insertOrderToDB odt => InsertsOneOrder odt.symbol (insertOrderQuery odt)
  | .reported order =>
      (∀ execPrice ∈ order.order.execPrice, ∀ clientSerialNum ∈ order.order.clientSerialNum,
        InsertsOneReport (insertReportQuery order.order execPrice clientSerialNum)) ∧
      UpdatesOneNid (updateOrderSituationText order.order.nid "2".toList)
  | _ => True

/-- A message that passes both tests of `getOrder` has a nid of digits and a finite
price. -/
def PlainMessage (state : Threads) : Event → Prop
  | .getOrder _ _ => ∀ msg rest order, state.trader.sr.dq = msg :: rest →
      state.trader.Accepts order →
      (∃ nid, (split msg "|".toList)[1]? = some nid ∧ IsDigits nid) ∧
        ∃ value, (split msg "|".toList)[2]?.bind stod = some (.fin value)
  | _ => True

/-- The members of an order that its statements contain are digits and finite
prices. -/
structure PlainOrder (order : Order) : Prop where
  nid : IsDigits order.nid
  orderPrice : ∃ value, order.orderPrice = .fin value
  execPrice : ∀ price ∈ order.execPrice, ∃ value, price = .fin value

section

variable {server : MariaDB} {state next : Threads} {event : Event}
    {observations : List Observation}

theorem PlainOrder.withExecPrice {order sell : OrderPtr} (plain : PlainOrder order.order)
    (sellPlain : PlainOrder sell.order) :
    PlainOrder (order.withExecPrice sell.order.orderPrice).order where
  nid := plain.nid
  orderPrice := plain.orderPrice
  execPrice price executed := by
    cases executed
    exact sellPlain.orderPrice

theorem PlainOrder.insertsOneOrder {order : Order} (plain : PlainOrder order)
    (user : order.userID = "0324027".toList) (clientSerialNum : ℤ) :
    InsertsOneOrder order.symbol
      (insertOrderQuery (Trader.newOrderData order clientSerialNum)) := by
  apply (insertsOneOrder_iff _).mpr
  · exact ⟨plain.nid, plain.orderPrice⟩
  · change IsLiteral order.userID
    rw [user]
    decide +kernel

theorem PlainOrder.keepsReport {order : OrderPtr} (plain : PlainOrder order.order) :
    (Observation.reported order).KeepsStatement := by
  constructor
  · intro execPrice executed clientSerialNum _
    refine ⟨_, _, _, _, _, plain.nid, isLiteral_toStringDouble_iff.mpr plain.orderPrice,
      isLiteral_toStringDouble_iff.mpr (plain.execPrice execPrice executed), ?_,
      isLiteral_toStringInt _, rfl⟩
    split <;> decide +kernel
  · exact ⟨_, _, plain.nid, by decide +kernel, rfl⟩

theorem plainOrder_of_inserted {order : OrderPtr} (plain : PlainMessage state event)
    (stepped : state.step server event = some (next, observations))
    (inserted : .inserted order ∈ observations) : PlainOrder order.order := by
  obtain ⟨⟨connected, rfl⟩, accepts⟩ := accepts_of_inserted stepped inserted
  obtain ⟨msg, rest, od, queued, -, -⟩ := accepts.built
  obtain ⟨nidField, priceField⟩ := accepts.message queued
  obtain ⟨⟨nid, sameNid, digits⟩, value, samePrice⟩ := plain msg rest _ queued accepts
  constructor
  · rwa [Option.some.inj (nidField.symm.trans sameNid)]
  · exact ⟨value, Option.some.inj (priceField.symm.trans samePrice)⟩
  · intro price executed
    rw [accepts.execPrice] at executed
    cases executed

theorem plainMessage_of_step
    (stepped : state.step server event = some (next, observations))
    (keeps : ∀ observation ∈ observations, observation.KeepsStatement) :
    PlainMessage state event := by
  cases event with
  | getOrder address connected =>
      intro msg rest order queued accepts
      obtain ⟨nidField, priceField⟩ := accepts.message queued
      obtain ⟨-, handedOver⟩ := inserted_of_accepts stepped accepts
      have userLiteral : IsLiteral order.userID := by
        rw [accepts.userID]
        decide +kernel
      obtain ⟨digits, value, finite⟩ :=
        (insertsOneOrder_iff userLiteral).mp (keeps _ handedOver)
      refine ⟨⟨order.nid, nidField, digits⟩, value, ?_⟩
      rw [priceField]
      exact congrArg some finite
  | _ => trivial

end

/-- In every run: the statements of all orders that `getOrder` accepts are the
fixed ones, up to the reports of their executions, exactly when each message
that it accepts has a nid of digits and a finite price. -/
theorem statements_kept_iff (server : MariaDB) (db : Database) (rc : RiskController)
    (nidSub1 : BitVec 32) (sr : Server) (events : List Event) (last : Threads)
    (observations : List Observation)
    (finished : (threads server).run (.start (.construct server db rc nidSub1 sr)) events =
      some (last, observations)) :
    (∀ observation ∈ observations, observation.KeepsStatement) ↔
      (threads server).Along PlainMessage (.start (.construct server db rc nidSub1 sr))
        events := by
  constructor
  · apply (threads server).along_of_outputs _ finished
    intro state event next shown stepped
    exact plainMessage_of_step stepped
  · intro along
    have accepted : ∀ order ∈ insertedIn observations, PlainOrder order.order := by
      intro order isInserted
      obtain ⟨earlier, event, rest, middle, seen, next, shown, rfl, reached, stepped, now⟩ :=
        (threads server).exists_step_of_mem finished (mem_insertedIn.mp isInserted)
      have plain := ((threads server).along_of_append along reached).1
      exact plainOrder_of_inserted plain stepped now
    obtain ⟨-, -, reported⟩ := held_run (fun order => PlainOrder order.order)
      (fun _ _ plain sellPlain => plain.withExecPrice sellPlain) finished accepted
    intro observation isShown
    cases observation with
    | inserted order => exact (accepted order (mem_insertedIn.mpr isShown)).nid
    | insertOrderToDB odt =>
        obtain ⟨earlier, event, rest, middle, seen, next, shown, rfl, reached, stepped, now⟩ :=
          (threads server).exists_step_of_mem finished isShown
        have plain := ((threads server).along_of_append along reached).1
        obtain ⟨order, inserted, rfl⟩ := inserted_of_insertOrderToDB stepped now
        obtain ⟨-, accepts⟩ := accepts_of_inserted stepped inserted
        exact (plainOrder_of_inserted plain stepped inserted).insertsOneOrder accepts.userID _
    | reported order => exact (reported order (mem_reportedIn.mpr isShown)).keepsReport
    | _ => trivial

/-- A buy order whose nid is an expression, its execution and its report. -/
def expressionNidRun : List Event :=
  [.firstLogin,
    .receive 0 "87|1 OR 1=1|60|1|1|1|KKC".toList, .getOrder 10 true,
    .receive 0 "87|2|60|2|1|1|KKC".toList, .getOrder 20 true,
    .matchup, .pushReport, .readReport, .sendReport true true]

/-- The order is accepted, and the statement that marks it as executed selects
every row. -/
theorem statement_changed_by_nid :
    ∃ last observations accepted reported,
      (threads .literal).run .initial expressionNidRun = some (last, observations) ∧
        .inserted accepted ∈ observations ∧ .reported reported ∈ observations ∧
        accepted.order.nid = "1 OR 1=1".toList ∧
        updateOrderSituationText reported.order.nid "2".toList =
          "UPDATE `stock`.`Order` SET `Order_situation`='2' WHERE `NID`=1 OR 1=1;".toList ∧
        ¬ ∀ observation ∈ observations, observation.KeepsStatement := by
  obtain ⟨last, observations, finished, evaluated⟩ :=
    Machine.exists_run_of_any (threads .literal) .initial expressionNidRun
      (fun _ observations =>
        (insertedIn observations).any (fun accepted =>
          decide (accepted.order.nid = "1 OR 1=1".toList)) &&
        (reportedIn observations).any fun reported =>
          decide (updateOrderSituationText reported.order.nid "2".toList =
            "UPDATE `stock`.`Order` SET `Order_situation`='2' WHERE `NID`=1 OR 1=1;".toList))
      (by decide +kernel)
  obtain ⟨someAccepted, someReported⟩ := Bool.and_eq_true_iff.mp evaluated
  obtain ⟨accepted, isAccepted, nid⟩ := List.any_eq_true.mp someAccepted
  obtain ⟨reported, isReported, statement⟩ := List.any_eq_true.mp someReported
  refine ⟨last, observations, accepted, reported, finished, mem_insertedIn.mp isAccepted,
    mem_reportedIn.mp isReported, of_decide_eq_true nid, of_decide_eq_true statement, ?_⟩
  intro keeps
  have digits : IsDigits accepted.order.nid := keeps _ (mem_insertedIn.mp isAccepted)
  rw [of_decide_eq_true nid] at digits
  exact absurd digits (by decide)

def digitNidsRun : List Event :=
  [.firstLogin,
    .receive 0 "87|313542|60|1|1|1|KKC".toList, .getOrder 10 true,
    .receive 0 "87|313542|60|2|1|1|KKC".toList, .getOrder 20 true,
    .matchup, .pushReport, .readReport, .sendReport true true]

theorem statements_kept_iff_digitNidsRun :
    ∃ last observations,
      (threads .literal).run .initial digitNidsRun = some (last, observations) ∧
        (reportedIn observations).length = 1 ∧
        ((∀ observation ∈ observations, observation.KeepsStatement) ↔
          (threads .literal).Along PlainMessage .initial digitNidsRun) := by
  obtain ⟨last, observations, finished, evaluated⟩ :=
    Machine.exists_run_of_any (threads .literal) .initial digitNidsRun
      (fun _ observations => decide ((reportedIn observations).length = 1)) (by decide +kernel)
  exact ⟨last, observations, finished, of_decide_eq_true evaluated,
    statements_kept_iff _ _ _ _ _ _ _ _ finished⟩

end InertiaTrader
