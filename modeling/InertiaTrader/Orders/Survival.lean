import InertiaTrader.Threads

/-!
# Which client messages the trader survives

`msgHandler` looks at the code of a message only.  `getOrder` and
`getCancelOrder` index its fields and convert them outside any `try` block, and
look up connections and users without a test.
-/

namespace InertiaTrader

open Foundation

/-- The fields that a trading thread finds in a text of a client: the nonempty
ones of the text, then the id of the connection. -/
def receivedFields (text : Text) (cn : Connection) : List Text :=
  split text "|".toList ++ [toStringInt cn.connectionID]

/-- An iteration of `getOrder` ends without a fault, and its message is gone. -/
def GetOrderSurvives (server : MariaDB) (address : ℕ) (connected : Bool) (trader : Trader)
    (msg : Text) (rest : List Text) : Prop :=
  ∃ next observations,
    Trader.getOrder server address connected
      { trader with sr := { trader.sr with dq := msg :: rest } } = .ok (next, observations) ∧
    next.sr.dq = rest

/-- The same of `getCancelOrder`. -/
def GetCancelOrderSurvives (server : MariaDB) (connected : Bool) (trader : Trader)
    (msg : Text) (rest : List Text) : Prop :=
  ∃ next observations,
    Trader.getCancelOrder server connected
      { trader with sr := { trader.sr with dqOrderhandle := msg :: rest } } =
        .ok (next, observations) ∧
    next.sr.dqOrderhandle = rest

/-- Whatever a client sends, and whatever the state in which a trading thread
takes it: the thread goes on exactly when the fields are what it relies on. -/
theorem client_message_survives_iff (server : MariaDB) (address : ℕ) (connected : Bool)
    (trader : Trader) (received text : Text) (cn : Connection) (rest : List Text)
    (part : text ∈ split received "&".toList) :
    (GetOrderSurvives server address connected trader (Server.addressed text cn) rest ↔
      ∃ orderPrice side symbol connId receiver,
        trader.Readable (receivedFields text cn) orderPrice side symbol connId receiver) ∧
    (GetCancelOrderSurvives server connected trader (Server.addressed text cn) rest ↔
      trader.Amendable (receivedFields text cn)) := by
  have fields := Server.split_addressed (noNul_of_mem_split part) cn
  unfold receivedFields
  rw [← fields]
  constructor
  · apply (Trader.getOrder_ok_iff server address connected rfl).trans
    constructor <;> rintro ⟨orderPrice, side, symbol, connId, receiver, readable⟩ <;>
      exact ⟨orderPrice, side, symbol, connId, receiver, readable.priceField,
        readable.sideField, readable.symbolField, readable.connField, readable.registered,
        readable.known⟩
  · apply (Trader.getCancelOrder_ok_iff server connected rfl).trans
    constructor <;> rintro ⟨answerable, priced, listed⟩ <;> exact ⟨answerable, priced, listed⟩

/-- A client sends nothing but the code of an order. -/
def bareCodeRun : List Event := [.firstLogin, .receive 0 "87".toList]

/-- The message is queued, and the thread that takes it indexes past its fields. -/
theorem bare_code_faults :
    ∃ state observations,
      (threads .literal).run .initial bareCodeRun = some (state, observations) ∧
        "87".toList ∈ split "87&".toList "&".toList ∧
        state.trader.sr.dq = [Server.addressed "87".toList ⟨0, "0324027".toList, true⟩] ∧
        state.trader.getOrder .literal 10 true = .error .outOfRange := by
  obtain ⟨state, observations, finished, evaluated⟩ :=
    Machine.exists_run_of_any (threads .literal) .initial bareCodeRun
      (fun state _ =>
        decide (state.trader.sr.dq =
          [Server.addressed "87".toList ⟨0, "0324027".toList, true⟩]) &&
        match state.trader.getOrder .literal 10 true with
        | .error .outOfRange => true
        | _ => false)
      (by decide +kernel)
  obtain ⟨queued, faulted⟩ := Bool.and_eq_true_iff.mp evaluated
  refine ⟨state, observations, finished, by decide +kernel, of_decide_eq_true queued, ?_⟩
  split at faulted
  next fault => exact fault
  next => cases faulted

theorem client_message_survives_iff_order :
    (GetOrderSurvives .literal 10 true Threads.initial.trader
        (Server.addressed "87|1|60|1|1|1|KKC|".toList ⟨0, "0324027".toList, true⟩) [] ↔
      ∃ orderPrice side symbol connId receiver,
        Threads.initial.trader.Readable
          (receivedFields "87|1|60|1|1|1|KKC|".toList ⟨0, "0324027".toList, true⟩)
          orderPrice side symbol connId receiver) ∧
    (GetCancelOrderSurvives .literal true Threads.initial.trader
        (Server.addressed "87|1|60|1|1|1|KKC|".toList ⟨0, "0324027".toList, true⟩) [] ↔
      Threads.initial.trader.Amendable
        (receivedFields "87|1|60|1|1|1|KKC|".toList ⟨0, "0324027".toList, true⟩)) :=
  client_message_survives_iff .literal 10 true Threads.initial.trader
    "87|1|60|1|1|1|KKC|&".toList _ _ [] (by decide +kernel)

end InertiaTrader
