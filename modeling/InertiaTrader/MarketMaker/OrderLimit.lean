import InertiaTrader.Foundation.Machine
import InertiaTrader.MarketMaker.Client

/-!
# The order limit of the market maker

`startTradingProcess` and `recvMsg` run in threads of their own.  The first sends
two orders in each iteration that finds `orderNum` below `orderLimitation`; the
second counts answers in `orderNum`, whenever they come.
-/

namespace InertiaTrader

open Foundation

/-- The two orders of an iteration of `startTradingProcess`. -/
def quotedBuy : Text := "87|313542|60|1|1|1|KKC|&".toList

def quotedSell : Text := "87|313542|64|2|1|1|KKC|&".toList

/-- `Client::sendMsg`: what leaves the market maker when `send` returns
`sendSignal`. -/
def Client.sendMsg (sendSignal : ℤ) (str : Text) : List Text :=
  if sendSignal < 0 then [] else [str]

def quotes (buySignal sellSignal : ℤ) : List Text :=
  Client.sendMsg buySignal quotedBuy ++ Client.sendMsg sellSignal quotedSell

theorem Client.length_sendMsg {sendSignal : ℤ} (taken : 0 ≤ sendSignal) (str : Text) :
    (sendMsg sendSignal str).length = 1 := by
  rw [sendMsg, if_neg (by omega), List.length_singleton]

/-- The process: its members, whether `startTradingProcess` stands at `cv_.wait`,
and the orders that have left it. -/
structure MarketMaker where
  client : Client := {}
  waiting : Bool := false
  sent : List Text := []
  deriving DecidableEq

/-- The steps of the two threads.  `recvMsg` has received a text, or `recv` has
failed. -/
inductive MarketEvent where
  | trade (buySignal sellSignal : ℤ)
  | wait
  | recvMsg (received : Option Text)

namespace MarketMaker

/-- One step.  Between the test of `orderNum` and the second `sendMsg` an iteration
reads nothing that `recvMsg` changes, so that this part of it is one step.  There
is no step for a text whose fields `msgHandler` cannot read. -/
def step (state : MarketMaker) : MarketEvent → Option (MarketMaker × List Text)
  | .trade buySignal sellSignal =>
      if state.waiting then none
      else if state.client.orderNum < state.client.orderLimitation then
        let orders := quotes buySignal sellSignal
        some ({ state with waiting := true, sent := state.sent ++ orders }, orders)
      else some ({ state with waiting := true }, [])
  | .wait =>
      if state.waiting ∧ state.client.inventoryNum < state.client.inventoryLimit then
        some ({ state with waiting := false }, [])
      else none
  | .recvMsg none => some (state, [])
  | .recvMsg (some msg) =>
      match state.client.msgHandler msg with
      | .error _ => none
      | .ok client => some ({ state with client }, [])

end MarketMaker

def marketMaker : Machine MarketMaker MarketEvent Text := ⟨MarketMaker.step⟩

/-- After the step no more orders have left than `orderLimitation`. -/
def LimitKept (state : MarketMaker) (event : MarketEvent) : Prop :=
  ∀ next orders, state.step event = some (next, orders) →
    next.sent.length ≤ next.client.orderLimitation

/-- When the two orders of an iteration no longer fit under the limit, as many
answers as the limit allows have been counted before its test. -/
def CaughtUp (state : MarketMaker) : MarketEvent → Prop
  | .trade buySignal sellSignal =>
      state.waiting = false →
        state.client.orderLimitation < state.sent.length + (quotes buySignal sellSignal).length →
          state.client.orderLimitation ≤ state.client.orderNum
  | _ => True

namespace Client

theorem updated_orderLimitation (number : Option ℤ) (answer : Text) (client : Client) :
    (client.updated number answer).orderLimitation = client.orderLimitation := by
  unfold updated
  split
  next => rfl
  next => split <;> rfl
  next => rfl
  next =>
    unfold countAnswer
    split
    next => rfl
    next => split <;> rfl

theorem msgHandler_orderLimitation {client next : Client} {msg : Text}
    (handled : client.msgHandler msg = .ok next) :
    next.orderLimitation = client.orderLimitation := by
  obtain ⟨number, answer, rfl⟩ := exists_updated_of_msgHandler handled
  exact updated_orderLimitation number answer client

end Client

namespace MarketMaker

variable {state next : MarketMaker} {orders : List Text}

/-- What a step can do: an iteration sends and comes to its wait, or passes the
wait, or a message is counted. -/
theorem step_cases {event : MarketEvent} (stepped : state.step event = some (next, orders)) :
    next.sent = state.sent ++ orders ∧
      next.client.orderLimitation = state.client.orderLimitation ∧
      (orders = [] ∨ ∃ buySignal sellSignal, event = .trade buySignal sellSignal ∧
        orders = quotes buySignal sellSignal ∧ state.waiting = false ∧
        state.client.orderNum < state.client.orderLimitation) := by
  cases event with
  | trade buySignal sellSignal =>
      simp only [step] at stepped
      split at stepped
      next => cases stepped
      next running =>
        split at stepped
        next below =>
          cases stepped
          refine ⟨rfl, rfl, .inr ⟨buySignal, sellSignal, rfl, rfl, ?_, below⟩⟩
          exact Bool.eq_false_of_not_eq_true running
        next =>
          cases stepped
          exact ⟨(List.append_nil _).symm, rfl, .inl rfl⟩
  | wait =>
      simp only [step] at stepped
      split at stepped
      next =>
        cases stepped
        exact ⟨(List.append_nil _).symm, rfl, .inl rfl⟩
      next => cases stepped
  | recvMsg received =>
      cases received with
      | none =>
          cases stepped
          exact ⟨(List.append_nil _).symm, rfl, .inl rfl⟩
      | some msg =>
          simp only [step] at stepped
          split at stepped
          next => cases stepped
          next client handled =>
            cases stepped
            exact ⟨(List.append_nil _).symm, Client.msgHandler_orderLimitation handled, .inl rfl⟩

theorem step_trade (running : state.waiting = false)
    (below : state.client.orderNum < state.client.orderLimitation) (buySignal sellSignal : ℤ) :
    state.step (.trade buySignal sellSignal) =
      some ({ state with waiting := true, sent := state.sent ++ quotes buySignal sellSignal },
        quotes buySignal sellSignal) := by
  rw [step, running, if_neg Bool.false_ne_true, if_pos below]

theorem sent_of_run {events : List MarketEvent}
    (finished : marketMaker.run {} events = some (state, orders)) : state.sent = orders := by
  apply marketMaker.invariant_of_run (fun state seen => state.sent = seen) _ rfl finished
  intro state seen event next orders sent stepped
  rw [(step_cases stepped).1, sent]

theorem limitKept_iff (within : state.sent.length ≤ state.client.orderLimitation)
    (event : MarketEvent) : LimitKept state event ↔ CaughtUp state event := by
  constructor
  · intro kept
    cases event with
    | trade buySignal sellSignal =>
        intro running full
        by_contra below
        have stepped := step_trade running (not_le.mp below) buySignal sellSignal
        have after := kept _ _ stepped
        simp only [List.length_append, Nat.cast_add] at after
        omega
    | wait | recvMsg => trivial
  · intro caughtUp next orders stepped
    obtain ⟨sent, limitation, silent | ⟨buySignal, sellSignal, rfl, rfl, running, below⟩⟩ :=
      step_cases stepped
    · rw [sent, limitation, silent, List.append_nil]
      exact within
    · rw [sent, limitation, List.length_append, Nat.cast_add]
      by_contra full
      exact absurd (caughtUp running (not_le.mp full)) (not_le.mpr below)

end MarketMaker

/-- Whatever comes and whenever, the limit is kept exactly when every iteration
that would go beyond it finds `orderNum` at the limit. -/
theorem order_limit_kept_iff (events : List MarketEvent) :
    marketMaker.Along LimitKept {} events ↔ marketMaker.Along CaughtUp {} events := by
  apply marketMaker.along_congr_of_invariant
    (fun state => state.sent.length ≤ state.client.orderLimitation)
  · intro state event next orders _ kept stepped
    exact kept next orders stepped
  · intro state event within
    exact state.limitKept_iff within event
  · decide

/-- Five iterations send ten orders, of which nine are answered before the sixth. -/
def lateAnswers : List MarketEvent :=
  (List.replicate 5 [.trade 1024 1024, .wait]).flatten ++
    List.replicate 9 (.recvMsg (some "313542|success|".toList)) ++ [.trade 1024 1024]

theorem order_limit_exceeded :
    ∃ state orders, marketMaker.run {} lateAnswers = some (state, orders) ∧
      state.client.orderNum = 9 ∧ state.client.orderLimitation = 10 ∧ orders.length = 12 ∧
      ¬ marketMaker.Along LimitKept {} lateAnswers := by
  obtain ⟨state, orders, finished, evaluated⟩ :=
    Machine.exists_run_of_any marketMaker {} lateAnswers
      (fun state orders => decide (state.client.orderNum = 9 ∧
        state.client.orderLimitation = 10 ∧ orders.length = 12))
      (by decide +kernel)
  obtain ⟨answered, limitation, many⟩ := of_decide_eq_true evaluated
  refine ⟨state, orders, finished, answered, limitation, many, ?_⟩
  intro kept
  have within : (state.sent.length : ℤ) ≤ state.client.orderLimitation := by
    apply marketMaker.invariant_of_run_along
      (fun state _ => (state.sent.length : ℤ) ≤ state.client.orderLimitation)
      _ (by decide) kept finished
    intro state _ event next orders _ kept stepped
    exact kept next orders stepped
  rw [MarketMaker.sent_of_run finished, many, limitation] at within
  omega

/-- The answers are there before the next iteration, and `send` takes both orders
of each. -/
def Prompt (state : MarketMaker) : MarketEvent → Prop
  | .trade buySignal sellSignal =>
      0 ≤ buySignal ∧ 0 ≤ sellSignal ∧ state.sent.length ≤ state.client.orderNum
  | _ => True

theorem length_quotes {buySignal sellSignal : ℤ} (buyTaken : 0 ≤ buySignal)
    (sellTaken : 0 ≤ sellSignal) : (quotes buySignal sellSignal).length = 2 := by
  rw [quotes, List.length_append, Client.length_sendMsg buyTaken,
    Client.length_sendMsg sellTaken]

/-- With prompt answers the limit is kept: it is even, and the orders leave in
pairs. -/
theorem along_caughtUp_of_prompt {events : List MarketEvent}
    (prompt : marketMaker.Along Prompt {} events) : marketMaker.Along CaughtUp {} events := by
  apply marketMaker.along_of_invariant
    (fun state => Even state.sent.length ∧ state.client.orderLimitation = 10) _ _ _ prompt
  · intro state event next orders ⟨pairs, limitation⟩ here stepped
    obtain ⟨sent, sameLimitation, silent | ⟨buySignal, sellSignal, rfl, rfl, -⟩⟩ :=
      MarketMaker.step_cases stepped
    · rw [sent, sameLimitation, silent, List.append_nil]
      exact ⟨pairs, limitation⟩
    · rw [sent, sameLimitation, List.length_append, length_quotes here.1 here.2.1]
      exact ⟨pairs.add even_two, limitation⟩
  · intro state event ⟨pairs, limitation⟩ here
    cases event with
    | trade buySignal sellSignal =>
        intro _ full
        obtain ⟨buyTaken, sellTaken, answered⟩ := here
        obtain ⟨half, halves⟩ := pairs
        rw [length_quotes buyTaken sellTaken, limitation] at full
        rw [limitation]
        omega
    | wait | recvMsg => trivial
  · exact ⟨Even.zero, rfl⟩

end InertiaTrader
