import InertiaTrader.MarketMaker.OrderLimit
import InertiaTrader.MarketMaker.Reconnecting

/-!
# The whole market maker

The constructor connects and starts three threads.  Each of them runs as long as
`exit_flag_` is false, and `recvMsg` is the one that reconnects.
-/

namespace InertiaTrader

def heartbeatMsg : Text := "<3&".toList

def enquiryMsg : Text := "1233|KKC|&".toList

def loginMsg : Text := "1234|0324027|123|&".toList

structure ClientProcess where
  market : MarketMaker := {}
  connection : ClientConnection := {}
  /-- `heartbeatSending` stands between its two messages. -/
  beating : Bool := false
  deriving DecidableEq

inductive ClientEvent where
  /-- The constructor, with the attempts of its call of `allowConn`. -/
  | construct (attempts : List Attempt)
  /-- `recv` has failed, and these are the attempts of the call that follows. -/
  | disconnect (attempts : List Attempt)
  /-- The first message of an iteration of `heartbeatSending`. -/
  | beat (sendSignal : ℤ)
  /-- The second one, behind the test of `loginflag`. -/
  | ask (sendSignal : ℤ)
  | trade (buySignal sellSignal : ℤ)
  | wait
  | recvMsg (msg : Text)
  deriving DecidableEq

def ClientEvent.callsAllowConn : ClientEvent → Bool
  | .construct _ | .disconnect _ => true
  | _ => false

def ClientProcess.loggedInTexts : List Text := [heartbeatMsg, enquiryMsg, quotedBuy, quotedSell]

def ClientProcess.frames : List Text := loginMsg :: loggedInTexts

theorem Client.loginflag_of_msgHandler {client next : Client} {msg : Text}
    (handled : client.msgHandler msg = .ok next) (flag : client.loginflag = true) :
    next.loginflag = true := by
  obtain ⟨number, answer, rfl⟩ := exists_updated_of_msgHandler handled
  unfold updated
  split
  next => exact flag
  next => split <;> exact flag
  next => rfl
  next =>
    unfold countAnswer
    split
    next => exact flag
    next => split <;> exact flag

theorem MarketMaker.client_of_step {state next : MarketMaker} {event : MarketEvent}
    {orders : List Text} (stepped : state.step event = some (next, orders)) :
    next.client = state.client ∨
      ∃ msg, event = .recvMsg (some msg) ∧ state.client.msgHandler msg = .ok next.client := by
  cases event with
  | trade buySignal sellSignal =>
      simp only [step] at stepped
      split at stepped
      next => cases stepped
      next => split at stepped <;> cases stepped <;> exact .inl rfl
  | wait =>
      simp only [step] at stepped
      split at stepped <;> cases stepped
      exact .inl rfl
  | recvMsg received =>
      cases received with
      | none =>
          cases stepped
          exact .inl rfl
      | some msg =>
          simp only [step] at stepped
          split at stepped <;> cases stepped
          exact .inr ⟨msg, rfl, ‹_›⟩

theorem Client.mem_sendMsg {sendSignal : ℤ} {str text : Text}
    (sent : text ∈ sendMsg sendSignal str) : text = str := by
  unfold sendMsg at sent
  split at sent
  next => cases sent
  next => exact List.mem_singleton.mp sent

theorem MarketMaker.orders_of_step {state next : MarketMaker} {event : MarketEvent}
    {orders : List Text} (stepped : state.step event = some (next, orders)) :
    ∀ text ∈ orders, text ∈ ClientProcess.loggedInTexts := by
  obtain ⟨-, -, rfl | ⟨buySignal, sellSignal, -, rfl, -, -⟩⟩ := step_cases stepped
  · exact nofun
  · intro text sent
    rcases List.mem_append.mp sent with buy | sell
    · rw [Client.mem_sendMsg buy]
      decide
    · rw [Client.mem_sendMsg sell]
      decide

theorem MarketMaker.step_loggedIn {state next : MarketMaker} {event : MarketEvent}
    {orders : List Text} (stepped : state.step event = some (next, orders))
    (flag : state.client.loginflag = true) : next.client.loginflag = true := by
  rcases client_of_step stepped with same | ⟨msg, -, handled⟩
  · rw [same]
    exact flag
  · exact Client.loginflag_of_msgHandler handled flag

namespace ClientProcess

def loginflag (state : ClientProcess) : Bool := state.market.client.loginflag

/-- `while(!exit_flag_)` of the threads. -/
def running (state : ClientProcess) : Bool := state.connection.receives

def connected (state : ClientProcess) : Bool := state.connection.connecting.connStatus

/-- A call of `allowConn`. -/
def allowConn (event : ConnectionEvent) (state : ClientProcess) :
    Option (ClientProcess × List Text) :=
  match state.connection.step event with
  | none => none
  | some (connection, _) => some ({ state with connection }, [])

def withMarket (event : MarketEvent) (state : ClientProcess) :
    Option (ClientProcess × List Text) :=
  match state.market.step event with
  | none => none
  | some (market, orders) => some ({ state with market }, orders)

/-- One step, with the texts that leave.  The test of `exit_flag_` stands at the head of
each loop. -/
def step (state : ClientProcess) : ClientEvent → Option (ClientProcess × List Text)
  | .construct attempts => state.allowConn (.construct attempts)
  | .disconnect attempts => state.allowConn (.disconnect attempts)
  | .beat sendSignal =>
      if state.running ∧ state.beating = false then
        some ({ state with beating := true }, Client.sendMsg sendSignal heartbeatMsg)
      else none
  | .ask sendSignal =>
      if state.beating then
        some ({ state with beating := false },
          Client.sendMsg sendSignal (if state.loginflag then enquiryMsg else loginMsg))
      else none
  | .trade buySignal sellSignal =>
      if state.running then state.withMarket (.trade buySignal sellSignal) else none
  | .wait => state.withMarket .wait
  | .recvMsg msg => if state.running then state.withMarket (.recvMsg (some msg)) else none

section

variable {state next : ClientProcess} {event : ClientEvent} {texts : List Text}

theorem allowConn_cases {call : ConnectionEvent}
    (stepped : state.allowConn call = some (next, texts)) :
    ∃ connection, next = { state with connection } ∧ texts = [] := by
  unfold allowConn at stepped
  split at stepped <;> cases stepped
  exact ⟨_, rfl, rfl⟩

theorem withMarket_cases {marketEvent : MarketEvent}
    (stepped : state.withMarket marketEvent = some (next, texts)) :
    ∃ market, state.market.step marketEvent = some (market, texts) ∧
      next = { state with market } := by
  unfold withMarket at stepped
  split at stepped <;> cases stepped
  exact ⟨_, ‹_›, rfl⟩

theorem step_allowConn (calls : event.callsAllowConn = true)
    (stepped : state.step event = some (next, texts)) :
    next.market = state.market ∧ texts = [] := by
  cases event with
  | construct attempts | disconnect attempts =>
      obtain ⟨connection, rfl, rfl⟩ := allowConn_cases stepped
      exact ⟨rfl, rfl⟩
  | beat | ask | trade | wait | recvMsg => cases calls

theorem client_of_step (stepped : state.step event = some (next, texts)) :
    next.market.client = state.market.client ∨
      ∃ msg, event = .recvMsg msg ∧
        state.market.client.msgHandler msg = .ok next.market.client := by
  cases event with
  | construct attempts | disconnect attempts =>
      obtain ⟨connection, rfl, -⟩ := allowConn_cases stepped
      exact .inl rfl
  | beat | ask =>
      simp only [step] at stepped
      split at stepped <;> cases stepped
      exact .inl rfl
  | trade buySignal sellSignal =>
      simp only [step] at stepped
      split at stepped
      next =>
        obtain ⟨market, moved, rfl⟩ := withMarket_cases stepped
        exact (MarketMaker.client_of_step moved).imp_right
          fun ⟨msg, received, _⟩ => nomatch received
      next => cases stepped
  | wait =>
      obtain ⟨market, moved, rfl⟩ := withMarket_cases stepped
      exact (MarketMaker.client_of_step moved).imp_right
        fun ⟨msg, received, _⟩ => nomatch received
  | recvMsg msg =>
      simp only [step] at stepped
      split at stepped
      next =>
        obtain ⟨market, moved, rfl⟩ := withMarket_cases stepped
        rcases MarketMaker.client_of_step moved with same | ⟨_, received, handled⟩
        · exact .inl same
        · cases received
          exact .inr ⟨msg, rfl, handled⟩
      next => cases stepped

theorem step_loggedIn (stepped : state.step event = some (next, texts))
    (flag : state.loginflag = true) :
    next.loginflag = true ∧ ∀ text ∈ texts, text ∈ loggedInTexts := by
  cases event with
  | construct attempts | disconnect attempts =>
      obtain ⟨connection, rfl, rfl⟩ := allowConn_cases stepped
      exact ⟨flag, nofun⟩
  | beat sendSignal =>
      simp only [step] at stepped
      split at stepped <;> cases stepped
      refine ⟨flag, fun text sent => ?_⟩
      rw [Client.mem_sendMsg sent]
      decide
  | ask sendSignal =>
      simp only [step, flag, if_true] at stepped
      split at stepped <;> cases stepped
      refine ⟨flag, fun text sent => ?_⟩
      rw [Client.mem_sendMsg sent]
      decide
  | trade | recvMsg =>
      simp only [step] at stepped
      split at stepped
      next =>
        obtain ⟨market, moved, rfl⟩ := withMarket_cases stepped
        exact ⟨MarketMaker.step_loggedIn moved flag, MarketMaker.orders_of_step moved⟩
      next => cases stepped
  | wait =>
      obtain ⟨market, moved, rfl⟩ := withMarket_cases stepped
      exact ⟨MarketMaker.step_loggedIn moved flag, MarketMaker.orders_of_step moved⟩

theorem frames_of_step (stepped : state.step event = some (next, texts)) :
    ∀ text ∈ texts, text ∈ frames := by
  cases event with
  | construct attempts | disconnect attempts =>
      obtain ⟨connection, rfl, rfl⟩ := allowConn_cases stepped
      exact nofun
  | beat sendSignal =>
      simp only [step] at stepped
      split at stepped <;> cases stepped
      intro text sent
      rw [Client.mem_sendMsg sent]
      decide
  | ask sendSignal =>
      simp only [step] at stepped
      split at stepped <;> cases stepped
      intro text sent
      rw [Client.mem_sendMsg sent]
      split <;> decide
  | trade | recvMsg =>
      simp only [step] at stepped
      split at stepped
      next =>
        obtain ⟨market, moved, rfl⟩ := withMarket_cases stepped
        exact fun text sent =>
          List.mem_cons_of_mem _ (MarketMaker.orders_of_step moved text sent)
      next => cases stepped
  | wait =>
      obtain ⟨market, moved, rfl⟩ := withMarket_cases stepped
      exact fun text sent => List.mem_cons_of_mem _ (MarketMaker.orders_of_step moved text sent)

end

end ClientProcess

end InertiaTrader
