import InertiaTrader.Server.Login
import InertiaTrader.Threads

/-!
# The whole exchange

The trading threads together with those of `Server`: one accepts connections, and for
every connection one receives and one sends heartbeats.  A thread of a connection
that was found dead frees the dead connections and ends.  What a thread does between
two receives, hand-overs or heartbeats is one step, its calls of `split` and of
`freeEmptysocket` included.
-/

namespace InertiaTrader

open Foundation

def Accounts.balances (userList : Accounts) : List (Text × UserData) :=
  userList.map fun entry => (entry.1, entry.2.toUserData)

structure Exchange where
  threads : Threads
  userList : Accounts
  /-- The connections that `acceptConn` has made. -/
  accepted : List ConnRef := []
  recvStatus : ConnRef → Bool := fun _ => false
  /-- The connections whose `msgRecv` is running. -/
  receiving : List ConnRef := []
  /-- The connections whose `heartbeat` is running. -/
  beating : List ConnRef := []
  tempStr : ConnRef → Text := fun _ => []
  /-- What the loop of `msgRecv` still has to hand to `msgHandler`. -/
  tempVec : ConnRef → List Text := fun _ => []
  /-- The connections whose `msgRecv` is in the body of `case 1233`, in the order of
  `threads.asking`. -/
  asking : List ConnRef := []

inductive ExchangeEvent where
  | acceptConn (cn : ConnRef) (draw : ℕ) (memory : Bool)
  /-- `recvfrom` returns in `msgRecv`; `none` when `recv` has delivered nothing. -/
  | recvfrom (cn : ConnRef) (recvStr : Option Text) (draws : ℕ × ℕ) (added : Bool)
  /-- `recvfrom` returns, and `loginMsgHandle` reads what is not there. -/
  | strayLogin (cn : ConnRef) (recvStr : Text) (draws : ℕ × ℕ) (letIn : Option Text)
  /-- `msgRecv` calls `msgHandler` for the next text. -/
  | msgHandler (cn : ConnRef)
  /-- The receiving thread executes the body of `case 1233`. -/
  | priceAsking (cn : ConnRef)
  /-- A `send` on the socket fails. -/
  | sendFails (cn : ConnRef)
  /-- An iteration of `heartbeat`. -/
  | heartbeat (cn : ConnRef)
  /-- A step of a thread that `startTransaction` has started. -/
  | trading (event : Event)

inductive ExchangeOutput where
  | shown (observation : Observation)
  /-- `loginMsgHandle` is called while the users are these. -/
  | login (cn : ConnRef) (msg : Text) (userList : Accounts)
  /-- `msgHandler` is called by the thread of this connection. -/
  | handled (cn : ConnRef) (msg : Text)
  /-- A heartbeat or the answer to a login. -/
  | written (cn : ConnRef) (text : Text)
  deriving DecidableEq

def Event.isTrading : Event → Bool
  | .connect .. | .receive .. | .priceAsking .. => false
  | _ => true

theorem Threads.sr_of_trading {server : MariaDB} {threads next : Threads} {event : Event}
    {observations : List Observation} (isTrading : event.isTrading = true)
    (stepped : threads.step server event = some (next, observations)) :
    ∃ dq dqOrderhandle quotesList,
      next.trader.sr = { threads.trader.sr with dq, dqOrderhandle, quotesList } := by
  by_cases isPass : event = .matchup
  · subst isPass
    rcases Threads.matchup_step stepped with
      ⟨-, rfl, -⟩ | ⟨toBooks, odb, ods, sr, -, quoted, rfl, -⟩
    · exact ⟨_, _, _, rfl⟩
    · unfold Server.quoteUpdate at quoted
      split at quoted <;> cases quoted
      exact ⟨_, _, _, rfl⟩
  · have notConnect (connStorage : List (ℤ × ConnRef)) (connections : ConnRef → Connection)
        (userList : List (Text × UserData)) :
        event ≠ .connect connStorage connections userList := by
      rintro rfl
      cases isTrading
    obtain ⟨dq, dqOrderhandle, same⟩ := Threads.sr_step stepped notConnect isPass
    exact ⟨dq, dqOrderhandle, _, same⟩

namespace Exchange

def sr (state : Exchange) : Server := state.threads.trader.sr

def withServer (state : Exchange) (sr : Server) : Exchange :=
  { state with threads := { state.threads with trader := { state.threads.trader with sr } } }

@[simp]
theorem withServer_sr (state : Exchange) (sr : Server) : (state.withServer sr).sr = sr := rfl

/-- `freeEmptysocket`, called by a thread that ends. -/
def freeEmptysocket (state : Exchange) : Option Exchange :=
  match state.sr.freeEmptysocket state.recvStatus with
  | .error _ => none
  | .ok sr => some (state.withServer sr)

/-- The branch of `msgRecv` that ends the thread. -/
def endReceiving (cn : ConnRef) (state : Exchange) : Option (Exchange × List ExchangeOutput) :=
  match state.freeEmptysocket with
  | none => none
  | some freed => some ({ freed with receiving := freed.receiving.erase cn }, [])

/-- The branch of `msgRecv` that has received a text. -/
def receive (cn : ConnRef) (recvStr : Text) (draws : ℕ × ℕ) (added : Bool) (state : Exchange) :
    Option (Exchange × List ExchangeOutput) :=
  let connection := state.sr.connections cn
  let (subStr, kept) := reassemble (state.tempStr cn) recvStr
  let state := { state with tempStr := Function.update state.tempStr cn kept }
  if connection.loginFlag then
    some ({ state with
      tempVec := Function.update state.tempVec cn (split subStr "&".toList) }, [])
  else
    match loginMsgHandle draws added subStr state.userList connection with
    | .error _ => none
    | .ok (userList, connection, sent) =>
        some ({ state with userList }.withServer { state.sr with
            connections := Function.update state.sr.connections cn connection
            userList := userList.balances },
          .login cn subStr state.userList :: sent.map (.written cn))

/-- The same where the login message names nobody of the list or lacks a field. -/
def receiveStray (cn : ConnRef) (recvStr : Text) (draws : ℕ × ℕ) (letIn : Option Text)
    (state : Exchange) : Option (Exchange × List ExchangeOutput) :=
  let connection := state.sr.connections cn
  let (subStr, kept) := reassemble (state.tempStr cn) recvStr
  if connection.loginFlag then none
  else
    match InertiaTrader.strayLogin draws letIn subStr state.userList connection with
    | none => none
    | some (connection, sent) =>
        some ({ state with tempStr := Function.update state.tempStr cn kept }.withServer
            { state.sr with
              connections := Function.update state.sr.connections cn connection },
          .login cn subStr state.userList :: sent.map (.written cn))

def step (server : MariaDB) (state : Exchange) :
    ExchangeEvent → Option (Exchange × List ExchangeOutput)
  | .acceptConn cn draw memory =>
      if cn ∈ state.accepted then none
      else
        some ({ state.withServer (state.sr.acceptConn cn draw memory) with
          accepted := cn :: state.accepted
          recvStatus := Function.update state.recvStatus cn true
          receiving := cn :: state.receiving
          beating := cn :: state.beating }, [])
  | .recvfrom cn recvStr draws added =>
      if cn ∈ state.receiving ∧ state.tempVec cn = [] ∧ cn ∉ state.asking then
        match recvStr with
        | none =>
            { state with
              recvStatus := Function.update state.recvStatus cn false }.endReceiving cn
        | some recvStr =>
            if state.recvStatus cn then state.receive cn recvStr draws added
            else state.endReceiving cn
      else none
  | .strayLogin cn recvStr draws letIn =>
      if cn ∈ state.receiving ∧ state.tempVec cn = [] ∧ cn ∉ state.asking ∧
          state.recvStatus cn then
        state.receiveStray cn recvStr draws letIn
      else none
  | .msgHandler cn =>
      match state.tempVec cn with
      | [] => none
      | text :: rest =>
          if cn ∈ state.asking then none
          else
            let msg := Server.addressed text (state.sr.connections cn)
            match state.threads.step server (.receive cn text) with
            | none => none
            | some (threads, _) =>
                some ({ state with
                  threads
                  tempVec := Function.update state.tempVec cn rest
                  asking := if (state.sr.route msg).2 then state.asking ++ [cn]
                    else state.asking }, [.handled cn msg])
  | .priceAsking cn =>
      if cn ∈ state.asking then
        let index := state.asking.idxOf cn
        match state.threads.step server (.priceAsking index) with
        | none => none
        | some (threads, observations) =>
            some ({ state with threads, asking := state.asking.eraseIdx index },
              observations.map .shown)
      else none
  | .sendFails cn =>
      if cn ∈ state.accepted then
        some ({ state with recvStatus := Function.update state.recvStatus cn false }, [])
      else none
  | .heartbeat cn =>
      if cn ∈ state.beating then
        let written := [.written cn "<3&\n".toList]
        if state.recvStatus cn then some (state, written)
        else
          match state.freeEmptysocket with
          | none => none
          | some freed => some ({ freed with beating := freed.beating.erase cn }, written)
      else none
  | .trading event =>
      if event.isTrading then
        match state.threads.step server event with
        | none => none
        | some (threads, observations) => some ({ state with threads }, observations.map .shown)
      else none

/-- The exchange that `main` starts, with the users that `getUserData` returns. -/
def start (server : MariaDB) (db : Database) (rc : RiskController) (nidSub1 : BitVec 32)
    (userList : Accounts) (connections : ConnRef → Connection) : Exchange where
  threads := .start (.construct server db rc nidSub1 (.construct userList.balances connections))
  userList

/-- What a step can do, guards included. -/
inductive Step (server : MariaDB) (state : Exchange) :
    ExchangeEvent → Exchange → List ExchangeOutput → Prop where
  | accepts (cn : ConnRef) (draw : ℕ) (memory : Bool) :
      cn ∉ state.accepted →
      Step server state (.acceptConn cn draw memory)
        { state.withServer (state.sr.acceptConn cn draw memory) with
          accepted := cn :: state.accepted
          recvStatus := Function.update state.recvStatus cn true
          receiving := cn :: state.receiving
          beating := cn :: state.beating }
        []
  | stopsReceiving (cn : ConnRef) (recvStr : Option Text) (draws : ℕ × ℕ) (added : Bool)
      (connStorage : List (ℤ × ConnRef)) :
      cn ∈ state.receiving → state.tempVec cn = [] → cn ∉ state.asking →
      freeFrom (Function.update state.recvStatus cn false) state.sr.connStorage =
        .ok connStorage →
      Step server state (.recvfrom cn recvStr draws added)
        { state.withServer { state.sr with connStorage } with
          recvStatus := Function.update state.recvStatus cn false
          receiving := state.receiving.erase cn }
        []
  | cuts (cn : ConnRef) (recvStr : Text) (draws : ℕ × ℕ) (added : Bool) :
      cn ∈ state.receiving → state.tempVec cn = [] → cn ∉ state.asking →
      (state.sr.connections cn).loginFlag = true →
      Step server state (.recvfrom cn recvStr draws added)
        { state with
          tempStr := Function.update state.tempStr cn (reassemble (state.tempStr cn) recvStr).2
          tempVec := Function.update state.tempVec cn
            (split (reassemble (state.tempStr cn) recvStr).1 "&".toList) }
        []
  | callsLogin (cn : ConnRef) (recvStr : Text) (draws : ℕ × ℕ) (added : Bool)
      (userList : Accounts) (connection : Connection) (sent : List Text) :
      cn ∈ state.receiving → state.tempVec cn = [] → cn ∉ state.asking →
      (state.sr.connections cn).loginFlag = false →
      loginMsgHandle draws added (reassemble (state.tempStr cn) recvStr).1 state.userList
        (state.sr.connections cn) = .ok (userList, connection, sent) →
      Step server state (.recvfrom cn recvStr draws added)
        ({ state with
          tempStr := Function.update state.tempStr cn (reassemble (state.tempStr cn) recvStr).2
          userList }.withServer { state.sr with
            connections := Function.update state.sr.connections cn connection
            userList := userList.balances })
        (.login cn (reassemble (state.tempStr cn) recvStr).1 state.userList ::
          sent.map (.written cn))
  | strays (cn : ConnRef) (recvStr : Text) (draws : ℕ × ℕ) (letIn : Option Text)
      (connection : Connection) (sent : List Text) :
      cn ∈ state.receiving → state.tempVec cn = [] → cn ∉ state.asking →
      (state.sr.connections cn).loginFlag = false →
      InertiaTrader.strayLogin draws letIn (reassemble (state.tempStr cn) recvStr).1
        state.userList (state.sr.connections cn) = some (connection, sent) →
      Step server state (.strayLogin cn recvStr draws letIn)
        ({ state with
          tempStr := Function.update state.tempStr cn
            (reassemble (state.tempStr cn) recvStr).2 }.withServer { state.sr with
              connections := Function.update state.sr.connections cn connection })
        (.login cn (reassemble (state.tempStr cn) recvStr).1 state.userList ::
          sent.map (.written cn))
  | hands (cn : ConnRef) (text : Text) (rest : List Text) :
      state.tempVec cn = text :: rest → cn ∉ state.asking →
      (state.sr.connections cn).loginFlag = true →
      Step server state (.msgHandler cn)
        { state with
          threads := { state.threads with
            trader := { state.threads.trader with
              sr := (state.sr.route (Server.addressed text (state.sr.connections cn))).1 }
            asking :=
              if (state.sr.route (Server.addressed text (state.sr.connections cn))).2 then
                state.threads.asking ++ [Server.addressed text (state.sr.connections cn)]
              else state.threads.asking }
          tempVec := Function.update state.tempVec cn rest
          asking :=
            if (state.sr.route (Server.addressed text (state.sr.connections cn))).2 then
              state.asking ++ [cn]
            else state.asking }
        [.handled cn (Server.addressed text (state.sr.connections cn))]
  | answersPrice (cn : ConnRef) (msg : Text) (replies : List (ConnRef × Text)) :
      cn ∈ state.asking → state.threads.asking[state.asking.idxOf cn]? = some msg →
      state.sr.priceAsking msg = .ok replies →
      Step server state (.priceAsking cn)
        { state with
          threads := { state.threads with
            asking := state.threads.asking.eraseIdx (state.asking.idxOf cn) }
          asking := state.asking.eraseIdx (state.asking.idxOf cn) }
        (replies.map fun reply => .shown (.sent reply.1 reply.2))
  | fails (cn : ConnRef) :
      cn ∈ state.accepted →
      Step server state (.sendFails cn)
        { state with recvStatus := Function.update state.recvStatus cn false } []
  | beats (cn : ConnRef) :
      cn ∈ state.beating → state.recvStatus cn = true →
      Step server state (.heartbeat cn) state [.written cn "<3&\n".toList]
  | stopsBeating (cn : ConnRef) (connStorage : List (ℤ × ConnRef)) :
      cn ∈ state.beating → state.recvStatus cn = false →
      freeFrom state.recvStatus state.sr.connStorage = .ok connStorage →
      Step server state (.heartbeat cn)
        { state.withServer { state.sr with connStorage } with
          beating := state.beating.erase cn }
        [.written cn "<3&\n".toList]
  | trades (event : Event) (threads : Threads) (observations : List Observation) :
      event.isTrading = true →
      state.threads.step server event = some (threads, observations) →
      Step server state (.trading event) { state with threads } (observations.map .shown)

theorem freeEmptysocket_eq_some {state freed : Exchange}
    (finished : state.freeEmptysocket = some freed) :
    ∃ connStorage, freeFrom state.recvStatus state.sr.connStorage = .ok connStorage ∧
      freed = state.withServer { state.sr with connStorage } := by
  unfold freeEmptysocket at finished
  split at finished
  next => cases finished
  next sr freed =>
    cases finished
    obtain ⟨connStorage, ran, returned⟩ := bind_eq_ok_iff.mp freed
    cases returned
    exact ⟨connStorage, ran, rfl⟩

theorem endReceiving_cases {state next : Exchange} {cn : ConnRef}
    {outputs : List ExchangeOutput}
    (finished : state.endReceiving cn = some (next, outputs)) :
    ∃ connStorage, freeFrom state.recvStatus state.sr.connStorage = .ok connStorage ∧
      next = { state.withServer { state.sr with connStorage } with
        receiving := state.receiving.erase cn } ∧
      outputs = [] := by
  unfold endReceiving at finished
  split at finished
  next => cases finished
  next freed isFreed =>
    cases finished
    obtain ⟨connStorage, ran, rfl⟩ := freeEmptysocket_eq_some isFreed
    exact ⟨connStorage, ran, rfl, rfl⟩

theorem recvfrom_cases {server : MariaDB} {state next : Exchange} {cn : ConnRef}
    {recvStr : Option Text} {draws : ℕ × ℕ} {added : Bool} {outputs : List ExchangeOutput}
    (stepped : state.step server (.recvfrom cn recvStr draws added) = some (next, outputs)) :
    Step server state (.recvfrom cn recvStr draws added) next outputs := by
  simp only [step] at stepped
  split at stepped
  next ready =>
    obtain ⟨running, waiting, notAsking⟩ := ready
    cases recvStr with
    | none =>
        obtain ⟨connStorage, ran, rfl, rfl⟩ := endReceiving_cases stepped
        exact .stopsReceiving cn none draws added connStorage running waiting notAsking ran
    | some recvStr =>
        dsimp only at stepped
        split at stepped
        next alive =>
          unfold receive at stepped
          dsimp only at stepped
          split at stepped
          next flag =>
            cases stepped
            exact .cuts cn recvStr draws added running waiting notAsking flag
          next flag =>
            split at stepped
            next => cases stepped
            next userList connection sent answered =>
              cases stepped
              exact .callsLogin cn recvStr draws added userList connection sent running waiting
                notAsking (by simpa using flag) answered
        next dead =>
          obtain ⟨connStorage, ran, rfl, rfl⟩ := endReceiving_cases stepped
          have same : Function.update state.recvStatus cn false = state.recvStatus := by
            rw [Function.update_eq_self_iff]
            simpa using dead
          have stops : Step server state _ _ _ := .stopsReceiving cn (some recvStr) draws added
            connStorage running waiting notAsking (by rw [same]; exact ran)
          rwa [same] at stops
  next => cases stepped

theorem step_cases {server : MariaDB} {state next : Exchange} {event : ExchangeEvent}
    {outputs : List ExchangeOutput}
    (stepped : state.step server event = some (next, outputs)) :
    Step server state event next outputs := by
  cases event with
  | acceptConn cn draw memory =>
      simp only [step] at stepped
      split at stepped
      next => cases stepped
      next fresh =>
        cases stepped
        exact .accepts cn draw memory fresh
  | recvfrom cn recvStr draws added => exact recvfrom_cases stepped
  | strayLogin cn recvStr draws letIn =>
      simp only [step] at stepped
      split at stepped
      next ready =>
        obtain ⟨running, waiting, notAsking, -⟩ := ready
        simp only [receiveStray] at stepped
        split at stepped
        next => cases stepped
        next flag =>
          split at stepped
          next => cases stepped
          next connection sent answered =>
            cases stepped
            exact .strays cn recvStr draws letIn connection sent running waiting notAsking
              (by simpa using flag) answered
      next => cases stepped
  | msgHandler cn =>
      simp only [step] at stepped
      split at stepped
      next => cases stepped
      next text rest waiting =>
        split at stepped
        next => cases stepped
        next notAsking =>
          simp only [Threads.step] at stepped
          by_cases flag : (state.sr.connections cn).loginFlag = true
          · have flag' : (state.threads.trader.sr.connections cn).loginFlag = true := flag
            rw [if_pos flag'] at stepped
            cases stepped
            exact .hands cn text rest waiting notAsking flag
          · have flag' : ¬ (state.threads.trader.sr.connections cn).loginFlag = true := flag
            rw [if_neg flag'] at stepped
            cases stepped
  | priceAsking cn =>
      simp only [step] at stepped
      split at stepped
      next isAsking =>
        simp only [Threads.step] at stepped
        rcases waiting : state.threads.asking[state.asking.idxOf cn]? with - | msg
        · simp only [waiting] at stepped
          cases stepped
        · simp only [waiting] at stepped
          rcases asked : state.threads.trader.sr.priceAsking msg with fault | replies
          · simp only [asked] at stepped
            cases stepped
          · simp only [asked, List.map_map] at stepped
            cases stepped
            exact .answersPrice cn msg replies isAsking waiting asked
      next => cases stepped
  | sendFails cn =>
      simp only [step] at stepped
      split at stepped
      next known =>
        cases stepped
        exact .fails cn known
      next => cases stepped
  | heartbeat cn =>
      simp only [step] at stepped
      split at stepped
      next running =>
        split at stepped
        next alive =>
          cases stepped
          exact .beats cn running alive
        next dead =>
          split at stepped
          next => cases stepped
          next freed isFreed =>
            cases stepped
            obtain ⟨connStorage, ran, rfl⟩ := freeEmptysocket_eq_some isFreed
            exact .stopsBeating cn connStorage running (by simpa using dead) ran
      next => cases stepped
  | trading event =>
      simp only [step] at stepped
      split at stepped
      next isTrading =>
        split at stepped
        next => cases stepped
        next threads observations stepped' =>
          cases stepped
          exact .trades event threads observations isTrading stepped'
      next => cases stepped

end Exchange

/-- The exchange as a machine. -/
def exchange (server : MariaDB) : Machine Exchange ExchangeEvent ExchangeOutput :=
  ⟨Exchange.step server⟩

/-- The exchange that the data of `init.sql` starts. -/
def Exchange.initial : Exchange :=
  .start .literal .initial .initial 1 .initial fun _ => ⟨0, [], false⟩

end InertiaTrader
