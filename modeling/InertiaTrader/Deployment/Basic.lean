import InertiaTrader.Exchange.Sessions
import InertiaTrader.MarketMaker.Process

/-!
# The market maker at the exchange

The exchange with all its clients, one of which is the market maker.  On the connections
of the market maker each receive takes one frame, in the order in which they were sent;
what other clients send is arbitrary.
-/

namespace InertiaTrader

open Foundation

structure Deployment where
  exchange : Exchange
  client : ClientProcess := {}
  /-- The connections of the market maker, the current one first, each with the value of
  `loginflag` when it was opened. -/
  opened : List (ConnRef × Bool) := []
  /-- The frames on their way to the exchange. -/
  toExchange : ConnRef → List Text := fun _ => []
  /-- The frames on their way back. -/
  toClient : ConnRef → List Text := fun _ => []

inductive DeploymentEvent where
  | exchange (event : ExchangeEvent)
  /-- A step of the market maker on its current connection `cn`, or one that opens it. -/
  | client (event : ClientEvent) (cn : ConnRef)

def DeploymentEvent.ofExchange : DeploymentEvent → Option ExchangeEvent
  | .exchange event => some event
  | .client .. => none

def ExchangeOutput.textTo (cn : ConnRef) : ExchangeOutput → Option Text
  | .written other text => if other = cn then some text else none
  | .shown (.sent other text) => if other = cn then some text else none
  | _ => none

namespace Deployment

def isOpened (state : Deployment) (cn : ConnRef) : Prop := cn ∈ state.opened.map Prod.fst

instance (state : Deployment) (cn : ConnRef) : Decidable (state.isOpened cn) :=
  inferInstanceAs (Decidable (cn ∈ state.opened.map Prod.fst))

def current (state : Deployment) : Option ConnRef := (state.opened.map Prod.fst).head?

def takesFrame (state : Deployment) : ExchangeEvent → Bool
  | .recvfrom cn (some recvStr) _ _ | .strayLogin cn recvStr _ _ =>
      !state.isOpened cn || (state.toExchange cn).head? == some recvStr
  | _ => true

def framesAfter (toExchange : ConnRef → List Text) : ExchangeEvent → ConnRef → List Text
  | .recvfrom cn (some _) _ _ | .strayLogin cn _ _ _ =>
      Function.update toExchange cn (toExchange cn).tail
  | _ => toExchange

def framesRead (toClient : ConnRef → List Text) (cn : ConnRef) :
    ClientEvent → ConnRef → List Text
  | .recvMsg _ => Function.update toClient cn (toClient cn).tail
  | _ => toClient

/-- A new connection is one that the exchange has not accepted before; the threads work on
the current one, and `recv` returns the next frame that came on it. -/
def onConnection (state : Deployment) (cn : ConnRef) : ClientEvent → Bool
  | .construct _ | .disconnect _ => cn ∉ state.exchange.accepted ∧ ¬ state.isOpened cn
  | .recvMsg msg => state.current = some cn ∧ (state.toClient cn).head? = some msg
  | _ => state.current = some cn

def step (server : MariaDB) (state : Deployment) :
    DeploymentEvent → Option (Deployment × List ExchangeOutput)
  | .exchange event =>
      if state.takesFrame event then
        match state.exchange.step server event with
        | none => none
        | some (exchange, outputs) =>
            some ({ state with
              exchange
              toExchange := framesAfter state.toExchange event
              toClient := fun cn =>
                state.toClient cn ++ outputs.filterMap (ExchangeOutput.textTo cn) }, outputs)
      else none
  | .client event cn =>
      if state.onConnection cn event then
        match state.client.step event with
        | none => none
        | some (client, texts) =>
            some ({ state with
              client
              opened :=
                if event.callsAllowConn ∧ client.connected then
                  (cn, client.loginflag) :: state.opened
                else state.opened
              toExchange := Function.update state.toExchange cn (state.toExchange cn ++ texts)
              toClient := framesRead state.toClient cn event }, [])
      else none

def start (server : MariaDB) (db : Database) (rc : RiskController) (nidSub1 : BitVec 32)
    (userList : Accounts) (connections : ConnRef → Connection) : Deployment where
  exchange := .start server db rc nidSub1 userList connections

def initial : Deployment where
  exchange := .initial

end Deployment

def deployment (server : MariaDB) : Machine Deployment DeploymentEvent ExchangeOutput :=
  ⟨Deployment.step server⟩

section

variable {server : MariaDB} {state next last : Deployment} {outputs : List ExchangeOutput}

theorem Deployment.fresh_of_onConnection {event : ClientEvent} {cn : ConnRef}
    (calls : event.callsAllowConn = true) (fits : state.onConnection cn event = true) :
    cn ∉ state.exchange.accepted ∧ ¬ state.isOpened cn := by
  cases event with
  | construct | disconnect => simpa [onConnection] using fits
  | beat | ask | trade | wait | recvMsg => cases calls

theorem Deployment.current_of_onConnection {event : ClientEvent} {cn : ConnRef}
    (calls : event.callsAllowConn = false) (fits : state.onConnection cn event = true) :
    state.current = some cn := by
  cases event with
  | construct | disconnect => cases calls
  | beat | ask | trade | wait => simpa [onConnection] using fits
  | recvMsg msg =>
      simp only [onConnection, Bool.decide_and, Bool.and_eq_true, decide_eq_true_eq] at fits
      exact fits.1

theorem Deployment.exchange_step {event : ExchangeEvent}
    (stepped : state.step server (.exchange event) = some (next, outputs)) :
    state.takesFrame event = true ∧ ∃ exchange,
      state.exchange.step server event = some (exchange, outputs) ∧
      next = { state with
        exchange
        toExchange := framesAfter state.toExchange event
        toClient := fun cn =>
          state.toClient cn ++ outputs.filterMap (ExchangeOutput.textTo cn) } := by
  simp only [step] at stepped
  split at stepped
  next takes =>
    split at stepped
    next => cases stepped
    next exchange outputs' exchanged =>
      cases stepped
      exact ⟨takes, exchange, exchanged, rfl⟩
  next => cases stepped

theorem Deployment.client_step {event : ClientEvent} {cn : ConnRef}
    (stepped : state.step server (.client event cn) = some (next, outputs)) :
    state.onConnection cn event = true ∧ outputs = [] ∧ ∃ client texts,
      state.client.step event = some (client, texts) ∧
      next = { state with
        client
        opened :=
          if event.callsAllowConn ∧ client.connected then
            (cn, client.loginflag) :: state.opened
          else state.opened
        toExchange := Function.update state.toExchange cn (state.toExchange cn ++ texts)
        toClient := framesRead state.toClient cn event } := by
  simp only [step] at stepped
  split at stepped
  next onConnection =>
    split at stepped
    next => cases stepped
    next client texts moved =>
      cases stepped
      exact ⟨onConnection, rfl, client, texts, moved, rfl⟩
  next => cases stepped

theorem exchange_run_of_deployment {state : Deployment} {events : List DeploymentEvent}
    (finished : (deployment server).run state events = some (last, outputs)) :
    (exchange server).run state.exchange (events.filterMap DeploymentEvent.ofExchange) =
      some (last.exchange, outputs) := by
  apply (deployment server).invariant_of_history (fun past current seen =>
    (exchange server).run state.exchange (past.filterMap DeploymentEvent.ofExchange) =
      some (current.exchange, seen)) _ ((exchange server).run_nil _) finished
  intro past current seen event next shown ran stepped
  change current.step server event = _ at stepped
  rw [List.filterMap_append]
  cases event with
  | exchange event =>
      obtain ⟨-, exchange', exchanged, rfl⟩ := Deployment.exchange_step stepped
      exact (exchange server).run_concat ran exchanged
  | client event cn =>
      obtain ⟨-, rfl, client, texts, -, rfl⟩ := Deployment.client_step stepped
      rw [List.filterMap_cons_none rfl, List.filterMap_nil, List.append_nil, List.append_nil]
      exact ran

end

end InertiaTrader
