import InertiaTrader.Exchange.Sessions

/-!
# The exchange as a trading process

What sockets, logins and heartbeats do is for the trader one of the steps by which the
tables of connections and users change.  Whatever holds of all runs of the trading
process therefore holds of the exchange.
-/

namespace InertiaTrader

open Foundation

/-- What the threads of the trading process show of a step of the exchange. -/
def ExchangeOutput.observation : ExchangeOutput → Option Observation
  | .shown observation => some observation
  | _ => none

section

variable {server : MariaDB} {state next : Exchange} {event : ExchangeEvent}
    {outputs : List ExchangeOutput}

theorem Threads.run_connect (server : MariaDB) (threads : Threads)
    (connStorage : List (ℤ × ConnRef)) (connections : ConnRef → Connection)
    (userList : List (Text × UserData)) :
    (InertiaTrader.threads server).run threads [.connect connStorage connections userList] =
      some ({ threads with trader := { threads.trader with
        sr := { threads.trader.sr with connStorage, connections, userList } } }, []) := by
  rw [Machine.run_singleton]
  rfl

theorem observations_shown (observations : List Observation) :
    (observations.map ExchangeOutput.shown).filterMap ExchangeOutput.observation =
      observations := by
  rw [List.filterMap_map]
  exact List.filterMap_some

theorem threads_of_step (stepped : state.step server event = some (next, outputs)) :
    ∃ events, (threads server).run state.threads events =
      some (next.threads, outputs.filterMap ExchangeOutput.observation) := by
  cases Exchange.step_cases stepped with
  | accepts cn draw memory =>
      exact ⟨_, Threads.run_connect server state.threads
        (insertNew (connectionSpace draw) cn state.sr.connStorage) _ state.sr.userList⟩
  | stopsReceiving cn recvStr draws added connStorage =>
      exact ⟨_, Threads.run_connect server state.threads connStorage state.sr.connections
        state.sr.userList⟩
  | stopsBeating cn connStorage =>
      exact ⟨_, Threads.run_connect server state.threads connStorage state.sr.connections
        state.sr.userList⟩
  | callsLogin cn recvStr draws added userList connection sent =>
      have silent : (ExchangeOutput.login cn (reassemble (state.tempStr cn) recvStr).1
          state.userList :: sent.map (.written cn)).filterMap ExchangeOutput.observation = [] := by
        rw [List.filterMap_cons_none rfl, filterMap_map_eq_nil fun _ => rfl]
      rw [silent]
      exact ⟨_, Threads.run_connect server state.threads state.sr.connStorage
        (Function.update state.sr.connections cn connection) userList.balances⟩
  | strays cn recvStr draws letIn connection sent =>
      have silent : (ExchangeOutput.login cn (reassemble (state.tempStr cn) recvStr).1
          state.userList :: sent.map (.written cn)).filterMap ExchangeOutput.observation = [] := by
        rw [List.filterMap_cons_none rfl, filterMap_map_eq_nil fun _ => rfl]
      rw [silent]
      exact ⟨_, Threads.run_connect server state.threads state.sr.connStorage
        (Function.update state.sr.connections cn connection) state.sr.userList⟩
  | cuts | fails | beats => exact ⟨[], rfl⟩
  | hands cn text rest _ _ flag =>
      refine ⟨[.receive cn text], ?_⟩
      rw [Machine.run_singleton]
      change state.threads.step server (.receive cn text) = _
      have flag' : (state.threads.trader.sr.connections cn).loginFlag = true := flag
      simp only [Threads.step, if_pos flag']
      rfl
  | answersPrice cn msg replies _ waiting asked =>
      refine ⟨[.priceAsking (state.asking.idxOf cn)], ?_⟩
      rw [Machine.run_singleton]
      change state.threads.step server (.priceAsking _) = _
      have asked' : state.threads.trader.sr.priceAsking msg = .ok replies := asked
      simp only [Threads.step, waiting, asked', List.filterMap_map]
      congr 2
      exact (congrFun (List.filterMap_eq_map (f := fun reply : ConnRef × Text =>
        Observation.sent reply.1 reply.2)) replies).symm
  | trades event threads observations isTrading traded =>
      refine ⟨[event], ?_⟩
      rw [Machine.run_singleton, observations_shown]
      exact traded

theorem threads_run_of_exchange {last : Exchange} {events : List ExchangeEvent}
    (finished : (exchange server).run state events = some (last, outputs)) :
    ∃ events', (threads server).run state.threads events' =
      some (last.threads, outputs.filterMap ExchangeOutput.observation) := by
  have matched : ∀ (current : Exchange) (shadow : Threads) (event : ExchangeEvent)
      (next : Exchange) (shown : List ExchangeOutput), shadow = current.threads →
      (exchange server).step current event = some (next, shown) →
      ∃ events shadow', shadow' = next.threads ∧ (threads server).run shadow events =
        some (shadow', shown.filterMap ExchangeOutput.observation) := by
    rintro current _ event next shown rfl stepped
    obtain ⟨events', ran⟩ := threads_of_step stepped
    exact ⟨events', next.threads, rfl, ran⟩
  obtain ⟨events', shadow, rfl, ran⟩ := (exchange server).run_simulated (threads server)
    ExchangeOutput.observation matched rfl finished
  exact ⟨events', ran⟩

end

/-- Every run of the exchange is for the trader a run of the trading process, with the
same observations. -/
theorem exchange_refines_threads (server : MariaDB) (state last : Exchange)
    (events : List ExchangeEvent) (outputs : List ExchangeOutput)
    (finished : (exchange server).run state events = some (last, outputs)) :
    ∃ events', (threads server).run state.threads events' =
      some (last.threads, outputs.filterMap ExchangeOutput.observation) :=
  threads_run_of_exchange finished

theorem exchange_refines_threads_twoClientsRun :
    ∃ last outputs events', (exchange .literal).run .initial twoClientsRun = some (last, outputs) ∧
      (outputs.filterMap ExchangeOutput.observation).length = 11 ∧
      (threads .literal).run Exchange.initial.threads events' =
        some (last.threads, outputs.filterMap ExchangeOutput.observation) := by
  obtain ⟨last, outputs, finished, evaluated⟩ :=
    Machine.exists_run_of_any (exchange .literal) .initial twoClientsRun
      (fun _ outputs =>
        decide ((outputs.filterMap ExchangeOutput.observation).length = 11)) (by decide +kernel)
  obtain ⟨events', ran⟩ := exchange_refines_threads _ _ _ _ _ finished
  exact ⟨last, outputs, events', finished, of_decide_eq_true evaluated, ran⟩

end InertiaTrader
