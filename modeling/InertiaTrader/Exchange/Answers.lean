import InertiaTrader.Exchange.Sessions
import InertiaTrader.Orders.Intake

/-!
# Messages and answers

Each of the two queues has one thread that empties it.  Whatever else happens, it
answers the messages that were handed to `msgHandler` one for one and in their order.
-/

namespace InertiaTrader

open Foundation

/-- The messages that wait for the thread of the lane. -/
def Server.waiting (sr : Server) : Lane → List Text
  | .getOrder => sr.dq
  | .getCancelOrder => sr.dqOrderhandle

/-- The order is the one that `getOrder` builds from the message, whatever its status
and its serial number. -/
def BuiltFrom (msg : Text) (od : Order) : Prop :=
  ∃ built orderstatus clientSerialNum, Trader.newOrder (split msg "|".toList) = .ok built ∧
    od = { built with orderstatus, clientSerialNum }

def Lane.verdicts : Lane → List Text
  | .getOrder => ["|success".toList, "|failed, repeat nid".toList, "|failed".toList,
      "|failed, Insufficient balance".toList]
  | .getCancelOrder => ["|cancel order success".toList, "|modify order success".toList,
      "|no this order".toList, "|cancel order error".toList,
      "|no this order, modify failed".toList]

/-- The answer is one to this message. -/
inductive Lane.Answers (msg : Text) : Lane → Observation → Prop where
  | ordered (od : Order) (verdict : Text) :
      BuiltFrom msg od → verdict ∈ Lane.getOrder.verdicts →
      Answers msg .getOrder (.ordered od (od.nid ++ verdict))
  | amended (nid verdict : Text) :
      (split msg "|".toList)[1]? = some nid → verdict ∈ Lane.getCancelOrder.verdicts →
      Answers msg .getCancelOrder (.amended (split msg "|".toList) (nid ++ verdict))

def Observation.answerOf (lane : Lane) : Observation → Option Observation
  | .ordered od reply => if lane = .getOrder then some (.ordered od reply) else none
  | .amended res reply => if lane = .getCancelOrder then some (.amended res reply) else none
  | _ => none

/-- An answer that the thread of the lane gives. -/
def ExchangeOutput.answerOf (lane : Lane) : ExchangeOutput → Option Observation
  | .shown observation => observation.answerOf lane
  | _ => none

/-- A message that `msgHandler` puts into the queue of the lane. -/
def ExchangeOutput.handledFor (lane : Lane) : ExchangeOutput → Option Text
  | .handled _ msg => if lane.Takes msg then some msg else none
  | _ => none

def AnsweredInOrder (lane : Lane) (state : Exchange) (seen : List ExchangeOutput) : Prop :=
  ∃ answered, seen.filterMap (ExchangeOutput.handledFor lane) =
      answered ++ state.sr.waiting lane ∧
    List.Forall₂ (fun msg => lane.Answers msg) answered
      (seen.filterMap (ExchangeOutput.answerOf lane))

section

variable {server : MariaDB} {threads threads' : Threads} {event : Event}
    {observations : List Observation}

theorem builtFrom_verify {msg : Text} {od : Order} (rc : RiskController)
    (built : Trader.newOrder (split msg "|".toList) = .ok od) : BuiltFrom msg (rc.verify od) :=
  ⟨od, _, od.clientSerialNum, built, rc.verify_eq od⟩

theorem builtFrom_acceptedOrder {msg : Text} {od : Order} (trader : Trader)
    (built : Trader.newOrder (split msg "|".toList) = .ok od) :
    BuiltFrom msg (trader.acceptedOrder od) := by
  refine ⟨od, some (if trader.rc.rejects od then .failed else .verified),
    some trader.generateNid.1, built, ?_⟩
  rw [Trader.acceptedOrder, trader.rc.verify_eq]

theorem answer_of_handling {address : ℕ} {connected : Bool} {connId : ℤ} {od : Order}
    {trader next : Trader} {cn : ConnRef} {msg : Text}
    (built : Trader.newOrder (split msg "|".toList) = .ok od)
    (handling : Trader.Handling server address connected connId od trader cn next
      observations) :
    next.sr = trader.sr ∧
      observations.filterMap (Observation.answerOf .getCancelOrder) = [] ∧
      ∃ answer, observations.filterMap (Observation.answerOf .getOrder) = [answer] ∧
        Lane.getOrder.Answers msg answer := by
  cases handling with
  | failed =>
      refine ⟨rfl, rfl, _, rfl, ?_⟩
      rw [← Trader.verify_nid trader.rc od]
      exact .ordered _ _ (builtFrom_verify trader.rc built) (by simp [Lane.verdicts])
  | insufficient =>
      refine ⟨rfl, rfl, _, rfl, ?_⟩
      rw [← Trader.verify_nid trader.rc od]
      exact .ordered _ _ (builtFrom_verify trader.rc built) (by simp [Lane.verdicts])
  | accepted =>
      refine ⟨rfl, rfl, _, rfl, ?_⟩
      apply Lane.Answers.ordered _ _ (builtFrom_acceptedOrder trader built)
      split <;> simp [Lane.verdicts]

theorem answer_of_amendment {connected : Bool} {trader next : Trader} {val : Text}
    (amendment : Trader.Amendment server connected (split val "|".toList) trader next
      observations) :
    next.sr = trader.sr ∧ observations.filterMap (Observation.answerOf .getOrder) = [] ∧
      ∃ answer, observations.filterMap (Observation.answerOf .getCancelOrder) = [answer] ∧
        Lane.getCancelOrder.Answers val answer := by
  cases amendment with
  | cancelled chosen nid it order cn _ nidField =>
      refine ⟨?_, rfl, _, rfl, .amended nid _ nidField (by simp [Lane.verdicts])⟩
      cases chosen <;> rfl
  | modified nid price orderPrice it order cn _ nidField =>
      exact ⟨rfl, rfl, _, rfl, .amended nid _ nidField (by simp [Lane.verdicts])⟩
  | refused nid verdict cn listed nidField =>
      have isVerdict := List.mem_append_right ["|cancel order success".toList,
        "|modify order success".toList] listed
      exact ⟨rfl, rfl, _, rfl, .amended nid verdict nidField isVerdict⟩

/-- A step of the trading threads answers the first message of a lane, or leaves the
lane alone. -/
theorem answers_of_trading (lane : Lane) (isTrading : event.isTrading = true)
    (stepped : threads.step server event = some (threads', observations)) :
    (observations.filterMap (Observation.answerOf lane) = [] ∧
        threads'.trader.sr.waiting lane = threads.trader.sr.waiting lane) ∨
      ∃ msg answer, threads.trader.sr.waiting lane = msg :: threads'.trader.sr.waiting lane ∧
        observations.filterMap (Observation.answerOf lane) = [answer] ∧
        lane.Answers msg answer := by
  cases event with
  | connect | receive | priceAsking => cases isTrading
  | getOrder address connected =>
      rcases Threads.getOrder_step stepped with
        ⟨-, rfl, rfl⟩ | ⟨msg, rest, od, connId, cn, trader, -, queued, built, -, -, handling, rfl⟩
      · exact .inl ⟨rfl, rfl⟩
      · obtain ⟨sameServer, silent, answer, answered, answers⟩ :=
          answer_of_handling built handling
        cases lane with
        | getOrder =>
            refine .inr ⟨msg, answer, ?_, answered, answers⟩
            change threads.trader.sr.dq = msg :: trader.sr.dq
            rw [queued, sameServer]
        | getCancelOrder =>
            refine .inl ⟨silent, ?_⟩
            change trader.sr.dqOrderhandle = _
            rw [sameServer]
            rfl
  | getCancelOrder connected =>
      obtain ⟨trader, finished, rfl⟩ := Threads.lift_eq_some_iff.mp stepped
      rcases Trader.getCancelOrder_cases finished with
        ⟨-, rfl, rfl⟩ | ⟨val, rest, queued, amendment⟩
      · exact .inl ⟨rfl, rfl⟩
      · obtain ⟨sameServer, silent, answer, answered, answers⟩ := answer_of_amendment amendment
        cases lane with
        | getOrder =>
            refine .inl ⟨silent, ?_⟩
            change trader.sr.dq = _
            rw [sameServer]
            rfl
        | getCancelOrder =>
            refine .inr ⟨val, answer, ?_, answered, answers⟩
            change threads.trader.sr.dqOrderhandle = val :: trader.sr.dqOrderhandle
            rw [queued, sameServer]
  | matchup =>
      left
      rcases Threads.matchup_step stepped with
        ⟨-, rfl, rfl⟩ | ⟨toBooks, odb, ods, sr, -, quoted, rfl, rfl⟩
      · exact ⟨rfl, rfl⟩
      · unfold Server.quoteUpdate at quoted
        split at quoted <;> cases quoted
        cases lane <;> exact ⟨rfl, rfl⟩
  | sendReport inserts updates =>
      left
      simp only [Threads.step] at stepped
      split at stepped
      next order reading =>
        obtain ⟨trader, finished, rfl⟩ := Threads.lift_eq_some_iff.mp stepped
        obtain ⟨_, _, _, _, -, -, -, rfl, rfl⟩ := Trader.sendExecReport_cases finished
        exact ⟨rfl, rfl⟩
      next => cases stepped
  | pushReport | readReport | popReport =>
      left
      simp only [Threads.step] at stepped
      split at stepped <;> cases stepped
      exact ⟨rfl, rfl⟩

end

section

variable {server : MariaDB} {lane : Lane} {state next : Exchange} {event : ExchangeEvent}
    {seen outputs : List ExchangeOutput}

theorem AnsweredInOrder.quiet (inOrder : AnsweredInOrder lane state seen)
    (silent : outputs.filterMap (ExchangeOutput.handledFor lane) = [])
    (unanswered : outputs.filterMap (ExchangeOutput.answerOf lane) = [])
    (waiting : next.sr.waiting lane = state.sr.waiting lane) :
    AnsweredInOrder lane next (seen ++ outputs) := by
  obtain ⟨answered, handled, answers⟩ := inOrder
  refine ⟨answered, ?_, ?_⟩
  · rw [List.filterMap_append, silent, List.append_nil, handled, waiting]
  · rw [List.filterMap_append, unanswered, List.append_nil]
    exact answers

theorem waiting_route (sr : Server) (lane : Lane) (msg : Text) :
    (sr.route msg).1.waiting lane =
      sr.waiting lane ++ if lane.Takes msg then [msg] else [] := by
  obtain ⟨orders, amendments⟩ := sr.route_queues msg
  cases lane with
  | getOrder =>
      change (sr.route msg).1.dq = sr.dq ++ if Server.codeNum msg = some 87 then [msg] else []
      rw [orders]
      split
      next => rfl
      next => exact (List.append_nil _).symm
  | getCancelOrder =>
      change (sr.route msg).1.dqOrderhandle = sr.dqOrderhandle ++
        if Server.codeNum msg = some 88 ∨ Server.codeNum msg = some 89 then [msg] else []
      rw [amendments]
      split
      next => rfl
      next => exact (List.append_nil _).symm

theorem answeredInOrder_step (inOrder : AnsweredInOrder lane state seen)
    (stepped : state.step server event = some (next, outputs)) :
    AnsweredInOrder lane next (seen ++ outputs) := by
  cases Exchange.step_cases stepped with
  | accepts | stopsReceiving | cuts | fails | beats | stopsBeating =>
      refine inOrder.quiet rfl rfl ?_
      cases lane <;> rfl
  | callsLogin | strays =>
      refine inOrder.quiet ?_ ?_ ?_
      · rw [List.filterMap_cons_none rfl, filterMap_map_eq_nil fun _ => rfl]
      · rw [List.filterMap_cons_none rfl, filterMap_map_eq_nil fun _ => rfl]
      · cases lane <;> rfl
  | answersPrice cn msg replies =>
      refine inOrder.quiet ?_ ?_ ?_
      · exact filterMap_map_eq_nil (fun _ => rfl) replies
      · exact filterMap_map_eq_nil (fun _ => rfl) replies
      · cases lane <;> rfl
  | hands cn text rest =>
      obtain ⟨answered, handled, answers⟩ := inOrder
      refine ⟨answered, ?_, ?_⟩
      · change _ = answered ++ (Server.route _ _).1.waiting lane
        rw [waiting_route, ← List.append_assoc, List.filterMap_append, handled]
        congr 1
        by_cases takes : lane.Takes (Server.addressed text (state.sr.connections cn))
        · simp [ExchangeOutput.handledFor, takes]
        · simp [ExchangeOutput.handledFor, takes]
      · rw [List.filterMap_append, List.filterMap_cons_none rfl, List.filterMap_nil,
          List.append_nil]
        exact answers
  | trades event threads observations isTrading traded =>
      have silent : (observations.map ExchangeOutput.shown).filterMap
          (ExchangeOutput.handledFor lane) = [] := filterMap_map_eq_nil (fun _ => rfl) observations
      have answersShown : (observations.map ExchangeOutput.shown).filterMap
          (ExchangeOutput.answerOf lane) =
            observations.filterMap (Observation.answerOf lane) := by
        rw [List.filterMap_map]
        rfl
      rcases answers_of_trading lane isTrading traded with
        ⟨unanswered, waiting⟩ | ⟨msg, answer, waiting, answered, answers⟩
      · exact inOrder.quiet silent (answersShown.trans unanswered) waiting
      · obtain ⟨earlier, handled, answersEarlier⟩ := inOrder
        refine ⟨earlier ++ [msg], ?_, ?_⟩
        · rw [List.filterMap_append, silent, List.append_nil, handled, List.append_assoc,
            List.singleton_append]
          exact congrArg (earlier ++ ·) waiting
        · rw [List.filterMap_append, answersShown, answered]
          exact List.rel_append answersEarlier (.cons answers .nil)

end

theorem answeredInOrder_start (server : MariaDB) (db : Database) (rc : RiskController)
    (nidSub1 : BitVec 32) (userList : Accounts) (connections : ConnRef → Connection)
    (lane : Lane) :
    AnsweredInOrder lane (.start server db rc nidSub1 userList connections) [] := by
  obtain ⟨buyside, sellside, equality⟩ := Trader.construct_eq server db rc nidSub1
    (.construct userList.balances connections)
  refine ⟨[], ?_, .nil⟩
  rw [Exchange.sr, Exchange.start, Threads.start, equality]
  cases lane <;> rfl

theorem answeredInOrder_run {server : MariaDB} {db : Database} {rc : RiskController}
    {nidSub1 : BitVec 32} {userList : Accounts} {connections : ConnRef → Connection}
    {events : List ExchangeEvent} {last : Exchange} {outputs : List ExchangeOutput}
    (finished : (exchange server).run (.start server db rc nidSub1 userList connections) events =
      some (last, outputs)) (lane : Lane) : AnsweredInOrder lane last outputs := by
  apply (exchange server).invariant_of_run (AnsweredInOrder lane) _
    (answeredInOrder_start server db rc nidSub1 userList connections lane) finished
  intro state seen event next shown inOrder stepped
  exact answeredInOrder_step inOrder stepped

/-- In every run, whatever the receiving threads and the other threads do: the answers
of a lane are those to the messages that were handed to `msgHandler` for it, one for
one and in their order, and the messages without an answer are those still waiting. -/
theorem answers_in_order (server : MariaDB) (db : Database) (rc : RiskController)
    (nidSub1 : BitVec 32) (userList : Accounts) (connections : ConnRef → Connection)
    (events : List ExchangeEvent) (last : Exchange) (outputs : List ExchangeOutput)
    (finished : (exchange server).run (.start server db rc nidSub1 userList connections) events =
      some (last, outputs)) (lane : Lane) :
    ∃ answered, outputs.filterMap (ExchangeOutput.handledFor lane) =
        answered ++ last.sr.waiting lane ∧
      List.Forall₂ (fun msg => lane.Answers msg) answered
        (outputs.filterMap (ExchangeOutput.answerOf lane)) :=
  answeredInOrder_run finished lane

theorem answers_in_order_twoClientsRun :
    ∃ last outputs, (exchange .literal).run .initial twoClientsRun = some (last, outputs) ∧
      (outputs.filterMap (ExchangeOutput.answerOf .getOrder)).length = 2 ∧
      AnsweredInOrder .getOrder last outputs := by
  obtain ⟨last, outputs, finished, evaluated⟩ :=
    Machine.exists_run_of_any (exchange .literal) .initial twoClientsRun
      (fun _ outputs =>
        decide ((outputs.filterMap (ExchangeOutput.answerOf .getOrder)).length = 2))
      (by decide +kernel)
  exact ⟨last, outputs, finished, of_decide_eq_true evaluated,
    answers_in_order _ _ _ _ _ _ _ _ _ finished .getOrder⟩

end InertiaTrader
