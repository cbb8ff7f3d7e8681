import InertiaTrader.Deployment.Basic

/-!
# What is sent and what arrives

On a connection of the market maker the exchange receives the frames in the order in which
they were sent, and those that it has not received are on their way.
-/

namespace InertiaTrader

open Foundation

namespace Deployment

/-- What the market maker sends on this connection in a step. -/
def sentOn (cn : ConnRef) (state : Deployment) : DeploymentEvent → List Text
  | .exchange _ => []
  | .client event other =>
      if other = cn then ((state.client.step event).map Prod.snd).getD [] else []

def chunksOn (cn : ConnRef) (past : List DeploymentEvent) : List Text :=
  (past.filterMap DeploymentEvent.ofExchange).filterMap (ExchangeEvent.chunkOn cn)

structure Transfers (sent : ConnRef → List Text) (past : List DeploymentEvent)
    (state : Deployment) : Prop where
  unopened : ∀ cn, ¬ state.isOpened cn → sent cn = [] ∧ state.toExchange cn = []
  opened : ∀ cn, state.isOpened cn → sent cn = chunksOn cn past ++ state.toExchange cn
  areFrames : ∀ cn, ∀ frame ∈ sent cn, frame ∈ ClientProcess.frames

section

variable {server : MariaDB} {sent : ConnRef → List Text} {past : List DeploymentEvent}
    {state next : Deployment} {outputs : List ExchangeOutput} {cn : ConnRef}

theorem isOpened_of_current (current : state.current = some cn) : state.isOpened cn :=
  List.mem_of_head? current

theorem tail_update_subset (toExchange : ConnRef → List Text) (other cn : ConnRef) :
    Function.update toExchange other (toExchange other).tail cn ⊆ toExchange cn := by
  by_cases here : cn = other
  · rw [here, Function.update_self]
    exact List.tail_subset _
  · rw [Function.update_of_ne here]
    exact List.Subset.refl _

theorem framesAfter_subset (toExchange : ConnRef → List Text) (event : ExchangeEvent)
    (cn : ConnRef) : framesAfter toExchange event cn ⊆ toExchange cn := by
  unfold framesAfter
  split
  next other recvStr draws added =>
    exact tail_update_subset toExchange other cn
  next other recvStr draws letIn => exact tail_update_subset toExchange other cn
  next => exact List.Subset.refl _

theorem framesAfter_eq {event : ExchangeEvent} (takes : state.takesFrame event = true)
    (isOpened : state.isOpened cn) :
    state.toExchange cn =
      [event].filterMap (ExchangeEvent.chunkOn cn) ++ framesAfter state.toExchange event cn := by
  have takesFirst (other : ConnRef) (recvStr : Text)
      (takes : (!state.isOpened other || (state.toExchange other).head? == some recvStr) = true)
      (chunk : event.chunkOn cn = if other = cn then some recvStr else none) :
      state.toExchange cn = [event].filterMap (ExchangeEvent.chunkOn cn) ++
        Function.update state.toExchange other (state.toExchange other).tail cn := by
    by_cases here : other = cn
    · subst here
      simp only [isOpened, decide_true, Bool.not_true, Bool.false_or, beq_iff_eq] at takes
      obtain ⟨rest, frames⟩ := List.head?_eq_some_iff.mp takes
      simp [chunk, frames]
    · simp [chunk, here, Function.update_of_ne (Ne.symm here)]
  cases event with
  | recvfrom other recvStr draws added =>
      cases recvStr with
      | none => rfl
      | some recvStr => exact takesFirst other recvStr takes rfl
  | strayLogin other recvStr draws letIn => exact takesFirst other recvStr takes rfl
  | acceptConn | msgHandler | priceAsking | sendFails | heartbeat | trading => rfl

theorem ofExchange_client (past : List DeploymentEvent) (event : ClientEvent) (cn : ConnRef) :
    (past ++ [DeploymentEvent.client event cn]).filterMap DeploymentEvent.ofExchange =
      past.filterMap DeploymentEvent.ofExchange := by
  rw [List.filterMap_append, List.filterMap_cons_none rfl, List.filterMap_nil, List.append_nil]

theorem chunksOn_exchange (cn : ConnRef) (past : List DeploymentEvent) (event : ExchangeEvent) :
    chunksOn cn (past ++ [.exchange event]) =
      chunksOn cn past ++ [event].filterMap (ExchangeEvent.chunkOn cn) := by
  rw [chunksOn, List.filterMap_append, List.filterMap_append]
  rfl

theorem chunksOn_client (cn other : ConnRef) (past : List DeploymentEvent)
    (event : ClientEvent) : chunksOn cn (past ++ [.client event other]) = chunksOn cn past := by
  rw [chunksOn, ofExchange_client]
  rfl

theorem transfers_exchange {event : ExchangeEvent} (transfers : state.Transfers sent past)
    (stepped : state.step server (.exchange event) = some (next, outputs)) :
    next.Transfers (fun cn => sent cn ++ state.sentOn cn (.exchange event))
      (past ++ [.exchange event]) := by
  obtain ⟨takes, exchange, -, rfl⟩ := exchange_step stepped
  have nothing (cn : ConnRef) : sent cn ++ state.sentOn cn (.exchange event) = sent cn :=
    List.append_nil _
  simp only [nothing]
  refine ⟨?_, ?_, transfers.areFrames⟩
  · intro cn notOpened
    obtain ⟨notSent, noFrame⟩ := transfers.unopened cn notOpened
    have subset := framesAfter_subset state.toExchange event cn
    rw [noFrame] at subset
    exact ⟨notSent, List.subset_nil.mp subset⟩
  · intro cn isOpened
    rw [transfers.opened cn isOpened, framesAfter_eq takes isOpened, chunksOn_exchange,
      List.append_assoc]

theorem transfers_client {event : ClientEvent} {other : ConnRef}
    (transfers : state.Transfers sent past) (calls : event.callsAllowConn = false)
    (stepped : state.step server (.client event other) = some (next, outputs)) :
    next.Transfers (fun cn => sent cn ++ state.sentOn cn (.client event other))
      (past ++ [.client event other]) := by
  obtain ⟨onConnection, -, client, texts, moved, rfl⟩ := client_step stepped
  have current := isOpened_of_current (current_of_onConnection calls onConnection)
  simp only [calls, Bool.false_eq_true, false_and, if_false, sentOn, moved, Option.map_some,
    Option.getD_some]
  constructor
  · intro cn notOpened
    have different : other ≠ cn := by
      rintro rfl
      exact notOpened current
    obtain ⟨notSent, noFrame⟩ := transfers.unopened cn notOpened
    dsimp only
    rw [if_neg different, Function.update_of_ne (Ne.symm different), List.append_nil]
    exact ⟨notSent, noFrame⟩
  · intro cn isOpened
    have before := transfers.opened cn isOpened
    dsimp only
    rw [chunksOn_client]
    by_cases here : other = cn
    · subst here
      rw [if_pos rfl, Function.update_self, before, List.append_assoc]
    · rw [if_neg here, Function.update_of_ne (Ne.symm here), before, List.append_nil]
  · intro cn frame isSent
    rcases List.mem_append.mp isSent with earlier | now
    · exact transfers.areFrames cn frame earlier
    · split at now
      next => exact ClientProcess.frames_of_step moved frame now
      next => cases now

theorem transfers_opens {event : ClientEvent} {other : ConnRef}
    (transfers : state.Transfers sent past) (calls : event.callsAllowConn = true)
    (fresh : other ∉ state.exchange.accepted → chunksOn other past = [])
    (stepped : state.step server (.client event other) = some (next, outputs)) :
    next.Transfers (fun cn => sent cn ++ state.sentOn cn (.client event other))
      (past ++ [.client event other]) := by
  obtain ⟨onConnection, -, client, texts, moved, rfl⟩ := client_step stepped
  obtain ⟨market, rfl⟩ := ClientProcess.step_allowConn calls moved
  have new := fresh_of_onConnection calls onConnection
  have nothing (cn : ConnRef) : sent cn ++ state.sentOn cn (.client event other) = sent cn := by
    simp [sentOn, moved]
  have unsent : Function.update state.toExchange other (state.toExchange other ++ []) =
      state.toExchange := by rw [List.append_nil, Function.update_eq_self]
  simp only [nothing, unsent]
  refine ⟨?_, ?_, transfers.areFrames⟩
  · intro cn notOpened
    apply transfers.unopened cn
    intro earlier
    apply notOpened
    unfold isOpened
    split
    · exact List.mem_cons_of_mem _ earlier
    · exact earlier
  · intro cn isOpened
    rw [chunksOn_client]
    by_cases earlier : state.isOpened cn
    · exact transfers.opened cn earlier
    · have here : cn = other := by
        unfold Deployment.isOpened at isOpened earlier
        split at isOpened
        · exact (List.mem_cons.mp isOpened).resolve_right earlier
        · exact absurd isOpened earlier
      subst here
      obtain ⟨notSent, noFrame⟩ := transfers.unopened cn earlier
      rw [notSent, noFrame, fresh new.1]
      rfl

end

end Deployment

section

variable {server : MariaDB} {db : Database} {rc : RiskController} {nidSub1 : BitVec 32}
    {userList : Accounts} {connections : ConnRef → Connection}
    {events : List DeploymentEvent} {last : Deployment} {outputs : List ExchangeOutput}

theorem inSessions_of_deployment
    (finished : (deployment server).run (.start server db rc nidSub1 userList connections)
      events = some (last, outputs)) :
    InSessions (events.filterMap DeploymentEvent.ofExchange) last.exchange outputs :=
  inSessions_run (exchange_run_of_deployment finished)

theorem transfers_run
    (finished : (deployment server).run (.start server db rc nidSub1 userList connections)
      events = some (last, outputs)) :
    last.Transfers (fun cn => (deployment server).trace (Deployment.sentOn cn)
      (.start server db rc nidSub1 userList connections) events) events := by
  apply (deployment server).invariant_of_reached (fun past state _ =>
    state.Transfers (fun cn => (deployment server).trace (Deployment.sentOn cn)
      (.start server db rc nidSub1 userList connections) past) past) _ _ finished
  · intro past state seen event next shown reached transfers stepped
    have traced (cn : ConnRef) :=
      (deployment server).trace_concat (Deployment.sentOn cn) reached stepped
    simp only [traced]
    change state.step server event = _ at stepped
    cases event with
    | exchange event => exact Deployment.transfers_exchange transfers stepped
    | client event cn =>
        cases calls : event.callsAllowConn with
        | true =>
            apply Deployment.transfers_opens transfers calls _ stepped
            intro fresh
            exact ((inSessions_of_deployment reached).untouched cn fresh).chunks
        | false => exact Deployment.transfers_client transfers calls stepped
  · exact ⟨fun _ _ => ⟨rfl, rfl⟩, fun _ opened => (nomatch opened), fun _ => nofun⟩

end

end InertiaTrader
