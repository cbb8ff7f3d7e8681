import InertiaTrader.Funclib.DataQueue
import InertiaTrader.Trader.GetCancelOrder
import InertiaTrader.Trader.GetOrder

/-!
# Order intake

The receiving threads call `msgHandler`, whose `pushDTA` is one critical section.
The thread of `getOrder` is the only one that takes texts out of `dq`, that of
`getCancelOrder` the only one that takes texts out of `dq_orderhandle`.
-/

namespace InertiaTrader

open Foundation

/-- The two queues of the server, each with the thread that empties it. -/
inductive Lane where
  /-- `dq` and `getOrder` -/
  | getOrder
  /-- `dq_orderhandle` and `getCancelOrder` -/
  | getCancelOrder
  deriving DecidableEq

def Lane.Takes (lane : Lane) (msg : Text) : Prop :=
  match lane with
  | .getOrder => Server.codeNum msg = some 87
  | .getCancelOrder => Server.codeNum msg = some 88 ∨ Server.codeNum msg = some 89

instance (lane : Lane) (msg : Text) : Decidable (lane.Takes msg) := by
  cases lane <;> unfold Lane.Takes <;> infer_instance

structure Intake where
  sr : Server
  place : Lane → ConsumerAt := fun _ => .loop

inductive IntakeEvent where
  /-- A receiving thread hands a message to `msgHandler`. -/
  | msgHandler (receiver : ConnRef) (msg : Text)
  /-- The next step of `getOrder` or `getCancelOrder` at its queue. -/
  | consume (lane : Lane) (timedOut : Bool)

namespace Intake

def start (userList : List (Text × UserData)) (connections : ConnRef → Connection) : Intake where
  sr := .construct userList connections

def queue (state : Intake) : Lane → DataQueue
  | .getOrder => ⟨state.sr.dq, state.place .getOrder⟩
  | .getCancelOrder => ⟨state.sr.dqOrderhandle, state.place .getCancelOrder⟩

def setQueue (state : Intake) (lane : Lane) (queue : DataQueue) : Intake where
  sr := match lane with
    | .getOrder => { state.sr with dq := queue.dataQueue }
    | .getCancelOrder => { state.sr with dqOrderhandle := queue.dataQueue }
  place := Function.update state.place lane queue.consumer

def step (state : Intake) : IntakeEvent → Option (Intake × List (Lane × QueueOutput))
  | .msgHandler _ msg => some ({ state with sr := (state.sr.route msg).1 }, [])
  | .consume lane timedOut =>
      match (state.queue lane).step (.consume timedOut) with
      | none => none
      | some (queue, outputs) => some (state.setQueue lane queue, outputs.map (lane, ·))

@[simp]
theorem queue_setQueue (state : Intake) (lane : Lane) (queue : DataQueue) :
    (state.setQueue lane queue).queue lane = queue := by
  cases lane <;> simp [setQueue, Intake.queue]

theorem queue_setQueue_of_ne (state : Intake) {lane other : Lane} (different : other ≠ lane)
    (queue : DataQueue) : (state.setQueue lane queue).queue other = state.queue other := by
  cases lane <;> cases other <;>
    first
    | exact absurd rfl different
    | simp [setQueue, Intake.queue]

end Intake

def intakes : Machine Intake IntakeEvent (Lane × QueueOutput) := ⟨Intake.step⟩

def IntakeEvent.at (lane : Lane) : IntakeEvent → List QueueEvent
  | .msgHandler _ msg => if lane.Takes msg then [.pushDTA msg] else []
  | .consume other timedOut => if other = lane then [.consume timedOut] else []

/-- What can be seen at a queue. -/
def seenAt (lane : Lane) (outputs : List (Lane × QueueOutput)) : List QueueOutput :=
  outputs.filterMap fun output => if output.1 = lane then some output.2 else none

/-- The messages for a queue, in the order in which `msgHandler` pushes them. -/
def messagesFor (lane : Lane) (events : List IntakeEvent) : List Text :=
  events.filterMap fun
    | .msgHandler _ msg => if lane.Takes msg then some msg else none
    | .consume _ _ => none

/-- Whatever else `msgHandler` does, it leaves the queues as routing has left
them. -/
theorem Server.msgHandler_sr {sr next : Server} {msg : Text} {replies : List (ConnRef × Text)}
    (finished : sr.msgHandler msg = .ok (next, replies)) : next = (sr.route msg).1 := by
  unfold msgHandler at finished
  dsimp only at finished
  split at finished
  next =>
    obtain ⟨_, -, returned⟩ := bind_eq_ok_iff.mp finished
    cases returned
    rfl
  next =>
    cases finished
    rfl

theorem Server.route_queues (sr : Server) (msg : Text) :
    (sr.route msg).1.dq = (if codeNum msg = some 87 then sr.dq ++ [msg] else sr.dq) ∧
      (sr.route msg).1.dqOrderhandle =
        if codeNum msg = some 88 ∨ codeNum msg = some 89 then sr.dqOrderhandle ++ [msg]
        else sr.dqOrderhandle := by
  unfold route
  split
  next code => simp [code]
  next code => simp [code]
  next code => simp [code]
  next code => simp [code]
  next noOrder noCancel noModify _ =>
    exact ⟨(if_neg noOrder).symm, (if_neg (not_or.mpr ⟨noCancel, noModify⟩)).symm⟩

theorem pushedBy_at (lane : Lane) (events : List IntakeEvent) :
    pushedBy (events.flatMap (IntakeEvent.at lane)) = messagesFor lane events := by
  induction events with
  | nil => rfl
  | cons event events inductionHypothesis =>
      rw [List.flatMap_cons, pushedBy, List.filterMap_append, ← pushedBy, ← pushedBy,
        inductionHypothesis]
      cases event with
      | msgHandler receiver msg =>
          by_cases takes : lane.Takes msg
          · simp [IntakeEvent.at, takes, pushedBy, messagesFor]
          · simp [IntakeEvent.at, takes, pushedBy, messagesFor]
      | consume other timedOut =>
          by_cases same : other = lane
          · simp [IntakeEvent.at, same, pushedBy, messagesFor]
          · simp [IntakeEvent.at, same, pushedBy, messagesFor]

namespace Intake

theorem queue_route (state : Intake) (msg : Text) (lane : Lane) :
    { state with sr := (state.sr.route msg).1 }.queue lane =
      if lane.Takes msg then (state.queue lane).pushDTA msg else state.queue lane := by
  obtain ⟨orders, amendments⟩ := state.sr.route_queues msg
  by_cases takes : lane.Takes msg
  · rw [if_pos takes]
    cases lane with
    | getOrder => simp only [queue, orders.trans (if_pos takes), DataQueue.pushDTA]
    | getCancelOrder => simp only [queue, amendments.trans (if_pos takes), DataQueue.pushDTA]
  · rw [if_neg takes]
    cases lane with
    | getOrder => simp only [queue, orders.trans (if_neg takes)]
    | getCancelOrder => simp only [queue, amendments.trans (if_neg takes)]

theorem step_queue {state next : Intake} {event : IntakeEvent}
    {outputs : List (Lane × QueueOutput)} (stepped : state.step event = some (next, outputs))
    (lane : Lane) :
    dataQueues.run (state.queue lane) (event.at lane) =
      some (next.queue lane, seenAt lane outputs) := by
  cases event with
  | msgHandler receiver msg =>
      cases stepped
      rw [queue_route, IntakeEvent.at]
      by_cases takes : lane.Takes msg
      · rw [if_pos takes, if_pos takes, dataQueues.run_singleton]
        rfl
      · rw [if_neg takes, if_neg takes]
        rfl
  | consume other timedOut =>
      simp only [step] at stepped
      split at stepped
      next => cases stepped
      next queue shown consumed =>
        cases stepped
        rw [IntakeEvent.at, seenAt, List.filterMap_map]
        by_cases same : other = lane
        · have here : dataQueues.step (state.queue other) (.consume timedOut) =
              some (queue, shown) := consumed
          rw [if_pos same, dataQueues.run_singleton, ← same, queue_setQueue, here]
          simp
        · rw [if_neg same, queue_setQueue_of_ne state (Ne.symm same)]
          simp [same]

theorem run_queue {state last : Intake} {events : List IntakeEvent}
    {outputs : List (Lane × QueueOutput)}
    (finished : intakes.run state events = some (last, outputs)) (lane : Lane) :
    dataQueues.run (state.queue lane) (events.flatMap (IntakeEvent.at lane)) =
      some (last.queue lane, seenAt lane outputs) := by
  induction events generalizing state outputs with
  | nil =>
      cases finished
      rfl
  | cons event events inductionHypothesis =>
      obtain ⟨next, first, later, stepped, ran, rfl⟩ := (intakes.run_cons_iff ..).mp finished
      rw [List.flatMap_cons, dataQueues.run_append_iff]
      refine ⟨_, _, _, step_queue stepped lane, inductionHypothesis ran, ?_⟩
      rw [seenAt, List.filterMap_append]
      rfl

/-- Each queue is first-in first-out and loses nothing, and its `front` is never
that of an empty queue. -/
theorem lane_fifo {userList : List (Text × UserData)} {connections : ConnRef → Connection}
    {events : List IntakeEvent} {last : Intake} {outputs : List (Lane × QueueOutput)}
    (finished : intakes.run (.start userList connections) events = some (last, outputs))
    (lane : Lane) :
    poppedIn (seenAt lane outputs) ++ (last.queue lane).dataQueue = messagesFor lane events ∧
      .frontOfEmpty ∉ seenAt lane outputs := by
  have served : ((Intake.start userList connections).queue lane).Served := by
    cases lane <;> exact ⟨nofun, nofun⟩
  have empty : ((Intake.start userList connections).queue lane).dataQueue = [] := by
    cases lane <;> rfl
  obtain ⟨-, contents, neverEmpty⟩ := DataQueue.run_served served (run_queue finished lane)
  rw [empty, List.nil_append, pushedBy_at] at contents
  exact ⟨contents, neverEmpty⟩

end Intake

/-- At every moment the texts popped from `dq` are the first of the messages with
the code 87, the others being in the queue, and no `front` was that of an empty
queue. -/
theorem order_intake_fifo {userList : List (Text × UserData)}
    {connections : ConnRef → Connection} {events : List IntakeEvent} {last : Intake}
    {outputs : List (Lane × QueueOutput)}
    (finished : intakes.run (.start userList connections) events = some (last, outputs)) :
    messagesFor .getOrder events = poppedIn (seenAt .getOrder outputs) ++ last.sr.dq ∧
      .frontOfEmpty ∉ seenAt .getOrder outputs := by
  obtain ⟨contents, neverEmpty⟩ := Intake.lane_fifo finished .getOrder
  exact ⟨contents.symm, neverEmpty⟩

def intakeRun : List IntakeEvent := [
  .consume .getOrder false, .msgHandler 0 "87|1|60|1|1|1|KKC|0|".toList, .consume .getOrder false,
  .msgHandler 1 "88|1|60|1|1|1|KKC|1|".toList, .msgHandler 1 "87|2|60|2|1|1|KKC|1|".toList,
  .consume .getOrder true]

theorem order_intake_fifo_intakeRun :
    ∃ last outputs, intakes.run (.start Server.initialUsers fun _ => ⟨0, [], true⟩) intakeRun =
        some (last, outputs) ∧
      outputs = [(.getOrder, .popped "87|1|60|1|1|1|KKC|0|".toList)] ∧
      messagesFor .getOrder intakeRun = poppedIn (seenAt .getOrder outputs) ++ last.sr.dq ∧
      .frontOfEmpty ∉ seenAt .getOrder outputs := by
  obtain ⟨last, outputs, finished, evaluated⟩ :=
    Machine.exists_run_of_any intakes (.start Server.initialUsers fun _ => ⟨0, [], true⟩) intakeRun
      (fun _ outputs =>
        decide (outputs = [(.getOrder, .popped "87|1|60|1|1|1|KKC|0|".toList)]))
      (by decide +kernel)
  exact ⟨last, outputs, finished, of_decide_eq_true evaluated, order_intake_fifo finished⟩

theorem Trader.getOrder_of_consumed (server : MariaDB) (address : ℕ) (connected : Bool)
    {trader : Trader} {queue next : DataQueue} {timedOut : Bool} {msg : Text}
    (served : queue.Served) (sameQueue : trader.sr.dq = queue.dataQueue)
    (popped : queue.step (.consume timedOut) = some (next, [.popped msg])) :
    trader.getOrder server address connected = (do
      let od ← newOrder (split msg "|".toList)
      let connId ← convert (stoi (← field (split msg "|".toList) 7))
      handleOrder server address connected connId od
        { trader with sr := { trader.sr with dq := next.dataQueue } }) := by
  obtain ⟨-, contents, -⟩ := DataQueue.step_served served popped
  have front : trader.sr.dq = msg :: next.dataQueue :=
    sameQueue.trans (contents.trans (List.append_nil _)).symm
  unfold getOrder
  rw [front]

end InertiaTrader
