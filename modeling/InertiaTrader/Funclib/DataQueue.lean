import InertiaTrader.Foundation.Machine
import InertiaTrader.Funclib.Standard

/-!
# `DataQueue`

A queue of texts that any number of threads push to and one thread takes texts
from.  That thread calls `checkSpace` and then `popDTA`, which are two critical
sections, and `popDTA` goes on when its wait has timed out.
-/

namespace InertiaTrader

open Foundation

inductive ConsumerAt where
  /-- Before `checkSpace`. -/
  | loop
  /-- `checkSpace` was positive. -/
  | checked
  /-- In the `wait_for` of `popDTA`, without the mutex. -/
  | waiting
  deriving DecidableEq

structure DataQueue where
  dataQueue : List Text := []
  consumer : ConsumerAt := .loop

inductive QueueEvent where
  | pushDTA (val : Text)
  /-- The next step of the consumer; a wait may time out. -/
  | consume (timedOut : Bool)

inductive QueueOutput where
  | popped (val : Text)
  /-- `front` of an empty queue, which is undefined. -/
  | frontOfEmpty
  deriving DecidableEq

namespace DataQueue

/-- `DataQueue::checkSpace` -/
def checkSpace (queue : DataQueue) : ℕ := queue.dataQueue.length

/-- `DataQueue::pushDTA` -/
def pushDTA (val : Text) (queue : DataQueue) : DataQueue :=
  { queue with dataQueue := queue.dataQueue ++ [val] }

/-- The end of `DataQueue::popDTA`: `front` and `pop`. -/
def takeFront (queue : DataQueue) : DataQueue × List QueueOutput :=
  match queue.dataQueue with
  | [] => (queue, [.frontOfEmpty])
  | val :: rest => ({ dataQueue := rest, consumer := .loop }, [.popped val])

def step (queue : DataQueue) : QueueEvent → Option (DataQueue × List QueueOutput)
  | .pushDTA val => some (queue.pushDTA val, [])
  | .consume timedOut =>
      match queue.consumer with
      | .loop =>
          some (if 0 < queue.checkSpace then { queue with consumer := .checked } else queue, [])
      | .checked =>
          if queue.dataQueue = [] then some ({ queue with consumer := .waiting }, [])
          else some queue.takeFront
      | .waiting =>
          if queue.dataQueue = [] ∧ timedOut = false then some (queue, [])
          else some queue.takeFront

end DataQueue

def dataQueues : Machine DataQueue QueueEvent QueueOutput := ⟨DataQueue.step⟩

/-- The texts that were popped, in order. -/
def poppedIn (outputs : List QueueOutput) : List Text :=
  outputs.filterMap fun
    | .popped val => some val
    | .frontOfEmpty => none

def pushedBy (events : List QueueEvent) : List Text :=
  events.filterMap fun
    | .pushDTA val => some val
    | .consume _ => none

namespace DataQueue

/-- Nobody else pops, so what `checkSpace` has seen is still there. -/
structure Served (queue : DataQueue) : Prop where
  nonempty : queue.consumer = .checked → queue.dataQueue ≠ []
  noWait : queue.consumer ≠ .waiting

theorem step_served {queue next : DataQueue} {event : QueueEvent} {outputs : List QueueOutput}
    (served : queue.Served) (stepped : queue.step event = some (next, outputs)) :
    next.Served ∧ poppedIn outputs ++ next.dataQueue = queue.dataQueue ++ pushedBy [event] ∧
      .frontOfEmpty ∉ outputs := by
  cases event with
  | pushDTA val =>
      cases stepped
      refine ⟨⟨fun _ => ?_, served.noWait⟩, rfl, List.not_mem_nil⟩
      simp [pushDTA]
  | consume timedOut =>
      have pushes : queue.dataQueue ++ pushedBy [.consume timedOut] = queue.dataQueue :=
        List.append_nil _
      rw [pushes]
      simp only [step] at stepped
      split at stepped
      next looping =>
        cases stepped
        by_cases space : 0 < queue.checkSpace
        · rw [if_pos space]
          refine ⟨⟨fun _ => ?_, nofun⟩, rfl, List.not_mem_nil⟩
          exact List.length_pos_iff.mp space
        · rw [if_neg space]
          exact ⟨served, rfl, List.not_mem_nil⟩
      next checked =>
        rw [if_neg (served.nonempty checked), takeFront] at stepped
        split at stepped
        next empty => exact absurd empty (served.nonempty checked)
        next val rest front =>
          cases stepped
          exact ⟨⟨nofun, nofun⟩, front.symm, by simp⟩
      next waiting => exact absurd waiting served.noWait

theorem run_served {queue last : DataQueue} {events : List QueueEvent}
    {outputs : List QueueOutput} (served : queue.Served)
    (finished : dataQueues.run queue events = some (last, outputs)) :
    last.Served ∧ poppedIn outputs ++ last.dataQueue = queue.dataQueue ++ pushedBy events ∧
      .frontOfEmpty ∉ outputs := by
  induction events generalizing queue outputs with
  | nil =>
      cases finished
      exact ⟨served, (List.append_nil _).symm, List.not_mem_nil⟩
  | cons event events inductionHypothesis =>
      obtain ⟨next, first, later, stepped, ran, rfl⟩ := (dataQueues.run_cons_iff ..).mp finished
      obtain ⟨servedNext, contents, neverEmpty⟩ := step_served served stepped
      obtain ⟨servedLast, laterContents, laterNeverEmpty⟩ := inductionHypothesis servedNext ran
      refine ⟨servedLast, ?_, ?_⟩
      · have pops : poppedIn (first ++ later) = poppedIn first ++ poppedIn later :=
          List.filterMap_append
        have pushes : pushedBy (event :: events) = pushedBy [event] ++ pushedBy events :=
          List.filterMap_append (l := [event])
        rw [pops, List.append_assoc, laterContents, ← List.append_assoc, contents, pushes,
          List.append_assoc]
      · rw [List.mem_append, not_or]
        exact ⟨neverEmpty, laterNeverEmpty⟩

end DataQueue

end InertiaTrader
