import InertiaTrader.Matching.Conservation
import InertiaTrader.Threads

/-!
# The books inside the trading process

What all threads together do to the books is a run of the books alone, with the
same insertions and executions.
-/

namespace InertiaTrader

open Foundation

def Observation.ofBooks : Observation → Option BookOutput
  | .inserted order => some (.inserted order)
  | .executed odb ods => some (.executed odb ods)
  | _ => none

structure Accompanies (threads : Threads) (shadow : Matching) : Prop where
  books : shadow.toBooks = threads.trader.toBooks
  allocated : ∀ order ∈ shadow.inserted, order.address ∈ threads.allocated

theorem matching_accept {shadow : Matching} (order : OrderPtr)
    (new : order.address ∉ shadow.inserted.map OrderPtr.address) :
    matching.run shadow [.received order.order, .orderDataInsert order] =
      some ({ shadow with
        toBooks := { shadow.toBooks with od := some order.order }.orderDataInsert order
        inserted := shadow.inserted ++ [order] }, [.inserted order]) := by
  simp only [Machine.run, matching, Matching.step]
  rw [if_neg new]
  rfl

theorem step_accompanied {server : MariaDB} {state next : Threads} {shadow : Matching}
    {event : Event} {observations : List Observation}
    (accompanies : Accompanies state shadow)
    (stepped : (threads server).step state event = some (next, observations)) :
    ∃ bookEvents shadow', Accompanies next shadow' ∧
      matching.run shadow bookEvents =
        some (shadow', observations.filterMap Observation.ofBooks) := by
  obtain ⟨books, allocated⟩ := accompanies
  cases Threads.step_cases stepped with
  | communicates _ sr asking _ sends =>
      have nothing : observations.filterMap Observation.ofBooks = [] :=
        Threads.filterMap_sends (fun _ _ => rfl) sends
      exact ⟨[], shadow, ⟨books, allocated⟩, by rw [nothing]; rfl⟩
  | rests => exact ⟨[], shadow, ⟨books, allocated⟩, rfl⟩
  | handlesOrder address connected rest connId od cn trader _ fresh handling =>
      have stillAllocated : ∀ order ∈ shadow.inserted, order.address ∈ address :: state.allocated :=
        fun order membership => List.mem_cons_of_mem address (allocated order membership)
      cases handling with
      | failed | insufficient =>
          exact ⟨[.received (state.trader.rc.verify od)],
            { shadow with od := some (state.trader.rc.verify od) },
            ⟨congrArg (fun toBooks : Books =>
              { toBooks with od := some (state.trader.rc.verify od) }) books, stillAllocated⟩, rfl⟩
      | accepted =>
          have new : address ∉ shadow.inserted.map OrderPtr.address := by
            intro membership
            obtain ⟨order, inserted, rfl⟩ := List.mem_map.mp membership
            exact fresh (allocated order inserted)
          refine ⟨_, _, ⟨?_, ?_⟩, matching_accept
            ⟨address, state.trader.acceptedOrder od⟩ new⟩
          · rw [books]
            rfl
          · simp only [List.mem_append, List.mem_singleton]
            rintro order (earlier | rfl)
            · exact stillAllocated order earlier
            · exact List.mem_cons_self
  | amends connected val rest trader _ popped amendment =>
      cases amendment with
      | cancelled chosen =>
          exact ⟨[], shadow, ⟨by rw [books]; cases chosen <;> rfl, allocated⟩, rfl⟩
      | modified => exact ⟨[], shadow, ⟨books, allocated⟩, rfl⟩
      | refused => exact ⟨[], shadow, ⟨books, allocated⟩, rfl⟩
  | executes toBooks odb ods sr _ pass =>
      have matched := Books.matchup_of_pass pass
      refine ⟨[.matchup], { shadow with toBooks, pushed := shadow.pushed ++ [odb, ods] },
        ⟨rfl, allocated⟩, ?_⟩
      simp [Machine.run, matching, Matching.step, books, matched, Observation.ofBooks]
  | pushes | reads | sends | pops => exact ⟨[], shadow, ⟨books, allocated⟩, rfl⟩

/-- What a run of the process shows of the books is a run of the books alone,
from empty books. -/
theorem run_accompanied {server : MariaDB} {db : Database} {rc : RiskController}
    {nidSub1 : BitVec 32} {sr : Server} {events : List Event} {last : Threads}
    {observations : List Observation}
    (finished : (threads server).run (.start (.construct server db rc nidSub1 sr)) events =
      some (last, observations)) :
    ∃ bookEvents shadow, Accompanies last shadow ∧
      matching.run .empty bookEvents =
        some (shadow, observations.filterMap Observation.ofBooks) := by
  have initially : Accompanies (.start (.construct server db rc nidSub1 sr)) .empty :=
    ⟨(Trader.construct_toBooks server db rc nidSub1 sr).symm, by simp [Matching.empty]⟩
  exact (threads server).run_simulated matching Observation.ofBooks
    (fun _ _ _ _ _ => step_accompanied) initially finished

/-- The orders that a run has put into a book. -/
def insertedIn (observations : List Observation) : List OrderPtr :=
  insertedOrders (observations.filterMap Observation.ofBooks)

/-- The orders that a run has executed. -/
def executedIn (observations : List Observation) : List OrderPtr :=
  executedOrders (observations.filterMap Observation.ofBooks)

theorem mem_insertedIn {observations : List Observation} {order : OrderPtr} :
    order ∈ insertedIn observations ↔ .inserted order ∈ observations := by
  simp only [insertedIn, insertedOrders, List.mem_filterMap]
  constructor
  · rintro ⟨output, ⟨observation, membership, shown⟩, isInserted⟩
    cases observation <;> simp_all [Observation.ofBooks]
    all_goals subst shown; simp_all
  · exact fun membership => ⟨.inserted order, ⟨_, membership, rfl⟩, rfl⟩

theorem mem_executedIn {observations : List Observation} {order : OrderPtr} :
    order ∈ executedIn observations ↔
      ∃ odb ods, .executed odb ods ∈ observations ∧ (order = odb ∨ order = ods) := by
  simp only [executedIn, executedOrders, List.mem_flatMap, List.mem_filterMap]
  constructor
  · rintro ⟨output, ⟨observation, membership, shown⟩, isExecuted⟩
    cases observation with
    | executed odb ods =>
        cases shown
        exact ⟨odb, ods, membership, by simpa using isExecuted⟩
    | inserted =>
        cases shown
        cases isExecuted
    | _ => cases shown
  · rintro ⟨odb, ods, membership, isExecuted⟩
    exact ⟨.executed odb ods, ⟨_, membership, rfl⟩, by simpa using isExecuted⟩

theorem insertedIn_append (first second : List Observation) :
    insertedIn (first ++ second) = insertedIn first ++ insertedIn second := by
  simp [insertedIn, insertedOrders]

theorem executedIn_append (first second : List Observation) :
    executedIn (first ++ second) = executedIn first ++ executedIn second := by
  simp [executedIn, executedOrders]

section

variable {server : MariaDB} {db : Database} {rc : RiskController} {nidSub1 : BitVec 32}
    {sr : Server} {events : List Event} {last : Threads} {observations : List Observation}

theorem resting_inserted
    (finished : (threads server).run (.start (.construct server db rc nidSub1 sr)) events =
      some (last, observations))
    {order : OrderPtr}
    (resting : order ∈ last.trader.rawBuyside.items ++ last.trader.rawSellside.items) :
    (∃ original ∈ insertedIn observations, order.unexecuted = original.unexecuted) ∧
      order.address ∉ (executedIn observations).map OrderPtr.address := by
  obtain ⟨bookEvents, shadow, ⟨books, -⟩, ran⟩ := run_accompanied finished
  have conserved := Matching.conserved_run Matching.conserved_empty ran
  obtain ⟨inserted, pushed⟩ := Matching.histories_run ran
  simp only [Matching.empty, List.nil_append] at inserted pushed
  rw [← books] at resting
  rw [insertedIn, executedIn, ← inserted, ← pushed]
  exact ⟨conserved.original (List.mem_append_left _ resting), conserved.not_pushed resting⟩

theorem executed_iff_not_resting
    (finished : (threads server).run (.start (.construct server db rc nidSub1 sr)) events =
      some (last, observations))
    {order : OrderPtr} (inserted : order ∈ insertedIn observations) :
    order.address ∈ (executedIn observations).map OrderPtr.address ↔
      ∀ other ∈ last.trader.rawBuyside.items ++ last.trader.rawSellside.items,
        other.address ≠ order.address := by
  constructor
  · intro executed other resting sameAddress
    exact (resting_inserted finished resting).2 (sameAddress ▸ executed)
  · intro notResting
    obtain ⟨bookEvents, shadow, ⟨books, -⟩, ran⟩ := run_accompanied finished
    have conserved := Matching.conserved_run Matching.conserved_empty ran
    obtain ⟨insertedHistory, pushedHistory⟩ := Matching.histories_run ran
    simp only [Matching.empty, List.nil_append] at insertedHistory pushedHistory
    rw [insertedIn, ← insertedHistory] at inserted
    have known : order.address ∈ shadow.inserted.map OrderPtr.address :=
      List.mem_map_of_mem inserted
    have listed := conserved.addresses_perm.mem_iff.mpr known
    rw [Matching.listed, List.map_append, List.mem_append, books] at listed
    rcases listed with resting | pushed
    · obtain ⟨other, resting, sameAddress⟩ := List.mem_map.mp resting
      exact absurd sameAddress (notResting other resting)
    · rwa [executedIn, ← pushedHistory]

end

end InertiaTrader
