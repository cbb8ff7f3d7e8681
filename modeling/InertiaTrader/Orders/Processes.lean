import InertiaTrader.Orders.SerialNumbers
import InertiaTrader.Reports.ExecutionRecords

/-!
# One process after the other

A run over restarts is a run of one process after the other.  The processes share
the tables, but no order passes from the books of one into those of the next.
-/

namespace InertiaTrader

open Foundation

/-- What a process over some tables shows from its start on. -/
def IsProcess (server : MariaDB) (nidSub1 : BitVec 32) (observations : List Observation) : Prop :=
  ∃ db rc userList connections events last,
    (threads server).run
      (.start (.construct server db rc nidSub1 (.construct userList connections))) events =
        some (last, observations)

def SplitsInto (server : MariaDB) (nidSub1 : BitVec 32) (state : Lives)
    (seen : List Observation) : Prop :=
  ∃ (earlier : List (List Observation)) (current : List Observation),
    seen = earlier.flatten ++ current ∧
    (∀ process ∈ earlier, IsProcess server nidSub1 process) ∧
    ∃ db rc userList connections events,
      (threads server).run
        (.start (.construct server db rc nidSub1 (.construct userList connections))) events =
          some (state.threads, current)

section

variable {server : MariaDB} {nidSub1 : BitVec 32} {state next : Lives} {event : LifeEvent}
    {seen observations : List Observation}

theorem splitsInto_step (split : SplitsInto server nidSub1 state seen)
    (stepped : state.step server nidSub1 event = some (next, observations)) :
    SplitsInto server nidSub1 next (seen ++ observations) := by
  obtain ⟨earlier, current, rfl, processes, db, rc, userList, connections, events, ran⟩ := split
  cases event with
  | thread event =>
      obtain ⟨threads', threadStep, rfl⟩ := Lives.thread_eq_some stepped
      refine ⟨earlier, current ++ observations, (List.append_assoc ..), processes, db, rc,
        userList, connections, events ++ [event], ?_⟩
      apply (Machine.run_append_iff ..).mpr ⟨state.threads, current, observations, ran, _, rfl⟩
      rw [Machine.run_singleton]
      exact threadStep
  | restart rc' userList' connections' =>
      cases stepped
      refine ⟨earlier ++ [current], [], by simp, ?_, state.threads.trader.db, rc', userList',
        connections', [], rfl⟩
      intro process listed
      rcases List.mem_append.mp listed with before | now
      · exact processes process before
      · rw [List.mem_singleton.mp now]
        exact ⟨db, rc, userList, connections, events, _, ran⟩

theorem lives_split {db : Database} {rc : RiskController} {userList : List (Text × UserData)}
    {connections : ConnRef → Connection} {events : List LifeEvent} {last : Lives}
    (finished : (lives server nidSub1).run (.start server nidSub1 db rc userList connections)
      events = some (last, observations)) :
    ∃ processes : List (List Observation), observations = processes.flatten ∧
      ∀ process ∈ processes, IsProcess server nidSub1 process := by
  have split := (lives server nidSub1).invariant_of_run (SplitsInto server nidSub1)
    (fun _ _ _ _ _ split stepped => splitsInto_step split stepped)
    ⟨[], [], rfl, by simp, db, rc, userList, connections, [], rfl⟩ finished
  obtain ⟨earlier, current, rfl, processes, db', rc', userList', connections', events', ran⟩ :=
    split
  refine ⟨earlier ++ [current], by simp, ?_⟩
  intro process listed
  rcases List.mem_append.mp listed with before | now
  · exact processes process before
  · rw [List.mem_singleton.mp now]
    exact ⟨db', rc', userList', connections', events', _, ran⟩

end

/-- Every order is executed after the same process has put it into a book, and reported
only after that process has executed it. -/
structure KeepsToItself (process : List Observation) : Prop where
  inserted : ∀ order ∈ executedIn process,
    ∃ original ∈ insertedIn process, order.unexecuted = original.unexecuted
  reported : reportedIn process ⊆ executedIn process

theorem IsProcess.keepsToItself {server : MariaDB} {nidSub1 : BitVec 32}
    {process : List Observation} (isProcess : IsProcess server nidSub1 process) :
    KeepsToItself process := by
  obtain ⟨db, rc, userList, connections, events, last, finished⟩ := isProcess
  obtain ⟨bookEvents, shadow, -, ran⟩ := run_accompanied finished
  have conserved := Matching.conserved_run Matching.conserved_empty ran
  obtain ⟨insertedHistory, pushedHistory⟩ := Matching.histories_run ran
  simp only [Matching.empty, List.nil_append] at insertedHistory pushedHistory
  have pushed : shadow.pushed = executedIn process := pushedHistory
  have inserted : shadow.inserted = insertedIn process := insertedHistory
  constructor
  · intro order executed
    rw [← pushed] at executed
    rw [← inserted]
    exact conserved.original (List.mem_append_right _ executed)
  · have tracked := tracked_run (tracked_start server db rc nidSub1 _) finished
    have pushes := pushing_run (pushing_start server db rc nidSub1 _) finished
    rw [List.nil_append] at tracked pushes
    rw [pushes]
    exact List.subset_append_of_subset_left _ tracked.reported

/-- However often the process is started again: its runs split into those of the
single processes, and each of these keeps to itself. -/
theorem processes_keep_to_themselves (server : MariaDB) (nidSub1 : BitVec 32) (db : Database)
    (rc : RiskController) (userList : List (Text × UserData))
    (connections : ConnRef → Connection) (events : List LifeEvent) (last : Lives)
    (observations : List Observation)
    (finished : (lives server nidSub1).run (.start server nidSub1 db rc userList connections)
      events = some (last, observations)) :
    ∃ processes : List (List Observation), observations = processes.flatten ∧
      ∀ process ∈ processes, IsProcess server nidSub1 process ∧ KeepsToItself process := by
  obtain ⟨processes, split, areProcesses⟩ := lives_split finished
  exact ⟨processes, split, fun process listed =>
    ⟨areProcesses process listed, (areProcesses process listed).keepsToItself⟩⟩

/-- The first process executes a pair and leaves an order to buy behind; the second
one finds a sell order alone in its books. -/
def leftBehindRun : List LifeEvent := [
  .thread .firstLogin,
  .thread (.receive 0 "87|1|60|1|1|1|KKC|".toList), .thread (.getOrder 10 true),
  .thread (.receive 0 "87|2|60|2|1|1|KKC|".toList), .thread (.getOrder 20 true),
  .thread .matchup, .thread .pushReport, .thread .pushReport,
  .thread (.receive 0 "87|3|60|1|1|1|KKC|".toList), .thread (.getOrder 30 true),
  .restart .initial Server.initialUsers fun _ => ⟨0, [], false⟩,
  .thread .firstLogin,
  .thread (.receive 0 "87|4|60|2|1|1|KKC|".toList), .thread (.getOrder 20 true),
  .thread .matchup]

theorem processes_keep_to_themselves_leftBehindRun :
    ∃ last observations, (lives .literal 1804289383).run
        (.start .literal 1804289383 .initial .initial Server.initialUsers fun _ => ⟨0, [], false⟩)
        leftBehindRun = some (last, observations) ∧
      (executedIn observations).length = 2 ∧
      ∃ processes : List (List Observation), observations = processes.flatten ∧
        ∀ process ∈ processes, IsProcess .literal 1804289383 process ∧ KeepsToItself process := by
  obtain ⟨last, observations, finished, evaluated⟩ :=
    Machine.exists_run_of_any (lives .literal 1804289383)
      (.start .literal 1804289383 .initial .initial Server.initialUsers fun _ => ⟨0, [], false⟩)
      leftBehindRun (fun _ observations => decide ((executedIn observations).length = 2))
      (by decide +kernel)
  exact ⟨last, observations, finished, of_decide_eq_true evaluated,
    processes_keep_to_themselves _ _ _ _ _ _ _ _ _ finished⟩

end InertiaTrader
