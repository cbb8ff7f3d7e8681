import InertiaTrader.Server.Accept
import InertiaTrader.Threads

/-!
# Connection ids

`rand() % 99` is not checked against the ids in use, and `insert` keeps the
entry that is there.  A connection whose id was taken can be reached by nobody.
-/

namespace InertiaTrader

open Foundation

/-- Ids are unique among the live connections, and what is sent to one of them
arrives there. -/
structure Sockets.Resolves (state : Sockets) : Prop where
  distinct : ∀ first second, state.Live first → state.Live second →
    (state.sr.connections first).connectionID = (state.sr.connections second).connectionID →
    first = second
  resolved : ∀ cn, state.Live cn →
    state.sr.getConnObject (state.sr.connections cn).connectionID = some cn

/-- `acceptConn` draws an id under which nothing is stored. -/
def DrawsFreeId (state : Sockets) : SocketEvent → Prop
  | .acceptConn _ draw _ => connectionSpace draw ∉ state.sr.connStorage.map Prod.fst
  | _ => True

namespace Sockets

structure Consistent (state : Sockets) : Prop where
  keys : (state.sr.connStorage.map Prod.fst).Nodup
  known : ∀ entry ∈ state.sr.connStorage, entry.2 ∈ state.accepted
  stored : ∀ cn, state.Live cn →
    ((state.sr.connections cn).connectionID, cn) ∈ state.sr.connStorage

theorem Consistent.resolves {state : Sockets} (consistent : Consistent state) :
    state.Resolves := by
  have resolved : ∀ cn, state.Live cn →
      state.sr.getConnObject (state.sr.connections cn).connectionID = some cn := by
    intro cn live
    exact (lookup_eq_some_iff_mem consistent.keys).mpr (consistent.stored cn live)
  refine ⟨?_, resolved⟩
  intro first second firstLive secondLive sameId
  have found := resolved first firstLive
  rw [sameId, resolved second secondLive] at found
  exact (Option.some.inj found).symm

theorem consistent_start (userList : List (Text × UserData))
    (connections : ConnRef → Connection) : (start userList connections).Consistent where
  keys := .nil
  known _ listed := nomatch listed
  stored _ live := nomatch live.1

section

variable {state next : Sockets} {event : SocketEvent} {outputs : List Empty}

theorem live_accept {cn other : ConnRef} {draw : ℕ} {memory : Bool}
    (live : Live {
      sr := state.sr.acceptConn cn draw memory
      accepted := cn :: state.accepted
      recvStatus := Function.update state.recvStatus cn true } other) (old : other ≠ cn) :
    state.Live other := by
  obtain ⟨listed, alive⟩ := live
  refine ⟨(List.mem_cons.mp listed).resolve_left old, ?_⟩
  simpa [Function.update_of_ne old] using alive

theorem consistent_accept (consistent : state.Consistent) (cn : ConnRef) {draw : ℕ}
    (memory : Bool) (free : connectionSpace draw ∉ state.sr.connStorage.map Prod.fst) :
    Consistent {
      sr := state.sr.acceptConn cn draw memory
      accepted := cn :: state.accepted
      recvStatus := Function.update state.recvStatus cn true } := by
  have inserted := insertNew_perm cn free
  refine ⟨insertNew_nodup cn consistent.keys, ?_, ?_⟩
  · intro entry listed
    rcases List.mem_cons.mp (inserted.mem_iff.mp listed) with rfl | earlier
    · exact List.mem_cons_self
    · exact List.mem_cons_of_mem cn (consistent.known entry earlier)
  · intro other live
    apply inserted.mem_iff.mpr
    by_cases new : other = cn
    · subst new
      simp [Server.acceptConn, Connection.construct]
    · have stored := consistent.stored other (live_accept live new)
      simp only [Server.acceptConn, Function.update_of_ne new]
      exact List.mem_cons_of_mem _ stored

theorem not_resolves_accept (consistent : state.Consistent) {cn : ConnRef} {draw : ℕ}
    (memory : Bool) (fresh : cn ∉ state.accepted)
    (taken : connectionSpace draw ∈ state.sr.connStorage.map Prod.fst) :
    ¬ Resolves {
      sr := state.sr.acceptConn cn draw memory
      accepted := cn :: state.accepted
      recvStatus := Function.update state.recvStatus cn true } := by
  intro resolves
  have found := resolves.resolved cn ⟨List.mem_cons_self, Function.update_self ..⟩
  simp only [Server.getConnObject, Server.acceptConn, Function.update_self,
    Connection.construct, insertNew, if_pos taken] at found
  exact fresh (consistent.known _ ((lookup_eq_some_iff_mem consistent.keys).mp found))

theorem consistent_disconnect (consistent : state.Consistent) (cn : ConnRef) :
    Consistent { state with recvStatus := Function.update state.recvStatus cn false } := by
  refine ⟨consistent.keys, consistent.known, ?_⟩
  rintro other ⟨listed, alive⟩
  apply consistent.stored other
  refine ⟨listed, ?_⟩
  by_cases same : other = cn
  · subst same
    simp at alive
  · simpa [Function.update_of_ne same] using alive

theorem consistent_free (consistent : state.Consistent) {sr : Server}
    (freed : state.sr.freeEmptysocket state.recvStatus = .ok sr) :
    Consistent { state with sr } := by
  obtain ⟨connStorage, ran, returned⟩ := bind_eq_ok_iff.mp freed
  cases returned
  obtain ⟨sublist, keeps⟩ := freeFrom_cases ran
  refine ⟨(sublist.map Prod.fst).nodup consistent.keys, ?_, ?_⟩
  · intro entry listed
    exact consistent.known entry (sublist.subset listed)
  · intro cn live
    exact keeps _ (consistent.stored cn live) live.2

theorem consistent_step_iff (consistent : state.Consistent)
    (stepped : state.step event = some (next, outputs)) :
    (next.Resolves ↔ DrawsFreeId state event) ∧ (next.Resolves → next.Consistent) := by
  cases event with
  | acceptConn cn draw memory =>
      simp only [step] at stepped
      split at stepped
      next => cases stepped
      next fresh =>
        cases stepped
        by_cases taken : connectionSpace draw ∈ state.sr.connStorage.map Prod.fst
        · have unresolved := not_resolves_accept consistent memory fresh taken
          exact ⟨iff_of_false unresolved fun free => free taken, fun resolves =>
            absurd resolves unresolved⟩
        · have after := consistent_accept consistent cn memory taken
          exact ⟨iff_of_true after.resolves taken, fun _ => after⟩
  | disconnect cn =>
      cases stepped
      have after := consistent_disconnect consistent cn
      exact ⟨iff_of_true after.resolves trivial, fun _ => after⟩
  | freeEmptysocket =>
      simp only [step] at stepped
      split at stepped
      next => cases stepped
      next sr freed =>
        cases stepped
        have after := consistent_free consistent freed
        exact ⟨iff_of_true after.resolves trivial, fun _ => after⟩

end

end Sockets

/-- Ids resolve after every step of a run exactly when every `accept` of the run
drew an id that was free. -/
theorem connection_ids_resolve_iff (userList : List (Text × UserData))
    (connections : ConnRef → Connection) (events : List SocketEvent) (last : Sockets)
    (outputs : List Empty)
    (finished : sockets.run (.start userList connections) events = some (last, outputs)) :
    sockets.EachStep (fun _ _ next _ => next.Resolves) (.start userList connections) events ↔
      sockets.Along DrawsFreeId (.start userList connections) events := by
  apply sockets.eachStep_iff_along_of_invariant Sockets.Consistent _ _
    (Sockets.consistent_start userList connections) finished
  · intro state event next outputs consistent stepped resolves
    exact (Sockets.consistent_step_iff consistent stepped).2 resolves
  · intro state event next outputs consistent stepped
    exact (Sockets.consistent_step_iff consistent stepped).1

/-- Two clients whose random numbers agree modulo 99. -/
def sameIdRun : List SocketEvent := [.acceptConn 0 5 false, .acceptConn 1 104 false]

/-- Both are live with id 5, and what is meant for the second reaches the first. -/
theorem connection_id_taken :
    ∃ last outputs,
      sockets.run (.start Server.initialUsers fun _ => ⟨0, [], false⟩) sameIdRun =
          some (last, outputs) ∧
        last.Live 0 ∧ last.Live 1 ∧
        (last.sr.connections 0).connectionID = 5 ∧ (last.sr.connections 1).connectionID = 5 ∧
        last.sr.getConnObject 5 = some 0 ∧ ¬ last.Resolves := by
  obtain ⟨last, outputs, finished, evaluated⟩ :=
    Machine.exists_run_of_any sockets (.start Server.initialUsers fun _ => ⟨0, [], false⟩)
      sameIdRun
      (fun last _ => decide ((0 ∈ last.accepted ∧ last.recvStatus 0 = true) ∧
        (1 ∈ last.accepted ∧ last.recvStatus 1 = true) ∧
        (last.sr.connections 0).connectionID = 5 ∧ (last.sr.connections 1).connectionID = 5 ∧
        last.sr.getConnObject 5 = some 0)) (by decide +kernel)
  obtain ⟨firstLive, secondLive, firstId, secondId, found⟩ := of_decide_eq_true evaluated
  refine ⟨last, outputs, finished, firstLive, secondLive, firstId, secondId, found, ?_⟩
  intro resolves
  exact absurd (resolves.distinct 0 1 firstLive secondLive (firstId.trans secondId.symm))
    (by decide)

theorem connection_ids_resolve_iff_sameIdRun :
    ∃ last outputs,
      sockets.run (.start Server.initialUsers fun _ => ⟨0, [], false⟩) sameIdRun =
          some (last, outputs) ∧
        (sockets.EachStep (fun _ _ next _ => next.Resolves)
            (.start Server.initialUsers fun _ => ⟨0, [], false⟩) sameIdRun ↔
          sockets.Along DrawsFreeId (.start Server.initialUsers fun _ => ⟨0, [], false⟩)
            sameIdRun) := by
  obtain ⟨last, outputs, finished, -⟩ :=
    Machine.exists_run_of_any sockets (.start Server.initialUsers fun _ => ⟨0, [], false⟩)
      sameIdRun (fun _ _ => true) (by decide +kernel)
  exact ⟨last, outputs, finished, connection_ids_resolve_iff _ _ _ _ _ finished⟩

theorem connect_of_sockets (server : MariaDB) (threads : Threads) {state next : Sockets}
    {event : SocketEvent} {outputs : List Empty} (same : state.sr = threads.trader.sr)
    (stepped : state.step event = some (next, outputs)) :
    ∃ connStorage connections userList,
      threads.step server (.connect connStorage connections userList) =
        some ({ threads with trader := { threads.trader with sr := next.sr } }, []) := by
  refine ⟨next.sr.connStorage, next.sr.connections, next.sr.userList, ?_⟩
  have queues : next.sr = { threads.trader.sr with
      connStorage := next.sr.connStorage
      connections := next.sr.connections
      userList := next.sr.userList } := by
    rw [← same]
    cases event with
    | acceptConn cn draw memory =>
        simp only [Sockets.step] at stepped
        split at stepped <;> cases stepped
        rfl
    | disconnect cn =>
        cases stepped
        rfl
    | freeEmptysocket =>
        simp only [Sockets.step] at stepped
        split at stepped
        next => cases stepped
        next sr freed =>
          obtain ⟨connStorage, -, returned⟩ := bind_eq_ok_iff.mp freed
          cases returned
          cases stepped
          rfl
  rw [Threads.step, ← queues]

end InertiaTrader
