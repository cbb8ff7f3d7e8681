import InertiaTrader.Exchange.Basic

/-!
# Dead connections of the exchange

A call of `freeEmptysocket` may leave dead connections behind, but it frees at least
one, and each dead connection brings two threads that are going to make such a call.
-/

namespace InertiaTrader

open Foundation

def deadAmong (recvStatus : ConnRef → Bool) (cns : List ConnRef) : ℕ :=
  cns.countP fun cn => !recvStatus cn

/-- The dead connections that are still stored. -/
def Exchange.deadStored (state : Exchange) : ℕ :=
  deadAmong state.recvStatus (state.sr.connStorage.map Prod.snd)

/-- The threads of dead connections that are still running. -/
def Exchange.deadThreads (state : Exchange) : ℕ :=
  deadAmong state.recvStatus state.receiving + deadAmong state.recvStatus state.beating

/-- Every connection is stored once at most, and has both its threads as long as it
is alive. -/
structure Exchange.Running (state : Exchange) : Prop where
  alive : ∀ cn ∈ state.accepted, state.recvStatus cn = true →
    cn ∈ state.receiving ∧ cn ∈ state.beating
  receiving : ∀ cn ∈ state.receiving, cn ∈ state.accepted
  beating : ∀ cn ∈ state.beating, cn ∈ state.accepted
  stored : (state.sr.connStorage.map Prod.snd).Nodup
  known : ∀ cn ∈ state.sr.connStorage.map Prod.snd, cn ∈ state.accepted

section

variable {recvStatus : ConnRef → Bool} {cn : ConnRef} {cns : List ConnRef}
    {entries freed : List (ℤ × ConnRef)}

@[simp]
theorem deadAmong_cons_update_true :
    deadAmong (Function.update recvStatus cn true) (cn :: cns) =
      deadAmong (Function.update recvStatus cn true) cns := by
  simp [deadAmong]

theorem deadAmong_update_of_notMem (status : Bool) (absent : cn ∉ cns) :
    deadAmong (Function.update recvStatus cn status) cns = deadAmong recvStatus cns := by
  apply List.countP_congr
  intro other listed
  rw [Function.update_of_ne (ne_of_mem_of_not_mem listed absent)]

theorem deadAmong_update_false (alive : recvStatus cn = true) :
    deadAmong (Function.update recvStatus cn false) cns =
      deadAmong recvStatus cns + cns.count cn := by
  induction cns with
  | nil => rfl
  | cons head rest inductionHypothesis =>
      unfold deadAmong at inductionHypothesis ⊢
      rw [List.countP_cons, List.countP_cons, List.count_cons, inductionHypothesis]
      by_cases same : head = cn
      · subst same
        simp [alive]
        omega
      · simp [same]
        omega

theorem deadAmong_erase (dead : recvStatus cn = false) (listed : cn ∈ cns) :
    deadAmong recvStatus (cns.erase cn) + 1 = deadAmong recvStatus cns := by
  have positive : 0 < deadAmong recvStatus cns :=
    List.countP_pos_iff.mpr ⟨cn, listed, by simp [dead]⟩
  have erased := List.countP_erase (fun cn => !recvStatus cn) cns cn
  rw [if_pos ⟨listed, by simp [dead]⟩] at erased
  unfold deadAmong at positive ⊢
  omega

theorem deadAmong_freeFrom (finished : freeFrom recvStatus entries = .ok freed) :
    deadAmong recvStatus (freed.map Prod.snd) ≤
      deadAmong recvStatus (entries.map Prod.snd) - 1 := by
  fun_induction freeFrom recvStatus entries generalizing freed with
  | case1 =>
      cases finished
      exact Nat.zero_le _
  | case2 entry rest alive inductionHypothesis =>
      obtain ⟨kept, ran, returned⟩ := bind_eq_ok_iff.mp finished
      cases returned
      have fewer := inductionHypothesis ran
      unfold deadAmong at fewer ⊢
      simpa [alive] using fewer
  | case3 entry dead => cases finished
  | case4 entry dead skipped rest inductionHypothesis =>
      obtain ⟨kept, ran, returned⟩ := bind_eq_ok_iff.mp finished
      cases returned
      have fewer := inductionHypothesis ran
      unfold deadAmong at fewer ⊢
      simp only [List.map_cons, List.countP_cons, dead]
      simp only [Bool.not_false, if_true, Nat.add_one_sub_one]
      omega

end

namespace Exchange

structure Tended (state : Exchange) : Prop extends state.Running where
  enough : state.deadStored ≤ state.deadThreads

section

variable {server : MariaDB} {state next : Exchange} {event : ExchangeEvent}
    {outputs : List ExchangeOutput} {cn : ConnRef} {connStorage : List (ℤ × ConnRef)}

theorem tended_start (db : Database) (rc : RiskController) (nidSub1 : BitVec 32)
    (userList : Accounts) (connections : ConnRef → Connection) :
    (start server db rc nidSub1 userList connections).Tended := by
  obtain ⟨buyside, sellside, equality⟩ := Trader.construct_eq server db rc nidSub1
    (.construct userList.balances connections)
  have nothing : (start server db rc nidSub1 userList connections).sr.connStorage = [] := by
    rw [sr, start, Threads.start, equality]
    rfl
  refine ⟨⟨?_, ?_, ?_, ?_, ?_⟩, ?_⟩
  · intro cn isAccepted
    cases isAccepted
  · intro cn isReceiving
    cases isReceiving
  · intro cn isBeating
    cases isBeating
  · rw [nothing]
    exact .nil
  · rw [nothing]
    intro cn isStored
    cases isStored
  · rw [deadStored, nothing]
    exact Nat.zero_le _

theorem Tended.congr (tended : state.Tended)
    (accepted : next.accepted = state.accepted) (recvStatus : next.recvStatus = state.recvStatus)
    (receiving : next.receiving = state.receiving) (beating : next.beating = state.beating)
    (connStorage : next.sr.connStorage = state.sr.connStorage) : next.Tended := by
  refine ⟨⟨?_, ?_, ?_, ?_, ?_⟩, ?_⟩
  · rw [accepted, recvStatus, receiving, beating]
    exact tended.alive
  · rw [accepted, receiving]
    exact tended.receiving
  · rw [accepted, beating]
    exact tended.beating
  · rw [connStorage]
    exact tended.stored
  · rw [accepted, connStorage]
    exact tended.known
  · rw [deadStored, deadThreads, recvStatus, receiving, beating, connStorage]
    exact tended.enough

theorem snd_insertNew_cases (id : ℤ) (cn : ConnRef) (connStorage : List (ℤ × ConnRef)) :
    (insertNew id cn connStorage).map Prod.snd = connStorage.map Prod.snd ∨
      ((insertNew id cn connStorage).map Prod.snd).Perm (cn :: connStorage.map Prod.snd) := by
  by_cases taken : id ∈ connStorage.map Prod.fst
  · exact .inl (by rw [insertNew, if_pos taken])
  · exact .inr ((insertNew_perm cn taken).map Prod.snd)

theorem tended_accept (tended : state.Tended) (draw : ℕ) (memory : Bool)
    (fresh : cn ∉ state.accepted) :
    Tended { state.withServer (state.sr.acceptConn cn draw memory) with
      accepted := cn :: state.accepted
      recvStatus := Function.update state.recvStatus cn true
      receiving := cn :: state.receiving
      beating := cn :: state.beating } := by
  have notStored : cn ∉ state.sr.connStorage.map Prod.snd := fun isStored =>
    fresh (tended.known cn isStored)
  have notReceiving : cn ∉ state.receiving := fun isReceiving =>
    fresh (tended.receiving cn isReceiving)
  have notBeating : cn ∉ state.beating := fun isBeating => fresh (tended.beating cn isBeating)
  have inserted := snd_insertNew_cases (connectionSpace draw) cn state.sr.connStorage
  refine ⟨⟨?_, ?_, ?_, ?_, ?_⟩, ?_⟩
  · intro other isAccepted alive
    by_cases new : other = cn
    · subst new
      exact ⟨List.mem_cons_self, List.mem_cons_self⟩
    · simp only [Function.update_of_ne new] at alive
      obtain ⟨isReceiving, isBeating⟩ :=
        tended.alive other ((List.mem_cons.mp isAccepted).resolve_left new) alive
      exact ⟨List.mem_cons_of_mem cn isReceiving, List.mem_cons_of_mem cn isBeating⟩
  · intro other isReceiving
    exact List.mem_cons.mpr ((List.mem_cons.mp isReceiving).imp_right (tended.receiving other))
  · intro other isBeating
    exact List.mem_cons.mpr ((List.mem_cons.mp isBeating).imp_right (tended.beating other))
  · change ((insertNew (connectionSpace draw) cn state.sr.connStorage).map Prod.snd).Nodup
    rcases inserted with same | extended
    · rw [same]
      exact tended.stored
    · exact extended.nodup_iff.mpr (List.nodup_cons.mpr ⟨notStored, tended.stored⟩)
  · intro other isStored
    change other ∈ (insertNew (connectionSpace draw) cn state.sr.connStorage).map Prod.snd
      at isStored
    rcases inserted with same | extended
    · rw [same] at isStored
      exact List.mem_cons_of_mem cn (tended.known other isStored)
    · exact List.mem_cons.mpr
        ((List.mem_cons.mp (extended.mem_iff.mp isStored)).imp_right (tended.known other))
  · change deadAmong (Function.update state.recvStatus cn true)
        ((insertNew (connectionSpace draw) cn state.sr.connStorage).map Prod.snd) ≤
      deadAmong (Function.update state.recvStatus cn true) (cn :: state.receiving) +
        deadAmong (Function.update state.recvStatus cn true) (cn :: state.beating)
    have sameStored : deadAmong (Function.update state.recvStatus cn true)
        ((insertNew (connectionSpace draw) cn state.sr.connStorage).map Prod.snd) =
          state.deadStored := by
      rcases inserted with same | extended
      · rw [same, deadAmong_update_of_notMem true notStored, deadStored]
      · have counted := extended.countP_eq fun other =>
          !Function.update state.recvStatus cn true other
        rw [deadAmong, counted, ← deadAmong, deadAmong_cons_update_true,
          deadAmong_update_of_notMem true notStored, deadStored]
    rw [sameStored, deadAmong_cons_update_true, deadAmong_cons_update_true,
      deadAmong_update_of_notMem true notReceiving, deadAmong_update_of_notMem true notBeating]
    exact tended.enough

theorem tended_dies (tended : state.Tended) (isAccepted : cn ∈ state.accepted) :
    Tended { state with recvStatus := Function.update state.recvStatus cn false } := by
  refine ⟨⟨?_, tended.receiving, tended.beating, tended.stored, tended.known⟩, ?_⟩
  · intro other otherAccepted alive
    by_cases same : other = cn
    · subst same
      simp at alive
    · simp only [Function.update_of_ne same] at alive
      exact tended.alive other otherAccepted alive
  · cases status : state.recvStatus cn with
    | false =>
        have same : Function.update state.recvStatus cn false = state.recvStatus :=
          Function.update_eq_self_iff.mpr status.symm
        simp only [same]
        exact tended.enough
    | true =>
        obtain ⟨isReceiving, isBeating⟩ := tended.alive cn isAccepted status
        have once := List.nodup_iff_count_le_one.mp tended.stored cn
        have receives := List.count_pos_iff.mpr isReceiving
        have beats := List.count_pos_iff.mpr isBeating
        have enough := tended.enough
        simp only [deadStored, deadThreads, sr, deadAmong_update_false status] at enough ⊢
        change List.count cn (state.threads.trader.sr.connStorage.map Prod.snd) ≤ 1 at once
        omega

theorem stored_freed {recvStatus : ConnRef → Bool}
    (freed : freeFrom recvStatus state.sr.connStorage = .ok connStorage) :
    (connStorage.map Prod.snd).Sublist (state.sr.connStorage.map Prod.snd) :=
  (freeFrom_cases freed).1.map Prod.snd

theorem tended_stopsReceiving (tended : state.Tended) (isReceiving : cn ∈ state.receiving)
    (dead : state.recvStatus cn = false)
    (freed : freeFrom state.recvStatus state.sr.connStorage = .ok connStorage) :
    Tended { state.withServer { state.sr with connStorage } with
      receiving := state.receiving.erase cn } := by
  have left := stored_freed freed
  refine ⟨⟨?_, ?_, tended.beating, left.nodup tended.stored, ?_⟩, ?_⟩
  · intro other isAccepted alive
    obtain ⟨otherReceiving, isBeating⟩ := tended.alive other isAccepted alive
    refine ⟨?_, isBeating⟩
    apply (List.mem_erase_of_ne _).mpr otherReceiving
    rintro rfl
    exact absurd (dead.symm.trans alive) Bool.false_ne_true
  · intro other otherReceiving
    exact tended.receiving other (List.mem_of_mem_erase otherReceiving)
  · intro other isStored
    exact tended.known other (left.subset isStored)
  · have fewer := deadAmong_freeFrom freed
    have one := deadAmong_erase dead isReceiving
    have enough := tended.enough
    simp only [deadStored, deadThreads] at enough
    change deadAmong state.recvStatus (connStorage.map Prod.snd) ≤
      deadAmong state.recvStatus (state.receiving.erase cn) +
        deadAmong state.recvStatus state.beating
    omega

theorem tended_stopsBeating (tended : state.Tended) (isBeating : cn ∈ state.beating)
    (dead : state.recvStatus cn = false)
    (freed : freeFrom state.recvStatus state.sr.connStorage = .ok connStorage) :
    Tended { state.withServer { state.sr with connStorage } with
      beating := state.beating.erase cn } := by
  have left := stored_freed freed
  refine ⟨⟨?_, tended.receiving, ?_, left.nodup tended.stored, ?_⟩, ?_⟩
  · intro other isAccepted alive
    obtain ⟨isReceiving, otherBeating⟩ := tended.alive other isAccepted alive
    refine ⟨isReceiving, ?_⟩
    apply (List.mem_erase_of_ne _).mpr otherBeating
    rintro rfl
    exact absurd (dead.symm.trans alive) Bool.false_ne_true
  · intro other otherBeating
    exact tended.beating other (List.mem_of_mem_erase otherBeating)
  · intro other isStored
    exact tended.known other (left.subset isStored)
  · have fewer := deadAmong_freeFrom freed
    have one := deadAmong_erase dead isBeating
    have enough := tended.enough
    simp only [deadStored, deadThreads] at enough
    change deadAmong state.recvStatus (connStorage.map Prod.snd) ≤
      deadAmong state.recvStatus state.receiving +
        deadAmong state.recvStatus (state.beating.erase cn)
    omega

theorem tended_step (tended : state.Tended)
    (stepped : state.step server event = some (next, outputs)) : next.Tended := by
  cases step_cases stepped with
  | accepts cn draw memory fresh => exact tended_accept tended draw memory fresh
  | stopsReceiving cn recvStr draws added connStorage isReceiving _ _ freed =>
      have dies := tended_dies tended (tended.receiving cn isReceiving)
      exact tended_stopsReceiving dies isReceiving (Function.update_self ..) freed
  | fails cn isAccepted => exact tended_dies tended isAccepted
  | stopsBeating cn connStorage isBeating dead freed =>
      exact tended_stopsBeating tended isBeating dead freed
  | hands cn text rest =>
      refine tended.congr rfl rfl rfl rfl ?_
      obtain ⟨dq, dqOrderhandle, routed⟩ :=
        Server.route_sr state.sr (Server.addressed text (state.sr.connections cn))
      change (Server.route _ _).1.connStorage = _
      rw [routed]
  | trades event threads observations isTrading traded =>
      refine tended.congr rfl rfl rfl rfl ?_
      obtain ⟨dq, dqOrderhandle, quotesList, same⟩ := Threads.sr_of_trading isTrading traded
      change threads.trader.sr.connStorage = _
      rw [same]
      rfl
  | beats => exact tended
  | cuts | callsLogin | strays | answersPrice => exact tended.congr rfl rfl rfl rfl rfl

end

end Exchange

/-- In every run, whatever dies and whatever the calls of `freeEmptysocket` skip: there
are at most as many dead connections stored as threads of dead connections are running.
Once these have ended every stored connection is alive, and no connection that is
alive has lost a thread. -/
theorem dead_connections_freed (server : MariaDB) (db : Database) (rc : RiskController)
    (nidSub1 : BitVec 32) (userList : Accounts) (connections : ConnRef → Connection)
    (events : List ExchangeEvent) (last : Exchange) (outputs : List ExchangeOutput)
    (finished : (exchange server).run (.start server db rc nidSub1 userList connections) events =
      some (last, outputs)) :
    last.deadStored ≤ last.deadThreads ∧
      ((∀ cn ∈ last.receiving ++ last.beating, last.recvStatus cn = true) →
        ∀ entry ∈ last.sr.connStorage, last.recvStatus entry.2 = true) ∧
      ∀ cn ∈ last.accepted, last.recvStatus cn = true →
        cn ∈ last.receiving ∧ cn ∈ last.beating := by
  have tended : last.Tended := by
    apply (exchange server).invariant_of_run (fun state _ => state.Tended) _
      (Exchange.tended_start db rc nidSub1 userList connections) finished
    intro state seen event next shown tended stepped
    exact Exchange.tended_step tended stepped
  refine ⟨tended.enough, ?_, tended.alive⟩
  intro ended entry isStored
  have noThread : last.deadThreads = 0 := by
    rw [Exchange.deadThreads, Nat.add_eq_zero_iff]
    simp only [deadAmong, List.countP_eq_zero, Bool.not_eq_true', Bool.not_eq_false]
    exact List.forall_mem_append.mp ended
  have noneStored : last.deadStored = 0 := Nat.eq_zero_of_le_zero (noThread ▸ tended.enough)
  rw [Exchange.deadStored, deadAmong, List.countP_eq_zero] at noneStored
  simpa using noneStored entry.2 (List.mem_map_of_mem isStored)

def neighboursDieRun : List ExchangeEvent :=
  [.acceptConn 0 5 false, .acceptConn 1 7 false, .acceptConn 2 9 false, .sendFails 0,
    .sendFails 1, .heartbeat 0, .recvfrom 0 none (0, 0) false, .heartbeat 1, .heartbeat 2,
    .recvfrom 1 none (0, 0) false]

theorem dead_connections_freed_neighboursDieRun :
    ∃ last outputs, (exchange .literal).run .initial neighboursDieRun = some (last, outputs) ∧
      last.sr.connStorage = [(9, 2)] ∧ ∀ entry ∈ last.sr.connStorage,
        last.recvStatus entry.2 = true := by
  obtain ⟨last, outputs, finished, evaluated⟩ :=
    Machine.exists_run_of_any (exchange .literal) .initial neighboursDieRun
      (fun last _ => decide (last.sr.connStorage = [(9, 2)] ∧
        ∀ cn ∈ last.receiving ++ last.beating, last.recvStatus cn = true)) (by decide +kernel)
  obtain ⟨stored, ended⟩ := of_decide_eq_true evaluated
  exact ⟨last, outputs, finished, stored,
    (dead_connections_freed _ _ _ _ _ _ _ _ _ finished).2.1 ended⟩

end InertiaTrader
