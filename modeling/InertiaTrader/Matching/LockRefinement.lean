import InertiaTrader.Matching.LockReleases

/-!
# The threads as users of the lock

What all threads do with `cv_m` and with the books is what the steps of the lock alone can
do.  Pushing an executed pair is nothing to the lock, and an iteration of `getOrder` that
accepts an order is a call of `orderDataInsert`.
-/

namespace InertiaTrader

open Foundation

def Place.matchingAt : Place → MatchingAt
  | .lock => .lock
  | .predicate => .predicate
  | .waiting => .waiting
  | .loop => .loop
  | .guard => .guard
  | .sizes => .pass .sizes
  | .scan it => .pass (.scan it)
  | .chosen odb _ => .pass (.lock odb)
  | .price odb _ | .pushBuy odb _ | .pushSell odb _ | .erase odb _ => .pass (.erase odb)
  | .unlock => .pass .unlock
  | .endPass => .pass .leave
  | .leave => .leave
  | .done => .done

def LockedOutput.use : LockedOutput → Option LockUse
  | .uses use => some use
  | .shows _ => none

structure LockFlags where
  connStatus : Bool
  testmode : Bool
  traderStatus : Bool
  serverStatus : Bool

/-- The lock with the state of the threads, between two iterations of `getOrder`. -/
def LockedThreads.bookLock (state : LockedThreads) (flags : LockFlags) : BookLock where
  owner := state.owner
  connStatus := flags.connStatus
  testmode := flags.testmode
  traderStatus := flags.traderStatus
  serverStatus := flags.serverStatus
  transaction := state.transaction
  matching := state.matching.matchingAt
  intake := .loop
  books := state.threads.trader.toBooks

/-- `serverstatus` is not set before `startTransaction` has found it so. -/
def Locks (state : LockedThreads) (lock : BookLock) : Prop :=
  ∃ flags, lock = state.bookLock flags ∧
    (flags.serverStatus = true → state.transaction = .leave ∨ state.transaction = .done)

section

variable {server : MariaDB} {state next : LockedThreads} {lock : BookLock}
    {event : LockedEvent} {outputs : List LockedOutput} {status : Bool}

@[simp]
theorem uses_shows (observations : List Observation) :
    (observations.map LockedOutput.shows).filterMap LockedOutput.use = [] := by
  rw [List.filterMap_map, List.filterMap_eq_nil_iff]
  exact fun _ _ => rfl

theorem bookLock_acquire (flags : LockFlags) (thread : LockThread) (granted : LockedThreads) :
    (state.bookLock flags).acquire thread (granted.bookLock flags) =
      ((state.acquire thread granted).1.bookLock flags,
        (state.acquire thread granted).2.filterMap LockedOutput.use) := by
  unfold BookLock.acquire LockedThreads.acquire
  by_cases unowned : state.owner = none
  · simp only [LockedThreads.bookLock, unowned, if_true]
    rfl
  · simp only [LockedThreads.bookLock, unowned, if_false]
    rfl

/-- Steps of the lock lead to the same state as the step of the threads, with the same
uses. -/
def Matched (state : LockedThreads) (flags : LockFlags) (next : LockedThreads)
    (outputs : List LockedOutput) : Prop :=
  ∃ events flags', (flags'.serverStatus = true →
      next.transaction = .leave ∨ next.transaction = .done) ∧
    bookLock.run (state.bookLock flags) events =
      some (next.bookLock flags', outputs.filterMap LockedOutput.use)

theorem Matched.of_step {flags : LockFlags} (lockEvent : LockEvent)
    (unset : flags.serverStatus = true → next.transaction = .leave ∨ next.transaction = .done)
    (stepped : (state.bookLock flags).step lockEvent =
      some (next.bookLock flags, outputs.filterMap LockedOutput.use)) :
    Matched state flags next outputs :=
  ⟨[lockEvent], flags, unset, (bookLock.run_singleton _ _).trans stepped⟩

theorem Matched.of_acquire {flags : LockFlags} (lockEvent : LockEvent) {thread : LockThread}
    {granted : LockedThreads}
    (unset : flags.serverStatus = true → next.transaction = .leave ∨ next.transaction = .done)
    (acquired : state.acquire thread granted = (next, outputs))
    (stepped : (state.bookLock flags).step lockEvent =
      some ((state.bookLock flags).acquire thread (granted.bookLock flags))) :
    Matched state flags next outputs := by
  refine .of_step lockEvent unset ?_
  rw [stepped, bookLock_acquire, acquired]

theorem Matched.of_set {flags : LockFlags} (set lockEvent : LockEvent) (flags' : LockFlags)
    (assigned : (state.bookLock flags).step set = some (state.bookLock flags', []))
    (unset : flags'.serverStatus = true →
      next.transaction = .leave ∨ next.transaction = .done)
    (stepped : (state.bookLock flags').step lockEvent =
      some (next.bookLock flags', outputs.filterMap LockedOutput.use)) :
    Matched state flags next outputs := by
  refine ⟨[set, lockEvent], flags', unset, ?_⟩
  exact (bookLock.run_cons_iff ..).mpr ⟨_, _, _, assigned,
    (bookLock.run_singleton _ _).trans stepped, rfl⟩

theorem matched_transaction {flags : LockFlags}
    (unset : flags.serverStatus = true → state.transaction = .leave ∨ state.transaction = .done)
    (stepped : state.stepTransaction status = some (next, outputs)) :
    Matched state flags next outputs := by
  cases standing : state.transaction with
  | threads | done =>
      simp only [LockedThreads.stepTransaction, standing] at stepped
      cases stepped
  | lock | waiting =>
      rw [standing] at unset
      have notSet : flags.serverStatus ≠ true := by simpa using unset
      simp only [LockedThreads.stepTransaction, standing, Option.some.injEq] at stepped
      refine .of_acquire .startTransaction (fun set => absurd set notSet) stepped ?_
      simp only [BookLock.step, BookLock.stepTransaction, LockedThreads.bookLock, standing]
  | predicate =>
      rw [standing] at unset
      have notSet : flags.serverStatus ≠ true := by simpa using unset
      simp only [LockedThreads.stepTransaction, standing] at stepped
      split at stepped
      next =>
        cases stepped
        refine .of_set .endTransaction .startTransaction { flags with serverStatus := true } rfl
          (fun _ => .inl rfl) ?_
        simp only [BookLock.step, BookLock.stepTransaction, LockedThreads.bookLock, standing]
        rfl
      next =>
        cases stepped
        refine .of_step .startTransaction (fun set => absurd set notSet) ?_
        simp only [BookLock.step, BookLock.stepTransaction, LockedThreads.bookLock, standing,
          if_neg notSet]
        rfl
  | leave =>
      simp only [LockedThreads.stepTransaction, standing] at stepped
      cases stepped
      refine .of_step .startTransaction (fun _ => .inr rfl) ?_
      simp only [BookLock.step, BookLock.stepTransaction, LockedThreads.bookLock, standing]
      rfl

theorem transaction_matchup (stepped : state.stepMatchup status = some (next, outputs)) :
    next.transaction = state.transaction := by
  cases LockedThreads.stepMatchup_cases stepped <;> rfl

theorem matched_scan {flags : LockFlags} {it : Option OrderPtr}
    (standing : state.matching = .scan it)
    (unset : flags.serverStatus = true → next.transaction = .leave ∨ next.transaction = .done)
    (stepped : state.stepMatchup status = some (next, outputs)) :
    Matched state flags next outputs := by
  refine .of_step .matchup unset ?_
  cases it with
  | none =>
      simp only [LockedThreads.stepMatchup, standing] at stepped
      cases stepped
      simp only [BookLock.step, BookLock.stepMatchup, BookLock.stepPass, LockedThreads.bookLock,
        standing, Place.matchingAt]
      rfl
  | some odb =>
      simp only [LockedThreads.stepMatchup, standing] at stepped
      split at stepped
      next od ods received isLast =>
        split at stepped
        next crossed =>
          cases stepped
          simp only [BookLock.step, BookLock.stepMatchup, BookLock.stepPass,
            LockedThreads.bookLock, standing, Place.matchingAt, received, isLast, if_pos crossed]
          rfl
        next below =>
          cases stepped
          simp only [BookLock.step, BookLock.stepMatchup, BookLock.stepPass,
            LockedThreads.bookLock, standing, Place.matchingAt, received, isLast, if_neg below]
          rfl
      next => cases stepped

theorem matched_matchup {flags : LockFlags}
    (unset : flags.serverStatus = true → state.transaction = .leave ∨ state.transaction = .done)
    (stepped : state.stepMatchup status = some (next, outputs)) :
    Matched state flags next outputs := by
  rw [← transaction_matchup stepped] at unset
  cases standing : state.matching with
  | lock | waiting | guard | chosen =>
      simp only [LockedThreads.stepMatchup, standing, Option.some.injEq] at stepped
      refine .of_acquire .matchup unset stepped ?_
      simp only [BookLock.step, BookLock.stepMatchup, BookLock.stepPass, LockedThreads.bookLock,
        standing, Place.matchingAt]
  | predicate =>
      simp only [LockedThreads.stepMatchup, standing] at stepped
      refine .of_set (.setconnStatus status) .matchup { flags with connStatus := status } rfl
        unset ?_
      simp only [BookLock.step, BookLock.stepMatchup, LockedThreads.bookLock, standing,
        Place.matchingAt]
      cases status <;> cases stepped <;> rfl
  | loop =>
      simp only [LockedThreads.stepMatchup, standing] at stepped
      refine .of_set (.setTraderStatus status) .matchup { flags with traderStatus := status } rfl
        unset ?_
      simp only [BookLock.step, BookLock.stepMatchup, LockedThreads.bookLock, standing,
        Place.matchingAt]
      cases status <;> cases stepped <;> rfl
  | sizes =>
      simp only [LockedThreads.stepMatchup, standing] at stepped
      refine .of_step .matchup unset ?_
      simp only [BookLock.step, BookLock.stepMatchup, BookLock.stepPass, LockedThreads.bookLock,
        standing, Place.matchingAt]
      split at stepped
      next empty =>
        cases stepped
        rw [if_pos empty]
        rfl
      next nonempty =>
        cases stepped
        rw [if_neg nonempty]
        rfl
  | scan it => exact matched_scan standing unset stepped
  | price odb ods =>
      simp only [LockedThreads.stepMatchup, standing] at stepped
      split at stepped
      next => cases stepped
      next =>
        cases stepped
        refine ⟨[], flags, unset, ?_⟩
        simp only [Machine.run_nil, LockedThreads.bookLock, standing, Place.matchingAt]
        rfl
  | pushBuy odb ods | pushSell odb ods =>
      simp only [LockedThreads.stepMatchup, standing] at stepped
      cases stepped
      refine ⟨[], flags, unset, ?_⟩
      simp only [Machine.run_nil, LockedThreads.bookLock, standing, Place.matchingAt]
      rfl
  | erase odb ods =>
      simp only [LockedThreads.stepMatchup, standing] at stepped
      split at stepped
      next => cases stepped
      next =>
        cases stepped
        refine .of_step .matchup unset ?_
        simp only [BookLock.step, BookLock.stepMatchup, BookLock.stepPass,
          LockedThreads.bookLock, standing, Place.matchingAt]
        rfl
  | unlock | endPass | leave =>
      simp only [LockedThreads.stepMatchup, standing] at stepped
      cases stepped
      refine .of_step .matchup unset ?_
      simp only [BookLock.step, BookLock.stepMatchup, BookLock.stepPass, LockedThreads.bookLock,
        standing, Place.matchingAt]
      rfl
  | done =>
      simp only [LockedThreads.stepMatchup, standing] at stepped
      cases stepped

/-- What the steps of the other threads do to the books: `getOrder` sets the member `od` and
calls `orderDataInsert` for an order it accepts. -/
theorem books_of_other {threads after : Threads} {event : Event}
    {observations : List Observation}
    (stepped : threads.step server event = some (after, observations))
    (notPass : event ≠ .matchup) :
    after.trader.toBooks = threads.trader.toBooks ∧ insertedIn observations = [] ∨
      ∃ od : OrderPtr,
        after.trader.toBooks = { threads.trader.toBooks with od := some od.order } ∧
            insertedIn observations = [] ∨
          after.trader.toBooks =
              { threads.trader.toBooks with od := some od.order }.orderDataInsert od ∧
            insertedIn observations = [od] := by
  cases Threads.step_cases stepped with
  | communicates _ sr asking _ sends =>
      refine .inl ⟨rfl, insertedIn_of_quiet fun address => ?_⟩
      exact Threads.filterMap_sends (fun _ _ => rfl) sends
  | handlesOrder address connected rest connId od cn trader _ fresh handling =>
      cases handling with
      | failed | insufficient => exact .inr ⟨⟨address, _⟩, .inl ⟨rfl, rfl⟩⟩
      | accepted => exact .inr ⟨⟨address, _⟩, .inr ⟨rfl, rfl⟩⟩
  | amends connected val rest trader _ queued amendment =>
      cases amendment with
      | cancelled chosen => cases chosen <;> exact .inl ⟨rfl, rfl⟩
      | modified | refused => exact .inl ⟨rfl, rfl⟩
  | executes => exact absurd rfl notPass
  | rests | pushes | reads | sends | pops => exact .inl ⟨rfl, rfl⟩

theorem matched_other {flags : LockFlags} {event : Event}
    (unset : flags.serverStatus = true → state.transaction = .leave ∨ state.transaction = .done)
    (stepped : state.stepOther server event = some (next, outputs)) :
    Matched state flags next outputs := by
  unfold LockedThreads.stepOther at stepped
  split at stepped
  next => cases stepped
  next => cases stepped
  next notPass notPush =>
    split at stepped
    next => cases stepped
    next threads observations stepped' =>
      rcases books_of_other stepped' notPass with
        ⟨sameBooks, silent⟩ | ⟨od, ⟨received, silent⟩ | ⟨received, inserted⟩⟩
      · rw [if_pos silent] at stepped
        cases stepped
        refine ⟨[], flags, unset, ?_⟩
        rw [Machine.run_nil, uses_shows]
        simp only [LockedThreads.bookLock, sameBooks]
      · rw [if_pos silent] at stepped
        cases stepped
        refine .of_set (.setTraderStatus true) (.getOrder od false)
          { flags with traderStatus := true } rfl unset ?_
        rw [uses_shows]
        simp only [LockedThreads.bookLock, received]
        rfl
      · rw [if_neg (by simp [inserted])] at stepped
        cases stepped
        refine ⟨[.setTraderStatus true, .getOrder od true, .orderDataInsert, .orderDataInsert],
          { flags with traderStatus := true }, unset, ?_⟩
        rw [List.filterMap_append, uses_shows]
        simp only [LockedThreads.bookLock, received]
        rfl

theorem locks_step (locks : Locks state lock)
    (stepped : state.step server event = some (next, outputs)) :
    ∃ events lock', Locks next lock' ∧
      bookLock.run lock events = some (lock', outputs.filterMap LockedOutput.use) := by
  obtain ⟨flags, rfl, unset⟩ := locks
  suffices matched : Matched state flags next outputs by
    obtain ⟨events, flags', unset', ran⟩ := matched
    exact ⟨events, _, ⟨flags', rfl, unset'⟩, ran⟩
  cases event with
  | startTransaction serverStatus => exact matched_transaction unset stepped
  | matchup status => exact matched_matchup unset stepped
  | other event => exact matched_other unset stepped

end

/-- What the threads of a process do with the lock and with the books, in every run, the
steps of the lock can do as well. -/
theorem lockedThreads_refines_bookLock (server : MariaDB) (db : Database) (rc : RiskController)
    (nidSub1 : BitVec 32) (sr : Server) (events : List LockedEvent) (last : LockedThreads)
    (outputs : List LockedOutput)
    (finished : (lockedThreads server).run (.start (.construct server db rc nidSub1 sr)) events =
      some (last, outputs)) :
    ∃ events' lock, Locks last lock ∧
      bookLock.run (.start true false) events' =
        some (lock, outputs.filterMap LockedOutput.use) := by
  have toBooks := Trader.construct_toBooks server db rc nidSub1 sr
  generalize Trader.construct server db rc nidSub1 sr = trader at toBooks finished
  have started : bookLock.step (.start true false) .startTransaction =
      some ((LockedThreads.start trader).bookLock ⟨true, false, true, false⟩, []) := by
    simp only [LockedThreads.bookLock, LockedThreads.start, Threads.start, toBooks]
    rfl
  have initially : Locks (.start trader)
      ((LockedThreads.start trader).bookLock ⟨true, false, true, false⟩) :=
    ⟨_, rfl, by simp⟩
  obtain ⟨events', lock, locks, ran⟩ := (lockedThreads server).run_simulated bookLock
    LockedOutput.use (fun _ _ _ _ _ => locks_step) initially finished
  exact ⟨.startTransaction :: events', lock, locks,
    (bookLock.run_cons_iff ..).mpr ⟨_, _, _, started, ran, rfl⟩⟩

theorem lockedThreads_refines_bookLock_thirdOrderRun :
    ∃ last outputs events' lock, (lockedThreads .literal).run (.start Threads.initial.trader)
        thirdOrderRun = some (last, outputs) ∧
      .acquires .matchup (some .matchup) ∈ outputs.filterMap LockedOutput.use ∧
      Locks last lock ∧ bookLock.run (.start true false) events' =
        some (lock, outputs.filterMap LockedOutput.use) := by
  obtain ⟨last, outputs, finished, evaluated⟩ :=
    Machine.exists_run_of_any (lockedThreads .literal) (.start Threads.initial.trader)
      thirdOrderRun (fun _ outputs => decide (
        .acquires .matchup (some .matchup) ∈ outputs.filterMap LockedOutput.use))
      (by decide +kernel)
  obtain ⟨events', lock, locks, ran⟩ :=
    lockedThreads_refines_bookLock _ _ _ _ _ _ _ _ finished
  exact ⟨last, outputs, events', lock, finished, of_decide_eq_true evaluated, locks, ran⟩

end InertiaTrader
