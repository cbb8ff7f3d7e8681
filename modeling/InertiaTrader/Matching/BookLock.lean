import InertiaTrader.Foundation.Machine
import InertiaTrader.Trader.Books

/-!
# The lock of the books

The steps of `startTransaction`, `matchup` and `orderDataInsert` at which `cv_m`
is acquired or released or a raw book is touched, with `cv_m` as a lock that has
at most one owner.  A thread that finds the lock owned stays where it is.
-/

namespace InertiaTrader

open Foundation

/-- The threads that use `cv_m` or the raw books. -/
inductive LockThread where
  | startTransaction
  | matchup
  | getOrder
  deriving DecidableEq

/-- A use of `cv_m` or of a raw book, with the owner of `cv_m` at that moment. -/
inductive LockUse where
  | acquires (thread : LockThread) (owner : Option LockThread)
  | releases (thread : LockThread) (owner : Option LockThread)
  | touches (thread : LockThread) (owner : Option LockThread)
  deriving DecidableEq

/-- Nobody acquires what it owns, and only the owner releases the lock or
touches a book. -/
def LockUse.Disciplined : LockUse → Prop
  | .acquires thread owner => owner ≠ some thread
  | .releases thread owner | .touches thread owner => owner = some thread

/-- Where `startTransaction` stands after `new Server`. -/
inductive TransactionAt where
  | threads
  /-- `std::unique_lock lk1(cv_m)` -/
  | lock
  /-- `cv_.wait` evaluates its predicate. -/
  | predicate
  /-- Inside `cv_.wait`, without the lock. -/
  | waiting
  /-- The destructor of `lk1`. -/
  | leave
  | done
  deriving DecidableEq

/-- Where `matchup` stands inside the body of its `while` loop. -/
inductive PassAt where
  | sizes
  /-- The test of the `for` loop; `none` is the end iterator. -/
  | scan (it : Option OrderPtr)
  /-- `cv_m.lock()` -/
  | lock (odb : OrderPtr)
  | erase (odb : OrderPtr)
  /-- `cv_m.unlock()` -/
  | unlock
  /-- The destructor of `lck`. -/
  | leave
  deriving DecidableEq

/-- Where `matchup` stands. -/
inductive MatchingAt where
  | unborn
  /-- `std::unique_lock lk1(cv_m)` -/
  | lock
  /-- `cv_.wait` evaluates its predicate. -/
  | predicate
  /-- Inside `cv_.wait`, without the lock. -/
  | waiting
  /-- The test of the `while` loop. -/
  | loop
  /-- `std::lock_guard lck(cv_m)` -/
  | guard
  | pass (place : PassAt)
  /-- The destructor of `lk1`. -/
  | leave
  | done
  deriving DecidableEq

/-- Where `getOrder` stands. -/
inductive IntakeAt where
  | unborn
  /-- The test of the `while` loop. -/
  | loop
  /-- `orderDataInsert` before its `insert`. -/
  | insert (order : OrderPtr)
  /-- `cv_m.unlock()` at the end of `orderDataInsert`. -/
  | unlock
  | done
  deriving DecidableEq

structure BookLock where
  owner : Option LockThread := none
  connStatus : Bool
  testmode : Bool
  traderStatus : Bool := true
  serverStatus : Bool := false
  transaction : TransactionAt := .threads
  matching : MatchingAt := .unborn
  intake : IntakeAt := .unborn
  books : Books := .empty

inductive LockEvent where
  | startTransaction
  | matchup
  /-- An iteration of `getOrder` up to the call of `orderDataInsert`, if any. -/
  | getOrder (od : OrderPtr) (accepted : Bool)
  | orderDataInsert
  | setconnStatus (status : Bool)
  | setTraderStatus (status : Bool)
  | endTransaction

def Books.erasePair (odb : OrderPtr) (books : Books) : Books :=
  { books with
    rawSellside := books.rawSellside.erase (books.rawSellside.items.length - 1)
    rawBuyside := books.rawBuyside.erase (books.rawBuyside.items.idxOf odb) }

namespace BookLock

def acquire (state : BookLock) (thread : LockThread) (granted : BookLock) : BookLock × List LockUse :=
  (if state.owner = none then { granted with owner := some thread } else state,
    [.acquires thread state.owner])

def release (state : BookLock) (thread : LockThread) (released : BookLock) : BookLock × List LockUse :=
  ({ released with owner := none }, [.releases thread state.owner])

def touch (state : BookLock) (thread : LockThread) (touched : BookLock) : BookLock × List LockUse :=
  (touched, [.touches thread state.owner])

/-- A step of `startTransaction`. -/
def stepTransaction (state : BookLock) : Option (BookLock × List LockUse) :=
  match state.transaction with
  | .threads =>
      if state.connStatus ∧ state.testmode = false then
        some ({ state with transaction := .lock, matching := .lock, intake := .loop }, [])
      else
        some ({ state with transaction := .lock, serverStatus := true }, [])
  | .lock => some (state.acquire .startTransaction { state with transaction := .predicate })
  | .predicate =>
      if state.serverStatus then some ({ state with transaction := .leave }, [])
      else some (state.release .startTransaction { state with transaction := .waiting })
  | .waiting => some (state.acquire .startTransaction { state with transaction := .predicate })
  | .leave => some (state.release .startTransaction { state with transaction := .done })
  | .done => none

/-- A step inside the body of the `while` loop of `matchup`. -/
def stepPass (state : BookLock) : PassAt → Option (BookLock × List LockUse)
  | .sizes =>
      let buys := state.books.rawBuyside.items
      if buys = [] ∨ state.books.rawSellside.items = [] then
        some (state.touch .matchup { state with matching := .pass .leave })
      else
        some (state.touch .matchup { state with matching := .pass (.scan buys.head?) })
  | .scan none => some (state.touch .matchup { state with matching := .pass .leave })
  | .scan (some odb) =>
      match state.books.od, state.books.rawSellside.items.getLast? with
      | some od, some ods =>
          if ods.order.orderPrice ≤ od.orderPrice then
            some (state.touch .matchup { state with matching := .pass (.lock odb) })
          else
            let it := state.books.rawBuyside.items.find? (odb.address < ·.address)
            some (state.touch .matchup { state with matching := .pass (.scan it) })
      | _, _ => none
  | .lock odb => some (state.acquire .matchup { state with matching := .pass (.erase odb) })
  | .erase odb =>
      some (state.touch .matchup
        { state with matching := .pass .unlock, books := state.books.erasePair odb })
  | .unlock => some (state.release .matchup { state with matching := .pass .leave })
  | .leave => some (state.release .matchup { state with matching := .loop })

/-- A step of `matchup`. -/
def stepMatchup (state : BookLock) : Option (BookLock × List LockUse) :=
  match state.matching with
  | .unborn => none
  | .lock => some (state.acquire .matchup { state with matching := .predicate })
  | .predicate =>
      if state.connStatus then some ({ state with matching := .loop }, [])
      else some (state.release .matchup { state with matching := .waiting })
  | .waiting => some (state.acquire .matchup { state with matching := .predicate })
  | .loop =>
      if state.traderStatus then some ({ state with matching := .guard }, [])
      else some ({ state with matching := .leave }, [])
  | .guard => some (state.acquire .matchup { state with matching := .pass .sizes })
  | .pass place => state.stepPass place
  | .leave => some (state.release .matchup { state with matching := .done })
  | .done => none

def stepGetOrder (state : BookLock) (od : OrderPtr) (accepted : Bool) :
    Option (BookLock × List LockUse) :=
  match state.intake with
  | .loop =>
      if state.traderStatus then
        some ({ state with
          books := { state.books with od := some od.order }
          intake := if accepted then .insert od else .loop }, [])
      else some ({ state with intake := .done }, [])
  | _ => none

def stepInsert (state : BookLock) : Option (BookLock × List LockUse) :=
  match state.intake with
  | .insert order =>
      some (state.touch .getOrder
        { state with intake := .unlock, books := state.books.orderDataInsert order })
  | .unlock => some (state.release .getOrder { state with intake := .loop })
  | _ => none

def step (state : BookLock) : LockEvent → Option (BookLock × List LockUse)
  | .startTransaction => state.stepTransaction
  | .matchup => state.stepMatchup
  | .getOrder od accepted => state.stepGetOrder od accepted
  | .orderDataInsert => state.stepInsert
  | .setconnStatus status => some ({ state with connStatus := status }, [])
  | .setTraderStatus status => some ({ state with traderStatus := status }, [])
  | .endTransaction => some ({ state with serverStatus := true }, [])

/-- The process after `new Server` in `startTransaction`. -/
def start (connStatus testmode : Bool) : BookLock := { connStatus, testmode }

end BookLock

def bookLock : Machine BookLock LockEvent LockUse := ⟨BookLock.step⟩

/-- Every use of the lock and of the books in a step is as it should be. -/
def KeepsDiscipline (state : BookLock) (event : LockEvent) : Prop :=
  ∀ next uses, state.step event = some (next, uses) → ∀ use ∈ uses, use.Disciplined

/-- The step is neither that of `matchup` into the body of its loop nor that of
`orderDataInsert` which inserts. -/
def AvoidsBooks (state : BookLock) : LockEvent → Prop
  | .matchup => state.matching ≠ .guard
  | .orderDataInsert => ∀ order, state.intake ≠ .insert order
  | _ => True

@[simp]
def TransactionAt.owns : TransactionAt → Bool
  | .predicate | .leave => true
  | _ => false

@[simp]
def MatchingAt.owns : MatchingAt → Bool
  | .predicate | .loop | .guard | .leave => true
  | _ => false

namespace BookLock

@[simp]
def owns (state : BookLock) : LockThread → Bool
  | .startTransaction => state.transaction.owns
  | .matchup => state.matching.owns
  | .getOrder => false

structure Placed (state : BookLock) : Prop where
  outside : ∀ place, state.matching ≠ .pass place
  inserted : state.intake ≠ .unlock
  newborn : state.transaction = .threads → state.matching = .unborn

structure Orderly (state : BookLock) : Prop extends Placed state where
  owner : ∀ thread, state.owner = some thread ↔ state.owns thread = true

theorem orderly_start (connStatus testmode : Bool) : (start connStatus testmode).Orderly := by
  refine ⟨⟨by simp [start], by simp [start], by simp [start]⟩, ?_⟩
  intro thread
  cases thread <;> simp [start]

section

variable {state next : BookLock}

theorem acquire_orderly (orderly : state.Orderly) {thread : LockThread} {granted : BookLock}
    (free : state.owns thread = false) (gained : granted.owns thread = true)
    (others : ∀ other, other ≠ thread → granted.owns other = state.owns other)
    (placed : granted.Placed) :
    (∀ use ∈ (state.acquire thread granted).2, use.Disciplined) ∧
      (state.acquire thread granted).1.Orderly := by
  have notOwner : state.owner ≠ some thread := by
    intro owned
    rw [(orderly.owner thread).mp owned] at free
    cases free
  refine ⟨by simpa [acquire, LockUse.Disciplined] using notOwner, ?_⟩
  by_cases unowned : state.owner = none
  · simp only [acquire, if_pos unowned]
    refine ⟨⟨placed.outside, placed.inserted, placed.newborn⟩, ?_⟩
    intro other
    change some thread = some other ↔ granted.owns other = true
    by_cases same : other = thread
    · subst same
      exact iff_of_true rfl gained
    · rw [others other same, ← orderly.owner other, unowned, Option.some.injEq]
      exact iff_of_false (Ne.symm same) nofun
  · simp only [acquire, if_neg unowned]
    exact orderly

theorem release_orderly (orderly : state.Orderly) {thread : LockThread} {released : BookLock}
    (owned : state.owns thread = true) (lost : released.owns thread = false)
    (others : ∀ other, other ≠ thread → released.owns other = state.owns other)
    (placed : released.Placed) :
    (∀ use ∈ (state.release thread released).2, use.Disciplined) ∧
      (state.release thread released).1.Orderly := by
  have owner := (orderly.owner thread).mpr owned
  refine ⟨by simpa [release, LockUse.Disciplined] using owner, ?_⟩
  refine ⟨⟨placed.outside, placed.inserted, placed.newborn⟩, ?_⟩
  intro other
  apply iff_of_false nofun
  intro stillOwned
  change released.owns other = true at stillOwned
  by_cases same : other = thread
  · rw [same, lost] at stillOwned
    cases stillOwned
  · rw [others other same, ← orderly.owner other, owner, Option.some.injEq] at stillOwned
    exact same stillOwned.symm

theorem move_orderly (orderly : state.Orderly) (sameOwner : next.owner = state.owner)
    (sameOwns : ∀ thread, next.owns thread = state.owns thread) (placed : next.Placed) :
    (∀ use ∈ ([] : List LockUse), use.Disciplined) ∧ next.Orderly := by
  refine ⟨by simp, ⟨placed.outside, placed.inserted, placed.newborn⟩, ?_⟩
  intro thread
  rw [sameOwner, sameOwns, orderly.owner]

variable {uses : List LockUse}

theorem owns_transaction_moved (place : TransactionAt) (other : LockThread)
    (different : other ≠ .startTransaction) :
    owns { state with transaction := place } other = state.owns other := by
  cases other with
  | startTransaction => exact absurd rfl different
  | matchup | getOrder => rfl

theorem owns_matching_moved (place : MatchingAt) (other : LockThread)
    (different : other ≠ .matchup) :
    owns { state with matching := place } other = state.owns other := by
  cases other with
  | matchup => exact absurd rfl different
  | startTransaction | getOrder => rfl

theorem Placed.move_transaction (placed : state.Placed) {place : TransactionAt}
    (started : place ≠ .threads) : Placed { state with transaction := place } :=
  ⟨placed.outside, placed.inserted, fun new => absurd new started⟩

theorem Placed.move_matching (placed : state.Placed) {place : MatchingAt}
    (born : state.matching ≠ .unborn) (outside : ∀ inside, place ≠ .pass inside) :
    Placed { state with matching := place } :=
  ⟨outside, placed.inserted, fun new => absurd (placed.newborn new) born⟩

theorem transaction_orderly (orderly : state.Orderly)
    (stepped : state.stepTransaction = some (next, uses)) :
    (∀ use ∈ uses, use.Disciplined) ∧ next.Orderly := by
  have placed := orderly.toPlaced
  unfold stepTransaction at stepped
  split at stepped
  next standing =>
    have unborn := placed.newborn standing
    split at stepped
    next =>
      cases stepped
      refine move_orderly orderly rfl ?_ ⟨by simp, by simp, by simp⟩
      intro thread
      cases thread <;> simp [standing, unborn]
    next =>
      cases stepped
      refine move_orderly orderly rfl ?_ ⟨placed.outside, placed.inserted, by simp⟩
      intro thread
      cases thread <;> simp [standing]
  next standing =>
    cases stepped
    exact acquire_orderly orderly (by simp [standing]) rfl (owns_transaction_moved _)
      (placed.move_transaction (by simp))
  next standing =>
    split at stepped
    next =>
      cases stepped
      refine move_orderly orderly rfl ?_ (placed.move_transaction (by simp))
      intro thread
      cases thread <;> simp [standing]
    next =>
      cases stepped
      exact release_orderly orderly (by simp [standing]) rfl (owns_transaction_moved _)
        (placed.move_transaction (by simp))
  next standing =>
    cases stepped
    exact acquire_orderly orderly (by simp [standing]) rfl (owns_transaction_moved _)
      (placed.move_transaction (by simp))
  next standing =>
    cases stepped
    exact release_orderly orderly (by simp [standing]) rfl (owns_transaction_moved _)
      (placed.move_transaction (by simp))
  next => cases stepped

theorem matchup_orderly (orderly : state.Orderly) (notGuard : state.matching ≠ .guard)
    (stepped : state.stepMatchup = some (next, uses)) :
    (∀ use ∈ uses, use.Disciplined) ∧ next.Orderly := by
  have placed := orderly.toPlaced
  unfold stepMatchup at stepped
  split at stepped
  next => cases stepped
  next standing =>
    cases stepped
    exact acquire_orderly orderly (by simp [standing]) rfl (owns_matching_moved _)
      (placed.move_matching (by simp [standing]) (by simp))
  next standing =>
    split at stepped
    next =>
      cases stepped
      refine move_orderly orderly rfl ?_ (placed.move_matching (by simp [standing]) (by simp))
      intro thread
      cases thread <;> simp [standing]
    next =>
      cases stepped
      exact release_orderly orderly (by simp [standing]) rfl (owns_matching_moved _)
        (placed.move_matching (by simp [standing]) (by simp))
  next standing =>
    cases stepped
    exact acquire_orderly orderly (by simp [standing]) rfl (owns_matching_moved _)
      (placed.move_matching (by simp [standing]) (by simp))
  next standing =>
    -- Both ways out of the test keep the lock.
    split at stepped
    all_goals
      cases stepped
      refine move_orderly orderly rfl ?_ (placed.move_matching (by simp [standing]) (by simp))
      intro thread
      cases thread <;> simp [standing]
  next standing => exact absurd standing notGuard
  next place standing => exact absurd standing (placed.outside place)
  next standing =>
    cases stepped
    exact release_orderly orderly (by simp [standing]) rfl (owns_matching_moved _)
      (placed.move_matching (by simp [standing]) (by simp))
  next => cases stepped

theorem not_keepsDiscipline_guard (orderly : state.Orderly) (standing : state.matching = .guard) :
    ¬ KeepsDiscipline state .matchup := by
  intro disciplined
  have owner := (orderly.owner .matchup).mpr (by simp [standing])
  have stepped : state.step .matchup =
      some (state.acquire .matchup { state with matching := .pass .sizes }) := by
    simp only [step, stepMatchup, standing]
  exact disciplined _ _ stepped (.acquires .matchup state.owner) List.mem_cons_self owner

theorem not_keepsDiscipline_insert (orderly : state.Orderly) {order : OrderPtr}
    (standing : state.intake = .insert order) : ¬ KeepsDiscipline state .orderDataInsert := by
  intro disciplined
  have stepped : state.step .orderDataInsert = some (state.touch .getOrder
      { state with intake := .unlock, books := state.books.orderDataInsert order }) := by
    simp only [step, stepInsert, standing]
  have owned := disciplined _ _ stepped (.touches .getOrder state.owner) List.mem_cons_self
  exact absurd ((orderly.owner .getOrder).mp owned) (by simp)

theorem orderly_step (orderly : state.Orderly) {event : LockEvent}
    (avoids : AvoidsBooks state event) (stepped : state.step event = some (next, uses)) :
    (∀ use ∈ uses, use.Disciplined) ∧ next.Orderly := by
  have placed := orderly.toPlaced
  cases event with
  | startTransaction => exact transaction_orderly orderly stepped
  | matchup => exact matchup_orderly orderly avoids stepped
  | orderDataInsert =>
      simp only [step, stepInsert] at stepped
      split at stepped
      next order standing => exact absurd standing (avoids order)
      next standing => exact absurd standing placed.inserted
      next => cases stepped
  | getOrder od accepted =>
      simp only [step, stepGetOrder] at stepped
      split at stepped
      next =>
        split at stepped
        next =>
          cases stepped
          refine move_orderly orderly rfl ?_ ⟨placed.outside, ?_, placed.newborn⟩
          · intro thread
            cases thread <;> rfl
          · cases accepted <;> simp
        next =>
          cases stepped
          refine move_orderly orderly rfl ?_ ⟨placed.outside, by simp, placed.newborn⟩
          intro thread
          cases thread <;> rfl
      next => cases stepped
  | setconnStatus | setTraderStatus | endTransaction =>
      cases stepped
      refine move_orderly orderly rfl ?_ ⟨placed.outside, placed.inserted, placed.newborn⟩
      intro thread
      cases thread <;> rfl

theorem keepsDiscipline_iff (orderly : state.Orderly) (event : LockEvent) :
    KeepsDiscipline state event ↔ AvoidsBooks state event := by
  constructor
  · intro disciplined
    cases event with
    | matchup =>
        intro standing
        exact not_keepsDiscipline_guard orderly standing disciplined
    | orderDataInsert =>
        intro order standing
        exact not_keepsDiscipline_insert orderly standing disciplined
    | _ => trivial
  · intro avoids next uses stepped
    exact (orderly_step orderly avoids stepped).1

end

end BookLock

/-- Whatever the order of the steps, `cv_m` is used as a lock that protects the
books exactly until `matchup` comes to the body of its loop or `orderDataInsert`
to its insert. -/
theorem lock_discipline_iff (connStatus testmode : Bool) (events : List LockEvent) :
    bookLock.Along KeepsDiscipline (.start connStatus testmode) events ↔
      bookLock.Along AvoidsBooks (.start connStatus testmode) events := by
  apply bookLock.along_congr_of_invariant BookLock.Orderly
  · intro state event next uses orderly disciplined stepped
    have avoids := (BookLock.keepsDiscipline_iff orderly event).mp disciplined
    exact (BookLock.orderly_step orderly avoids stepped).2
  · intro state event orderly
    exact BookLock.keepsDiscipline_iff orderly event
  · exact BookLock.orderly_start connStatus testmode

def lockedOrder : OrderPtr where
  address := 10
  order := { nid := "1".toList, orderPrice := .fin 60, side := 1, side_ := some .buy }

/-- `matchup` reaches its loop, and an order is accepted. -/
def lockRun : List LockEvent := [
  .startTransaction, .matchup, .matchup, .matchup, .matchup,
  .getOrder lockedOrder true, .orderDataInsert, .orderDataInsert]

/-- `matchup` acquires what it owns, and `getOrder` changes a book and releases
the lock while `matchup` owns it. -/
theorem lock_discipline_broken :
    ∃ state uses, bookLock.run (.start true false) lockRun = some (state, uses) ∧
      .acquires .matchup (some .matchup) ∈ uses ∧
      .touches .getOrder (some .matchup) ∈ uses ∧
      .releases .getOrder (some .matchup) ∈ uses ∧
      ¬ ∀ use ∈ uses, use.Disciplined := by
  obtain ⟨state, uses, finished, evaluated⟩ :=
    Machine.exists_run_of_any bookLock (.start true false) lockRun
      (fun _ uses => decide (.acquires .matchup (some .matchup) ∈ uses ∧
        .touches .getOrder (some .matchup) ∈ uses ∧
        .releases .getOrder (some .matchup) ∈ uses))
      (by decide +kernel)
  obtain ⟨acquires, touches, releases⟩ := of_decide_eq_true evaluated
  refine ⟨state, uses, finished, acquires, touches, releases, ?_⟩
  intro disciplined
  exact disciplined _ acquires rfl

theorem erasePair_of_pass {books next : Books} {odb ods : OrderPtr}
    (pass : books.Pass next (some (odb, ods))) :
    ∃ buy, books.rawBuyside.items.head? = some buy ∧ odb.unexecuted = buy.unexecuted ∧
      next = books.erasePair buy := by
  cases pass with
  | executes od buy sell received first last crossed =>
      refine ⟨buy, first, rfl, ?_⟩
      obtain ⟨rest, buys⟩ := List.head?_eq_some_iff.mp first
      rw [Books.erasePair, buys, List.idxOf_cons_self]

end InertiaTrader
