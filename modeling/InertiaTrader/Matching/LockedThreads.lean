import InertiaTrader.Matching.BookLock
import InertiaTrader.Orders.Stages

/-!
# The threads with the lock of the books

A pass of `matchup` step by step, between the steps of all other threads.  It
locks `cv_m` when it begins and again when it has found a pair, pushes the pair
while both orders still rest in their books, and then erases the buy order it
found and the sell order that is the last one by then.  An iteration of
`getOrder` is one step, which frees `cv_m` when it puts an order into a book.
-/

namespace InertiaTrader

open Foundation

/-- Where `matchup` stands, with the locals that are still used. -/
inductive Place where
  /-- `std::unique_lock lk1(cv_m)` -/
  | lock
  /-- `cv_.wait` evaluates its predicate. -/
  | predicate
  /-- Inside `cv_.wait`, without the lock. -/
  | waiting
  /-- The test of the `while` loop. -/
  | loop
  /-- `std::lock_guard lck(cv_m)` -/
  | guard
  | sizes
  /-- The test of the `for` loop and of the prices; `none` is the end iterator. -/
  | scan (it : Option OrderPtr)
  /-- `cv_m.lock()` -/
  | chosen (odb ods : OrderPtr)
  /-- The execution prices and the quote are set. -/
  | price (odb ods : OrderPtr)
  | pushBuy (odb ods : OrderPtr)
  | pushSell (odb ods : OrderPtr)
  | erase (odb ods : OrderPtr)
  /-- `cv_m.unlock()` -/
  | unlock
  /-- The destructor of `lck`. -/
  | endPass
  /-- The destructor of `lk1`. -/
  | leave
  | done
  deriving DecidableEq

/-- The state of all threads, where `threads` has the state that they share and
`pushing` is not used. -/
structure LockedThreads where
  threads : Threads
  owner : Option LockThread := none
  transaction : TransactionAt := .lock
  matching : Place := .lock

inductive LockedEvent where
  /-- A step of `startTransaction`, which finds `serverstatus` as given. -/
  | startTransaction (serverStatus : Bool)
  /-- A step of `matchup`, for which `getconnStatus` or `getTraderStatus` returns
  the status. -/
  | matchup (status : Bool)
  | other (event : Event)

inductive LockedOutput where
  | shows (observation : Observation)
  | uses (use : LockUse)
  deriving DecidableEq

namespace LockedThreads

def acquire (state : LockedThreads) (thread : LockThread) (granted : LockedThreads) :
    LockedThreads × List LockedOutput :=
  (if state.owner = none then { granted with owner := some thread } else state,
    [.uses (.acquires thread state.owner)])

def release (state : LockedThreads) (thread : LockThread) (released : LockedThreads) :
    LockedThreads × List LockedOutput :=
  ({ released with owner := none }, [.uses (.releases thread state.owner)])

def touch (state : LockedThreads) (thread : LockThread) (touched : LockedThreads) :
    LockedThreads × List LockedOutput :=
  (touched, [.uses (.touches thread state.owner)])

/-- A step of `startTransaction`, which has started the threads already. -/
def stepTransaction (state : LockedThreads) (serverStatus : Bool) :
    Option (LockedThreads × List LockedOutput) :=
  match state.transaction with
  | .threads | .done => none
  | .lock | .waiting =>
      some (state.acquire .startTransaction { state with transaction := .predicate })
  | .predicate =>
      if serverStatus then some ({ state with transaction := .leave }, [])
      else some (state.release .startTransaction { state with transaction := .waiting })
  | .leave => some (state.release .startTransaction { state with transaction := .done })

/-- `reportList_.push_back` in `matchup`. -/
def pushReport (state : LockedThreads) (order : OrderPtr) (place : Place) :
    LockedThreads × List LockedOutput :=
  ({ state with
    threads := { state.threads with trader := state.threads.trader.pushReport order }
    matching := place }, [.shows (.pushed order)])

/-- A step of `matchup`. -/
def stepMatchup (state : LockedThreads) (status : Bool) :
    Option (LockedThreads × List LockedOutput) :=
  let trader := state.threads.trader
  match state.matching with
  | .lock | .waiting => some (state.acquire .matchup { state with matching := .predicate })
  | .predicate =>
      if status then some ({ state with matching := .loop }, [])
      else some (state.release .matchup { state with matching := .waiting })
  | .loop => some ({ state with matching := if status then .guard else .leave }, [])
  | .guard => some (state.acquire .matchup { state with matching := .sizes })
  | .sizes =>
      if trader.rawBuyside.items = [] ∨ trader.rawSellside.items = [] then
        some (state.touch .matchup { state with matching := .endPass })
      else
        some (state.touch .matchup { state with matching := .scan trader.rawBuyside.items.head? })
  | .scan none => some (state.touch .matchup { state with matching := .endPass })
  | .scan (some odb) =>
      match trader.od, trader.rawSellside.items.getLast? with
      | some od, some ods =>
          if ods.order.orderPrice ≤ od.orderPrice then
            some (state.touch .matchup { state with matching := .chosen odb ods })
          else
            let it := trader.rawBuyside.items.find? (odb.address < ·.address)
            some (state.touch .matchup { state with matching := .scan it })
      | _, _ => none
  | .chosen odb ods => some (state.acquire .matchup { state with matching := .price odb ods })
  | .price odb ods =>
      let execPrice := ods.order.orderPrice
      match trader.sr.quoteUpdate "KKC".toList execPrice with
      | .error _ => none
      | .ok sr => some ({ state with
          threads := { state.threads with trader := { trader with sr } }
          matching := .pushBuy odb ods },
          [.shows (.executed (odb.withExecPrice execPrice) (ods.withExecPrice execPrice))])
  | .pushBuy odb ods =>
      some (state.pushReport (odb.withExecPrice ods.order.orderPrice) (.pushSell odb ods))
  | .pushSell odb ods =>
      some (state.pushReport (ods.withExecPrice ods.order.orderPrice) (.erase odb ods))
  | .erase odb _ =>
      -- `std::prev` of the end of an empty set is undefined.
      if trader.rawSellside.items = [] then none
      else some (state.touch .matchup { state with
        threads := { state.threads with
          trader := { trader with toBooks := trader.toBooks.erasePair odb } }
        matching := .unlock })
  | .unlock => some (state.release .matchup { state with matching := .endPass })
  | .endPass => some (state.release .matchup { state with matching := .loop })
  | .leave => some (state.release .matchup { state with matching := .done })
  | .done => none

def stepOther (server : MariaDB) (state : LockedThreads) (event : Event) :
    Option (LockedThreads × List LockedOutput) :=
  match event with
  | .matchup | .pushReport => none
  | event =>
      match state.threads.step server event with
      | none => none
      | some (threads, observations) =>
          if insertedIn observations = [] then
            some ({ state with threads }, observations.map .shows)
          else
            some ({ state with threads, owner := none }, observations.map .shows ++
              [.uses (.touches .getOrder state.owner), .uses (.releases .getOrder state.owner)])

def step (server : MariaDB) (state : LockedThreads) :
    LockedEvent → Option (LockedThreads × List LockedOutput)
  | .startTransaction serverStatus => state.stepTransaction serverStatus
  | .matchup status => state.stepMatchup status
  | .other event => state.stepOther server event

/-- The threads that `startTransaction` has just started. -/
def start (trader : Trader) : LockedThreads := { threads := .start trader }

end LockedThreads

/-- The trading process with `cv_m` as a machine. -/
def lockedThreads (server : MariaDB) : Machine LockedThreads LockedEvent LockedOutput :=
  ⟨LockedThreads.step server⟩

/-- What the threads make visible apart from their use of the lock. -/
def LockedOutput.observation : LockedOutput → Option Observation
  | .shows observation => some observation
  | .uses _ => none

def shownIn (outputs : List LockedOutput) : List Observation :=
  outputs.filterMap LockedOutput.observation

@[simp]
theorem shownIn_shows (observations : List Observation) :
    shownIn (observations.map .shows) = observations := by
  rw [shownIn, List.filterMap_map]
  exact List.filterMap_some

@[simp]
theorem shownIn_uses (uses : List LockUse) : shownIn (uses.map .uses) = [] := by
  rw [shownIn, List.filterMap_map, List.filterMap_eq_nil_iff]
  exact fun _ _ => rfl

@[simp]
theorem shownIn_append (first second : List LockedOutput) :
    shownIn (first ++ second) = shownIn first ++ shownIn second :=
  List.filterMap_append

theorem mem_shownIn {outputs : List LockedOutput} {observation : Observation} :
    observation ∈ shownIn outputs ↔ .shows observation ∈ outputs := by
  rw [shownIn, List.mem_filterMap]
  constructor
  · rintro ⟨output, isOutput, shows⟩
    cases output with
    | shows => exact Option.some.inj shows ▸ isOutput
    | uses => cases shows
  · exact fun isOutput => ⟨_, isOutput, rfl⟩

namespace Place

def granted : Place → Option Place
  | .lock | .waiting => some .predicate
  | .guard => some .sizes
  | .chosen odb ods => some (.price odb ods)
  | _ => none

def released (status : Bool) : Place → Option Place
  | .predicate => if status then none else some .waiting
  | .unlock => some .endPass
  | .endPass => some .loop
  | .leave => some .done
  | _ => none

def searching : Place → Bool
  | .sizes | .scan _ | .chosen .. => true
  | _ => false

def pricing : Place → Bool
  | .price .. => true
  | _ => false

/-- The buy order that the pass stands at. -/
def buy : Place → Option OrderPtr
  | .scan it => it
  | .chosen odb _ | .price odb _ | .pushBuy odb _ | .pushSell odb _ | .erase odb _ => some odb
  | _ => none

/-- The sell order that the pass has found. -/
def sell : Place → Option OrderPtr
  | .chosen _ ods | .price _ ods | .pushBuy _ ods | .pushSell _ ods | .erase _ ods => some ods
  | _ => none

/-- The pair that is executed and still rests in the books. -/
def taken : Place → List OrderPtr
  | .pushBuy odb ods | .pushSell odb ods | .erase odb ods => [odb, ods]
  | _ => []

def pending : Place → List OrderPtr
  | .pushBuy odb ods => [odb, ods]
  | .pushSell _ ods => [ods]
  | _ => []

structure Moves (place next : Place) : Prop where
  different : next ≠ place
  unlocked : place.granted = none
  taken : next.taken = [] ∧ place.taken = []
  pending : next.pending = [] ∧ place.pending = []
  searching : next.searching = true → place.searching = true
  pricing : next.pricing = false

section

variable {place next : Place} {status : Bool}

theorem granted_keeps (granted : place.granted = some next) :
    next.buy = place.buy ∧ next.sell = place.sell ∧ next.taken = [] ∧ place.taken = [] ∧
      next.pending = [] ∧ place.pending = [] := by
  cases place <;> cases granted <;> simp [buy, sell, taken, pending]

theorem searching_of_granted (granted : place.granted = some next)
    (isPricing : next.pricing = true) : place.searching = true := by
  cases place <;> cases granted <;> first | rfl | cases isPricing

theorem released_keeps (released : place.released status = some next) :
    next.buy = none ∧ next.sell = none ∧ next.taken = [] ∧ place.taken = [] ∧
      next.pending = [] ∧ place.pending = [] ∧ next.searching = false ∧ next.pricing = false := by
  cases place <;> simp only [Place.released, reduceCtorEq, Option.ite_none_left_eq_some] at released
  case predicate =>
    cases released.2
    simp [buy, sell, taken, pending, searching, pricing]
  all_goals
    cases released
    simp [buy, sell, taken, pending, searching, pricing]

theorem released_moves (released : place.released status = some next) :
    next ≠ place ∧ place.granted = none := by
  cases place <;> simp only [Place.released, reduceCtorEq, Option.ite_none_left_eq_some] at released
  case predicate =>
    cases released.2
    simp [granted]
  all_goals
    cases released
    simp [granted]

end

end Place

namespace LockedThreads

/-- What a step of `startTransaction` can do. -/
inductive TransactionStep (state : LockedThreads) :
    LockedThreads → List LockedOutput → Prop where
  | waits :
      state.owner ≠ none →
      TransactionStep state state [.uses (.acquires .startTransaction state.owner)]
  | takes (place : TransactionAt) :
      state.owner = none →
      TransactionStep state { state with owner := some .startTransaction, transaction := place }
        [.uses (.acquires .startTransaction none)]
  | drops (place : TransactionAt) :
      TransactionStep state { state with owner := none, transaction := place }
        [.uses (.releases .startTransaction state.owner)]
  | goes (place : TransactionAt) :
      TransactionStep state { state with transaction := place } []

/-- What a step of `matchup` can do, guards included. -/
inductive MatchupStep (state : LockedThreads) (status : Bool) :
    LockedThreads → List LockedOutput → Prop where
  | waits (place : Place) :
      state.matching.granted = some place → state.owner ≠ none →
      MatchupStep state status state [.uses (.acquires .matchup state.owner)]
  | takes (place : Place) :
      state.matching.granted = some place → state.owner = none →
      MatchupStep state status { state with owner := some .matchup, matching := place }
        [.uses (.acquires .matchup none)]
  | drops (place : Place) :
      state.matching.released status = some place →
      MatchupStep state status { state with owner := none, matching := place }
        [.uses (.releases .matchup state.owner)]
  /-- A move on its own, which may look at the books. -/
  | goes (place : Place) (uses : List LockUse) :
      (∀ use ∈ uses, use = .touches .matchup state.owner) → state.matching.Moves place →
      (∀ odb, place.buy = some odb →
        (state.matching.buy = some odb ∨ odb ∈ state.threads.trader.rawBuyside.items) ∧
          state.threads.trader.rawSellside.items ≠ []) →
      (∀ ods, place.sell = some ods →
        state.threads.trader.rawSellside.items.getLast? = some ods) →
      MatchupStep state status { state with matching := place } (uses.map .uses)
  | prices (odb ods : OrderPtr) (sr : Server) :
      state.matching = .price odb ods →
      state.threads.trader.sr.quoteUpdate "KKC".toList ods.order.orderPrice = .ok sr →
      MatchupStep state status
        { state with
          threads := { state.threads with trader := { state.threads.trader with sr } }
          matching := .pushBuy odb ods }
        [.shows (.executed (odb.withExecPrice ods.order.orderPrice)
          (ods.withExecPrice ods.order.orderPrice))]
  | pushesBuy (odb ods : OrderPtr) :
      state.matching = .pushBuy odb ods →
      MatchupStep state status
        (state.pushReport (odb.withExecPrice ods.order.orderPrice) (.pushSell odb ods)).1
        [.shows (.pushed (odb.withExecPrice ods.order.orderPrice))]
  | pushesSell (odb ods : OrderPtr) :
      state.matching = .pushSell odb ods →
      MatchupStep state status
        (state.pushReport (ods.withExecPrice ods.order.orderPrice) (.erase odb ods)).1
        [.shows (.pushed (ods.withExecPrice ods.order.orderPrice))]
  | erases (odb ods : OrderPtr) :
      state.matching = .erase odb ods →
      state.threads.trader.rawSellside.items ≠ [] →
      MatchupStep state status
        { state with
          threads := { state.threads with
            trader := { state.threads.trader with
              toBooks := state.threads.trader.toBooks.erasePair odb } }
          matching := .unlock }
        [.uses (.touches .matchup state.owner)]

section

variable {server : MariaDB} {state next : LockedThreads} {status : Bool} {event : Event}
    {outputs : List LockedOutput}

theorem TransactionStep.of_acquire (place : TransactionAt) :
    TransactionStep state
      (state.acquire .startTransaction { state with transaction := place }).1
      (state.acquire .startTransaction { state with transaction := place }).2 := by
  by_cases unowned : state.owner = none
  · simp only [acquire, unowned, if_true]
    exact .takes place unowned
  · simp only [acquire, unowned, if_false]
    exact .waits unowned

theorem stepTransaction_cases (stepped : state.stepTransaction status = some (next, outputs)) :
    TransactionStep state next outputs := by
  unfold stepTransaction at stepped
  split at stepped
  next => cases stepped
  next => cases stepped
  next =>
    cases stepped
    exact .of_acquire _
  next =>
    cases stepped
    exact .of_acquire _
  next =>
    split at stepped
    next =>
      cases stepped
      exact .goes _
    next =>
      cases stepped
      exact .drops _
  next =>
    cases stepped
    exact .drops _

theorem MatchupStep.of_acquire {place : Place} (waiting : state.matching.granted = some place) :
    MatchupStep state status
      (state.acquire .matchup { state with matching := place }).1
      (state.acquire .matchup { state with matching := place }).2 := by
  by_cases unowned : state.owner = none
  · simp only [acquire, unowned, if_true]
    exact .takes place waiting unowned
  · simp only [acquire, unowned, if_false]
    exact .waits place waiting unowned

theorem MatchupStep.of_move {place : Place} (uses : List LockUse)
    (touches : ∀ use ∈ uses, use = .touches .matchup state.owner)
    (moves : state.matching.Moves place) (noBuy : place.buy = none) (noSell : place.sell = none) :
    MatchupStep state status { state with matching := place } (uses.map .uses) := by
  refine .goes place uses touches moves ?_ ?_
  · intro odb atBuy
    rw [noBuy] at atBuy
    cases atBuy
  · intro ods atSell
    rw [noSell] at atSell
    cases atSell

theorem scan_cases {odb : OrderPtr} (standing : state.matching = .scan (some odb))
    (stepped : state.stepMatchup status = some (next, outputs)) :
    MatchupStep state status next outputs := by
  unfold stepMatchup at stepped
  simp only [standing] at stepped
  split at stepped
  next od ods received isLast =>
    have nonempty : state.threads.trader.rawSellside.items ≠ [] := by
      intro empty
      rw [empty] at isLast
      cases isLast
    split at stepped
    next =>
      cases stepped
      refine .goes (.chosen odb ods) [.touches .matchup state.owner] (by simp) ?_ ?_ ?_
      · rw [standing]
        exact ⟨nofun, rfl, ⟨rfl, rfl⟩, ⟨rfl, rfl⟩, fun _ => rfl, rfl⟩
      · intro _ atBuy
        cases atBuy
        exact ⟨.inl (by rw [standing]; rfl), nonempty⟩
      · intro _ atSell
        cases atSell
        exact isLast
    next =>
      cases stepped
      refine .goes (.scan _) [.touches .matchup state.owner] (by simp) ?_ ?_ (by simp [Place.sell])
      · rw [standing]
        refine ⟨?_, rfl, ⟨rfl, rfl⟩, ⟨rfl, rfl⟩, fun _ => rfl, rfl⟩
        intro same
        have later := List.find?_some (Place.scan.inj same)
        simp at later
      · intro other atBuy
        exact ⟨.inr (List.mem_of_find?_eq_some atBuy), nonempty⟩
  next => cases stepped

theorem stepMatchup_cases (stepped : state.stepMatchup status = some (next, outputs)) :
    MatchupStep state status next outputs := by
  cases standing : state.matching with
  | lock | waiting | guard | chosen =>
      simp only [stepMatchup, standing] at stepped
      cases stepped
      exact .of_acquire (by rw [standing]; rfl)
  | unlock | endPass | leave =>
      simp only [stepMatchup, standing] at stepped
      cases stepped
      exact .drops _ (by rw [standing]; rfl)
  | predicate =>
      simp only [stepMatchup, standing] at stepped
      split at stepped
      next =>
        cases stepped
        refine .of_move [] (by simp) ?_ rfl rfl
        rw [standing]
        exact ⟨nofun, rfl, ⟨rfl, rfl⟩, ⟨rfl, rfl⟩, nofun, rfl⟩
      next off =>
        cases stepped
        exact .drops .waiting (by simp [standing, Place.released, off])
  | loop =>
      simp only [stepMatchup, standing] at stepped
      cases stepped
      refine .of_move [] (by simp) ?_ ?_ ?_
      · rw [standing]
        cases status <;> exact ⟨nofun, rfl, ⟨rfl, rfl⟩, ⟨rfl, rfl⟩, nofun, rfl⟩
      · cases status <;> rfl
      · cases status <;> rfl
  | sizes =>
      simp only [stepMatchup, standing] at stepped
      split at stepped
      next =>
        cases stepped
        refine .of_move [.touches .matchup state.owner] (by simp) ?_ rfl rfl
        rw [standing]
        exact ⟨nofun, rfl, ⟨rfl, rfl⟩, ⟨rfl, rfl⟩, nofun, rfl⟩
      next nonempty =>
        cases stepped
        refine .goes (.scan _) [.touches .matchup state.owner] (by simp) ?_ ?_
          (by simp [Place.sell])
        · rw [standing]
          exact ⟨nofun, rfl, ⟨rfl, rfl⟩, ⟨rfl, rfl⟩, fun _ => rfl, rfl⟩
        · intro odb first
          exact ⟨.inr (List.mem_of_mem_head? first), (not_or.mp nonempty).2⟩
  | scan it =>
      cases it with
      | some odb => exact scan_cases standing stepped
      | none =>
          simp only [stepMatchup, standing] at stepped
          cases stepped
          refine .of_move [.touches .matchup state.owner] (by simp) ?_ rfl rfl
          rw [standing]
          exact ⟨nofun, rfl, ⟨rfl, rfl⟩, ⟨rfl, rfl⟩, nofun, rfl⟩
  | price odb ods =>
      simp only [stepMatchup, standing] at stepped
      split at stepped
      next => cases stepped
      next sr quoted =>
        cases stepped
        exact .prices odb ods sr standing quoted
  | pushBuy odb ods =>
      simp only [stepMatchup, standing] at stepped
      cases stepped
      exact .pushesBuy odb ods standing
  | pushSell odb ods =>
      simp only [stepMatchup, standing] at stepped
      cases stepped
      exact .pushesSell odb ods standing
  | erase odb ods =>
      simp only [stepMatchup, standing] at stepped
      split at stepped
      next => cases stepped
      next nonempty =>
        cases stepped
        exact .erases odb ods standing nonempty
  | done =>
      simp only [stepMatchup, standing] at stepped
      cases stepped

theorem stepOther_cases (stepped : state.stepOther server event = some (next, outputs)) :
    ∃ (threads : Threads) (observations : List Observation) (owner : Option LockThread)
      (uses : List LockUse), event ≠ .matchup ∧ event ≠ .pushReport ∧
      state.threads.step server event = some (threads, observations) ∧
      next = { state with threads, owner } ∧
      outputs = observations.map .shows ++ uses.map .uses ∧
      (insertedIn observations = [] → owner = state.owner) := by
  unfold stepOther at stepped
  split at stepped
  next => cases stepped
  next => cases stepped
  next notPass notPush =>
    split at stepped
    next => cases stepped
    next threads observations stepped' =>
      split at stepped
      next none =>
        cases stepped
        exact ⟨threads, observations, state.owner, [], notPass, notPush, stepped', rfl,
          (List.append_nil _).symm, fun _ => rfl⟩
      next some =>
        cases stepped
        exact ⟨threads, observations, none, [_, _], notPass, notPush, stepped', rfl, rfl,
          fun none => absurd none some⟩

theorem exists_stepOther {threads : Threads} {observations : List Observation}
    (notPass : event ≠ .matchup) (notPush : event ≠ .pushReport)
    (stepped : state.threads.step server event = some (threads, observations)) :
    ∃ owner outputs,
      state.step server (.other event) = some ({ state with threads, owner }, outputs) := by
  simp only [step, stepOther, stepped]
  split
  next => exact ⟨state.owner, _, rfl⟩
  next => exact ⟨none, _, rfl⟩

/-- The other threads go on as if there were no lock. -/
theorem exists_run_other {events : List Event} {threads : Threads}
    {observations : List Observation}
    (others : ∀ event ∈ events, event ≠ .matchup ∧ event ≠ .pushReport)
    (ran : (InertiaTrader.threads server).run state.threads events =
      some (threads, observations)) :
    ∃ owner outputs, (lockedThreads server).run state (events.map .other) =
      some ({ state with threads, owner }, outputs) := by
  induction events generalizing state observations with
  | nil =>
      cases ran
      exact ⟨state.owner, [], rfl⟩
  | cons event rest inductionHypothesis =>
      obtain ⟨next, _, _, stepped, goesOn, -⟩ := (Machine.run_cons_iff ..).mp ran
      obtain ⟨⟨notPass, notPush⟩, others⟩ := List.forall_mem_cons.mp others
      obtain ⟨owner, now, stepped'⟩ := exists_stepOther notPass notPush stepped
      let reached : LockedThreads := { state with threads := next, owner }
      have fromNext : (InertiaTrader.threads server).run reached.threads rest = _ := goesOn
      obtain ⟨owner', after, ran'⟩ := inductionHypothesis others fromNext
      exact ⟨owner', now ++ after,
        (Machine.run_cons_iff ..).mpr ⟨reached, now, after, stepped', ran', rfl⟩⟩

structure Standing (state : LockedThreads) : Prop where
  buy : ∀ odb, state.matching.buy = some odb →
    odb ∈ state.threads.trader.rawBuyside.items ∧ state.threads.trader.rawSellside.items ≠ []
  sell : ∀ ods, state.matching.sell = some ods →
    ods ∈ state.threads.trader.rawSellside.items

theorem Standing.keep (standing : state.Standing)
    (buys : state.threads.trader.rawBuyside.items ⊆ next.threads.trader.rawBuyside.items)
    (sells : state.threads.trader.rawSellside.items ⊆ next.threads.trader.rawSellside.items)
    (buy : ∀ odb, next.matching.buy = some odb → state.matching.buy = some odb)
    (sell : ∀ ods, next.matching.sell = some ods → state.matching.sell = some ods) :
    next.Standing where
  buy odb atBuy := by
    obtain ⟨rests, nonempty⟩ := standing.buy odb (buy odb atBuy)
    exact ⟨buys rests, fun empty => nonempty (List.subset_nil.mp (empty ▸ sells))⟩
  sell ods atSell := sells (standing.sell ods (sell ods atSell))

theorem standing_matchup (standing : state.Standing)
    (stepped : state.stepMatchup status = some (next, outputs)) : next.Standing := by
  have same (orders : List OrderPtr) : orders ⊆ orders := List.Subset.refl orders
  cases stepMatchup_cases stepped with
  | waits => exact standing
  | takes place granted =>
      obtain ⟨buy, sell, -⟩ := Place.granted_keeps granted
      exact standing.keep (same _) (same _) (fun _ atBuy => buy ▸ atBuy)
        fun _ atSell => sell ▸ atSell
  | drops place released =>
      obtain ⟨buy, sell, -⟩ := Place.released_keeps released
      exact standing.keep (same _) (same _) (by simp [buy]) (by simp [sell])
  | goes place uses touches moves buy sell =>
      constructor
      · intro odb atBuy
        obtain ⟨before | rests, nonempty⟩ := buy odb atBuy
        · exact standing.buy odb before
        · exact ⟨rests, nonempty⟩
      · intro ods atSell
        exact List.mem_of_getLast? (sell ods atSell)
  | prices odb ods sr atPair =>
      exact standing.keep (same _) (same _) (fun _ atBuy => by rw [atPair]; exact atBuy)
        fun _ atSell => by rw [atPair]; exact atSell
  | pushesBuy odb ods atPair | pushesSell odb ods atPair =>
      exact standing.keep (same _) (same _) (fun _ atBuy => by rw [atPair]; exact atBuy)
        fun _ atSell => by rw [atPair]; exact atSell
  | erases => exact ⟨by simp [Place.buy], by simp [Place.sell]⟩

theorem standing_step {event : LockedEvent} (standing : state.Standing)
    (stepped : state.step server event = some (next, outputs)) : next.Standing := by
  cases event with
  | startTransaction serverStatus =>
      cases stepTransaction_cases stepped <;> exact ⟨standing.buy, standing.sell⟩
  | matchup status => exact standing_matchup standing stepped
  | other event =>
      obtain ⟨threads, observations, owner, uses, notPass, notPush, stepped', rfl, -, -⟩ :=
        stepOther_cases stepped
      have kept := (otherStep stepped' notPass notPush).subset
      exact standing.keep kept.1 kept.2 (fun _ => id) fun _ => id

theorem standing_start (trader : Trader) : (start trader).Standing :=
  ⟨by simp [start, Place.buy], by simp [start, Place.sell]⟩

end

end LockedThreads

end InertiaTrader
