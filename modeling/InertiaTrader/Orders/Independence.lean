import InertiaTrader.Foundation.TableHistory
import InertiaTrader.Foundation.Thinning
import InertiaTrader.Orders.NumeralTexts

/-!
# What trading depends on

Neither the orders that were loaded, nor the messages for `getCancelOrder`, nor
what the database holds or answers reaches the books.  Cancelling and modifying
orders, and the database as a whole, therefore make no difference to what is
executed and reported.
-/

namespace InertiaTrader

open Foundation

namespace Trader

/-- The trader over other tables, with other orders loaded and other messages
waiting for `getCancelOrder`. -/
def beside (db : Database) (buyside sellside : OrderVector) (dqOrderhandle : List Text)
    (trader : Trader) : Trader :=
  { trader with db, buyside, sellside, sr := { trader.sr with dqOrderhandle } }

/-- The converse of the case analysis: each of the three ways is one of
`handleOrder`. -/
theorem handleOrder_of_handling {server : MariaDB} {address : ℕ} {connected : Bool} {connId : ℤ}
    {od : Order} {trader next : Trader} {cn : ConnRef} {observations : List Observation}
    (found : trader.sr.getConnObject connId = some cn)
    (handling : Handling server address connected connId od trader cn next observations) :
    handleOrder server address connected connId od trader = .ok (next, observations) := by
  unfold handleOrder
  simp only [verify_orderstatus, balanceTest_verify]
  have refused (reason : Text) := (refuseOrder_eq_ok_iff reason (trader.rc.verify od)
    { trader with od := some (trader.rc.verify od) }).mpr ⟨cn, found, rfl⟩
  simp only [verify_nid] at refused
  cases handling with
  | failed rejected =>
      rw [if_neg (by rw [rejected]; decide)]
      exact refused _
  | insufficient username passed tested =>
      rw [if_pos passed]
      exact bind_eq_ok_iff.mpr ⟨_, tested, bind_eq_ok_iff.mpr ⟨_, refused _, rfl⟩⟩
  | accepted username passed tested =>
      rw [if_pos passed]
      have answered := (acceptOrder_eq_ok_iff server address connected od trader
        (trader.rc.verify od)).mpr ⟨cn, found, rfl⟩
      exact bind_eq_ok_iff.mpr ⟨_, tested, bind_eq_ok_iff.mpr ⟨_, answered, rfl⟩⟩

theorem getOrder_of_handling {server : MariaDB} {address : ℕ} {connected : Bool} {connId : ℤ}
    {od : Order} {trader next : Trader} {cn : ConnRef} {observations : List Observation}
    {msg : Text} {rest : List Text} (queued : trader.sr.dq = msg :: rest)
    (built : newOrder (split msg "|".toList) = .ok od) (sender : od.connId = some connId)
    (found : trader.sr.getConnObject connId = some cn)
    (handling : Handling server address connected connId od
      { trader with sr := { trader.sr with dq := rest } } cn next observations) :
    trader.getOrder server address connected = .ok (next, observations) := by
  obtain ⟨connText, connId', connField, connRead, sender'⟩ := newOrder_connId built
  obtain rfl : connId = connId' := Option.some.inj (sender.symm.trans sender')
  have found' : ({ trader with sr := { trader.sr with dq := rest } } : Trader).sr.getConnObject
      connId = some cn := found
  have handled := handleOrder_of_handling found' handling
  simp only [getOrder, queued]
  apply bind_eq_ok_iff.mpr ⟨od, built, _⟩
  apply bind_eq_ok_iff.mpr ⟨connText, field_eq_ok_iff.mpr connField, _⟩
  exact bind_eq_ok_iff.mpr ⟨connId, convert_eq_ok_iff.mpr connRead, handled⟩

end Trader

/-- What `getOrder`, `matchup` and the reports show, apart from the text they send. -/
def Observation.ofOrders : Observation → Option Observation
  | .sent .. | .updated .. | .amended .. => none
  | observation => some observation

def Observation.ofTrading : Observation → Option Observation
  | .ordered od _ => some (.ordered od [])
  | observation => observation.ofOrders

section

variable {server server' : MariaDB} {connected connected' : Bool}

theorem insertOrder_of_keys (server : MariaDB) (connected : Bool) (od : OrderData)
    {first second : Database}
    (same : first.order.keys = second.order.keys) :
    (insertOrder server connected od first).1 = (insertOrder server connected od second).1 ∧
      (insertOrder server connected od first).2.order.keys =
        (insertOrder server connected od second).2.order.keys := by
  unfold insertOrder
  rcases (if connected = true then orderRow server od else none) with - | row
  · exact ⟨rfl, same⟩
  · simp only [Option.bind_some]
    rcases KeyedTable.insert_of_keys row same with
      ⟨refused, refused'⟩ | ⟨extended, extended', inserted, inserted', sameKeys⟩
    · rw [refused, refused']
      exact ⟨rfl, same⟩
    · rw [inserted, inserted']
      exact ⟨rfl, sameKeys⟩

@[simp]
theorem keys_updateColumn (column : OrderColumn) (nid value : Text) (db : Database) :
    (updateColumn server connected column nid value db).2.order.keys = db.order.keys := by
  unfold updateColumn
  split
  next assigned selected _ _ =>
    exact KeyedTable.keys_update selected _ (column.key_assign assigned) db.order
  next => rfl

theorem keys_reportDatabase (inserts updates : Bool) (order : Order) (execPrice : Price)
    (clientSerialNum : ℤ) (db : Database) :
    (Trader.reportDatabase server inserts updates order execPrice clientSerialNum
      db).order.keys = db.order.keys := by
  rw [Trader.reportDatabase, updateOrderSituation, keys_updateColumn, insertReport_order]

namespace Trader

variable {address : ℕ} {connId : ℤ} {od : Order} {trader next : Trader} {cn : ConnRef}
    {observations : List Observation}

/-- An order is handled in the same way beside other tables, except that it may be
stored in one and not in the other. -/
theorem Handling.beside
    (handling : Handling server address connected connId od trader cn next observations)
    (server' : MariaDB) (connected' : Bool) (db : Database) (buyside sellside : OrderVector)
    (dqOrderhandle : List Text) :
    ∃ db' observations',
      Handling server' address connected' connId od
        (trader.beside db buyside sellside dqOrderhandle) cn
        (next.beside db' buyside sellside dqOrderhandle) observations' ∧
      observations.filterMap Observation.ofTrading =
        observations'.filterMap Observation.ofTrading ∧
      (server' = server → connected' = connected → trader.db.order.keys = db.order.keys →
        observations' = observations ∧ next.db.order.keys = db'.order.keys) := by
  cases handling with
  | failed rejected => exact ⟨db, _, .failed rejected, rfl, fun _ _ same => ⟨rfl, same⟩⟩
  | insufficient username passed tested =>
      exact ⟨db, _, .insufficient username passed tested, rfl, fun _ _ same => ⟨rfl, same⟩⟩
  | accepted username passed tested =>
      refine ⟨_, _, .accepted username passed tested, rfl, ?_⟩
      rintro rfl rfl same
      obtain ⟨sameFlag, sameKeys⟩ := insertOrder_of_keys server' connected'
        (newOrderData (trader.acceptedOrder od) trader.generateNid.1) same
      have sameReply : acceptReply server' connected' od
          (trader.beside db buyside sellside dqOrderhandle) =
            trader.acceptReply server' connected' od := by
        have stored : storesOrder server' connected' od
            (trader.beside db buyside sellside dqOrderhandle) =
              trader.storesOrder server' connected' od := sameFlag.symm
        rw [acceptReply, stored]
        rfl
      refine ⟨?_, sameKeys⟩
      rw [sameReply]
      rfl

theorem sendExecReport_beside {inserts updates : Bool} {order : OrderPtr}
    (finished : trader.sendExecReport server inserts updates order = .ok (next, observations))
    (server' : MariaDB) (inserts' updates' : Bool) (db : Database)
    (buyside sellside : OrderVector) (dqOrderhandle : List Text) :
    ∃ db', (trader.beside db buyside sellside dqOrderhandle).sendExecReport server' inserts'
        updates' order = .ok (next.beside db' buyside sellside dqOrderhandle, observations) ∧
      (trader.db.order.keys = db.order.keys → next.db.order.keys = db'.order.keys) := by
  unfold sendExecReport at finished ⊢
  split at finished
  next connId execPrice clientSerialNum _ _ _ =>
    obtain ⟨notice, answered, returned⟩ := bind_eq_ok_iff.mp finished
    cases returned
    refine ⟨reportDatabase server' inserts' updates' order.order execPrice clientSerialNum db,
      bind_eq_ok_iff.mpr ⟨notice, answered, rfl⟩, ?_⟩
    intro same
    exact (keys_reportDatabase ..).trans (same.trans (keys_reportDatabase ..).symm)
  next => cases finished

theorem Amendment.beside {res : List Text}
    (amendment : Amendment server connected res trader next observations)
    (db : Database) (buyside sellside : OrderVector) (dqOrderhandle : List Text) :
    next.beside db buyside sellside dqOrderhandle =
        trader.beside db buyside sellside dqOrderhandle ∧
      next.db.order.keys = trader.db.order.keys ∧
      observations.filterMap Observation.ofOrders = [] ∧
      observations.filterMap Observation.ofTrading = [] := by
  cases amendment with
  | cancelled chosen =>
      refine ⟨?_, keys_updateColumn .., rfl, rfl⟩
      cases chosen <;> rfl
  | modified => exact ⟨rfl, keys_updateColumn .., rfl, rfl⟩
  | refused => exact ⟨rfl, rfl, rfl, rfl⟩

end Trader

end

theorem Server.route_dqOrderhandle (sr : Server) (msg : Text) :
    ∃ arrived, ∀ dqOrderhandle, { sr with dqOrderhandle }.route msg =
      ({ (sr.route msg).1 with dqOrderhandle := dqOrderhandle ++ arrived },
        (sr.route msg).2) := by
  unfold route
  split
  next => exact ⟨[], fun _ => by rw [List.append_nil]⟩
  next => exact ⟨[msg], fun _ => rfl⟩
  next => exact ⟨[msg], fun _ => rfl⟩
  next => exact ⟨[], fun _ => by rw [List.append_nil]⟩
  next => exact ⟨[], fun _ => by rw [List.append_nil]⟩

theorem Server.quoteUpdate_dqOrderhandle {sr next : Server} {stockNum : Text} {execPrice : Price}
    (quoted : sr.quoteUpdate stockNum execPrice = .ok next) (dqOrderhandle : List Text) :
    { sr with dqOrderhandle }.quoteUpdate stockNum execPrice =
      .ok { next with dqOrderhandle } := by
  unfold quoteUpdate at quoted ⊢
  split at quoted
  next => cases quoted
  next stock found =>
    cases quoted
    simp only [found]

/-- Is it an iteration of the thread that cancels and modifies orders? -/
def Event.amends : Event → Bool
  | .getCancelOrder _ => true
  | _ => false

/-- The same iteration, with whatever the database answers. -/
inductive Event.SameButAnswers : Event → Event → Prop where
  | same (event : Event) : SameButAnswers event event
  | getOrder (address : ℕ) (connected connected' : Bool) :
      SameButAnswers (.getOrder address connected) (.getOrder address connected')
  | sendReport (inserts updates inserts' updates' : Bool) :
      SameButAnswers (.sendReport inserts updates) (.sendReport inserts' updates')

namespace Threads

variable {server : MariaDB} {state next : Threads} {event event' : Event}
    {observations : List Observation}

def beside (db : Database) (buyside sellside : OrderVector) (dqOrderhandle : List Text)
    (threads : Threads) : Threads :=
  { threads with trader := threads.trader.beside db buyside sellside dqOrderhandle }

/-- The other state does the same beside its own tables; with the same tables and
answers it shows the same, too. -/
def Follows (server server' : MariaDB) (event event' : Event) (state next : Threads)
    (observations : List Observation) (db : Database) (buyside sellside : OrderVector)
    (dqOrderhandle : List Text) : Prop :=
  ∃ db' dqOrderhandle' observations',
    (state.beside db buyside sellside dqOrderhandle).step server' event' =
      some (next.beside db' buyside sellside dqOrderhandle', observations') ∧
    observations.filterMap Observation.ofTrading =
      observations'.filterMap Observation.ofTrading ∧
    (server' = server → event' = event → state.trader.db.order.keys = db.order.keys →
      observations' = observations ∧ next.trader.db.order.keys = db'.order.keys)

theorem follows_getOrder {address : ℕ} {connected connected' : Bool}
    (stepped : state.step server (.getOrder address connected) = some (next, observations))
    (server' : MariaDB) (db : Database) (buyside sellside : OrderVector)
    (dqOrderhandle : List Text) :
    Follows server server' (.getOrder address connected) (.getOrder address connected') state next
      observations db buyside sellside dqOrderhandle := by
  have fresh : address ∉ state.allocated := by
    intro taken
    simp only [step, if_pos taken] at stepped
    cases stepped
  rcases getOrder_step stepped with
    ⟨empty, rfl, rfl⟩ |
      ⟨msg, rest, od, connId, cn, trader, -, queued, built, sender, found, handling, rfl⟩
  · refine ⟨db, dqOrderhandle, [], ?_, rfl, fun _ _ keys => ⟨rfl, keys⟩⟩
    have emptyBeside :
        (next.beside db buyside sellside dqOrderhandle).trader.sr.dq = [] := empty
    have freshBeside : address ∉ (next.beside db buyside sellside dqOrderhandle).allocated := fresh
    rw [step, if_neg freshBeside, if_pos emptyBeside]
    apply lift_eq_some_iff.mpr ⟨_, _, rfl⟩
    rw [Trader.getOrder, emptyBeside]
    rfl
  · obtain ⟨db', observations', handling', shown, same⟩ :=
      handling.beside server' connected' db buyside sellside dqOrderhandle
    have queuedBeside :
        (state.trader.beside db buyside sellside dqOrderhandle).sr.dq = msg :: rest := queued
    have finished := Trader.getOrder_of_handling queuedBeside built sender found handling'
    refine ⟨db', dqOrderhandle, observations', ?_, shown, ?_⟩
    · have waiting :
          (state.beside db buyside sellside dqOrderhandle).trader.sr.dq ≠ [] := by
        intro empty
        cases queued.symm.trans empty
      have freshBeside :
          address ∉ (state.beside db buyside sellside dqOrderhandle).allocated := fresh
      rw [step, if_neg freshBeside, if_neg waiting]
      exact lift_eq_some_iff.mpr ⟨_, finished, rfl⟩
    · rintro rfl sameEvent keys
      cases sameEvent
      exact same rfl rfl keys

theorem follows_receive {cn : ConnRef} {text : Text}
    (stepped : state.step server (.receive cn text) = some (next, observations))
    (server' : MariaDB) (db : Database) (buyside sellside : OrderVector)
    (dqOrderhandle : List Text) :
    Follows server server' (.receive cn text) (.receive cn text) state next observations db
      buyside sellside dqOrderhandle := by
  simp only [step] at stepped
  split at stepped
  next loggedIn =>
    cases stepped
    obtain ⟨arrived, routed⟩ := Server.route_dqOrderhandle state.trader.sr
      (Server.addressed text (state.trader.sr.connections cn))
    have loggedInBeside : ((state.beside db buyside sellside dqOrderhandle).trader.sr.connections
        cn).loginFlag = true := loggedIn
    have routedBeside : (state.beside db buyside sellside dqOrderhandle).trader.sr.route
        (Server.addressed text
          ((state.beside db buyside sellside dqOrderhandle).trader.sr.connections cn)) = _ :=
      routed dqOrderhandle
    refine ⟨db, dqOrderhandle ++ arrived, [], ?_, rfl, fun _ _ keys => ⟨rfl, keys⟩⟩
    simp only [step, loggedInBeside, if_true, routedBeside]
    rfl
  next => cases stepped

theorem follows_matchup
    (stepped : state.step server .matchup = some (next, observations))
    (server' : MariaDB) (db : Database) (buyside sellside : OrderVector)
    (dqOrderhandle : List Text) :
    Follows server server' .matchup .matchup state next observations db buyside sellside
      dqOrderhandle := by
  have waiting : state.pushing = [] := by
    by_contra busy
    simp only [step, if_neg busy] at stepped
    cases stepped
  have waitingBeside : (state.beside db buyside sellside dqOrderhandle).pushing = [] := waiting
  have passesAlike {result} (passed : state.trader.toBooks.matchup = .ok result) :
      (state.beside db buyside sellside dqOrderhandle).trader.toBooks.matchup = .ok result := passed
  rcases matchup_step stepped with
    ⟨passed, rfl, rfl⟩ | ⟨toBooks, odb, ods, sr, passed, quoted, rfl, rfl⟩
  · refine ⟨db, dqOrderhandle, [], ?_, rfl, fun _ _ keys => ⟨rfl, keys⟩⟩
    rw [step, if_pos waitingBeside, Trader.matchPair, passesAlike passed]
    change some (({ next.beside db buyside sellside dqOrderhandle with pushing := [] } : Threads),
      _) = _
    rw [← waitingBeside]
  · have quotedBeside : (state.beside db buyside sellside dqOrderhandle).trader.sr.quoteUpdate
        "KKC".toList ods.order.orderPrice = _ :=
      Server.quoteUpdate_dqOrderhandle quoted dqOrderhandle
    refine ⟨db, dqOrderhandle, _, ?_, rfl, fun _ _ keys => ⟨rfl, keys⟩⟩
    rw [step, if_pos waitingBeside, Trader.matchPair, passesAlike passed]
    simp only [bind, Except.bind, quotedBeside]
    rfl

theorem follows_sendReport {inserts updates inserts' updates' : Bool}
    (stepped : state.step server (.sendReport inserts updates) = some (next, observations))
    (server' : MariaDB) (db : Database) (buyside sellside : OrderVector)
    (dqOrderhandle : List Text) :
    Follows server server' (.sendReport inserts updates) (.sendReport inserts' updates') state next
      observations db buyside sellside dqOrderhandle := by
  simp only [step] at stepped
  split at stepped
  next order reading =>
    obtain ⟨trader, finished, rfl⟩ := lift_eq_some_iff.mp stepped
    obtain ⟨db', finishedBeside, keys⟩ := Trader.sendExecReport_beside finished server' inserts'
      updates' db buyside sellside dqOrderhandle
    have readingBeside :
        (state.beside db buyside sellside dqOrderhandle).reporter = .read order := reading
    refine ⟨db', dqOrderhandle, observations, ?_, rfl, ?_⟩
    · simp only [step, readingBeside]
      exact lift_eq_some_iff.mpr ⟨_, finishedBeside, rfl⟩
    · intro _ _ sameKeys
      exact ⟨rfl, keys sameKeys⟩
  next => cases stepped

theorem follows_step (stepped : state.step server event = some (next, observations))
    (amendsNothing : event.amends = false) (like : event.SameButAnswers event') (server' : MariaDB)
    (db : Database) (buyside sellside : OrderVector) (dqOrderhandle : List Text) :
    Follows server server' event event' state next observations db buyside sellside
      dqOrderhandle := by
  cases like with
  | getOrder => exact follows_getOrder stepped server' db buyside sellside dqOrderhandle
  | sendReport => exact follows_sendReport stepped server' db buyside sellside dqOrderhandle
  | same =>
      cases event with
      | getOrder => exact follows_getOrder stepped server' db buyside sellside dqOrderhandle
      | sendReport => exact follows_sendReport stepped server' db buyside sellside dqOrderhandle
      | receive => exact follows_receive stepped server' db buyside sellside dqOrderhandle
      | matchup => exact follows_matchup stepped server' db buyside sellside dqOrderhandle
      | getCancelOrder => cases amendsNothing
      | connect =>
          cases stepped
          exact ⟨db, dqOrderhandle, _, rfl, rfl, fun _ _ keys => ⟨rfl, keys⟩⟩
      | priceAsking index =>
          simp only [step] at stepped
          split at stepped
          next => cases stepped
          next msg waiting =>
            split at stepped
            next => cases stepped
            next replies asked =>
              cases stepped
              have waitingBeside : (state.beside db buyside sellside dqOrderhandle).asking[index]? =
                  some msg := waiting
              have askedBeside : (state.beside db buyside sellside
                  dqOrderhandle).trader.sr.priceAsking msg = .ok replies := asked
              refine ⟨db, dqOrderhandle, _, ?_, rfl, fun _ _ keys => ⟨rfl, keys⟩⟩
              simp only [step, waitingBeside, askedBeside]
              rfl
      | pushReport =>
          simp only [step] at stepped
          split at stepped
          next => cases stepped
          next order pushing waiting =>
            cases stepped
            have waitingBeside : (state.beside db buyside sellside dqOrderhandle).pushing =
                order :: pushing := waiting
            refine ⟨db, dqOrderhandle, _, ?_, rfl, fun _ _ keys => ⟨rfl, keys⟩⟩
            simp only [step, waitingBeside]
            rfl
      | readReport =>
          simp only [step] at stepped
          split at stepped
          next order idle isLast =>
            cases stepped
            have idleBeside :
                (state.beside db buyside sellside dqOrderhandle).reporter = .idle := idle
            have lastBeside : (state.beside db buyside sellside
                dqOrderhandle).trader.reportList.getLast? = some order := isLast
            refine ⟨db, dqOrderhandle, _, ?_, rfl, fun _ _ keys => ⟨rfl, keys⟩⟩
            simp only [step, idleBeside, lastBeside]
            rfl
          next => cases stepped
      | popReport =>
          simp only [step] at stepped
          split at stepped
          next sent =>
            cases stepped
            have sentBeside :
                (state.beside db buyside sellside dqOrderhandle).reporter = .sent := sent
            refine ⟨db, dqOrderhandle, _, ?_, rfl, fun _ _ keys => ⟨rfl, keys⟩⟩
            simp only [step, sentBeside]
            rfl
          next => cases stepped

theorem amends_step (stepped : state.step server event = some (next, observations))
    (amends : event.amends = true) (db : Database) (buyside sellside : OrderVector)
    (dqOrderhandle : List Text) :
    next.beside db buyside sellside dqOrderhandle =
        state.beside db buyside sellside dqOrderhandle ∧
      next.trader.db.order.keys = state.trader.db.order.keys ∧
      observations.filterMap Observation.ofOrders = [] ∧
      observations.filterMap Observation.ofTrading = [] := by
  cases event with
  | getCancelOrder connected =>
      obtain ⟨trader, finished, rfl⟩ := lift_eq_some_iff.mp stepped
      rcases Trader.getCancelOrder_cases finished with ⟨-, rfl, rfl⟩ | ⟨val, rest, -, amendment⟩
      · exact ⟨rfl, rfl, rfl, rfl⟩
      · obtain ⟨sameTrader, sameKeys, silent, silent'⟩ :=
          amendment.beside db buyside sellside dqOrderhandle
        exact ⟨congrArg (fun trader => { state with trader }) sameTrader, sameKeys, silent,
          silent'⟩
  | _ => cases amends

end Threads

/-- Whatever the database holds and answers, and without the cancellations and
modifications: the same orders are tested, put into the books, executed, pushed and
reported, in the same order. -/
theorem trading_ignores_database (server server' : MariaDB) (state : Threads) (db : Database)
    (buyside sellside : OrderVector) (events events' : List Event) (last : Threads)
    (observations : List Observation)
    (answered : List.Forall₂ Event.SameButAnswers (events.filter fun event => !event.amends)
      events')
    (finished : (threads server).run state events = some (last, observations)) :
    ∃ last' observations', (threads server').run
        { state with trader := { state.trader with db, buyside, sellside } } events' =
          some (last', observations') ∧
      last'.trader.toBooks = last.trader.toBooks ∧
      observations.filterMap Observation.ofTrading =
        observations'.filterMap Observation.ofTrading := by
  have followed := (threads server).run_thinned (threads server')
    (fun state state' =>
      ∃ db dqOrderhandle, state' = state.beside db buyside sellside dqOrderhandle)
    Event.amends Event.SameButAnswers Observation.ofTrading Observation.ofTrading ?_ ?_
    ⟨db, state.trader.sr.dqOrderhandle, rfl⟩ answered finished
  · obtain ⟨last', observations', ran, ⟨db', dqOrderhandle, rfl⟩, same⟩ := followed
    exact ⟨_, observations', ran, rfl, same⟩
  · rintro state _ event next outputs ⟨db, dqOrderhandle, rfl⟩ amends stepped
    obtain ⟨sameState, -, -, silent⟩ :=
      Threads.amends_step stepped amends db buyside sellside dqOrderhandle
    exact ⟨⟨db, dqOrderhandle, sameState.symm⟩, silent⟩
  · rintro state _ event event' next outputs ⟨db, dqOrderhandle, rfl⟩ other like stepped
    obtain ⟨db', dqOrderhandle', outputs', stepped', same, -⟩ :=
      Threads.follows_step stepped other like server' db buyside sellside dqOrderhandle
    exact ⟨_, outputs', stepped', ⟨db', dqOrderhandle', rfl⟩, same⟩

/-- As long as only numerals are spliced into statements, cancellations and modifications
that are left out change nothing that happens to orders, and none of the answers to new
orders. -/
theorem trading_ignores_amendments (server : MariaDB) (state : Threads)
    (events : List (Event × Option Database)) (last : Threads) (observations : List Observation)
    (numerals : ∀ observation ∈ observations, observation.SendsNumerals)
    (finished : (injectedThreads server).run state events = some (last, observations)) :
    ∃ last' observations',
      (threads server).run state
          ((events.map Prod.fst).filter fun event => !event.amends) =
        some (last', observations') ∧
      last'.trader.toBooks = last.trader.toBooks ∧
      last'.trader.db.order.keys = last.trader.db.order.keys ∧
      observations.filterMap Observation.ofOrders =
        observations'.filterMap Observation.ofOrders := by
  have followed := (threads server).run_thinned (threads server)
    (fun first second => first.trader.db.order.keys = second.trader.db.order.keys ∧
      ∃ db dqOrderhandle, second =
        first.beside db state.trader.buyside state.trader.sellside dqOrderhandle)
    Event.amends Eq Observation.ofOrders Observation.ofOrders ?_ ?_
    ⟨rfl, state.trader.db, state.trader.sr.dqOrderhandle, rfl⟩ (List.forall₂_refl _)
    (Machine.run_of_tame numerals finished)
  · obtain ⟨_, observations', ran, ⟨keys, db, dqOrderhandle, rfl⟩, same⟩ := followed
    exact ⟨_, observations', ran, rfl, keys.symm, same⟩
  · rintro first _ event next outputs ⟨keys, db, dqOrderhandle, rfl⟩ amends stepped
    obtain ⟨sameState, sameKeys, silent, -⟩ :=
      Threads.amends_step stepped amends db state.trader.buyside state.trader.sellside dqOrderhandle
    exact ⟨⟨sameKeys.trans keys, db, dqOrderhandle, sameState.symm⟩, silent⟩
  · rintro first _ event _ next outputs ⟨keys, db, dqOrderhandle, rfl⟩ other rfl stepped
    obtain ⟨db', dqOrderhandle', outputs', stepped', -, alike⟩ :=
      Threads.follows_step stepped other (.same _) server db state.trader.buyside
        state.trader.sellside dqOrderhandle
    obtain ⟨rfl, sameKeys⟩ := alike rfl rfl keys
    exact ⟨_, _, stepped', ⟨sameKeys, db', dqOrderhandle', rfl⟩, rfl⟩

/-- A buy order, an attempt to cancel it and one to modify it, and a sell order
that is executed with it; the database refuses the second INSERT. -/
def amendedRun : List Event :=
  [.firstLogin, .receive 0 "87|1|60|1|1|1|KKC".toList, .getOrder 10 true,
    .receive 0 "88|1|60|1|1|1|KKC".toList, .getCancelOrder true,
    .receive 0 "89|1|50|1|1|1|KKC".toList, .getCancelOrder true,
    .receive 0 "87|2|60|2|1|1|KKC".toList, .getOrder 20 false, .matchup, .pushReport]

theorem amendedRun_finished :
    ∃ last observations, (threads .literal).run .initial amendedRun = some (last, observations) ∧
      observations.any (fun observation => observation.execution.isSome) = true :=
  Machine.exists_run_of_any (threads .literal) .initial amendedRun _ (by decide +kernel)

theorem trading_ignores_amendments_amendedRun :
    ∃ last observations last' observations',
      (injectedThreads .literal).run .initial (amendedRun.map (·, none)) =
        some (last, observations) ∧
      (threads .literal).run .initial
          (((amendedRun.map (·, (none : Option Database))).map Prod.fst).filter
            fun event => !event.amends) =
        some (last', observations') ∧
      observations.filterMap Observation.ofOrders =
        observations'.filterMap Observation.ofOrders := by
  obtain ⟨last, observations, finished, evaluated⟩ :=
    Machine.exists_run_of_any (injectedThreads .literal) .initial (amendedRun.map (·, none))
      (fun _ observations => decide (∀ observation ∈ observations, observation.SendsNumerals))
      (by decide +kernel)
  obtain ⟨last', observations', finished', -, -, same⟩ :=
    trading_ignores_amendments .literal .initial _ last observations (of_decide_eq_true evaluated)
      finished
  exact ⟨last, observations, last', observations', finished, finished', same⟩

def disconnectedRun : List Event :=
  [.firstLogin, .receive 0 "87|1|60|1|1|1|KKC".toList, .getOrder 10 false,
    .receive 0 "88|1|60|1|1|1|KKC".toList, .receive 0 "89|1|50|1|1|1|KKC".toList,
    .receive 0 "87|2|60|2|1|1|KKC".toList, .getOrder 20 false, .matchup, .pushReport]

theorem disconnectedRun_answered :
    List.Forall₂ Event.SameButAnswers (amendedRun.filter fun event => !event.amends)
      disconnectedRun :=
  .cons (.same _) (.cons (.same _) (.cons (.getOrder 10 true false) (.cons (.same _)
    (.cons (.same _) (.cons (.same _) (.cons (.same _) (.cons (.same _) (.cons (.same _)
      .nil))))))))

theorem trading_ignores_database_disconnectedRun :
    ∃ last observations last' observations',
      (threads .literal).run .initial amendedRun = some (last, observations) ∧
      (threads .literal).run .initial disconnectedRun = some (last', observations') ∧
      observations.filterMap Observation.ofTrading =
        observations'.filterMap Observation.ofTrading := by
  obtain ⟨last, observations, finished, -⟩ := amendedRun_finished
  obtain ⟨last', observations', finished', -, same⟩ :=
    trading_ignores_database .literal .literal .initial .initial Threads.initial.trader.buyside
      Threads.initial.trader.sellside amendedRun disconnectedRun last observations
      disconnectedRun_answered finished
  exact ⟨last, observations, last', observations', finished, finished', same⟩

end InertiaTrader
