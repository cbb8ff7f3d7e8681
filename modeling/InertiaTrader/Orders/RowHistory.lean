import InertiaTrader.Foundation.TableHistory
import InertiaTrader.Orders.NumeralTexts
import InertiaTrader.Orders.Processes
import InertiaTrader.Trader.Loading

/-!
# The history of the rows

What the statements of all processes together do to the two tables, as long as only
numerals are spliced into them: rows never disappear, a row that is no longer valid
stays so, and whatever stands in a table was put there on behalf of an order.
-/

namespace InertiaTrader

open Foundation

/-- What becomes of a row: its situation may turn into 2 (executed) or 3 (cancelled),
its price may change, and nothing else. -/
structure OrderRow.Ages (row later : OrderRow) : Prop where
  key : later.key = row.key
  symbol : later.symbol = row.symbol
  userID : later.userID = row.userID
  side : later.side = row.side
  orderSituation : later.orderSituation = row.orderSituation ∨ later.orderSituation = 2 ∨
    later.orderSituation = 3

theorem OrderRow.Ages.refl (row : OrderRow) : row.Ages row :=
  ⟨rfl, rfl, rfl, rfl, .inl rfl⟩

theorem OrderRow.Ages.trans {first second third : OrderRow} (ages : first.Ages second)
    (ages' : second.Ages third) : first.Ages third where
  key := ages'.key.trans ages.key
  symbol := ages'.symbol.trans ages.symbol
  userID := ages'.userID.trans ages.userID
  side := ages'.side.trans ages.side
  orderSituation := by
    rcases ages'.orderSituation with same | settled
    · rw [same]
      exact ages.orderSituation
    · exact .inr settled

theorem ages_assign {column : OrderColumn} {assigned : ℚ}
    (settles : column = .orderSituation → assigned = 2 ∨ assigned = 3) (row : OrderRow) :
    row.Ages (column.assign assigned row) := by
  cases column with
  | orderPrice => exact ⟨rfl, rfl, rfl, rfl, .inl rfl⟩
  | orderSituation =>
      refine ⟨rfl, rfl, rfl, rfl, .inr ?_⟩
      rcases settles rfl with rfl | rfl
      · exact .inl (intColumn_intCast 2)
      · exact .inr (intColumn_intCast 3)

inductive Statement (server : MariaDB) (observations : List Observation) (db : Database) :
    Database → Prop where
  | refused : Statement server observations db db
  | insertsOrder (odt : OrderData) (row : OrderRow) (order : OrderTable) :
      .insertOrderToDB odt ∈ observations → orderRow server odt = some row →
      db.order.insert row = some order → Statement server observations db { db with order }
  | insertsReport (order : OrderPtr) (execPrice : Price) (clientSerialNum : ℤ) (row : ReportRow)
      (execReport : ReportTable) :
      .reported order ∈ observations → order.order.execPrice = some execPrice →
      order.order.clientSerialNum = some clientSerialNum →
      reportRow server order.order.nid (toStringDouble order.order.orderPrice)
        (toStringDouble execPrice)
        (if order.order.side_ = some .buy then "1".toList else "2".toList)
        (toStringInt clientSerialNum) = some row →
      db.execReport.insert row = some execReport →
      Statement server observations db { db with execReport }
  | updates (order : Order) (update : Update) (assigned : ℚ) (selected : OrderRow → Bool) :
      .updated order update ∈ observations → server.quoted update.value = some assigned →
      server.whereNid update.nid = some selected →
      (update.column = .orderSituation → assigned = 2 ∨ assigned = 3) →
      Statement server observations db { db with
        order := db.order.update selected (update.column.assign assigned)
          (update.column.key_assign assigned) }

section

variable {server : MariaDB} {observations : List Observation} {db later : Database}

theorem statement_insertOrder (connected : Bool) {odt : OrderData}
    (shown : .insertOrderToDB odt ∈ observations) (db : Database) :
    Statement server observations db (insertOrder server connected odt db).2 := by
  unfold insertOrder
  split
  next => exact .refused
  next order stored =>
    obtain ⟨row, described, inserted⟩ := Option.bind_eq_some_iff.mp stored
    split at described
    next => exact .insertsOrder odt row order shown described inserted
    next => cases described

theorem statement_updateColumn (connected : Bool) {order : Order} {update : Update}
    (shown : .updated order update ∈ observations)
    (settles : update.column = .orderSituation →
      update.value = "2".toList ∨ update.value = "3".toList) (db : Database) :
    Statement server observations db
      (updateColumn server connected update.column update.nid update.value db).2 := by
  unfold updateColumn
  split
  next assigned selected quoted found =>
    refine .updates order update assigned selected shown quoted found ?_
    intro situation
    rcases settles situation with two | three
    · rw [two, server.quoted_literal "2".toList 2 (by decide +kernel)] at quoted
      exact .inl (Option.some.inj quoted).symm
    · rw [three, server.quoted_literal "3".toList 3 (by decide +kernel)] at quoted
      exact .inr (Option.some.inj quoted).symm
  next => exact .refused

theorem statement_insertReport (inserts : Bool) {order : OrderPtr} {execPrice : Price}
    {clientSerialNum : ℤ} (shown : .reported order ∈ observations)
    (executed : order.order.execPrice = some execPrice)
    (numbered : order.order.clientSerialNum = some clientSerialNum) (db : Database) :
    Statement server observations db
      (insertReport server inserts order.order.nid (toStringDouble order.order.orderPrice)
        (toStringDouble execPrice)
        (if order.order.side_ = some .buy then "1".toList else "2".toList)
        (toStringInt clientSerialNum) db).2 := by
  unfold insertReport
  split
  next => exact .refused
  next execReport stored =>
    obtain ⟨row, described, inserted⟩ := Option.bind_eq_some_iff.mp stored
    split at described
    next =>
      exact .insertsReport order execPrice clientSerialNum row execReport shown executed numbered
        described inserted
    next => cases described

theorem statements_of_step {state next : Threads} {event : Event}
    (stepped : state.step server event = some (next, observations)) :
    ∃ middle, Statement server observations state.trader.db middle ∧
      Statement server observations middle next.trader.db := by
  cases Threads.step_cases stepped with
  | handlesOrder address connected rest connId od cn trader _ fresh handling =>
      cases handling with
      | failed | insufficient => exact ⟨_, .refused, .refused⟩
      | accepted username passed tested =>
          exact ⟨_, .refused, statement_insertOrder connected (.tail _ (.tail _ (.head _))) _⟩
  | amends connected val rest trader _ popped amendment =>
      cases amendment with
      | cancelled chosen nid it order cn =>
          exact ⟨_, .refused, statement_updateColumn connected (.tail _ (.tail _ (.head _)))
            (fun _ => .inr rfl) _⟩
      | modified nid price orderPrice it order cn =>
          refine ⟨_, .refused, statement_updateColumn connected (.tail _ (.tail _ (.head _))) ?_ _⟩
          intro impossible
          cases impossible
      | refused => exact ⟨_, .refused, .refused⟩
  | sends inserts updates order connId execPrice clientSerialNum cn reading addressed executed
      numbered =>
      refine ⟨_, statement_insertReport inserts (.tail _ (.head _)) executed numbered _, ?_⟩
      exact statement_updateColumn updates (.tail _ (.tail _ (.head _))) (fun _ => .inl rfl) _
  | communicates | rests | executes | pushes | reads | pops => exact ⟨_, .refused, .refused⟩

/-- What time does to the tables. -/
structure Database.Ages (db later : Database) : Prop where
  order : db.order.Evolves OrderRow.Ages later.order
  execReport : db.execReport.rows <+: later.execReport.rows

theorem Database.Ages.refl (db : Database) : db.Ages db :=
  ⟨.refl OrderRow.Ages.refl db.order, List.prefix_refl _⟩

theorem Database.Ages.trans {middle : Database} (first : db.Ages middle)
    (second : middle.Ages later) : db.Ages later where
  order := first.order.trans (fun _ _ _ => OrderRow.Ages.trans) second.order
  execReport := first.execReport.trans second.execReport

theorem Statement.ages (statement : Statement server observations db later) : db.Ages later := by
  cases statement with
  | refused => exact .refl db
  | insertsOrder odt row order _ _ inserted =>
      exact ⟨.insert OrderRow.Ages.refl inserted, List.prefix_refl _⟩
  | insertsReport order execPrice clientSerialNum row execReport _ _ _ _ inserted =>
      refine ⟨.refl OrderRow.Ages.refl db.order, ?_⟩
      rw [(KeyedTable.insert_eq_some_iff.mp inserted).2]
      exact List.prefix_append _ _
  | updates order update assigned selected _ _ _ settles =>
      exact ⟨.update OrderRow.Ages.refl selected _ (update.column.key_assign assigned)
          (ages_assign settles) db.order,
        List.prefix_refl _⟩

theorem ages_of_step {state next : Threads} {event : Event}
    (stepped : state.step server event = some (next, observations)) :
    state.trader.db.Ages next.trader.db := by
  obtain ⟨middle, first, second⟩ := statements_of_step stepped
  exact first.ages.trans second.ages

theorem ages_of_life {nidSub1 : BitVec 32} {state next : Lives} {event : LifeEvent}
    (stepped : state.step server nidSub1 event = some (next, observations)) :
    state.threads.trader.db.Ages next.threads.trader.db := by
  cases event with
  | thread event =>
      obtain ⟨threads', threadStep, rfl⟩ := Lives.thread_eq_some stepped
      exact ages_of_step threadStep
  | restart rc userList connections =>
      cases stepped
      change Database.Ages _ (Trader.construct ..).db
      rw [Trader.construct_db]
      exact .refl _

theorem ages_of_lives {nidSub1 : BitVec 32} {state last : Lives} {events : List LifeEvent}
    (finished : (lives server nidSub1).run state events = some (last, observations)) :
    state.threads.trader.db.Ages last.threads.trader.db := by
  apply (lives server nidSub1).invariant_of_run
    (fun current _ => state.threads.trader.db.Ages current.threads.trader.db) _ (.refl _) finished
  intro current _ event next observations ages stepped
  exact ages.trans (ages_of_life stepped)

end

theorem exists_row_of_getExistOrder {server : MariaDB} {db : Database} {existing : OrderData}
    (listed : existing ∈ getExistOrder server db) :
    ∃ row, db.order.find? row.key = some row ∧ row.orderSituation = 1 ∧
      existing = {
        nid := server.floatText row.nid
        orderPrice := .fin row.orderPrice
        side := row.side
        clientSerialnum := row.clientSerialNum } := by
  obtain ⟨row, valid, rfl⟩ := List.mem_map.mp listed
  obtain ⟨membership, isValid⟩ := List.mem_filter.mp valid
  exact ⟨row, KeyedTable.find?_eq_some_iff.mpr ⟨membership, rfl⟩, of_decide_eq_true isValid, rfl⟩

/-- Over any number of processes that splice only numerals into their statements: no row
of either table disappears, reports never change, an order that was executed or
cancelled in the table never becomes valid again, and no later process loads it. -/
theorem settled_rows_stay (server : MariaDB) (nidSub1 : BitVec 32) (state last : Lives)
    (events : List (LifeEvent × Option Database)) (observations : List Observation)
    (numerals : ∀ observation ∈ observations, observation.SendsNumerals)
    (finished : (injectedLives server nidSub1).run state events = some (last, observations)) :
    state.threads.trader.db.execReport.rows <+: last.threads.trader.db.execReport.rows ∧
      (∀ key row, state.threads.trader.db.order.find? key = some row →
        ∃ later, last.threads.trader.db.order.find? key = some later ∧ row.Ages later ∧
          (row.orderSituation ≠ 1 → later.orderSituation ≠ 1)) ∧
      ∀ existing ∈ getExistOrder server last.threads.trader.db,
        ∃ row, last.threads.trader.db.order.find? row.key = some row ∧
          existing.clientSerialnum = row.clientSerialNum ∧
          existing.nid = server.floatText row.nid ∧
          ∀ before, state.threads.trader.db.order.find? row.key = some before →
            before.orderSituation = 1 := by
  have ages := ages_of_lives (Machine.run_of_tame numerals finished)
  have settled : ∀ key row, state.threads.trader.db.order.find? key = some row →
      ∃ later, last.threads.trader.db.order.find? key = some later ∧ row.Ages later ∧
        (row.orderSituation ≠ 1 → later.orderSituation ≠ 1) := by
    intro key row found
    obtain ⟨later, foundLater, aged⟩ := ages.order key row found
    refine ⟨later, foundLater, aged, ?_⟩
    intro unequal
    rcases aged.orderSituation with same | two | three
    · rwa [same]
    · rw [two]
      decide
    · rw [three]
      decide
  refine ⟨ages.execReport, settled, ?_⟩
  intro existing listed
  obtain ⟨row, found, valid, rfl⟩ := exists_row_of_getExistOrder listed
  refine ⟨row, found, rfl, rfl, ?_⟩
  intro before foundBefore
  by_contra unequal
  obtain ⟨later, foundLater, -, stays⟩ := settled row.key before foundBefore
  obtain rfl : row = later := Option.some.inj (found.symm.trans foundLater)
  exact stays unequal valid

def settlingRun : List LifeEvent := [
  .thread .firstLogin,
  .thread (.receive 0 "87|1|60|1|1|1|KKC|".toList), .thread (.getOrder 10 true),
  .thread (.receive 0 "87|2|60|2|1|1|KKC|".toList), .thread (.getOrder 20 true),
  .thread .matchup, .thread .pushReport, .thread .readReport,
  .thread (.sendReport true true), .thread .popReport]

def startedAgainRun : List LifeEvent := [
  .restart .initial Server.initialUsers fun _ => ⟨0, [], false⟩, .thread .firstLogin,
  .thread (.receive 0 "88|1|60|1|1|1|KKC|".toList), .thread (.getCancelOrder true)]

theorem settled_rows_stay_startedAgainRun :
    ∃ middle seen last observations, (lives .literal 1804289383).run
        (.start .literal 1804289383 .initial .initial Server.initialUsers fun _ => ⟨0, [], false⟩)
        settlingRun = some (middle, seen) ∧
      middle.threads.trader.db.order.rows.map OrderRow.orderSituation = [2, 1] ∧
      (injectedLives .literal 1804289383).run middle (startedAgainRun.map (·, none)) =
        some (last, observations) ∧
      ∀ key row, middle.threads.trader.db.order.find? key = some row →
        ∃ later, last.threads.trader.db.order.find? key = some later ∧ row.Ages later ∧
          (row.orderSituation ≠ 1 → later.orderSituation ≠ 1) := by
  obtain ⟨middle, seen, ran, evaluated⟩ :=
    Machine.exists_run_of_any (lives .literal 1804289383)
      (.start .literal 1804289383 .initial .initial Server.initialUsers fun _ => ⟨0, [], false⟩)
      settlingRun
      (fun middle _ => decide (
          middle.threads.trader.db.order.rows.map OrderRow.orderSituation = [2, 1]) &&
        ((injectedLives .literal 1804289383).run middle (startedAgainRun.map (·, none))).any
          fun (result : Lives × List Observation) =>
            decide (∀ observation ∈ result.2, observation.SendsNumerals))
      (by decide +kernel)
  rw [Bool.and_eq_true] at evaluated
  obtain ⟨situations, restarted⟩ := evaluated
  obtain ⟨⟨last, observations⟩, finished, numerals⟩ := (Option.any_eq_true ..).mp restarted
  exact ⟨middle, seen, last, observations, ran, of_decide_eq_true situations, finished,
    (settled_rows_stay _ _ _ _ _ _ (of_decide_eq_true numerals) finished).2.1⟩

/-- The value that a row holds in a column. -/
def OrderColumn.read : OrderColumn → OrderRow → ℚ
  | .orderSituation, row => row.orderSituation
  | .orderPrice, row => row.orderPrice

/-- The value in this column was assigned by an UPDATE that an order has caused and
that has selected the row. -/
def AssignedTo (server : MariaDB) (seen : List Observation) (column : OrderColumn)
    (row : OrderRow) : Prop :=
  ∃ order update assigned selected old, .updated order update ∈ seen ∧ update.column = column ∧
    server.quoted update.value = some assigned ∧ server.whereNid update.nid = some selected ∧
    selected old = true ∧ old.key = row.key ∧ column.assign assigned row = row

/-- An accepted order was handed over as this row, and every value that differs now
was assigned later. -/
def OrderRow.Explained (server : MariaDB) (seen : List Observation) (row : OrderRow) : Prop :=
  ∃ odt original, .insertOrderToDB odt ∈ seen ∧ orderRow server odt = some original ∧
    original.Ages row ∧
    ∀ column : OrderColumn, column.read row = column.read original ∨
      AssignedTo server seen column row

/-- The row is the report of an order. -/
def ReportRow.Explains (server : MariaDB) (order : OrderPtr) (row : ReportRow) : Prop :=
  ∃ execPrice clientSerialNum, order.order.execPrice = some execPrice ∧
    order.order.clientSerialNum = some clientSerialNum ∧
    reportRow server order.order.nid (toStringDouble order.order.orderPrice)
      (toStringDouble execPrice)
      (if order.order.side_ = some .buy then "1".toList else "2".toList)
      (toStringInt clientSerialNum) = some row

/-- Whatever stands in the tables was put there on behalf of an order. -/
structure Database.Explained (server : MariaDB) (seen : List Observation) (db : Database) :
    Prop where
  order : ∀ row ∈ db.order.rows, row.Explained server seen
  execReport : ∀ row ∈ db.execReport.rows, ∃ order, .reported order ∈ seen ∧
    ReportRow.Explains server order row

section

variable {server : MariaDB} {seen more observations : List Observation} {db later : Database}

theorem AssignedTo.mono {column : OrderColumn} {row : OrderRow} (grown : seen ⊆ more)
    (assigned : AssignedTo server seen column row) : AssignedTo server more column row := by
  obtain ⟨order, update, value, selected, old, shown, rest⟩ := assigned
  exact ⟨order, update, value, selected, old, grown shown, rest⟩

theorem AssignedTo.assign {column other : OrderColumn} {row : OrderRow}
    (different : column ≠ other) (value : ℚ) (assigned : AssignedTo server seen column row) :
    AssignedTo server seen column (other.assign value row) := by
  obtain ⟨order, update, value', selected, old, shown, isColumn, quoted, found, isSelected, sameKey,
    holds⟩ := assigned
  refine ⟨order, update, value', selected, old, shown, isColumn, quoted, found, isSelected, ?_, ?_⟩
  · rw [OrderColumn.key_assign]
    exact sameKey
  · have swapped : column.assign value' (other.assign value row) =
        other.assign value (column.assign value' row) := by
      cases column <;> cases other <;> first | rfl | exact absurd rfl different
    rw [swapped, holds]

theorem read_assign {column other : OrderColumn} (different : column ≠ other) (value : ℚ)
    (row : OrderRow) : column.read (other.assign value row) = column.read row := by
  cases column <;> cases other <;> first | rfl | exact absurd rfl different

theorem OrderRow.Explained.mono {row : OrderRow} (grown : seen ⊆ more)
    (explained : row.Explained server seen) : row.Explained server more := by
  obtain ⟨odt, original, shown, described, ages, columns⟩ := explained
  exact ⟨odt, original, grown shown, described, ages,
    fun column => (columns column).imp_right (AssignedTo.mono grown)⟩

theorem Database.Explained.mono (grown : seen ⊆ more) (explained : db.Explained server seen) :
    db.Explained server more where
  order row listed := (explained.order row listed).mono grown
  execReport row listed := by
    obtain ⟨order, shown, explains⟩ := explained.execReport row listed
    exact ⟨order, grown shown, explains⟩

theorem OrderRow.Explained.assign {row : OrderRow} {order : Order} {update : Update}
    {assigned : ℚ} {selected : OrderRow → Bool} (explained : row.Explained server seen)
    (shown : .updated order update ∈ seen) (quoted : server.quoted update.value = some assigned)
    (found : server.whereNid update.nid = some selected) (isSelected : selected row = true)
    (settles : update.column = .orderSituation → assigned = 2 ∨ assigned = 3) :
    (update.column.assign assigned row).Explained server seen := by
  obtain ⟨odt, original, handed, described, ages, columns⟩ := explained
  refine ⟨odt, original, handed, described, ages.trans (ages_assign settles row), ?_⟩
  intro column
  by_cases isColumn : update.column = column
  · right
    refine ⟨order, update, assigned, selected, row, shown, isColumn, quoted, found, isSelected,
      (OrderColumn.key_assign ..).symm, ?_⟩
    rw [← isColumn]
    cases update.column <;> rfl
  · have different : column ≠ update.column := fun same => isColumn same.symm
    rw [read_assign different]
    exact (columns column).imp_right (AssignedTo.assign different assigned)

theorem Statement.explained (statement : Statement server observations db later)
    (grown : observations ⊆ seen) (explained : db.Explained server seen) :
    later.Explained server seen := by
  cases statement with
  | refused => exact explained
  | insertsOrder odt row order shown described inserted =>
      refine ⟨?_, explained.execReport⟩
      intro other listed
      rw [(KeyedTable.insert_eq_some_iff.mp inserted).2, List.mem_append,
        List.mem_singleton] at listed
      rcases listed with old | rfl
      · exact explained.order other old
      · exact ⟨odt, other, grown shown, described, .refl other, fun _ => .inl rfl⟩
  | insertsReport order execPrice clientSerialNum row execReport shown executed numbered described
      inserted =>
      refine ⟨explained.order, ?_⟩
      intro other listed
      rw [(KeyedTable.insert_eq_some_iff.mp inserted).2, List.mem_append,
        List.mem_singleton] at listed
      rcases listed with old | rfl
      · exact explained.execReport other old
      · exact ⟨order, grown shown, execPrice, clientSerialNum, executed, numbered, described⟩
  | updates order update assigned selected shown quoted found settles =>
      refine ⟨?_, explained.execReport⟩
      intro row listed
      obtain ⟨old, oldListed, rfl⟩ := List.mem_map.mp listed
      have oldExplained := explained.order old oldListed
      split
      next isSelected =>
        exact oldExplained.assign (grown shown) quoted found isSelected settles
      next => exact oldExplained

theorem explained_of_step {state next : Threads} {event : Event}
    (stepped : state.step server event = some (next, observations))
    (explained : state.trader.db.Explained server seen) :
    next.trader.db.Explained server (seen ++ observations) := by
  obtain ⟨middle, first, second⟩ := statements_of_step stepped
  have grown : observations ⊆ seen ++ observations := List.subset_append_right _ _
  exact second.explained grown (first.explained grown
    (explained.mono (List.subset_append_left _ _)))

theorem explained_of_life {nidSub1 : BitVec 32} {state next : Lives} {event : LifeEvent}
    (stepped : state.step server nidSub1 event = some (next, observations))
    (explained : state.threads.trader.db.Explained server seen) :
    next.threads.trader.db.Explained server (seen ++ observations) := by
  cases event with
  | thread event =>
      obtain ⟨threads', threadStep, rfl⟩ := Lives.thread_eq_some stepped
      exact explained_of_step threadStep explained
  | restart rc userList connections =>
      cases stepped
      rw [List.append_nil]
      change (Trader.construct ..).db.Explained server seen
      rw [Trader.construct_db]
      exact explained

theorem explained_of_lives {nidSub1 : BitVec 32} {state last : Lives} {events : List LifeEvent}
    (explained : state.threads.trader.db.Explained server [])
    (finished : (lives server nidSub1).run state events = some (last, observations)) :
    last.threads.trader.db.Explained server observations := by
  apply (lives server nidSub1).invariant_of_run
    (fun current seen => current.threads.trader.db.Explained server seen) _ explained finished
  intro current seen event next observations explained stepped
  exact explained_of_life stepped explained

end

/-- From empty tables on, over any number of processes that splice only numerals into
their statements: every row of `Order` was handed over for an accepted order, each value
that it holds beside those of that order was assigned by an UPDATE that selected it, and
every row of `ExecReport` is the report of an order that was executed. -/
theorem rows_explained (server : MariaDB) (nidSub1 : BitVec 32) (rc : RiskController)
    (userList : List (Text × UserData)) (connections : ConnRef → Connection)
    (events : List (LifeEvent × Option Database)) (last : Lives)
    (observations : List Observation)
    (numerals : ∀ observation ∈ observations, observation.SendsNumerals)
    (injected : (injectedLives server nidSub1).run
      (.start server nidSub1 .initial rc userList connections) events =
        some (last, observations)) :
    (∀ row ∈ last.threads.trader.db.order.rows, row.Explained server observations) ∧
      ∀ row ∈ last.threads.trader.db.execReport.rows,
        ∃ order ∈ executedIn observations, .reported order ∈ observations ∧
          ReportRow.Explains server order row := by
  have finished := Machine.run_of_tame numerals injected
  have initially : (Lives.start server nidSub1 .initial rc userList
      connections).threads.trader.db.Explained server [] := by
    change (Trader.construct ..).db.Explained server []
    rw [Trader.construct_db]
    refine ⟨?_, ?_⟩ <;> intro row listed <;> cases listed
  have explained := explained_of_lives initially finished
  refine ⟨explained.order, ?_⟩
  intro row listed
  obtain ⟨order, shown, explains⟩ := explained.execReport row listed
  refine ⟨order, ?_, shown, explains⟩
  obtain ⟨processes, rfl, areProcesses⟩ := lives_split finished
  obtain ⟨process, isListed, shownThere⟩ := List.mem_flatten.mp shown
  have executed := (areProcesses process isListed).keepsToItself.reported
    (mem_reportedIn.mpr shownThere)
  obtain ⟨odb, ods, isShown, isOne⟩ := mem_executedIn.mp executed
  exact mem_executedIn.mpr ⟨odb, ods, List.mem_flatten.mpr ⟨process, isListed, isShown⟩, isOne⟩

theorem rows_explained_settlingRun :
    ∃ last observations, (injectedLives .literal 1804289383).run
        (.start .literal 1804289383 .initial .initial Server.initialUsers fun _ => ⟨0, [], false⟩)
        (settlingRun.map (·, none)) = some (last, observations) ∧
      last.threads.trader.db.execReport.rows.length = 1 ∧
      (∀ row ∈ last.threads.trader.db.order.rows, row.Explained .literal observations) ∧
      ∀ row ∈ last.threads.trader.db.execReport.rows,
        ∃ order ∈ executedIn observations, .reported order ∈ observations ∧
          ReportRow.Explains .literal order row := by
  obtain ⟨last, observations, finished, evaluated⟩ :=
    Machine.exists_run_of_any (injectedLives .literal 1804289383)
      (.start .literal 1804289383 .initial .initial Server.initialUsers fun _ => ⟨0, [], false⟩)
      (settlingRun.map (·, none))
      (fun last observations =>
        decide (last.threads.trader.db.execReport.rows.length = 1 ∧
          ∀ observation ∈ observations, observation.SendsNumerals))
      (by decide +kernel)
  obtain ⟨reports, numerals⟩ := of_decide_eq_true evaluated
  exact ⟨last, observations, finished, reports,
    rows_explained _ _ _ _ _ _ _ _ numerals finished⟩

end InertiaTrader
