import InertiaTrader.Threads

/-!
# Serial numbers

`generateNid` packs a number that is drawn when the process starts with a
counter that starts at 1.  `rand` is never seeded, so every process draws the
same number.
-/

namespace InertiaTrader

open Foundation

def serialNum (nidSub1 nidSub2 : BitVec 32) : ℤ :=
  (nidSub1.signExtend 64 <<< 32 ||| nidSub2.signExtend 64).toInt

theorem generateNid_eq (trader : Trader) :
    trader.generateNid.1 = serialNum trader.nidSub1 trader.nidSub2 := rfl

theorem serialNum_inj {nidSub1 first second : BitVec 32}
    (same : serialNum nidSub1 first = serialNum nidSub1 second) : first = second := by
  have keys := BitVec.eq_of_toInt_eq same
  have low := congrArg (BitVec.setWidth 32) keys
  have lowPart (counter : BitVec 32) :
      (nidSub1.signExtend 64 <<< 32 ||| counter.signExtend 64).setWidth 32 = counter := by
    ext position inside
    simp [BitVec.getElem_signExtend, inside, show position < 64 by omega]
  rwa [lowPart, lowPart] at low

/-- The serial numbers that were given to orders. -/
def serialsIn (observations : List Observation) : List ℤ :=
  observations.filterMap fun
    | .inserted order => order.order.clientSerialNum
    | _ => none

theorem serialsIn_eq_nil {observations : List Observation}
    (none' : ∀ order, .inserted order ∉ observations) : serialsIn observations = [] := by
  apply List.filterMap_eq_nil_iff.mpr
  intro observation listed
  cases observation with
  | inserted order => exact absurd listed (none' order)
  | _ => rfl

/-- The trading process and those before it. -/
structure Lives where
  threads : Threads
  /-- The serial numbers that earlier processes gave. -/
  earlier : List ℤ := []
  /-- The serial numbers that this process has given. -/
  current : List ℤ := []

inductive LifeEvent where
  | thread (event : Event)
  /-- The process ends and is started again over the same database. -/
  | restart (rc : RiskController) (userList : List (Text × UserData))
      (connections : ConnRef → Connection)

namespace Lives

def start (server : MariaDB) (nidSub1 : BitVec 32) (db : Database) (rc : RiskController)
    (userList : List (Text × UserData)) (connections : ConnRef → Connection) : Lives where
  threads := .start (.construct server db rc nidSub1 (.construct userList connections))

def step (server : MariaDB) (nidSub1 : BitVec 32) (state : Lives) :
    LifeEvent → Option (Lives × List Observation)
  | .thread event =>
      match state.threads.step server event with
      | none => none
      | some (threads, observations) =>
          some ({ state with threads, current := state.current ++ serialsIn observations },
            observations)
  | .restart rc userList connections =>
      some ({ start server nidSub1 state.threads.trader.db rc userList connections with
        earlier := state.earlier ++ state.current }, [])

def Numbers (server : MariaDB) (nidSub1 : BitVec 32) (state : Lives) (event : LifeEvent) : Prop :=
  ∃ next observations order, state.step server nidSub1 event = some (next, observations) ∧
    .inserted order ∈ observations

/-- Every serial number that is given is a new one, and with it the primary key
of the row is free. -/
def FreshSerial (server : MariaDB) (nidSub1 : BitVec 32) (state : Lives) (event : LifeEvent) :
    Prop :=
  ∀ next observations order, state.step server nidSub1 event = some (next, observations) →
    .inserted order ∈ observations →
    ∃ clientSerialNum, order.order.clientSerialNum = some clientSerialNum ∧
      clientSerialNum ∉ state.earlier ++ state.current ∧
      ∀ row, orderRow server (Trader.newOrderData order.order clientSerialNum) = some row →
        row.key ∉ state.threads.trader.db.order.rows.map OrderRow.key

/-- A serial number is given only while no earlier process has given one, and to
at most `2 ^ 32` orders. -/
def FirstLife (server : MariaDB) (nidSub1 : BitVec 32) (state : Lives) (event : LifeEvent) :
    Prop :=
  state.Numbers server nidSub1 event → state.earlier = [] ∧ state.current.length < 2 ^ 32

end Lives

/-- The processes that work on one database one after the other. -/
def lives (server : MariaDB) (nidSub1 : BitVec 32) : Machine Lives LifeEvent Observation :=
  ⟨Lives.step server nidSub1⟩

theorem serials_updateColumn (server : MariaDB) (connected : Bool) (column : OrderColumn)
    (nid value : Text) (db : Database) :
    (updateColumn server connected column nid value db).2.order.rows.map OrderRow.clientSerialNum =
      db.order.rows.map OrderRow.clientSerialNum := by
  unfold updateColumn
  split
  next assigned selected _ _ =>
    change (db.order.rows.map _).map OrderRow.clientSerialNum = _
    rw [List.map_map]
    apply List.map_congr_left
    intro row _
    rw [Function.comp_apply]
    split
    · cases column <;> rfl
    · rfl
  next => rfl

theorem clientSerialNum_of_orderRow {server : MariaDB} {od : OrderData} {row : OrderRow}
    (described : orderRow server od = some row) : row.clientSerialNum = od.clientSerialnum := by
  have written : server.number (toStringInt od.clientSerialnum) = some (od.clientSerialnum : ℚ) :=
    server.number_literal _ _ (literalValue_intText od.clientSerialnum)
  simp only [orderRow, written, Option.bind_eq_bind, Option.bind_some,
    Option.bind_eq_some_iff] at described
  obtain ⟨_, -, _, -, _, -, _, -, returned⟩ := described
  cases returned
  exact intColumn_intCast _

/-- What a step of the threads does to the counter and to the serial numbers in
the table. -/
inductive Numbering (threads next : Threads) (observations : List Observation) : Prop where
  | silent :
      (∀ order, .inserted order ∉ observations) →
      next.trader.nidSub1 = threads.trader.nidSub1 → next.trader.nidSub2 = threads.trader.nidSub2 →
      next.trader.db.order.rows.map OrderRow.clientSerialNum =
        threads.trader.db.order.rows.map OrderRow.clientSerialNum →
      Numbering threads next observations
  | numbers (order : OrderPtr) :
      (∀ other, .inserted other ∈ observations ↔ other = order) →
      order.order.clientSerialNum =
        some (serialNum threads.trader.nidSub1 threads.trader.nidSub2) →
      serialsIn observations = [serialNum threads.trader.nidSub1 threads.trader.nidSub2] →
      next.trader.nidSub1 = threads.trader.nidSub1 →
      next.trader.nidSub2 = threads.trader.nidSub2 + 1 →
      (∀ row ∈ next.trader.db.order.rows, row ∈ threads.trader.db.order.rows ∨
        row.clientSerialNum = serialNum threads.trader.nidSub1 threads.trader.nidSub2) →
      Numbering threads next observations

theorem serials_insertOrder (server : MariaDB) (connected : Bool) (od : OrderData)
    (db : Database) :
    ∀ row ∈ (insertOrder server connected od db).2.order.rows,
      row ∈ db.order.rows ∨ row.clientSerialNum = od.clientSerialnum := by
  intro row listed
  cases inserted : insertOrder server connected od db with
  | mk stored after =>
      rw [inserted] at listed
      cases stored with
      | true =>
          obtain ⟨added, described, rows, -⟩ := insertOrder_eq_true inserted
          rw [rows, List.mem_append, List.mem_singleton] at listed
          rcases listed with old | rfl
          · exact .inl old
          · exact .inr (clientSerialNum_of_orderRow described)
      | false =>
          rw [insertOrder_eq_false inserted] at listed
          exact .inl listed

theorem numbering_step {server : MariaDB} {threads next : Threads} {event : Event}
    {observations : List Observation}
    (stepped : threads.step server event = some (next, observations)) :
    Numbering threads next observations := by
  cases Threads.step_cases stepped with
  | communicates _ sr asking _ sends =>
      refine .silent ?_ rfl rfl rfl
      intro order listed
      obtain ⟨_, _, equality⟩ := sends _ listed
      cases equality
  | handlesOrder address connected rest connId od cn trader _ fresh handling =>
      cases handling with
      | failed => exact .silent (by simp) rfl rfl rfl
      | insufficient => exact .silent (by simp) rfl rfl rfl
      | accepted username passed tested =>
          refine .numbers ⟨address, Trader.acceptedOrder
            { threads.trader with sr := { threads.trader.sr with dq := rest } } od⟩ ?_ rfl rfl rfl
            rfl ?_
          · intro other
            simp
          · exact serials_insertOrder server connected _ _
  | amends connected val rest trader _ popped amendment =>
      cases amendment with
      | cancelled chosen nid it order cn code =>
          refine .silent (by simp) ?_ ?_ ?_
          · cases chosen <;> rfl
          · cases chosen <;> rfl
          · exact serials_updateColumn ..
      | modified nid price orderPrice it order cn code =>
          exact .silent (by simp) rfl rfl (serials_updateColumn ..)
      | refused => exact .silent (by simp) rfl rfl rfl
  | sends inserts updates order connId execPrice clientSerialNum cn reading =>
      refine .silent (by simp) rfl rfl ?_
      change (Trader.reportDatabase ..).order.rows.map OrderRow.clientSerialNum = _
      rw [Trader.reportDatabase, updateOrderSituation, serials_updateColumn, insertReport_order]
  | rests | executes | pushes | reads | pops => exact .silent (by simp) rfl rfl rfl

theorem Lives.thread_eq_some {server : MariaDB} {nidSub1 : BitVec 32} {state next : Lives}
    {event : Event} {observations : List Observation}
    (stepped : state.step server nidSub1 (.thread event) = some (next, observations)) :
    ∃ threads, state.threads.step server event = some (threads, observations) ∧
      next = { state with threads, current := state.current ++ serialsIn observations } := by
  simp only [Lives.step] at stepped
  split at stepped
  next => cases stepped
  next threads _ threadStep =>
    cases stepped
    exact ⟨threads, threadStep, rfl⟩

theorem Lives.given_of_inserted {server : MariaDB} {nidSub1 : BitVec 32} {state next : Lives}
    {event : LifeEvent} {observations : List Observation} {order : OrderPtr}
    (stepped : state.step server nidSub1 event = some (next, observations))
    (inserted : .inserted order ∈ observations) :
    order.order.clientSerialNum =
      some (serialNum state.threads.trader.nidSub1 state.threads.trader.nidSub2) := by
  cases event with
  | restart =>
      cases stepped
      cases inserted
  | thread event =>
      obtain ⟨threads, threadStep, rfl⟩ := Lives.thread_eq_some stepped
      cases numbering_step threadStep with
      | silent none' => exact absurd inserted (none' order)
      | numbers other only given =>
          rw [(only order).mp inserted]
          exact given

structure Counted (nidSub1 : BitVec 32) (state : Lives) : Prop where
  seed : state.threads.trader.nidSub1 = nidSub1
  counter : state.threads.trader.nidSub2 = 1 + BitVec.ofNat 32 state.current.length
  current : ∀ serial, serial ∈ state.current ↔ ∃ count < state.current.length,
    serial = serialNum nidSub1 (1 + BitVec.ofNat 32 count)
  earlier : state.earlier ≠ [] → serialNum nidSub1 1 ∈ state.earlier ∧ state.current = []
  table : ∀ row ∈ state.threads.trader.db.order.rows,
    row.clientSerialNum ∈ state.earlier ++ state.current

namespace Counted

variable {server : MariaDB} {nidSub1 : BitVec 32} {state : Lives}

/-- The number that the next order gets is new exactly in the first life, while
the counter has not come round. -/
theorem fresh_iff (counted : Counted nidSub1 state) :
    serialNum nidSub1 state.threads.trader.nidSub2 ∉ state.earlier ++ state.current ↔
      state.earlier = [] ∧ state.current.length < 2 ^ 32 := by
  rw [List.mem_append, not_or, counted.counter, counted.current]
  constructor
  · rintro ⟨notEarlier, notCurrent⟩
    have first : state.earlier = [] := by
      by_contra lived
      obtain ⟨given, none'⟩ := counted.earlier lived
      rw [none'] at notEarlier
      exact notEarlier given
    refine ⟨first, ?_⟩
    by_contra long
    obtain ⟨count, wrapped⟩ := Nat.exists_eq_add_of_le' (not_lt.mp long)
    have same : BitVec.ofNat 32 state.current.length = BitVec.ofNat 32 count := by
      apply BitVec.eq_of_toNat_eq
      simp only [BitVec.toNat_ofNat, wrapped, Nat.add_mod_right]
    exact notCurrent ⟨count, by omega, by rw [same]⟩
  · rintro ⟨first, short⟩
    refine ⟨by simp [first], ?_⟩
    rintro ⟨count, below, same⟩
    have counters := congrArg BitVec.toNat (BitVec.add_right_inj _ |>.mp (serialNum_inj same))
    simp only [BitVec.toNat_ofNat] at counters
    omega

theorem freshSerial_iff (counted : Counted nidSub1 state) (event : LifeEvent) :
    state.FreshSerial server nidSub1 event ↔ state.FirstLife server nidSub1 event := by
  constructor
  · rintro fresh ⟨next, observations, order, stepped, inserted⟩
    obtain ⟨serial, given, new, -⟩ := fresh next observations order stepped inserted
    have serialEq := Lives.given_of_inserted stepped inserted
    rw [given, Option.some.injEq, counted.seed] at serialEq
    rw [serialEq] at new
    exact counted.fresh_iff.mp new
  · intro firstLife next observations order stepped inserted
    have new := counted.fresh_iff.mpr (firstLife ⟨next, observations, order, stepped, inserted⟩)
    have given := Lives.given_of_inserted stepped inserted
    rw [counted.seed] at given
    refine ⟨_, given, new, ?_⟩
    intro row described taken
    obtain ⟨old, listed, sameKey⟩ := List.mem_map.mp taken
    have sameSerial : old.clientSerialNum = row.clientSerialNum := congrArg Prod.snd sameKey
    have stored := counted.table old listed
    rw [sameSerial, clientSerialNum_of_orderRow described] at stored
    exact new stored

theorem of_start (server : MariaDB) (rc : RiskController) (userList : List (Text × UserData))
    (connections : ConnRef → Connection) {db : Database} {earlier : List ℤ}
    (lived : earlier ≠ [] → serialNum nidSub1 1 ∈ earlier)
    (table : ∀ row ∈ db.order.rows, row.clientSerialNum ∈ earlier) :
    Counted nidSub1 { Lives.start server nidSub1 db rc userList connections with earlier } := by
  obtain ⟨buyside, sellside, constructed⟩ := Trader.construct_eq server db rc nidSub1
    (.construct userList connections)
  have trader : (Lives.start server nidSub1 db rc userList connections).threads.trader = _ :=
    constructed
  refine ⟨by rw [trader], by rw [trader]; rfl, by simp [Lives.start], ?_, ?_⟩
  · intro someEarlier
    exact ⟨lived someEarlier, rfl⟩
  · intro row listed
    rw [trader] at listed
    exact List.mem_append_left _ (table row listed)

theorem restarted (counted : Counted nidSub1 state) (server : MariaDB) (rc : RiskController)
    (userList : List (Text × UserData)) (connections : ConnRef → Connection) :
    Counted nidSub1 { Lives.start server nidSub1 state.threads.trader.db rc userList connections with
      earlier := state.earlier ++ state.current } := by
  apply of_start server rc userList connections _ counted.table
  intro lived
  by_cases before : state.earlier = []
  · rw [before, List.nil_append] at lived ⊢
    exact (counted.current _).mpr ⟨0, List.length_pos_iff.mpr lived, by simp⟩
  · exact List.mem_append_left _ (counted.earlier before).1

theorem step (counted : Counted nidSub1 state) {event : LifeEvent}
    (fresh : state.FreshSerial server nidSub1 event) {next : Lives}
    {observations : List Observation}
    (stepped : state.step server nidSub1 event = some (next, observations)) :
    Counted nidSub1 next := by
  cases event with
  | restart rc userList connections =>
      cases stepped
      exact counted.restarted server rc userList connections
  | thread event =>
      obtain ⟨threads, threadStep, rfl⟩ := Lives.thread_eq_some stepped
      cases numbering_step threadStep with
      | silent none' seed counter table =>
          have noSerials := serialsIn_eq_nil none'
          refine ⟨seed.trans counted.seed, ?_, ?_, ?_, ?_⟩
          · simpa [noSerials] using counter.trans counted.counter
          · simpa [noSerials] using counted.current
          · simpa [noSerials] using counted.earlier
          · intro row listed
            have serial : row.clientSerialNum ∈ _ := List.mem_map_of_mem listed
            rw [table] at serial
            obtain ⟨old, oldListed, sameSerial⟩ := List.mem_map.mp serial
            simpa [noSerials, sameSerial] using counted.table old oldListed
      | numbers order only given serials seed counter table =>
          rw [counted.seed, counted.counter] at serials
          have accepted := (only order).mpr rfl
          obtain ⟨first, short⟩ := counted.freshSerial_iff (.thread event) |>.mp fresh
            ⟨_, observations, order, stepped, accepted⟩
          refine ⟨seed.trans counted.seed, ?_, ?_, fun lived => absurd first lived, ?_⟩
          · rw [counter, counted.counter, serials, List.length_append, List.length_singleton,
              BitVec.ofNat_add, BitVec.add_assoc]
            rfl
          · intro serial
            rw [serials, List.mem_append, List.mem_singleton, List.length_append,
              List.length_singleton, counted.current]
            constructor
            · rintro (⟨count, below, rfl⟩ | rfl)
              · exact ⟨count, by omega, rfl⟩
              · exact ⟨_, Nat.lt_succ_self _, rfl⟩
            · rintro ⟨count, below, rfl⟩
              rcases Nat.lt_succ_iff_lt_or_eq.mp below with before | rfl
              · exact .inl ⟨count, before, rfl⟩
              · exact .inr rfl
          · intro row listed
            rw [serials, ← List.append_assoc, List.mem_append, List.mem_singleton]
            rcases table row listed with old | new
            · exact .inl (counted.table row old)
            · rw [counted.seed, counted.counter] at new
              exact .inr new

theorem nodup_step (counted : Counted nidSub1 state) {event : LifeEvent}
    (fresh : state.FreshSerial server nidSub1 event) {next : Lives}
    {observations : List Observation}
    (stepped : state.step server nidSub1 event = some (next, observations))
    (distinct : (state.earlier ++ state.current).Nodup) :
    next.earlier ++ next.current = state.earlier ++ state.current ++ serialsIn observations ∧
      (next.earlier ++ next.current).Nodup := by
  cases event with
  | restart rc userList connections =>
      cases stepped
      refine ⟨rfl, ?_⟩
      change (state.earlier ++ state.current ++ []).Nodup
      rwa [List.append_nil]
  | thread event =>
      obtain ⟨threads, threadStep, rfl⟩ := Lives.thread_eq_some stepped
      refine ⟨(List.append_assoc ..).symm, ?_⟩
      cases numbering_step threadStep with
      | silent none' =>
          have noSerials : serialsIn observations = [] := serialsIn_eq_nil none'
          rwa [noSerials, List.append_nil]
      | numbers order only given serials =>
          have new := counted.fresh_iff.mpr (counted.freshSerial_iff (.thread event) |>.mp fresh
            ⟨_, observations, order, stepped, (only order).mpr rfl⟩)
          rw [serials, counted.seed, ← List.append_assoc]
          exact List.nodup_append.mpr ⟨distinct, List.nodup_singleton _,
            fun old listed new' isNew same => new (List.mem_singleton.mp isNew ▸ same ▸ listed)⟩

theorem start (server : MariaDB) (nidSub1 : BitVec 32) (rc : RiskController)
    (userList : List (Text × UserData)) (connections : ConnRef → Connection) :
    Counted nidSub1 (.start server nidSub1 .initial rc userList connections) := by
  apply of_start server rc userList connections
  · intro lived
    exact absurd rfl lived
  · intro row listed
    cases listed

end Counted

/-- In a run in which every serial number is new when it is given, no two orders
get the same. -/
theorem nodup_serials {server : MariaDB} {nidSub1 : BitVec 32} {rc : RiskController}
    {userList : List (Text × UserData)} {connections : ConnRef → Connection}
    {events : List LifeEvent} {last : Lives} {observations : List Observation}
    (fresh : (lives server nidSub1).Along (Lives.FreshSerial server nidSub1)
      (.start server nidSub1 .initial rc userList connections) events)
    (finished : (lives server nidSub1).run
      (.start server nidSub1 .initial rc userList connections) events =
        some (last, observations)) :
    (serialsIn observations).Nodup := by
  have kept := (lives server nidSub1).invariant_of_run_along
    (fun state seen => Counted nidSub1 state ∧ state.earlier ++ state.current = serialsIn seen ∧
      (state.earlier ++ state.current).Nodup)
    (fun state seen event next outputs holds freshHere stepped => by
      obtain ⟨counted, given, distinct⟩ := holds
      obtain ⟨added, distinctNext⟩ := counted.nodup_step freshHere stepped distinct
      refine ⟨counted.step freshHere stepped, ?_, distinctNext⟩
      rw [added, given, serialsIn, serialsIn, serialsIn, List.filterMap_append])
    ⟨Counted.start server nidSub1 rc userList connections, rfl, List.nodup_nil⟩ fresh finished
  exact kept.2.1 ▸ kept.2.2

/-- Serial numbers are never used again, and never block a row, exactly as long
as only one process gives any, and not more than the counter has values. -/
theorem serials_fresh_iff (server : MariaDB) (nidSub1 : BitVec 32) (rc : RiskController)
    (userList : List (Text × UserData)) (connections : ConnRef → Connection)
    (events : List LifeEvent) :
    (lives server nidSub1).Along (Lives.FreshSerial server nidSub1)
        (.start server nidSub1 .initial rc userList connections) events ↔
      (lives server nidSub1).Along (Lives.FirstLife server nidSub1)
        (.start server nidSub1 .initial rc userList connections) events := by
  apply (lives server nidSub1).along_congr_of_invariant (Counted nidSub1)
  · intro state event next observations counted fresh stepped
    exact counted.step fresh stepped
  · intro state event counted
    exact counted.freshSerial_iff event
  · exact Counted.start server nidSub1 rc userList connections

/-- A buy order is accepted; after a restart an order with the same nid comes. -/
def twoLives : List LifeEvent := [
  .thread .firstLogin, .thread (.receive 0 "87|1|60|1|1|1|KKC|".toList), .thread (.getOrder 10 true),
  .restart .initial Server.initialUsers fun _ => ⟨0, [], false⟩,
  .thread .firstLogin, .thread (.receive 0 "87|1|60|1|1|1|KKC|".toList), .thread (.getOrder 10 true)]

/-- Both orders get the same serial number, and the row of the first one keeps the
second out of the table. -/
theorem serial_given_again :
    ∃ last observations, (lives .literal 1804289383).run
        (.start .literal 1804289383 .initial .initial Server.initialUsers fun _ => ⟨0, [], false⟩)
        twoLives = some (last, observations) ∧
      ¬ (serialsIn observations).Nodup ∧
      .sent 0 "1|failed, repeat nid\n".toList ∈ observations := by
  obtain ⟨last, observations, finished, evaluated⟩ :=
    Machine.exists_run_of_any (lives .literal 1804289383)
      (.start .literal 1804289383 .initial .initial Server.initialUsers fun _ => ⟨0, [], false⟩)
      twoLives
      (fun _ observations => decide (¬ (serialsIn observations).Nodup ∧
        .sent 0 "1|failed, repeat nid\n".toList ∈ observations))
      (by decide +kernel)
  exact ⟨last, observations, finished, of_decide_eq_true evaluated⟩

end InertiaTrader
