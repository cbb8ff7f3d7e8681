import InertiaTrader.Foundation.Machine
import InertiaTrader.Trader.GetCancelOrder
import InertiaTrader.Trader.GetOrder
import InertiaTrader.Trader.Reports

/-!
# The running system

All threads of a trading process over their shared state.  An iteration of
`getOrder` or `getCancelOrder` is taken as a single step, and so is a pass of
`matchup`, without `cv_m` on which it may block half-way.  With them a call of
`split` is one step, although all threads share the position that `strtok` keeps
in a static variable.  The accesses to `reportList_` are steps of their own: the
matching thread appends the two orders of a pair one after the other, and the
reporting thread reads the last entry, sends the report and removes the last entry
in three steps.  A step that leaves the defined behaviour ends the run.
-/

namespace InertiaTrader

open Foundation

/-- Where the thread of `generateExecReport` stands in its iteration. -/
inductive Reporter where
  | idle
  /-- `reportList_.back()` was read. -/
  | read (order : OrderPtr)
  /-- `sendExecReport` has returned, `pop_back` is still to come. -/
  | sent
  deriving DecidableEq

structure Threads where
  trader : Trader
  /-- The addresses that `new Order` has returned; none is ever freed. -/
  allocated : List ℕ := []
  /-- The messages whose receiving thread is in the body of `case 1233`. -/
  asking : List Text := []
  /-- What the matching thread still has to push to `reportList_`. -/
  pushing : List OrderPtr := []
  reporter : Reporter := .idle

inductive Event where
  /-- The accepting, receiving and heartbeat threads change the tables of
  connections and users in any way. -/
  | connect (connStorage : List (ℤ × ConnRef)) (connections : ConnRef → Connection)
      (userList : List (Text × UserData))
  /-- `msgRecv` hands a text to `msgHandler`. -/
  | receive (cn : ConnRef) (text : Text)
  /-- A receiving thread executes the body of `case 1233`. -/
  | priceAsking (index : ℕ)
  | getOrder (address : ℕ) (connected : Bool)
  | getCancelOrder (connected : Bool)
  | matchup
  | pushReport
  | readReport
  | sendReport (inserts updates : Bool)
  | popReport

namespace Threads

def lift (threads : Threads) (result : Except Fault (Trader × List Observation)) :
    Option (Threads × List Observation) :=
  match result with
  | .error _ => none
  | .ok (trader, observations) => some ({ threads with trader }, observations)

def step (server : MariaDB) (threads : Threads) :
    Event → Option (Threads × List Observation)
  | .connect connStorage connections userList =>
      some ({ threads with trader := { threads.trader with
        sr := { threads.trader.sr with connStorage, connections, userList } } }, [])
  | .receive cn text =>
      let connection := threads.trader.sr.connections cn
      if connection.loginFlag then
        let msg := Server.addressed text connection
        let (sr, asks) := threads.trader.sr.route msg
        some ({ threads with
          trader := { threads.trader with sr }
          asking := if asks then threads.asking ++ [msg] else threads.asking }, [])
      else none
  | .priceAsking index =>
      match threads.asking[index]? with
      | none => none
      | some msg =>
          match threads.trader.sr.priceAsking msg with
          | .error _ => none
          | .ok replies => some ({ threads with asking := threads.asking.eraseIdx index },
              replies.map fun (cn, text) => .sent cn text)
  | .getOrder address connected =>
      if address ∈ threads.allocated then none
      else
        { threads with
          allocated :=
            if threads.trader.sr.dq = [] then threads.allocated
            else address :: threads.allocated }.lift
          (threads.trader.getOrder server address connected)
  | .getCancelOrder connected =>
      threads.lift (threads.trader.getCancelOrder server connected)
  | .matchup =>
      if threads.pushing = [] then
        match threads.trader.matchPair with
        | .error _ => none
        | .ok (trader, pushing, observations) =>
            some ({ threads with trader, pushing }, observations)
      else none
  | .pushReport =>
      match threads.pushing with
      | [] => none
      | order :: pushing =>
          some ({ threads with trader := threads.trader.pushReport order, pushing },
            [.pushed order])
  | .readReport =>
      match threads.reporter, threads.trader.reportList.getLast? with
      | .idle, some order => some ({ threads with reporter := .read order }, [])
      | _, _ => none
  | .sendReport inserts updates =>
      match threads.reporter with
      | .read order =>
          { threads with reporter := .sent }.lift
            (threads.trader.sendExecReport server inserts updates order)
      | _ => none
  | .popReport =>
      match threads.reporter with
      | .sent => some ({ threads with
          trader := { threads.trader with reportList := threads.trader.reportList.dropLast }
          reporter := .idle }, [])
      | _ => none

/-- The process whose trader was just constructed. -/
def start (trader : Trader) : Threads := { trader }

/-- What a step can do, guards included. -/
inductive Step (server : MariaDB) (threads : Threads) :
    Event → Threads → List Observation → Prop where
  /-- Only the server and the receiving threads are touched. -/
  | communicates (event : Event) (sr : Server) (asking : List Text)
      (observations : List Observation) :
      (∀ observation ∈ observations, ∃ cn text, observation = .sent cn text) →
      event ≠ .matchup → event ≠ .pushReport →
      Step server threads event { threads with trader := { threads.trader with sr }, asking }
        observations
  /-- A queue is empty, or no pair crosses. -/
  | rests (event : Event) :
      (event = .matchup → threads.trader.toBooks.Pass threads.trader.toBooks none) →
      event ≠ .pushReport →
      Step server threads event threads []
  | handlesOrder (address : ℕ) (connected : Bool) (rest : List Text) (connId : ℤ) (od : Order)
      (cn : ConnRef) (trader : Trader) (observations : List Observation) :
      address ∉ threads.allocated →
      Trader.Handling server address connected connId od
        { threads.trader with sr := { threads.trader.sr with dq := rest } } cn trader
        observations →
      Step server threads (.getOrder address connected)
        { threads with trader, allocated := address :: threads.allocated } observations
  | amends (connected : Bool) (val : Text) (rest : List Text) (trader : Trader)
      (observations : List Observation) :
      threads.trader.sr.dqOrderhandle = val :: rest →
      Trader.Amendment server connected (split val "|".toList)
        { threads.trader with sr := { threads.trader.sr with dqOrderhandle := rest } } trader
        observations →
      Step server threads (.getCancelOrder connected) { threads with trader } observations
  | executes (toBooks : Books) (odb ods : OrderPtr) (sr : Server) :
      threads.pushing = [] →
      threads.trader.toBooks.Pass toBooks (some (odb, ods)) →
      Step server threads .matchup
        { threads with trader := { threads.trader with toBooks, sr }, pushing := [odb, ods] }
        [.executed odb ods]
  | pushes (order : OrderPtr) (pushing : List OrderPtr) :
      threads.pushing = order :: pushing →
      Step server threads .pushReport
        { threads with trader := threads.trader.pushReport order, pushing } [.pushed order]
  | reads (order : OrderPtr) :
      threads.reporter = .idle → threads.trader.reportList.getLast? = some order →
      Step server threads .readReport { threads with reporter := .read order } []
  | sends (inserts updates : Bool) (order : OrderPtr) (connId : ℤ) (execPrice : Price)
      (clientSerialNum : ℤ) (cn : ConnRef) :
      threads.reporter = .read order →
      order.order.connId = some connId → order.order.execPrice = some execPrice →
      order.order.clientSerialNum = some clientSerialNum →
      Step server threads (.sendReport inserts updates)
        { threads with
          trader := { threads.trader with
            db := Trader.reportDatabase server inserts updates order.order execPrice
              clientSerialNum threads.trader.db }
          reporter := .sent }
        [.sent cn (order.order.nid ++ "|OrderExec".toList ++ "\n".toList), .reported order,
          .updated order.order ⟨.orderSituation, order.order.nid, "2".toList⟩]
  | pops :
      threads.reporter = .sent →
      Step server threads .popReport
        { threads with
          trader := { threads.trader with reportList := threads.trader.reportList.dropLast }
          reporter := .idle }
        []

theorem filterMap_sends {Shown : Type} {shown : Observation → Option Shown}
    {observations : List Observation}
    (silent : ∀ cn text, shown (.sent cn text) = none)
    (sends : ∀ observation ∈ observations, ∃ cn text, observation = .sent cn text) :
    observations.filterMap shown = [] := by
  rw [List.filterMap_eq_nil_iff]
  intro observation membership
  obtain ⟨cn, text, rfl⟩ := sends observation membership
  exact silent cn text

theorem lift_eq_some_iff {threads next : Threads} {observations : List Observation}
    {result : Except Fault (Trader × List Observation)} :
    threads.lift result = some (next, observations) ↔
      ∃ trader, result = .ok (trader, observations) ∧ next = { threads with trader } := by
  unfold lift
  split
  next => simp
  next trader observations' =>
    simp only [Option.some.injEq, Prod.mk.injEq, Except.ok.injEq]
    constructor
    · rintro ⟨rfl, rfl⟩
      exact ⟨trader, ⟨rfl, rfl⟩, rfl⟩
    · rintro ⟨_, ⟨rfl, rfl⟩, rfl⟩
      exact ⟨rfl, rfl⟩

theorem getOrder_step {server : MariaDB} {threads next : Threads} {address : ℕ}
    {connected : Bool} {observations : List Observation}
    (stepped : threads.step server (.getOrder address connected) = some (next, observations)) :
    (threads.trader.sr.dq = [] ∧ next = threads ∧ observations = []) ∨
      ∃ msg rest od connId cn trader,
        address ∉ threads.allocated ∧ threads.trader.sr.dq = msg :: rest ∧
        Trader.newOrder (split msg "|".toList) = .ok od ∧ od.connId = some connId ∧
        threads.trader.sr.getConnObject connId = some cn ∧
        Trader.Handling server address connected connId od
          { threads.trader with sr := { threads.trader.sr with dq := rest } } cn trader
          observations ∧
        next = { threads with trader, allocated := address :: threads.allocated } := by
  simp only [step] at stepped
  split at stepped
  next => cases stepped
  next fresh =>
    obtain ⟨trader, finished, rfl⟩ := lift_eq_some_iff.mp stepped
    rcases Trader.getOrder_cases finished with
      ⟨empty, rfl, rfl⟩ | ⟨msg, rest, od, connId, cn, popped, built, connected, found, handling⟩
    · simp [empty]
    · have nonempty : threads.trader.sr.dq ≠ [] := by simp [popped]
      simp only [nonempty, if_false]
      exact .inr ⟨msg, rest, od, connId, cn, trader, fresh, popped, built, connected, found,
        handling, rfl⟩

theorem step_cases {server : MariaDB} {threads next : Threads} {event : Event}
    {observations : List Observation}
    (stepped : threads.step server event = some (next, observations)) :
    Step server threads event next observations := by
  cases event with
  | connect connStorage connections userList =>
      cases stepped
      exact .communicates _ _ _ _ (by simp) (by simp) (by simp)
  | receive cn text =>
      simp only [step] at stepped
      split at stepped
      next =>
        cases stepped
        exact .communicates _ _ _ _ (by simp) (by simp) (by simp)
      next => simp at stepped
  | priceAsking index =>
      simp only [step] at stepped
      split at stepped
      next => simp at stepped
      next =>
        split at stepped
        next => simp at stepped
        next replies _ =>
          cases stepped
          refine .communicates _ threads.trader.sr _ _ ?_ (by simp) (by simp)
          simp only [List.mem_map, forall_exists_index, and_imp]
          rintro _ reply - rfl
          exact ⟨reply.1, reply.2, rfl⟩
  | getOrder address connected =>
      rcases getOrder_step stepped with
        ⟨-, rfl, rfl⟩ | ⟨_, rest, od, connId, cn, trader, fresh, -, -, -, -, handling, rfl⟩
      · exact .rests _ (by simp) (by simp)
      · exact .handlesOrder address connected rest connId od cn trader _ fresh handling
  | getCancelOrder connected =>
      obtain ⟨trader, finished, rfl⟩ := lift_eq_some_iff.mp stepped
      rcases Trader.getCancelOrder_cases finished with
        ⟨-, rfl, rfl⟩ | ⟨val, rest, popped, amendment⟩
      · exact .rests _ (by simp) (by simp)
      · exact .amends connected val rest trader _ popped amendment
  | matchup =>
      simp only [step] at stepped
      split at stepped
      next finished =>
        split at stepped
        next => simp at stepped
        next trader pushing observations' matched =>
          cases stepped
          rcases Trader.matchPair_cases matched with
            ⟨rfl, rfl, rfl, nothing⟩ | ⟨toBooks, odb, ods, sr, pass, rfl, rfl, rfl⟩
          · rw [← finished]
            exact .rests _ (fun _ => nothing) (by simp)
          · exact .executes toBooks odb ods sr finished pass
      next => simp at stepped
  | pushReport =>
      simp only [step] at stepped
      split at stepped
      next => simp at stepped
      next order pushing equality =>
        cases stepped
        exact .pushes order pushing equality
  | readReport =>
      simp only [step] at stepped
      split at stepped
      next order idle last =>
        cases stepped
        exact .reads order idle last
      next => simp at stepped
  | sendReport inserts updates =>
      simp only [step] at stepped
      split at stepped
      next order reading =>
        obtain ⟨trader, finished, rfl⟩ := lift_eq_some_iff.mp stepped
        obtain ⟨connId, execPrice, clientSerialNum, cn, connected, executed, numbered, rfl, rfl⟩ :=
          Trader.sendExecReport_cases finished
        exact .sends inserts updates order connId execPrice clientSerialNum cn reading connected
          executed numbered
      next => simp at stepped
  | popReport =>
      simp only [step] at stepped
      split at stepped
      next sent =>
        cases stepped
        exact .pops sent
      next => simp at stepped

theorem matchup_step {server : MariaDB} {threads next : Threads}
    {observations : List Observation}
    (stepped : threads.step server .matchup = some (next, observations)) :
    (threads.trader.toBooks.matchup = .ok (threads.trader.toBooks, none) ∧ next = threads ∧
        observations = []) ∨
      ∃ toBooks odb ods sr,
        threads.trader.toBooks.matchup = .ok (toBooks, some (odb, ods)) ∧
        threads.trader.sr.quoteUpdate "KKC".toList ods.order.orderPrice = .ok sr ∧
        next = { threads with
          trader := { threads.trader with toBooks, sr }, pushing := [odb, ods] } ∧
        observations = [.executed odb ods] := by
  simp only [step] at stepped
  split at stepped
  next waiting =>
    split at stepped
    next => cases stepped
    next trader pushing shown matched =>
      cases stepped
      obtain ⟨⟨toBooks, pair⟩, passed, finished⟩ := bind_eq_ok_iff.mp matched
      cases pair with
      | none =>
          cases finished
          cases Books.matchup_cases passed with
          | idle nothing => exact .inl ⟨passed, by rw [← waiting], rfl⟩
      | some pair =>
          obtain ⟨sr, quoted, returned⟩ := bind_eq_ok_iff.mp finished
          cases returned
          exact .inr ⟨toBooks, pair.1, pair.2, sr, passed, quoted, rfl, rfl⟩
  next => cases stepped

theorem executed_of_step {server : MariaDB} {threads next : Threads} {event : Event}
    {observations : List Observation} {odb ods : OrderPtr}
    (stepped : threads.step server event = some (next, observations))
    (executed : .executed odb ods ∈ observations) : event = .matchup := by
  cases step_cases stepped with
  | communicates _ sr asking _ sends =>
      obtain ⟨cn, text, equality⟩ := sends _ executed
      cases equality
  | handlesOrder address connected rest connId od cn trader _ fresh handling =>
      cases handling <;> simp at executed
  | amends connected val rest trader _ popped amendment =>
      cases amendment <;> simp at executed
  | executes => rfl
  | rests | pushes | reads | sends | pops => simp at executed

theorem inserted_of_step {server : MariaDB} {threads next : Threads} {event : Event}
    {observations : List Observation} {order : OrderPtr}
    (stepped : threads.step server event = some (next, observations))
    (inserted : .inserted order ∈ observations) :
    ∃ address connected, event = .getOrder address connected := by
  cases step_cases stepped with
  | communicates _ sr asking _ sends =>
      obtain ⟨cn, text, equality⟩ := sends _ inserted
      cases equality
  | handlesOrder address connected => exact ⟨address, connected, rfl⟩
  | amends connected val rest trader _ popped amendment =>
      cases amendment <;> simp at inserted
  | executes | rests | pushes | reads | sends | pops => simp at inserted

theorem sr_step {server : MariaDB} {threads next : Threads} {event : Event}
    {observations : List Observation}
    (stepped : threads.step server event = some (next, observations))
    (notConnect : ∀ connStorage connections userList,
      event ≠ .connect connStorage connections userList)
    (notPass : event ≠ .matchup) :
    ∃ dq dqOrderhandle, next.trader.sr = { threads.trader.sr with dq, dqOrderhandle } := by
  cases event with
  | connect connStorage connections userList => exact absurd rfl (notConnect _ _ _)
  | matchup => exact absurd rfl notPass
  | receive cn text =>
      simp only [step] at stepped
      split at stepped
      next =>
        cases stepped
        exact Server.route_sr ..
      next => cases stepped
  | getOrder address connected =>
      rcases getOrder_step stepped with
        ⟨-, rfl, -⟩ | ⟨msg, rest, od, connId, cn, trader, -, -, -, -, -, handling, rfl⟩
      · exact ⟨_, _, rfl⟩
      · cases handling <;> exact ⟨rest, threads.trader.sr.dqOrderhandle, rfl⟩
  | getCancelOrder connected =>
      obtain ⟨trader, finished, rfl⟩ := lift_eq_some_iff.mp stepped
      rcases Trader.getCancelOrder_cases finished with ⟨-, rfl, -⟩ | ⟨val, rest, -, amendment⟩
      · exact ⟨_, _, rfl⟩
      · refine ⟨threads.trader.sr.dq, rest, ?_⟩
        cases amendment with
        | cancelled chosen => cases chosen <;> rfl
        | modified | refused => rfl
  | priceAsking index =>
      simp only [step] at stepped
      split at stepped
      next => cases stepped
      next =>
        split at stepped <;> cases stepped
        exact ⟨_, _, rfl⟩
  | sendReport inserts updates =>
      simp only [step] at stepped
      split at stepped
      next order reading =>
        obtain ⟨trader, finished, rfl⟩ := lift_eq_some_iff.mp stepped
        obtain ⟨_, _, _, _, -, -, -, rfl, -⟩ := Trader.sendExecReport_cases finished
        exact ⟨_, _, rfl⟩
      next => cases stepped
  | pushReport | readReport | popReport =>
      simp only [step] at stepped
      split at stepped <;> cases stepped
      exact ⟨_, _, rfl⟩

end Threads

/-- The trading process as a machine. -/
def threads (server : MariaDB) : Machine Threads Event Observation := ⟨Threads.step server⟩

/-- The process that the data of `init.sql` starts. -/
def Threads.initial : Threads :=
  .start (.construct .literal .initial .initial 1
    (.construct Server.initialUsers fun _ => ⟨0, [], false⟩))

/-- The user of `init.sql` logs in on the first connection. -/
def Event.firstLogin : Event :=
  .connect [(0, 0)] (fun _ => ⟨0, "0324027".toList, true⟩) Server.initialUsers

end InertiaTrader
