import InertiaTrader.Server.ConnectionIds

/-!
# Whom a reply about an order reaches

An order carries the id of its connection as a number, and `sendToClient` looks
the number up when the reply is due.  By then `freeEmptysocket` may have removed
the connection, and `acceptConn` may have given its id away again.
-/

namespace InertiaTrader

open Foundation

structure Routing where
  threads : Threads
  accepted : List ConnRef := []
  recvStatus : ConnRef → Bool := fun _ => false
  /-- The connections that the messages in `dq` came from. -/
  senders : List ConnRef := []
  /-- The connection whose message became the order at an address. -/
  placedBy : ℕ → Option ConnRef := fun _ => none

inductive RoutingEvent where
  | socket (event : SocketEvent)
  /-- `loginMsgHandle` changes the user of a connection and the table of users. -/
  | login (cn : ConnRef) (username : Text) (loginFlag : Bool) (userList : List (Text × UserData))
  | thread (event : Event)

namespace Routing

def sr (state : Routing) : Server := state.threads.trader.sr

def withServer (state : Routing) (sr : Server) : Routing :=
  { state with threads := { state.threads with trader := { state.threads.trader with sr } } }

@[simp]
theorem sr_withServer (state : Routing) (sr : Server) : (state.withServer sr).sr = sr := rfl

def sockets (state : Routing) : Sockets where
  sr := state.sr
  accepted := state.accepted
  recvStatus := state.recvStatus

def loggedIn (cn : ConnRef) (username : Text) (loginFlag : Bool)
    (userList : List (Text × UserData)) (sr : Server) : Server :=
  { sr with
    connections := Function.update sr.connections cn
      { sr.connections cn with username, loginFlag }
    userList }

def sendersAfter (state : Routing) : Event → List ConnRef
  | .receive cn text =>
      if Server.codeNum (Server.addressed text (state.sr.connections cn)) = some 87 then
        state.senders ++ [cn]
      else state.senders
  | .getOrder .. => state.senders.tail
  | _ => state.senders

def placedByAfter (state : Routing) : Event → ℕ → Option ConnRef
  | .getOrder address _ =>
      if state.sr.dq = [] then state.placedBy
      else Function.update state.placedBy address state.senders.head?
  | _ => state.placedBy

/-- A step of one of the threads.  Only an accepted connection has a thread that
receives, and the tables of connections change with the sockets only. -/
def stepThread (server : MariaDB) (state : Routing) (event : Event) :
    Option (Routing × List Observation) :=
  match state.threads.step server event with
  | none => none
  | some (threads, observations) => some ({ state with
      threads
      senders := state.sendersAfter event
      placedBy := state.placedByAfter event }, observations)

def step (server : MariaDB) (state : Routing) :
    RoutingEvent → Option (Routing × List Observation)
  | .socket event =>
      match state.sockets.step event with
      | none => none
      | some (next, _) => some ({ state.withServer next.sr with
          accepted := next.accepted
          recvStatus := next.recvStatus }, [])
  | .login cn username loginFlag userList =>
      some (state.withServer (loggedIn cn username loginFlag userList state.sr), [])
  | .thread (.connect ..) => none
  | .thread (.receive cn text) =>
      if cn ∈ state.accepted then state.stepThread server (.receive cn text) else none
  | .thread event => state.stepThread server event

/-- The process that was just started, before the first `accept`. -/
def start (server : MariaDB) (db : Database) (rc : RiskController) (nidSub1 : BitVec 32)
    (userList : List (Text × UserData)) (connections : ConnRef → Connection) : Routing where
  threads := .start (.construct server db rc nidSub1 (.construct userList connections))

def Registered (state : Routing) (cn : ConnRef) : Prop :=
  cn ∈ state.sr.connStorage.map Prod.snd

/-- The connection that placed the order which a step answers. -/
def placer (state : Routing) : RoutingEvent → Option ConnRef
  | .thread (.getOrder ..) => state.senders.head?
  | .thread (.sendReport ..) =>
      match state.threads.reporter with
      | .read order => state.placedBy order.address
      | _ => none
  | _ => none

/-- What the functions that answer orders do in a step. -/
def answering (server : MariaDB) (state : Routing) :
    RoutingEvent → Option (Except Fault (Trader × List Observation))
  | .thread (.getOrder address connected) =>
      some (state.threads.trader.getOrder server address connected)
  | .thread (.sendReport inserts updates) =>
      match state.threads.reporter with
      | .read order => some (state.threads.trader.sendExecReport server inserts updates order)
      | _ => none
  | _ => none

end Routing

def routing (server : MariaDB) : Machine Routing RoutingEvent Observation :=
  ⟨Routing.step server⟩

/-- Nothing is sent through a null connection, and whatever is sent goes to the
connection that placed the order, which is still registered. -/
def RepliesToPlacer (server : MariaDB) (state : Routing) (event : RoutingEvent) : Prop :=
  ∀ result, state.answering server event = some result →
    result ≠ .error .nullPointer ∧
      ∀ next observations, result = .ok (next, observations) →
        ∀ cn text, .sent cn text ∈ observations →
          state.placer event = some cn ∧ state.Registered cn

namespace Trader

def unknownUser (trader : Trader) (od : Order) (connId : ℤ) : Bool :=
  !trader.rc.rejects od && (trader.sr.getConnObject connId).any fun cn =>
    (trader.sr.userList.lookup (trader.sr.connections cn).username).isNone

/-- The id in the message that `getOrder` takes, when the fields of the message
can be read and the iteration gets as far as an answer. -/
def takenId (trader : Trader) : Option ℤ :=
  match trader.sr.dq with
  | [] => none
  | msg :: _ =>
      match newOrder (split msg "|".toList) with
      | .error _ => none
      | .ok od => od.connId.filter fun connId => !trader.unknownUser od connId

end Trader

def Order.reportedId (order : Order) : Option ℤ :=
  if order.execPrice.isSome ∧ order.clientSerialNum.isSome then order.connId else none

def Routing.answeredId (state : Routing) : RoutingEvent → Option ℤ
  | .thread (.getOrder ..) => state.threads.trader.takenId
  | .thread (.sendReport ..) =>
      match state.threads.reporter with
      | .read order => order.order.reportedId
      | _ => none
  | _ => none

/-- The order that is answered carries the id of the connection that placed it,
and that connection is still registered. -/
def PlacerRegistered (state : Routing) (event : RoutingEvent) : Prop :=
  ∀ connId, state.answeredId event = some connId →
    ∃ cn, state.placer event = some cn ∧ state.Registered cn ∧
      (state.sr.connections cn).connectionID = connId

/-- How an order is answered, given the id in it: the connection under the id is
sent something, and a null pointer is dereferenced when there is none. -/
inductive Answer (getConnObject : ℤ → Option ConnRef) :
    Option ℤ → Except Fault (Trader × List Observation) → Prop where
  | silent (result : Except Fault (Trader × List Observation)) :
      result ≠ .error .nullPointer →
      (∀ next observations, result = .ok (next, observations) →
        ∀ cn text, .sent cn text ∉ observations) →
      Answer getConnObject none result
  | faults (connId : ℤ) :
      getConnObject connId = none → Answer getConnObject (some connId) (.error .nullPointer)
  | answers (connId : ℤ) (cn : ConnRef) (next : Trader) (observations : List Observation) :
      getConnObject connId = some cn →
      (∀ cn', (∃ text, .sent cn' text ∈ observations) ↔ cn' = cn) →
      Answer getConnObject (some connId) (.ok (next, observations))

theorem bind_ne_error {Value Result : Type} {fault : Fault} {first : Except Fault Value}
    {rest : Value → Except Fault Result} (firstFine : first ≠ .error fault)
    (restFine : ∀ value, rest value ≠ .error fault) : first >>= rest ≠ .error fault := by
  cases first with
  | error other =>
      intro finished
      exact firstFine (by cases finished; rfl)
  | ok value => exact restFine value

theorem field_ne_nullPointer (res : List Text) (index : ℕ) :
    field res index ≠ .error .nullPointer := by
  unfold field
  split <;> simp

theorem convert_ne_nullPointer {Value : Type} (result : Option Value) :
    convert result ≠ .error .nullPointer := by
  unfold convert
  split <;> simp

namespace Trader

theorem newOrder_ne_nullPointer (res : List Text) : newOrder res ≠ .error .nullPointer := by
  unfold newOrder
  apply bind_ne_error (field_ne_nullPointer res 1)
  intro nid
  apply bind_ne_error (field_ne_nullPointer res 2)
  intro priceText
  apply bind_ne_error (convert_ne_nullPointer (stod priceText))
  intro orderPrice
  apply bind_ne_error (field_ne_nullPointer res 3)
  intro sideText
  apply bind_ne_error (convert_ne_nullPointer (stoi sideText))
  intro side
  apply bind_ne_error (field_ne_nullPointer res 6)
  intro symbol
  apply bind_ne_error (field_ne_nullPointer res 7)
  intro connText
  apply bind_ne_error (convert_ne_nullPointer (stoi connText))
  intro connId finished
  cases finished

variable (server : MariaDB) (address : ℕ) (connected : Bool)

theorem handleOrder_unregistered {connId : ℤ} (od : Order) {trader : Trader}
    (absent : trader.sr.getConnObject connId = none) :
    handleOrder server address connected connId od trader = .error .nullPointer := by
  have silent : ∀ msg last, Trader.reply { trader with od := last } connId msg =
      .error .nullPointer := by
    intro msg last
    have lookup : trader.sr.connStorage.lookup connId = none := absent
    simp only [reply, Server.sendToClient, lookup]
    rfl
  unfold handleOrder
  dsimp only
  split
  next =>
    have tested : balanceTest trader.sr connId (trader.rc.verify od) = .error .nullPointer := by
      simp only [balanceTest, absent]
    rw [tested]
    rfl
  next =>
    simp only [refuseOrder, silent]
    rfl

theorem handleOrder_unknownUser {connId : ℤ} {od : Order} {trader : Trader}
    (unknown : trader.unknownUser od connId = true) :
    handleOrder server address connected connId od trader = .error .endIterator := by
  simp only [unknownUser, Bool.and_eq_true, Bool.not_eq_true', Option.any_eq_true,
    Option.isNone_iff_eq_none] at unknown
  obtain ⟨passed, cn, found, missing⟩ := unknown
  unfold handleOrder
  simp only [verify_orderstatus, balanceTest_verify, passed, if_true]
  have tested : balanceTest trader.sr connId od = .error .endIterator := by
    simp only [balanceTest, found, missing]
  rw [tested]
  rfl

theorem handleOrder_answer (connId : ℤ) (od : Order) (trader : Trader) :
    Answer trader.sr.getConnObject ((some connId).filter fun connId => !trader.unknownUser od connId)
      (handleOrder server address connected connId od trader) := by
  cases found : trader.sr.getConnObject connId with
  | none =>
      rw [handleOrder_unregistered server address connected od found]
      simp only [Option.filter, unknownUser, found, Option.any_none, Bool.and_false,
        Bool.not_false, if_true]
      exact .faults connId found
  | some cn =>
      by_cases unknown : trader.unknownUser od connId = true
      · rw [handleOrder_unknownUser server address connected unknown]
        simp only [Option.filter, unknown, Bool.not_true, Bool.false_eq_true, if_false]
        exact .silent _ (by simp) (by simp)
      · rw [Bool.not_eq_true] at unknown
        simp only [Option.filter, unknown, Bool.not_false, if_true]
        obtain ⟨⟨next, observations⟩, handled⟩ := handleOrder_total server address connected od
          trader found fun passed => by
            simpa [unknownUser, passed, found, Option.isSome_iff_exists] using unknown
        obtain ⟨receiver, found', handling⟩ := handleOrder_cases handled
        obtain rfl : cn = receiver := Option.some.inj (found.symm.trans found')
        rw [handled]
        apply Answer.answers connId cn next observations found
        intro cn'
        cases handling <;> simp

theorem getOrder_of_popped {trader : Trader} {msg : Text} {rest : List Text} {od : Order}
    {connId : ℤ} (popped : trader.sr.dq = msg :: rest)
    (built : newOrder (split msg "|".toList) = .ok od) (member : od.connId = some connId) :
    trader.getOrder server address connected =
      handleOrder server address connected connId od
        { trader with sr := { trader.sr with dq := rest } } := by
  obtain ⟨connText, connId', connField, connRead, member'⟩ := newOrder_connId built
  obtain rfl : connId = connId' := Option.some.inj (member.symm.trans member')
  have readField := field_eq_ok_iff.mpr connField
  have readId := convert_eq_ok_iff.mpr connRead
  simp only [getOrder, popped, built, readField, bind, Except.bind, readId]

theorem getOrder_answer (trader : Trader) :
    Answer trader.sr.getConnObject trader.takenId (trader.getOrder server address connected) := by
  rcases popped : trader.sr.dq with - | ⟨msg, rest⟩
  · have idle : trader.getOrder server address connected = .ok (trader, []) := by
      simp only [getOrder, popped]
    have noId : trader.takenId = none := by simp only [takenId, popped]
    rw [idle, noId]
    apply Answer.silent _ (by simp)
    intro next observations finished cn text sent
    cases finished
    cases sent
  · cases built : newOrder (split msg "|".toList) with
    | error fault =>
        have faulted : trader.getOrder server address connected = .error fault := by
          simp only [getOrder, popped, built]
          rfl
        have noId : trader.takenId = none := by simp only [takenId, popped, built]
        rw [faulted, noId]
        apply Answer.silent _ _ (by simp)
        intro same
        cases same
        exact newOrder_ne_nullPointer _ built
    | ok od =>
        obtain ⟨_, connId, -, -, member⟩ := newOrder_connId built
        rw [getOrder_of_popped server address connected popped built member]
        have handled := handleOrder_answer server address connected connId od
          { trader with sr := { trader.sr with dq := rest } }
        have sameId : trader.takenId =
            (some connId).filter fun connId => !trader.unknownUser od connId := by
          simp only [takenId, popped, built, member]
        rw [sameId]
        exact handled

theorem sendExecReport_answer (inserts updates : Bool) (order : OrderPtr) (trader : Trader) :
    Answer trader.sr.getConnObject order.order.reportedId
      (trader.sendExecReport server inserts updates order) := by
  unfold sendExecReport Order.reportedId
  rcases order.order.connId with - | connId
  · simp only [ite_self]
    exact .silent _ (by simp) (by simp)
  rcases order.order.execPrice with - | execPrice
  · simp only [Option.isSome_none, Bool.false_eq_true, false_and, if_false]
    exact .silent _ (by simp) (by simp)
  rcases order.order.clientSerialNum with - | clientSerialNum
  · simp only [Option.isSome_none, Bool.false_eq_true, and_false, if_false]
    exact .silent _ (by simp) (by simp)
  simp only [Option.isSome_some, and_self, if_true]
  cases found : trader.sr.getConnObject connId with
  | none =>
      have lookup : trader.sr.connStorage.lookup connId = none := found
      simp only [reply, Server.sendToClient, lookup]
      exact .faults connId found
  | some cn =>
      rw [reply_eq_ok_iff.mpr ⟨cn, found, rfl⟩]
      apply Answer.answers connId cn _ _ found
      intro cn'
      simp

end Trader

/-- Every entry of `connStorage_` is under the id of its connection. -/
structure Sockets.Keyed (state : Sockets) : Prop where
  keys : (state.sr.connStorage.map Prod.fst).Nodup
  known : ∀ entry ∈ state.sr.connStorage, entry.2 ∈ state.accepted
  own : ∀ entry ∈ state.sr.connStorage,
    (state.sr.connections entry.2).connectionID = entry.1

namespace Sockets

theorem Keyed.getConnObject_iff {state : Sockets} (keyed : state.Keyed) {connId : ℤ}
    {cn : ConnRef} :
    state.sr.getConnObject connId = some cn ↔
      cn ∈ state.sr.connStorage.map Prod.snd ∧
        (state.sr.connections cn).connectionID = connId := by
  unfold Server.getConnObject
  rw [lookup_eq_some_iff_mem keyed.keys]
  constructor
  · intro stored
    exact ⟨List.mem_map_of_mem stored, keyed.own _ stored⟩
  · rintro ⟨registered, rfl⟩
    obtain ⟨entry, stored, rfl⟩ := List.mem_map.mp registered
    rw [keyed.own entry stored]
    exact stored

theorem keyed_accept {state : Sockets} (keyed : state.Keyed) {cn : ConnRef} (draw : ℕ)
    (memory : Bool) (fresh : cn ∉ state.accepted) :
    Keyed {
      sr := state.sr.acceptConn cn draw memory
      accepted := cn :: state.accepted
      recvStatus := Function.update state.recvStatus cn true } := by
  have other : ∀ entry ∈ state.sr.connStorage, entry.2 ≠ cn := by
    intro entry stored same
    exact fresh (same ▸ keyed.known entry stored)
  by_cases taken : connectionSpace draw ∈ state.sr.connStorage.map Prod.fst
  · simp only [Server.acceptConn, insertNew, if_pos taken]
    refine ⟨keyed.keys, ?_, ?_⟩
    · intro entry stored
      exact List.mem_cons_of_mem cn (keyed.known entry stored)
    · intro entry stored
      dsimp only
      rw [Function.update_of_ne (other entry stored)]
      exact keyed.own entry stored
  · have inserted := insertNew_perm cn taken
    refine ⟨insertNew_nodup cn keyed.keys, ?_, ?_⟩
    · intro entry stored
      rcases List.mem_cons.mp (inserted.mem_iff.mp stored) with rfl | earlier
      · exact List.mem_cons_self
      · exact List.mem_cons_of_mem cn (keyed.known entry earlier)
    · intro entry stored
      rcases List.mem_cons.mp (inserted.mem_iff.mp stored) with rfl | earlier
      · simp [Server.acceptConn, Connection.construct]
      · simp only [Server.acceptConn, Function.update_of_ne (other entry earlier)]
        exact keyed.own entry earlier

theorem keyed_step {state next : Sockets} {event : SocketEvent} {outputs : List Empty}
    (keyed : state.Keyed) (stepped : state.step event = some (next, outputs)) :
    next.Keyed := by
  cases event with
  | acceptConn cn draw memory =>
      simp only [step] at stepped
      split at stepped
      next => cases stepped
      next fresh =>
        cases stepped
        exact keyed_accept keyed draw memory fresh
  | disconnect cn =>
      cases stepped
      exact ⟨keyed.keys, keyed.known, keyed.own⟩
  | freeEmptysocket =>
      simp only [step] at stepped
      split at stepped
      next => cases stepped
      next sr freed =>
        cases stepped
        obtain ⟨connStorage, ran, returned⟩ := bind_eq_ok_iff.mp freed
        cases returned
        obtain ⟨sublist, -⟩ := freeFrom_cases ran
        refine ⟨(sublist.map Prod.fst).nodup keyed.keys, ?_, ?_⟩
        · intro entry stored
          exact keyed.known entry (sublist.subset stored)
        · intro entry stored
          exact keyed.own entry (sublist.subset stored)

end Sockets

theorem Threads.connections_step {server : MariaDB} {threads next : Threads} {event : Event}
    {observations : List Observation}
    (stepped : threads.step server event = some (next, observations))
    (notConnect : ∀ connStorage connections userList,
      event ≠ .connect connStorage connections userList) :
    next.trader.sr.connStorage = threads.trader.sr.connStorage ∧
      next.trader.sr.connections = threads.trader.sr.connections := by
  by_cases pass : event = .matchup
  · subst pass
    rcases matchup_step stepped with ⟨-, rfl, -⟩ | ⟨toBooks, odb, ods, sr, -, quoted, rfl, -⟩
    · exact ⟨rfl, rfl⟩
    · unfold Server.quoteUpdate at quoted
      split at quoted <;> cases quoted
      exact ⟨rfl, rfl⟩
  · obtain ⟨dq, dqOrderhandle, same⟩ := sr_step stepped notConnect pass
    rw [same]
    exact ⟨rfl, rfl⟩

namespace Routing

theorem keyed_start (server : MariaDB) (db : Database) (rc : RiskController)
    (nidSub1 : BitVec 32) (userList : List (Text × UserData))
    (connections : ConnRef → Connection) :
    (start server db rc nidSub1 userList connections).sockets.Keyed := by
  obtain ⟨buyside, sellside, built⟩ := Trader.construct_eq server db rc nidSub1
    (.construct userList connections)
  simp only [start, sockets, sr, Threads.start, built]
  refine ⟨.nil, ?_, ?_⟩ <;> intro entry stored <;> cases stored

section

variable {server : MariaDB} {state next : Routing} {observations : List Observation}

theorem keyed_stepThread {event : Event} (keyed : state.sockets.Keyed)
    (notConnect : ∀ connStorage connections userList,
      event ≠ .connect connStorage connections userList)
    (stepped : state.stepThread server event = some (next, observations)) :
    next.sockets.Keyed := by
  unfold stepThread at stepped
  split at stepped
  next => cases stepped
  next threads observations' ran =>
    cases stepped
    obtain ⟨sameStorage, sameConnections⟩ := Threads.connections_step ran notConnect
    obtain ⟨keys, known, own⟩ := keyed
    constructor <;> simp only [sockets, sr, sameStorage, sameConnections] <;> assumption

theorem keyed_step {event : RoutingEvent} (keyed : state.sockets.Keyed)
    (stepped : state.step server event = some (next, observations)) : next.sockets.Keyed := by
  cases event with
  | socket event =>
      simp only [step] at stepped
      split at stepped
      next => cases stepped
      next after outputs ran =>
        cases stepped
        exact Sockets.keyed_step keyed ran
  | login cn username loginFlag userList =>
      cases stepped
      refine ⟨keyed.keys, keyed.known, ?_⟩
      intro entry stored
      rw [← keyed.own entry stored]
      by_cases same : entry.2 = cn
      · simp [sockets, loggedIn, same]
      · simp [sockets, loggedIn, Function.update_of_ne same]
  | thread event =>
      cases event with
      | connect => cases stepped
      | receive cn text =>
          simp only [step] at stepped
          split at stepped
          next => exact keyed_stepThread keyed (by simp) stepped
          next => cases stepped
      | _ => exact keyed_stepThread keyed (by simp) stepped

theorem answer_of_answering {event : RoutingEvent}
    {result : Except Fault (Trader × List Observation)}
    (answered : state.answering server event = some result) :
    Answer state.sr.getConnObject (state.answeredId event) result := by
  cases event with
  | socket | login => cases answered
  | thread event =>
      cases event with
      | getOrder address connected =>
          cases answered
          exact Trader.getOrder_answer server address connected state.threads.trader
      | sendReport inserts updates =>
          simp only [answering] at answered
          split at answered
          next order reading =>
            cases answered
            simp only [answeredId, reading]
            exact Trader.sendExecReport_answer server inserts updates order state.threads.trader
          next => cases answered
      | _ => cases answered

theorem answeredId_of_not_answering {event : RoutingEvent}
    (silent : state.answering server event = none) : state.answeredId event = none := by
  cases event with
  | socket | login => rfl
  | thread event =>
      cases event with
      | getOrder address connected => cases silent
      | sendReport inserts updates =>
          simp only [answering] at silent
          split at silent
          next => cases silent
          next notRead => simp only [answeredId]
      | _ => rfl

theorem repliesToPlacer_iff (keyed : state.sockets.Keyed) (event : RoutingEvent) :
    RepliesToPlacer server state event ↔ PlacerRegistered state event := by
  unfold RepliesToPlacer PlacerRegistered
  cases answered : state.answering server event with
  | none => simp [answeredId_of_not_answering answered]
  | some result =>
      have answer := answer_of_answering answered
      generalize state.answeredId event = answeredId at answer
      simp only [Option.some.injEq, forall_eq']
      cases answer with
      | silent _ fine quiet =>
          apply iff_of_true _ (by simp)
          refine ⟨fine, ?_⟩
          intro next observations finished cn text sent
          exact absurd sent (quiet next observations finished cn text)
      | faults connId absent =>
          apply iff_of_false
          · intro replies
            exact replies.1 rfl
          · intro registered
            obtain ⟨cn, -, stored, ownId⟩ := registered connId rfl
            have found := keyed.getConnObject_iff.mpr ⟨stored, ownId⟩
            exact absurd (absent.symm.trans found) (by simp)
      | answers connId cn next observations found sends =>
          obtain ⟨stored, ownId⟩ := keyed.getConnObject_iff.mp found
          constructor
          · rintro ⟨-, replies⟩ _ ⟨⟩
            obtain ⟨text, sent⟩ := (sends cn).mpr rfl
            obtain ⟨placed, registered⟩ := replies next observations rfl cn text sent
            exact ⟨cn, placed, registered, ownId⟩
          · intro registered
            refine ⟨by simp, ?_⟩
            rintro _ _ ⟨⟩ cn' text sent
            obtain rfl : cn' = cn := (sends cn').mp ⟨text, sent⟩
            obtain ⟨owner, placed, ownerStored, ownerId⟩ := registered connId rfl
            have ownerFound := keyed.getConnObject_iff.mpr ⟨ownerStored, ownerId⟩
            obtain rfl : cn' = owner := Option.some.inj (found.symm.trans ownerFound)
            exact ⟨placed, ownerStored⟩

end

theorem stepThread_threads {server : MariaDB} {state next : Routing} {event : Event}
    {observations : List Observation}
    (stepped : state.stepThread server event = some (next, observations)) :
    state.threads.step server event = some (next.threads, observations) := by
  unfold stepThread at stepped
  split at stepped
  next => cases stepped
  next ran =>
    cases stepped
    exact ran

theorem step_threads {server : MariaDB} {state next : Routing} {event : RoutingEvent}
    {observations : List Observation}
    (stepped : state.step server event = some (next, observations)) :
    ∃ event', state.threads.step server event' = some (next.threads, observations) := by
  cases event with
  | socket event =>
      simp only [step] at stepped
      split at stepped
      next => cases stepped
      next ran =>
        cases stepped
        obtain ⟨connStorage, connections, userList, connected⟩ :=
          connect_of_sockets server state.threads rfl ran
        exact ⟨_, connected⟩
  | login cn username loginFlag userList =>
      cases stepped
      exact ⟨.connect state.sr.connStorage _ userList, rfl⟩
  | thread event =>
      cases event with
      | connect => cases stepped
      | receive cn text =>
          simp only [step] at stepped
          split at stepped
          next => exact ⟨_, stepThread_threads stepped⟩
          next => cases stepped
      | _ => exact ⟨_, stepThread_threads stepped⟩

theorem run_threads {server : MariaDB} {state last : Routing} {events : List RoutingEvent}
    {observations : List Observation}
    (finished : (routing server).run state events = some (last, observations)) :
    ∃ events', (InertiaTrader.threads server).run state.threads events' =
      some (last.threads, observations) := by
  have matched : ∀ (state : Routing) (shadow : Threads) (event : RoutingEvent) (next : Routing)
      (observations : List Observation), shadow = state.threads →
      (routing server).step state event = some (next, observations) →
      ∃ events shadow', shadow' = next.threads ∧
        (InertiaTrader.threads server).run shadow events =
          some (shadow', observations.filterMap some) := by
    rintro state _ event next observations rfl stepped
    obtain ⟨event', ran⟩ := step_threads stepped
    refine ⟨[event'], next.threads, rfl, ?_⟩
    rw [Machine.run_singleton, List.filterMap_some]
    exact ran
  obtain ⟨events', _, rfl, ran⟩ :=
    (routing server).run_simulated (InertiaTrader.threads server) some matched rfl finished
  rw [List.filterMap_some] at ran
  exact ⟨events', ran⟩

end Routing

/-- Replies about orders go to the clients that placed them, and through no null
pointer, exactly as long as every answered order carries the id of its own
connection and that connection is still registered. -/
theorem replies_to_placer_iff (server : MariaDB) (db : Database) (rc : RiskController)
    (nidSub1 : BitVec 32) (userList : List (Text × UserData))
    (connections : ConnRef → Connection) (events : List RoutingEvent) :
    (routing server).Along (RepliesToPlacer server)
        (.start server db rc nidSub1 userList connections) events ↔
      (routing server).Along PlacerRegistered
        (.start server db rc nidSub1 userList connections) events := by
  apply (routing server).along_congr_of_invariant (fun state => state.sockets.Keyed)
  · intro state event next observations keyed _ stepped
    exact Routing.keyed_step keyed stepped
  · intro state event keyed
    exact Routing.repliesToPlacer_iff keyed event
  · exact Routing.keyed_start server db rc nidSub1 userList connections

/-- The first client leaves before its order is reported, and its id is drawn again. -/
def reusedIdRun : List RoutingEvent := [
  .socket (.acceptConn 0 5 false), .socket (.acceptConn 1 7 false),
  .login 0 "0324027".toList true Server.initialUsers,
  .login 1 "0324027".toList true Server.initialUsers,
  .thread (.receive 0 "87|1|60|1|1|1|KKC|".toList), .thread (.getOrder 10 true),
  .thread (.receive 1 "87|2|60|2|1|1|KKC|".toList), .thread (.getOrder 11 true),
  .thread .matchup, .thread .pushReport, .thread .readReport,
  .socket (.disconnect 0), .socket .freeEmptysocket, .socket (.acceptConn 2 5 false)]

/-- The report of the order is sent to the connection that has the id now. -/
theorem report_reaches_other_client :
    ∃ state observations,
      (routing .literal).run
          (.start .literal .initial .initial 1 Server.initialUsers fun _ => ⟨0, [], false⟩)
          reusedIdRun = some (state, observations) ∧
        state.placer (.thread (.sendReport true true)) = some 0 ∧
        (∃ next reported,
          state.answering .literal (.thread (.sendReport true true)) =
              some (.ok (next, reported)) ∧
            .sent 2 "1|OrderExec\n".toList ∈ reported) ∧
        ¬ RepliesToPlacer .literal state (.thread (.sendReport true true)) := by
  obtain ⟨state, observations, finished, evaluated⟩ :=
    Machine.exists_run_of_any (routing .literal)
      (.start .literal .initial .initial 1 Server.initialUsers fun _ => ⟨0, [], false⟩)
      reusedIdRun
      (fun state _ => decide (state.placer (.thread (.sendReport true true)) = some 0) &&
        (state.answering .literal (.thread (.sendReport true true))).any fun result =>
          result.toOption.any fun result => decide (.sent 2 "1|OrderExec\n".toList ∈ result.2))
      (by decide +kernel)
  obtain ⟨placed, sent⟩ := Bool.and_eq_true_iff.mp evaluated
  obtain ⟨result, answered, returned⟩ := (Option.any_eq_true ..).mp sent
  obtain ⟨⟨next, reported⟩, rfl, shown⟩ := exists_ok_of_any result _ returned
  have reached := of_decide_eq_true shown
  refine ⟨state, observations, finished, of_decide_eq_true placed,
    ⟨next, reported, answered, reached⟩, ?_⟩
  intro replies
  obtain ⟨placed', -⟩ := (replies _ answered).2 next reported rfl 2 _ reached
  rw [of_decide_eq_true placed] at placed'
  cases placed'

end InertiaTrader
