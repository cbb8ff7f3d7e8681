import InertiaTrader.Exchange.Basic
import InertiaTrader.Foundation.History
import InertiaTrader.Server.LoginBoundaries

/-!
# The connections of the exchange

Whatever the other threads do meanwhile, a connection of the exchange is a session:
the same chunks lead to the same logins and the same messages.  The exchange only
takes its time, since a session hands on all messages of a chunk at once.
-/

namespace InertiaTrader

open Foundation

def ExchangeEvent.chunkOn (cn : ConnRef) : ExchangeEvent → Option Text
  | .recvfrom other (some recvStr) _ _ | .strayLogin other recvStr _ _ =>
      if other = cn then some recvStr else none
  | _ => none

/-- The message that the thread of this connection hands to `msgHandler`. -/
def ExchangeOutput.handledOn (cn : ConnRef) : ExchangeOutput → Option Text
  | .handled other msg => if other = cn then some msg else none
  | _ => none

def ExchangeOutput.loginOn (cn : ConnRef) : ExchangeOutput → Option (Text × Accounts)
  | .login other msg userList => if other = cn then some (msg, userList) else none
  | _ => none

theorem ExchangeOutput.mem_of_loginOn {cn : ConnRef} {seen : List ExchangeOutput} {msg : Text}
    {userList : Accounts} (called : (msg, userList) ∈ seen.filterMap (loginOn cn)) :
    .login cn msg userList ∈ seen := by
  obtain ⟨output, listed, isLogin⟩ := List.mem_filterMap.mp called
  cases output with
  | login other msg' userList' =>
      simp only [loginOn, Option.ite_none_right_eq_some, Option.some.injEq, Prod.mk.injEq]
        at isLogin
      obtain ⟨rfl, rfl, rfl⟩ := isLogin
      exact listed
  | shown | handled | written => cases isLogin

def SessionEvent.chunk : SessionEvent → Option Text
  | .recv recvStr _ _ | .stray recvStr _ _ => some recvStr
  | .users _ => none

def SessionOutput.loginCall : SessionOutput → Option (Text × Accounts)
  | .login msg userList => some (msg, userList)
  | _ => none

/-- The connection as a session of its own. -/
def Exchange.session (state : Exchange) (cn : ConnRef) : Session where
  tempStr := state.tempStr cn
  cn := state.sr.connections cn
  userList := state.userList

structure FollowsSession (cn : ConnRef) (past : List ExchangeEvent) (state : Exchange)
    (seen : List ExchangeOutput) (first : Session) (events : List SessionEvent)
    (shown : List SessionOutput) : Prop where
  ran : sessions.run first events = some (state.session cn, shown)
  /-- What is handled and what is still to be handled. -/
  handled : handledIn shown = seen.filterMap (ExchangeOutput.handledOn cn) ++
    (state.tempVec cn).map fun text => Server.addressed text (state.sr.connections cn)
  logins : shown.filterMap SessionOutput.loginCall = seen.filterMap (ExchangeOutput.loginOn cn)
  /-- A chunk that comes after a failed send is not looked at. -/
  chunks : events.filterMap SessionEvent.chunk <+: past.filterMap (ExchangeEvent.chunkOn cn)
  chunksNow : cn ∈ state.receiving →
    events.filterMap SessionEvent.chunk = past.filterMap (ExchangeEvent.chunkOn cn)

/-- The connection is a session that began when it was accepted. -/
def IsSession (cn : ConnRef) (past : List ExchangeEvent) (state : Exchange)
    (seen : List ExchangeOutput) : Prop :=
  ∃ draw memory users events shown, .acceptConn cn draw memory ∈ past ∧
    FollowsSession cn past state seen (.fresh (connectionSpace draw) memory users) events shown

structure Untouched (cn : ConnRef) (past : List ExchangeEvent) (state : Exchange)
    (seen : List ExchangeOutput) : Prop where
  tempStr : state.tempStr cn = []
  tempVec : state.tempVec cn = []
  handled : seen.filterMap (ExchangeOutput.handledOn cn) = []
  logins : seen.filterMap (ExchangeOutput.loginOn cn) = []
  chunks : past.filterMap (ExchangeEvent.chunkOn cn) = []

structure InSessions (past : List ExchangeEvent) (state : Exchange)
    (seen : List ExchangeOutput) : Prop where
  untouched : ∀ cn ∉ state.accepted, Untouched cn past state seen
  sessions : ∀ cn ∈ state.accepted, IsSession cn past state seen
  receiving : state.receiving.Nodup
  accepted : ∀ cn ∈ state.receiving, cn ∈ state.accepted

structure Aside (cn : ConnRef) (state : Exchange) (event : ExchangeEvent) (next : Exchange)
    (outputs : List ExchangeOutput) : Prop where
  tempStr : next.tempStr cn = state.tempStr cn
  tempVec : next.tempVec cn = state.tempVec cn
  handled : outputs.filterMap (ExchangeOutput.handledOn cn) = []
  logins : outputs.filterMap (ExchangeOutput.loginOn cn) = []
  chunk : event.chunkOn cn = none

section

variable {server : MariaDB} {cn : ConnRef} {past : List ExchangeEvent} {state next : Exchange}
    {seen outputs : List ExchangeOutput} {event : ExchangeEvent}

theorem filterMap_map_eq_nil {First Second Third : Type*} {shown : Second → Option Third}
    {item : First → Second} (silent : ∀ first, shown (item first) = none) (items : List First) :
    (items.map item).filterMap shown = [] := by
  rw [List.filterMap_map, List.filterMap_eq_nil_iff]
  intro first _
  exact silent first

theorem Aside.chunks (aside : Aside cn state event next outputs) (past : List ExchangeEvent) :
    (past ++ [event]).filterMap (ExchangeEvent.chunkOn cn) =
      past.filterMap (ExchangeEvent.chunkOn cn) := by
  rw [List.filterMap_append, List.filterMap_cons_none aside.chunk, List.filterMap_nil,
    List.append_nil]

theorem Aside.ofLogin {other : ConnRef} {msg : Text} {userList : Accounts} {sent : List Text}
    (tempStr : next.tempStr other = state.tempStr other) (tempVec : next.tempVec = state.tempVec)
    (different : other ≠ cn) (chunk : event.chunkOn other = none) :
    Aside other state event next (.login cn msg userList :: sent.map (.written cn)) where
  tempStr := tempStr
  tempVec := congrFun tempVec other
  handled := by rw [List.filterMap_cons_none rfl, filterMap_map_eq_nil fun _ => rfl]
  logins := by
    have notHere : (ExchangeOutput.login cn msg userList).loginOn other = none :=
      if_neg different.symm
    rw [List.filterMap_cons_none notHere, filterMap_map_eq_nil fun _ => rfl]
  chunk := chunk

theorem Untouched.aside (untouched : Untouched cn past state seen)
    (aside : Aside cn state event next outputs) :
    Untouched cn (past ++ [event]) next (seen ++ outputs) where
  tempStr := aside.tempStr.trans untouched.tempStr
  tempVec := aside.tempVec.trans untouched.tempVec
  handled := by rw [List.filterMap_append, untouched.handled, aside.handled, List.nil_append]
  logins := by rw [List.filterMap_append, untouched.logins, aside.logins, List.nil_append]
  chunks := (aside.chunks past).trans untouched.chunks

theorem IsSession.aside (isSession : IsSession cn past state seen)
    (aside : Aside cn state event next outputs)
    (connection : next.sr.connections cn = state.sr.connections cn)
    (receiving : cn ∈ next.receiving → cn ∈ state.receiving) :
    IsSession cn (past ++ [event]) next (seen ++ outputs) := by
  obtain ⟨draw, memory, users, events, shown, accepted, follows⟩ := isSession
  have learns : sessions.step (state.session cn) (.users next.userList) =
      some (next.session cn, []) := by
    rw [Exchange.session, Exchange.session, aside.tempStr, connection]
    rfl
  have sessionChunks : (events ++ [SessionEvent.users next.userList]).filterMap
      SessionEvent.chunk = events.filterMap SessionEvent.chunk := by
    rw [List.filterMap_append]
    exact List.append_nil _
  refine ⟨draw, memory, users, events ++ [.users next.userList], shown ++ [],
    List.mem_append_left _ accepted, ?_⟩
  constructor
  · exact sessions.run_concat follows.ran learns
  · rw [List.append_nil, List.filterMap_append, aside.handled, List.append_nil, aside.tempVec,
      connection]
    exact follows.handled
  · rw [List.append_nil, List.filterMap_append, aside.logins, List.append_nil]
    exact follows.logins
  · rw [aside.chunks, sessionChunks]
    exact follows.chunks
  · intro isReceiving
    rw [aside.chunks, sessionChunks]
    exact follows.chunksNow (receiving isReceiving)

theorem IsSession.receives {recvStr : Text} (isSession : IsSession cn past state seen)
    (received : SessionEvent) (shown : List SessionOutput)
    (isReceiving : cn ∈ state.receiving) (waiting : state.tempVec cn = [])
    (chunk : received.chunk = some recvStr) (chunkHere : event.chunkOn cn = some recvStr)
    (stepped : sessions.step (state.session cn) received = some (next.session cn, shown))
    (handled : handledIn shown = outputs.filterMap (ExchangeOutput.handledOn cn) ++
      (next.tempVec cn).map fun text => Server.addressed text (next.sr.connections cn))
    (logins : shown.filterMap SessionOutput.loginCall =
      outputs.filterMap (ExchangeOutput.loginOn cn)) :
    IsSession cn (past ++ [event]) next (seen ++ outputs) := by
  obtain ⟨draw, memory, users, events, earlier, accepted, follows⟩ := isSession
  have chunks : (events ++ [received]).filterMap SessionEvent.chunk =
      (past ++ [event]).filterMap (ExchangeEvent.chunkOn cn) := by
    rw [List.filterMap_append, List.filterMap_append, follows.chunksNow isReceiving,
      List.filterMap_cons_some chunk, List.filterMap_cons_some chunkHere, List.filterMap_nil,
      List.filterMap_nil]
  refine ⟨draw, memory, users, events ++ [received], earlier ++ shown,
    List.mem_append_left _ accepted, ?_⟩
  constructor
  · exact sessions.run_concat follows.ran stepped
  · have before := follows.handled
    rw [waiting, List.map_nil, List.append_nil] at before
    rw [handledIn, List.filterMap_append, List.filterMap_append, ← handledIn, ← handledIn,
      before, handled, List.append_assoc]
  · rw [List.filterMap_append, List.filterMap_append, follows.logins, logins]
  · exact chunks ▸ List.prefix_rfl
  · intro _
    exact chunks

theorem InSessions.aside (inSessions : InSessions past state seen)
    (aside : ∀ cn, Aside cn state event next outputs)
    (accepted : next.accepted = state.accepted) (receiving : next.receiving = state.receiving)
    (connections : next.sr.connections = state.sr.connections) :
    InSessions (past ++ [event]) next (seen ++ outputs) := by
  constructor
  · rw [accepted]
    exact fun cn absent => (inSessions.untouched cn absent).aside (aside cn)
  · rw [accepted]
    intro cn isAccepted
    apply (inSessions.sessions cn isAccepted).aside (aside cn) (by rw [connections])
    rw [receiving]
    exact id
  · rw [receiving]
    exact inSessions.receiving
  · rw [accepted, receiving]
    exact inSessions.accepted

theorem InSessions.onlyFor (inSessions : InSessions past state seen) {cn : ConnRef}
    (isAccepted : cn ∈ state.accepted)
    (aside : ∀ other, other ≠ cn → Aside other state event next outputs ∧
      next.sr.connections other = state.sr.connections other)
    (isSession : IsSession cn (past ++ [event]) next (seen ++ outputs))
    (accepted : next.accepted = state.accepted)
    (receiving : next.receiving.Sublist state.receiving) :
    InSessions (past ++ [event]) next (seen ++ outputs) := by
  constructor
  · rw [accepted]
    intro other absent
    have different : other ≠ cn := fun same => absent (same ▸ isAccepted)
    exact (inSessions.untouched other absent).aside (aside other different).1
  · rw [accepted]
    intro other otherAccepted
    by_cases same : other = cn
    · rw [same]
      exact isSession
    · obtain ⟨elsewhere, connection⟩ := aside other same
      exact (inSessions.sessions other otherAccepted).aside elsewhere connection
        fun isReceiving => receiving.subset isReceiving
  · exact receiving.nodup inSessions.receiving
  · rw [accepted]
    exact fun other isReceiving => inSessions.accepted other (receiving.subset isReceiving)

theorem inSessions_accept (inSessions : InSessions past state seen) (draw : ℕ) (memory : Bool)
    (fresh : cn ∉ state.accepted)
    (stepped : state.step server (.acceptConn cn draw memory) = some (next, outputs)) :
    InSessions (past ++ [.acceptConn cn draw memory]) next (seen ++ outputs) := by
  simp only [Exchange.step, if_neg fresh, Option.some.injEq, Prod.mk.injEq] at stepped
  obtain ⟨rfl, rfl⟩ := stepped
  constructor
  · intro other absent
    apply (inSessions.untouched other fun earlier => absent (List.mem_cons_of_mem cn earlier)).aside
    exact ⟨rfl, rfl, rfl, rfl, rfl⟩
  · intro other isAccepted
    by_cases new : other = cn
    · subst new
      have untouched := inSessions.untouched other fresh
      refine ⟨draw, memory, state.userList, [], [], List.mem_append_right _ (by simp), ?_⟩
      constructor
      · change some (Session.fresh (connectionSpace draw) memory state.userList, []) = _
        simp [Exchange.session, Session.fresh, Exchange.sr, Exchange.withServer,
          Server.acceptConn, untouched.tempStr]
      · change [] = List.filterMap _ (seen ++ []) ++ (state.tempVec other).map _
        rw [List.append_nil, untouched.handled, untouched.tempVec]
        rfl
      · change [] = List.filterMap _ (seen ++ [])
        rw [List.append_nil, untouched.logins]
      · exact List.nil_prefix
      · intro _
        change [] = List.filterMap _ _
        rw [List.filterMap_append, untouched.chunks]
        rfl
    · have earlier := (List.mem_cons.mp isAccepted).resolve_left new
      refine (inSessions.sessions other earlier).aside ⟨rfl, rfl, rfl, rfl, rfl⟩ ?_ ?_
      · change Function.update state.sr.connections cn _ other = _
        rw [Function.update_of_ne new]
      · exact fun isReceiving => (List.mem_cons.mp isReceiving).resolve_left new
  · exact List.nodup_cons.mpr ⟨fun earlier => fresh (inSessions.accepted cn earlier),
      inSessions.receiving⟩
  · intro other isReceiving
    exact List.mem_cons.mpr ((List.mem_cons.mp isReceiving).imp_right (inSessions.accepted other))

theorem IsSession.stops {recvStr : Option Text} {draws : ℕ × ℕ} {added : Bool}
    (isSession : IsSession cn past state seen) (isReceiving : cn ∈ state.receiving)
    (stopped : cn ∉ next.receiving) (session : next.session cn = state.session cn)
    (tempVec : next.tempVec cn = state.tempVec cn) :
    IsSession cn (past ++ [.recvfrom cn recvStr draws added]) next (seen ++ []) := by
  obtain ⟨draw, memory, users, events, shown, accepted, follows⟩ := isSession
  have connection : next.sr.connections cn = state.sr.connections cn :=
    congrArg Session.cn session
  refine ⟨draw, memory, users, events, shown, List.mem_append_left _ accepted, ?_⟩
  constructor
  · rw [session]
    exact follows.ran
  · rw [List.append_nil, tempVec, connection]
    exact follows.handled
  · rw [List.append_nil]
    exact follows.logins
  · rw [List.filterMap_append, follows.chunksNow isReceiving]
    exact List.prefix_append ..
  · exact fun isReceiving => absurd isReceiving stopped

theorem IsSession.hands {text : Text} {rest : List Text}
    (isSession : IsSession cn past state seen) (waiting : state.tempVec cn = text :: rest)
    (left : next.tempVec cn = rest) (session : next.session cn = state.session cn)
    (receiving : next.receiving = state.receiving) :
    IsSession cn (past ++ [.msgHandler cn]) next
      (seen ++ [.handled cn (Server.addressed text (state.sr.connections cn))]) := by
  obtain ⟨draw, memory, users, events, shown, accepted, follows⟩ := isSession
  have connection : next.sr.connections cn = state.sr.connections cn :=
    congrArg Session.cn session
  have chunks : (past ++ [ExchangeEvent.msgHandler cn]).filterMap (ExchangeEvent.chunkOn cn) =
      past.filterMap (ExchangeEvent.chunkOn cn) := by
    rw [List.filterMap_append]
    exact List.append_nil _
  refine ⟨draw, memory, users, events, shown, List.mem_append_left _ accepted, ?_⟩
  constructor
  · rw [session]
    exact follows.ran
  · have here : (ExchangeOutput.handled cn (Server.addressed text
        (state.sr.connections cn))).handledOn cn = some _ := if_pos rfl
    rw [follows.handled, waiting, left, connection, List.filterMap_append,
      List.filterMap_cons_some here, List.filterMap_nil, List.map_cons, List.append_assoc,
      List.singleton_append]
  · rw [List.filterMap_append, follows.logins]
    exact (List.append_nil _).symm
  · rw [chunks]
    exact follows.chunks
  · rw [chunks, receiving]
    exact follows.chunksNow

theorem step_session_login {session : Session} {recvStr : Text} {draws : ℕ × ℕ} {added : Bool}
    {userList : Accounts} {connection : Connection} {sent : List Text}
    (flag : session.cn.loginFlag = false)
    (answered : loginMsgHandle draws added (reassemble session.tempStr recvStr).1
      session.userList session.cn = .ok (userList, connection, sent)) :
    sessions.step session (.recv recvStr draws added) =
      some (⟨(reassemble session.tempStr recvStr).2, connection, userList⟩,
        .login (reassemble session.tempStr recvStr).1 session.userList :: sent.map .sent) := by
  simp only [sessions, Session.step, msgRecv, flag, Bool.false_eq_true, if_false,
    Machine.run_singleton, handing, answered]

theorem step_session_messages {session : Session} {recvStr : Text} (draws : ℕ × ℕ) (added : Bool)
    (flag : session.cn.loginFlag = true) :
    sessions.step session (.recv recvStr draws added) =
      some ({ session with tempStr := (reassemble session.tempStr recvStr).2 },
        (split (reassemble session.tempStr recvStr).1 "&".toList).map fun text =>
          .handled (Server.addressed text session.cn)) := by
  simp only [sessions, Session.step, msgRecv, flag, if_true, handing_messages]

theorem step_session_stray {session : Session} {recvStr : Text} {draws : ℕ × ℕ}
    {letIn : Option Text} {connection : Connection} {sent : List Text}
    (flag : session.cn.loginFlag = false)
    (answered : strayLogin draws letIn (reassemble session.tempStr recvStr).1 session.userList
      session.cn = some (connection, sent)) :
    sessions.step session (.stray recvStr draws letIn) =
      some ({ session with
          tempStr := (reassemble session.tempStr recvStr).2, cn := connection },
        .login (reassemble session.tempStr recvStr).1 session.userList :: sent.map .sent) := by
  simp only [sessions, Session.step, flag, Bool.false_eq_true, if_false, answered]

theorem IsSession.receivesLogin {recvStr : Text} {sent : List Text}
    (isSession : IsSession cn past state seen) (received : SessionEvent)
    (isReceiving : cn ∈ state.receiving)
    (waiting : state.tempVec cn = []) (chunk : received.chunk = some recvStr)
    (chunkHere : event.chunkOn cn = some recvStr) (tempVec : next.tempVec = state.tempVec)
    (stepped : sessions.step (state.session cn) received = some (next.session cn,
      .login (reassemble (state.tempStr cn) recvStr).1 state.userList :: sent.map .sent)) :
    IsSession cn (past ++ [event]) next
      (seen ++ .login cn (reassemble (state.tempStr cn) recvStr).1 state.userList ::
        sent.map (.written cn)) := by
  refine isSession.receives received _ isReceiving waiting chunk chunkHere stepped ?_ ?_
  · rw [handledIn_login, List.filterMap_cons_none rfl, filterMap_map_eq_nil fun _ => rfl,
      tempVec, waiting]
    rfl
  · have here : (ExchangeOutput.login cn (reassemble (state.tempStr cn) recvStr).1
        state.userList).loginOn cn = some _ := if_pos rfl
    have call : (SessionOutput.login (reassemble (state.tempStr cn) recvStr).1
        state.userList).loginCall = some _ := rfl
    rw [List.filterMap_cons_some here, List.filterMap_cons_some call,
      filterMap_map_eq_nil fun _ => rfl, filterMap_map_eq_nil fun _ => rfl]

theorem IsSession.cuts {recvStr : Text} {draws : ℕ × ℕ} {added : Bool}
    (isSession : IsSession cn past state seen) (isReceiving : cn ∈ state.receiving)
    (waiting : state.tempVec cn = []) (flag : (state.sr.connections cn).loginFlag = true) :
    IsSession cn (past ++ [.recvfrom cn (some recvStr) draws added])
      { state with
        tempStr := Function.update state.tempStr cn (reassemble (state.tempStr cn) recvStr).2
        tempVec := Function.update state.tempVec cn
          (split (reassemble (state.tempStr cn) recvStr).1 "&".toList) }
      (seen ++ []) := by
  refine isSession.receives (.recv recvStr draws added)
    ((split (reassemble (state.tempStr cn) recvStr).1 "&".toList).map fun text =>
      .handled (Server.addressed text (state.sr.connections cn))) isReceiving waiting rfl
    (if_pos rfl) ?_ ?_ ?_
  · rw [step_session_messages draws added flag]
    simp [Exchange.session, Exchange.sr]
  · simp [handledIn, List.filterMap_map, Function.comp_def, SessionOutput.handledMsg,
      Exchange.sr]
  · exact filterMap_map_eq_nil (fun _ => rfl) _

theorem IsSession.callsLogin {recvStr : Text} {draws : ℕ × ℕ} {added : Bool}
    {userList : Accounts} {connection : Connection} {sent : List Text}
    (isSession : IsSession cn past state seen) (isReceiving : cn ∈ state.receiving)
    (waiting : state.tempVec cn = []) (flag : (state.sr.connections cn).loginFlag = false)
    (answered : loginMsgHandle draws added (reassemble (state.tempStr cn) recvStr).1
      state.userList (state.sr.connections cn) = .ok (userList, connection, sent)) :
    IsSession cn (past ++ [.recvfrom cn (some recvStr) draws added])
      ({ state with
        tempStr := Function.update state.tempStr cn (reassemble (state.tempStr cn) recvStr).2
        userList }.withServer { state.sr with
          connections := Function.update state.sr.connections cn connection
          userList := userList.balances })
      (seen ++ .login cn (reassemble (state.tempStr cn) recvStr).1 state.userList ::
        sent.map (.written cn)) := by
  refine isSession.receivesLogin (.recv recvStr draws added) isReceiving waiting rfl (if_pos rfl)
    rfl ?_
  rw [step_session_login flag answered]
  simp [Exchange.session, Exchange.sr, Exchange.withServer]

theorem IsSession.strays {recvStr : Text} {draws : ℕ × ℕ} {letIn : Option Text}
    {connection : Connection} {sent : List Text}
    (isSession : IsSession cn past state seen) (isReceiving : cn ∈ state.receiving)
    (waiting : state.tempVec cn = []) (flag : (state.sr.connections cn).loginFlag = false)
    (answered : strayLogin draws letIn (reassemble (state.tempStr cn) recvStr).1
      state.userList (state.sr.connections cn) = some (connection, sent)) :
    IsSession cn (past ++ [.strayLogin cn recvStr draws letIn])
      ({ state with
        tempStr := Function.update state.tempStr cn
          (reassemble (state.tempStr cn) recvStr).2 }.withServer { state.sr with
            connections := Function.update state.sr.connections cn connection })
      (seen ++ .login cn (reassemble (state.tempStr cn) recvStr).1 state.userList ::
        sent.map (.written cn)) := by
  refine isSession.receivesLogin (.stray recvStr draws letIn) isReceiving waiting rfl (if_pos rfl)
    rfl ?_
  have answered' : strayLogin draws letIn (reassemble (state.session cn).tempStr recvStr).1
      (state.session cn).userList (state.session cn).cn = some (connection, sent) := answered
  have flag' : (state.session cn).cn.loginFlag = false := flag
  rw [step_session_stray flag' answered']
  simp [Exchange.session, Exchange.sr, Exchange.withServer]

theorem inSessions_step (inSessions : InSessions past state seen)
    (stepped : state.step server event = some (next, outputs)) :
    InSessions (past ++ [event]) next (seen ++ outputs) := by
  cases Exchange.step_cases stepped with
  | accepts cn draw memory fresh => exact inSessions_accept inSessions draw memory fresh stepped
  | stopsReceiving cn recvStr draws added connStorage isReceiving =>
      have isAccepted := inSessions.accepted cn isReceiving
      refine inSessions.onlyFor isAccepted ?_ ?_ rfl List.erase_sublist
      · intro other different
        refine ⟨⟨rfl, rfl, rfl, rfl, ?_⟩, rfl⟩
        cases recvStr with
        | none => rfl
        | some recvStr => exact if_neg different.symm
      · exact (inSessions.sessions cn isAccepted).stops isReceiving
          inSessions.receiving.not_mem_erase rfl rfl
  | cuts cn recvStr draws added isReceiving waiting _ flag =>
      have isAccepted := inSessions.accepted cn isReceiving
      refine inSessions.onlyFor isAccepted ?_ ?_ rfl (List.Sublist.refl _)
      · intro other different
        refine ⟨⟨?_, ?_, rfl, rfl, if_neg different.symm⟩, rfl⟩
        · exact Function.update_of_ne different ..
        · exact Function.update_of_ne different ..
      · exact (inSessions.sessions cn isAccepted).cuts isReceiving waiting flag
  | callsLogin cn recvStr draws added userList connection sent isReceiving waiting _ flag
      answered =>
      have isAccepted := inSessions.accepted cn isReceiving
      refine inSessions.onlyFor isAccepted ?_ ?_ rfl (List.Sublist.refl _)
      · intro other different
        exact ⟨.ofLogin (Function.update_of_ne different ..) rfl different
          (if_neg different.symm), Function.update_of_ne different ..⟩
      · exact (inSessions.sessions cn isAccepted).callsLogin isReceiving waiting flag answered
  | strays cn recvStr draws letIn connection sent isReceiving waiting _ flag answered =>
      have isAccepted := inSessions.accepted cn isReceiving
      refine inSessions.onlyFor isAccepted ?_ ?_ rfl (List.Sublist.refl _)
      · intro other different
        exact ⟨.ofLogin (Function.update_of_ne different ..) rfl different
          (if_neg different.symm), Function.update_of_ne different ..⟩
      · exact (inSessions.sessions cn isAccepted).strays isReceiving waiting flag answered
  | hands cn text rest waiting _ flag =>
      have isAccepted : cn ∈ state.accepted := by
        by_contra absent
        cases waiting.symm.trans (inSessions.untouched cn absent).tempVec
      obtain ⟨dq, dqOrderhandle, routed⟩ :=
        Server.route_sr state.sr (Server.addressed text (state.sr.connections cn))
      have connections : (state.sr.route (Server.addressed text
          (state.sr.connections cn))).1.connections = state.sr.connections := by
        rw [routed]
      refine inSessions.onlyFor isAccepted ?_ ?_ rfl (List.Sublist.refl _)
      · intro other different
        refine ⟨⟨rfl, ?_, ?_, rfl, rfl⟩, congrFun connections other⟩
        · exact Function.update_of_ne different ..
        · have notHere : (ExchangeOutput.handled cn (Server.addressed text
              (state.sr.connections cn))).handledOn other = none := if_neg different.symm
          rw [List.filterMap_cons_none notHere, List.filterMap_nil]
      · refine (inSessions.sessions cn isAccepted).hands waiting (Function.update_self ..) ?_ rfl
        simp only [Exchange.session, Exchange.sr] at connections ⊢
        rw [connections]
  | answersPrice cn msg replies =>
      have onlyReplies : replies.map (fun reply => ExchangeOutput.shown (.sent reply.1 reply.2)) =
          (replies.map fun reply => Observation.sent reply.1 reply.2).map .shown := by
        rw [List.map_map]
        rfl
      rw [onlyReplies]
      refine inSessions.aside (fun other => ⟨rfl, rfl, ?_, ?_, rfl⟩) rfl rfl rfl
      · exact filterMap_map_eq_nil (fun _ => rfl) _
      · exact filterMap_map_eq_nil (fun _ => rfl) _
  | fails | stopsBeating | beats =>
      exact inSessions.aside (fun other => ⟨rfl, rfl, rfl, rfl, rfl⟩) rfl rfl rfl
  | trades event threads observations isTrading traded =>
      obtain ⟨dq, dqOrderhandle, quotesList, same⟩ := Threads.sr_of_trading isTrading traded
      refine inSessions.aside (fun other => ⟨rfl, rfl, ?_, ?_, rfl⟩) rfl rfl ?_
      · exact filterMap_map_eq_nil (fun _ => rfl) observations
      · exact filterMap_map_eq_nil (fun _ => rfl) observations
      · change threads.trader.sr.connections = _
        rw [same]
        rfl

end

theorem inSessions_start (server : MariaDB) (db : Database) (rc : RiskController)
    (nidSub1 : BitVec 32) (userList : Accounts) (connections : ConnRef → Connection) :
    InSessions [] (.start server db rc nidSub1 userList connections) [] where
  untouched _ _ := ⟨rfl, rfl, rfl, rfl, rfl⟩
  sessions _ isAccepted := nomatch isAccepted
  receiving := .nil
  accepted _ isReceiving := nomatch isReceiving

theorem inSessions_run {server : MariaDB} {db : Database} {rc : RiskController}
    {nidSub1 : BitVec 32} {userList : Accounts} {connections : ConnRef → Connection}
    {events : List ExchangeEvent} {last : Exchange} {outputs : List ExchangeOutput}
    (finished : (exchange server).run (.start server db rc nidSub1 userList connections) events =
      some (last, outputs)) : InSessions events last outputs := by
  apply (exchange server).invariant_of_history InSessions _
    (inSessions_start server db rc nidSub1 userList connections) finished
  intro past state seen event next shown holds stepped
  exact inSessions_step holds stepped

/-- In every run of the exchange every connection is a session of its own, from the
moment it is accepted: it has called `loginMsgHandle` with the same texts, and
`msgHandler` with the same messages up to those that are still waiting. -/
theorem connections_are_sessions (server : MariaDB) (db : Database) (rc : RiskController)
    (nidSub1 : BitVec 32) (userList : Accounts) (connections : ConnRef → Connection)
    (events : List ExchangeEvent) (last : Exchange) (outputs : List ExchangeOutput)
    (finished : (exchange server).run (.start server db rc nidSub1 userList connections) events =
      some (last, outputs)) :
    ∀ cn ∈ last.accepted, IsSession cn events last outputs :=
  (inSessions_run finished).sessions

def twoClientsRun : List ExchangeEvent :=
  [.acceptConn 0 5 false, .acceptConn 1 7 false,
    .recvfrom 0 (some "1234|0324027|123|&".toList) (1, 2) false,
    .recvfrom 1 (some "1234|0324027|123|&".toList) (3, 4) false,
    .recvfrom 0 (some "1233|KKC|&87|1|60|1|1".toList) (0, 0) false, .heartbeat 1,
    .recvfrom 1 (some "87|2|60|2|1|1|KKC|&1233|KKC|&".toList) (0, 0) false, .msgHandler 0,
    .msgHandler 1, .priceAsking 0, .recvfrom 0 (some "|1|KKC|&".toList) (0, 0) false,
    .msgHandler 0, .trading (.getOrder 10 true), .trading (.getOrder 20 true)]

theorem connections_are_sessions_twoClientsRun :
    ∃ last outputs, (exchange .literal).run .initial twoClientsRun = some (last, outputs) ∧
      last.accepted = [1, 0] ∧ (last.tempVec 1).length = 1 ∧
      ∀ cn ∈ last.accepted, IsSession cn twoClientsRun last outputs := by
  obtain ⟨last, outputs, finished, evaluated⟩ :=
    Machine.exists_run_of_any (exchange .literal) .initial twoClientsRun
      (fun last _ => decide (last.accepted = [1, 0] ∧ (last.tempVec 1).length = 1))
      (by decide +kernel)
  obtain ⟨accepted, waiting⟩ := of_decide_eq_true evaluated
  exact ⟨last, outputs, finished, accepted, waiting,
    connections_are_sessions _ _ _ _ _ _ _ _ _ finished⟩

end InertiaTrader
