import InertiaTrader.Deployment.LockedOut
import InertiaTrader.Exchange.Accounts

/-!
# From the market maker to `msgHandler`

What the market maker sends before its login is lost.  Every frame that it sends behind
the login is handed to `msgHandler` once, and no frame overtakes another.
-/

namespace InertiaTrader

open Foundation

/-- The frames behind the first login. -/
def behindLogin (frames : List Text) : List Text := (frames.dropWhile (· ≠ loginMsg)).tail

/-- Of the frames received so far, a session has handed on those behind the login, each
without the `&` at its end. -/
structure Session.HandsFrames (frames : List Text) (session : Session)
    (shown : List SessionOutput) : Prop where
  tempStr : session.tempStr = []
  loginFlag : session.cn.loginFlag = true ↔ loginMsg ∈ frames
  handled : handledIn shown =
    (behindLogin frames).map fun frame => Server.addressed frame.dropLast session.cn

def AcceptsMaker (shown : List SessionOutput) : Prop :=
  ∀ call ∈ shown.filterMap SessionOutput.loginCall, ∃ user,
    LogsIn call.2 loginMsg.dropLast user

section

variable {frames : List Text} {frame : Text}

theorem dropWhile_of_notMem (notYet : loginMsg ∉ frames) :
    frames.dropWhile (· ≠ loginMsg) = [] := by
  apply List.dropWhile_eq_nil_iff.mpr
  intro frame listed
  simpa using fun same : frame = loginMsg => notYet (same ▸ listed)

theorem behindLogin_concat (notYet : loginMsg ∉ frames) (frame : Text) :
    behindLogin (frames ++ [frame]) = [] := by
  rw [behindLogin, List.dropWhile_append, dropWhile_of_notMem notYet]
  by_cases isLogin : frame = loginMsg <;> simp [isLogin]

theorem behindLogin_of_notMem (notYet : loginMsg ∉ frames) : behindLogin frames = [] := by
  rw [behindLogin, dropWhile_of_notMem notYet]
  rfl

theorem behindLogin_of_mem (loggedIn : loginMsg ∈ frames) (more : List Text) :
    behindLogin (frames ++ more) = behindLogin frames ++ more := by
  induction frames with
  | nil => cases loggedIn
  | cons head frames inductionHypothesis =>
      by_cases isLogin : head = loginMsg
      · simp [behindLogin, isLogin]
      · have later := (List.mem_cons.mp loggedIn).resolve_left (Ne.symm isLogin)
        have rest := inductionHypothesis later
        simpa [behindLogin, List.dropWhile_cons, isLogin] using rest

theorem reassemble_frame (isFrame : frame ∈ ClientProcess.frames) :
    reassemble [] frame = (frame.dropLast, []) ∧
      split frame.dropLast "&".toList = [frame.dropLast] := by
  simp only [ClientProcess.frames, ClientProcess.loggedInTexts, List.mem_cons,
    List.not_mem_nil, or_false] at isFrame
  rcases isFrame with rfl | rfl | rfl | rfl | rfl <;> exact ⟨by decide, by decide⟩

theorem noLogin_of_frame (isFrame : frame ∈ ClientProcess.frames) (isOther : frame ≠ loginMsg) :
    NoLogin frame :=
  .of_loggedInTexts ((List.mem_cons.mp isFrame).resolve_left isOther)

end

section

variable {frames : List Text} {session next : Session} {shown later : List SessionOutput}

theorem Session.HandsFrames.receives {frame : Text} {draws : ℕ × ℕ} {added : Bool}
    (holds : session.HandsFrames frames shown) (isFrame : frame ∈ ClientProcess.frames)
    (accepts : AcceptsMaker later)
    (stepped : sessions.step session (.recv frame draws added) = some (next, later)) :
    next.HandsFrames (frames ++ [frame]) (shown ++ later) := by
  obtain ⟨whole, alone⟩ := reassemble_frame isFrame
  cases flag : session.cn.loginFlag with
  | true =>
      have loggedIn := holds.loginFlag.mp flag
      rw [step_session_messages draws added flag, holds.tempStr, whole] at stepped
      cases stepped
      refine ⟨rfl, iff_of_true flag (List.mem_append_left _ loggedIn), ?_⟩
      rw [handledIn_append, handledIn_handled, holds.handled, behindLogin_of_mem loggedIn,
        List.map_append, alone]
      rfl
  | false =>
      have notYet : loginMsg ∉ frames := by
        rw [← holds.loginFlag, flag]
        exact Bool.false_ne_true
      simp only [sessions, Session.step, msgRecv, flag, Bool.false_eq_true, if_false,
        Machine.run_singleton, handing, holds.tempStr, whole] at stepped
      split at stepped
      next => cases stepped
      next userList cn sent answered =>
        cases stepped
        have moved : cn.loginFlag = true ↔ frame = loginMsg := by
          by_cases isLogin : frame = loginMsg
          · obtain ⟨user, logsIn⟩ := accepts (frame.dropLast, session.userList)
              (by simp [SessionOutput.loginCall])
            rcases loginMsgHandle_cases answered with ⟨_, -, rfl⟩ | ⟨nobody, -⟩
            · exact iff_of_true rfl isLogin
            · exact absurd (isLogin ▸ logsIn) (nobody user)
          · have same := (noLogin_of_frame isFrame isLogin).loginMsgHandle draws added
              session.userList session.cn
            rw [whole, answered] at same
            cases same
            exact iff_of_false (by simp [flag]) isLogin
        refine ⟨rfl, ?_, ?_⟩
        · rw [moved, List.mem_append, List.mem_singleton]
          exact ⟨fun isLogin => .inr isLogin.symm,
            fun listed => (listed.resolve_left notYet).symm⟩
        · rw [handledIn_append, handledIn_login, holds.handled, behindLogin_of_notMem notYet,
            behindLogin_concat notYet]
          rfl

theorem handsFrames_run {id : ℤ} {users : Accounts} {events : List SessionEvent}
    (areFrames : ∀ frame ∈ events.filterMap SessionEvent.chunk, frame ∈ ClientProcess.frames)
    (accepts : AcceptsMaker shown)
    (ran : sessions.run (.fresh id false users) events = some (session, shown)) :
    session.HandsFrames (events.filterMap SessionEvent.chunk) shown := by
  revert areFrames accepts
  apply sessions.invariant_of_history (fun past session shown =>
    (∀ frame ∈ past.filterMap SessionEvent.chunk, frame ∈ ClientProcess.frames) →
      AcceptsMaker shown → session.HandsFrames (past.filterMap SessionEvent.chunk) shown) _ _ ran
  · intro past current seen event next later holds stepped areFrames accepts
    rw [List.filterMap_append, List.forall_mem_append] at areFrames
    rw [AcceptsMaker, List.filterMap_append, List.forall_mem_append] at accepts
    have before := holds areFrames.1 accepts.1
    rw [List.filterMap_append]
    cases event with
    | users userList =>
        cases stepped
        have noChunk : [SessionEvent.users userList].filterMap SessionEvent.chunk = [] := rfl
        rw [noChunk, List.append_nil, List.append_nil]
        exact ⟨before.tempStr, before.loginFlag, before.handled⟩
    | recv frame draws added =>
        have chunk : [SessionEvent.recv frame draws added].filterMap SessionEvent.chunk =
            [frame] := rfl
        rw [chunk] at areFrames ⊢
        exact before.receives (areFrames.2 frame List.mem_cons_self) accepts.2 stepped
    | stray frame draws letIn =>
        have isFrame := areFrames.2 frame (List.mem_singleton_self _)
        obtain ⟨-, cn, sent, answered, -, rfl⟩ := Session.stray_step stepped
        rw [before.tempStr, (reassemble_frame isFrame).1] at answered
        obtain ⟨code, nobody, -⟩ := strayLogin_cases answered
        obtain rfl : frame = loginMsg := by
          by_contra isOther
          apply (noLogin_of_frame isFrame isOther).notLogin
          rw [(reassemble_frame isFrame).1]
          exact code
        obtain ⟨user, logsIn⟩ := accepts.2 _ List.mem_cons_self
        rw [before.tempStr, (reassemble_frame isFrame).1] at logsIn
        exact absurd logsIn (nobody user)
  · intro _ _
    exact ⟨rfl, iff_of_false Bool.false_ne_true List.not_mem_nil, rfl⟩

end

section

variable {server : MariaDB} {db : Database} {rc : RiskController} {nidSub1 : BitVec 32}
    {userList : Accounts} {connections : ConnRef → Connection}
    {events : List DeploymentEvent} {last : Deployment} {outputs : List ExchangeOutput}

theorem acceptsMaker_of_deployment {user : Text} {cn : ConnRef} {shown : List SessionOutput}
    (distinct : (userList.map Prod.fst).Nodup) (logsIn : LogsIn userList loginMsg.dropLast user)
    (finished : (deployment server).run (.start server db rc nidSub1 userList connections)
      events = some (last, outputs))
    (logins : shown.filterMap SessionOutput.loginCall =
      outputs.filterMap (ExchangeOutput.loginOn cn)) : AcceptsMaker shown := by
  rintro ⟨msg, users⟩ called
  rw [logins] at called
  have kept := kept_at_login distinct (exchange_run_of_deployment finished)
    (ExchangeOutput.mem_of_loginOn called)
  obtain ⟨account, known, password⟩ := logsIn.password
  exact ⟨user, logsIn.code, logsIn.named, account, kept user account known, password⟩

end

/-- In every run in which no new connection finds itself logged in and the login of the market
maker is right: what it has sent on a connection was looked at, or skipped by a thread that
has ended, or is on its way, in this order.  Of the frames looked at, those behind the login
were handed to `msgHandler` or are about to be, one for one and in their order. -/
theorem frames_handled_once (server : MariaDB) (db : Database) (rc : RiskController)
    (nidSub1 : BitVec 32) (userList : Accounts) (connections : ConnRef → Connection)
    (events : List DeploymentEvent) (last : Deployment) (outputs : List ExchangeOutput)
    (user : Text) (distinct : (userList.map Prod.fst).Nodup)
    (logsIn : LogsIn userList loginMsg.dropLast user)
    (clear : ∀ event ∈ events.filterMap DeploymentEvent.ofExchange, event.ClearsMemory)
    (finished : (deployment server).run (.start server db rc nidSub1 userList connections)
      events = some (last, outputs)) (cn : ConnRef) (opened : last.isOpened cn) :
    ∃ looked skipped,
      (deployment server).trace (Deployment.sentOn cn)
          (.start server db rc nidSub1 userList connections) events =
        looked ++ skipped ++ last.toExchange cn ∧
      (cn ∈ last.exchange.receiving → skipped = []) ∧
      (outputs.filterMap (ExchangeOutput.handledOn cn) ++
          (last.exchange.tempVec cn).map fun text =>
            Server.addressed text (last.exchange.sr.connections cn)) =
        (behindLogin looked).map fun frame =>
          Server.addressed frame.dropLast (last.exchange.sr.connections cn) := by
  have inSessions := inSessions_of_deployment finished
  have transfers := transfers_run finished
  have sent := transfers.opened cn opened
  by_cases isAccepted : cn ∈ last.exchange.accepted
  · obtain ⟨draw, memory, users, sessionEvents, shown, accepted, follows⟩ :=
      inSessions.sessions cn isAccepted
    obtain rfl : memory = false := clear _ accepted
    obtain ⟨skipped, parts⟩ := follows.chunks
    have areFrames : ∀ frame ∈ sessionEvents.filterMap SessionEvent.chunk,
        frame ∈ ClientProcess.frames := by
      intro frame received
      apply transfers.areFrames cn frame
      rw [sent]
      exact List.mem_append_left _ (follows.chunks.subset received)
    have hands := handsFrames_run areFrames
      (acceptsMaker_of_deployment distinct logsIn finished follows.logins) follows.ran
    refine ⟨sessionEvents.filterMap SessionEvent.chunk, skipped, ?_, ?_, ?_⟩
    · rw [parts]
      exact sent
    · intro isReceiving
      rw [follows.chunksNow isReceiving] at parts
      exact List.append_right_eq_self.mp parts
    · exact follows.handled.symm.trans hands.handled
  · have untouched := inSessions.untouched cn isAccepted
    refine ⟨[], [], ?_, fun _ => rfl, ?_⟩
    · rw [sent, Deployment.chunksOn, untouched.chunks]
      rfl
    · rw [untouched.handled, untouched.tempVec]
      rfl

def quotedTwiceRun : List DeploymentEvent :=
  [.client (.construct [.connected]) 0, .exchange (.acceptConn 0 5 false),
    .client (.trade 1024 1024) 0, .client (.beat 1024) 0, .client (.ask 1024) 0,
    .exchange (.recvfrom 0 (some quotedBuy) (0, 0) false),
    .exchange (.recvfrom 0 (some quotedSell) (0, 0) false),
    .exchange (.recvfrom 0 (some heartbeatMsg) (0, 0) false),
    .exchange (.recvfrom 0 (some loginMsg) (1, 2) false), .client .wait 0,
    .client (.trade 1024 1024) 0, .exchange (.recvfrom 0 (some quotedBuy) (0, 0) false),
    .exchange (.msgHandler 0), .exchange (.recvfrom 0 (some quotedSell) (0, 0) false)]

theorem frames_handled_once_quotedTwiceRun :
    ∃ last outputs, (deployment .literal).run .initial quotedTwiceRun = some (last, outputs) ∧
      (deployment .literal).trace (Deployment.sentOn 0) .initial quotedTwiceRun =
        [quotedBuy, quotedSell, heartbeatMsg, loginMsg, quotedBuy, quotedSell] ∧
      (outputs.filterMap (ExchangeOutput.handledOn 0) ++
          (last.exchange.tempVec 0).map fun text =>
            Server.addressed text (last.exchange.sr.connections 0)) =
        [quotedBuy, quotedSell].map fun frame =>
          Server.addressed frame.dropLast (last.exchange.sr.connections 0) := by
  obtain ⟨last, outputs, finished, evaluated⟩ :=
    Machine.exists_run_of_any (deployment .literal) .initial quotedTwiceRun
      (fun last _ => decide (last.isOpened 0 ∧ 0 ∈ last.exchange.receiving ∧
        last.toExchange 0 = [])) (by decide +kernel)
  obtain ⟨opened, isReceiving, nothingLeft⟩ := of_decide_eq_true evaluated
  have sent : (deployment .literal).trace (Deployment.sentOn 0) .initial quotedTwiceRun =
      [quotedBuy, quotedSell, heartbeatMsg, loginMsg, quotedBuy, quotedSell] := by
    decide +kernel
  have distinct : (Accounts.initial.map Prod.fst).Nodup := List.nodup_singleton _
  have clear : ∀ event ∈ quotedTwiceRun.filterMap DeploymentEvent.ofExchange,
      event.ClearsMemory := by
    simp only [quotedTwiceRun, List.filterMap_cons, DeploymentEvent.ofExchange,
      List.filterMap_nil]
    simp [ExchangeEvent.ClearsMemory]
  obtain ⟨looked, skipped, parts, notSkipped, handled⟩ :=
    frames_handled_once _ _ _ _ _ _ _ _ _ _ distinct logsIn_makerLogin clear finished 0 opened
  have all := sent.symm.trans parts
  rw [notSkipped isReceiving, nothingLeft, List.append_nil, List.append_nil] at all
  rw [← all] at handled
  have behind : behindLogin [quotedBuy, quotedSell, heartbeatMsg, loginMsg, quotedBuy,
      quotedSell] = [quotedBuy, quotedSell] := by decide
  rw [behind] at handled
  exact ⟨last, outputs, finished, sent, handled⟩

end InertiaTrader
