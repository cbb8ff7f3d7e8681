import InertiaTrader.Foundation.Insertion
import InertiaTrader.Server.Login

/-!
# Heartbeats between the chunks

`msgRecv` does not join a heartbeat with a pending fragment, so it can come between
any two chunks.
-/

namespace InertiaTrader

open Foundation

/-- A `recv` delivers a heartbeat. -/
def SessionEvent.IsHeartbeat : SessionEvent → Prop
  | .recv recvStr _ _ => recvStr = "<3&".toList
  | .stray .. | .users _ => False

/-- What a session lets others see, without the heartbeats that it hands on. -/
def SessionOutput.passed (cn : Connection) : SessionOutput → Option SessionOutput
  | .login msg userList => if msg = "<3".toList then none else some (.login msg userList)
  | .handled msg =>
      if msg = Server.addressed "<3".toList cn then none else some (.handled msg)
  | .sent text => some (.sent text)

theorem reassemble_heartbeat (tempStr : Text) :
    reassemble tempStr "<3&".toList = ("<3".toList, tempStr) := by
  have apart : ¬ (tempStr ≠ [] ∧ "<3&".toList ≠ "<3&".toList) := fun both => both.2 rfl
  have closed : ¬ "<3&".toList.getLast? ≠ some '&' := fun open' => open' rfl
  simp only [reassemble, if_neg apart, if_neg closed]
  rfl

theorem passed_congr {cn cn' : Connection} (same : cn.connectionID = cn'.connectionID) :
    SessionOutput.passed cn = SessionOutput.passed cn' := by
  have sameHeartbeat : Server.addressed "<3".toList cn = Server.addressed "<3".toList cn' := by
    rw [Server.addressed, same]
    rfl
  funext output
  cases output with
  | login msg userList => rfl
  | handled msg => rw [SessionOutput.passed, SessionOutput.passed, sameHeartbeat]
  | sent text => rfl

theorem connectionID_step {session next : Session} {event : SessionEvent}
    {outputs : List SessionOutput} (stepped : session.step event = some (next, outputs)) :
    next.cn.connectionID = session.cn.connectionID := by
  cases Session.step_cases stepped with
  | users => rfl
  | handles => rfl
  | login tempStr msg draws added userList cn sent flag answered =>
      rcases loginMsgHandle_cases answered with ⟨user, -, rfl⟩ | ⟨-, rfl⟩
      · rfl
      · rfl
  | stray tempStr msg draws letIn cn sent flag answered =>
      obtain ⟨-, -, -, -, ⟨-, rfl, -⟩ | ⟨user, -, rfl, -⟩⟩ := strayLogin_cases answered
      · rfl
      · rfl

theorem heartbeat_idle (session : Session) {event : SessionEvent} (heartbeat : event.IsHeartbeat) :
    ∃ outputs, session.step event = some (session, outputs) ∧
      outputs.filterMap (SessionOutput.passed session.cn) = [] := by
  cases event with
  | users | stray => cases heartbeat
  | recv recvStr draws added =>
      obtain rfl : recvStr = "<3&".toList := heartbeat
      have parts : split "<3".toList "&".toList = ["<3".toList] := by decide +kernel
      cases flag : session.cn.loginFlag with
      | true =>
          refine ⟨[.handled (Server.addressed "<3".toList session.cn)], ?_, ?_⟩
          · simp only [Session.step, msgRecv, reassemble_heartbeat, flag, if_true, parts]
            exact handing_messages draws added session ["<3".toList]
          · simp [SessionOutput.passed]
      | false =>
          refine ⟨[.login "<3".toList session.userList], ?_, ?_⟩
          · simp only [Session.step, msgRecv, reassemble_heartbeat, flag, Bool.false_eq_true,
              if_false, Machine.run_singleton, handing]
            rfl
          · simp [SessionOutput.passed]

/-- Heartbeats between the chunks, however many and wherever, change neither what
is handed on nor the state of the session. -/
theorem heartbeats_transparent (session : Session) (events events' : List SessionEvent)
    (inserted : Inserted SessionEvent.IsHeartbeat events events') :
    sessions.observe (SessionOutput.passed session.cn) session events' =
      sessions.observe (SessionOutput.passed session.cn) session events := by
  apply sessions.observe_inserted _
    (fun current => current.cn.connectionID = session.cn.connectionID) _ _ rfl inserted
  · intro current event next outputs sameId stepped
    exact (connectionID_step stepped).trans sameId
  · intro current event sameId heartbeat
    rw [← passed_congr sameId]
    exact heartbeat_idle current heartbeat

theorem heartbeats_transparent_fragments :
    sessions.observe (SessionOutput.passed (.construct 0 true)) (.fresh 0 true .initial)
        [.recv "1233|K".toList (0, 0) false, .recv "<3&".toList (0, 0) false,
          .recv "KC|&".toList (0, 0) false] =
      sessions.observe (SessionOutput.passed (.construct 0 true)) (.fresh 0 true .initial)
        [.recv "1233|K".toList (0, 0) false, .recv "KC|&".toList (0, 0) false] :=
  heartbeats_transparent (.fresh 0 true .initial) _ _
    (.keep _ (.insert rfl (.refl _)))

end InertiaTrader
