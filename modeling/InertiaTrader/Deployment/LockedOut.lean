import InertiaTrader.Deployment.Transfer
import InertiaTrader.Exchange.Logins

/-!
# The market maker after a reconnect

`loginflag` outlives the connection on which the market maker was logged in, while the
exchange wants a login on every connection.  So what is sent on a later connection is
never looked at.
-/

namespace InertiaTrader

open Foundation

structure NoLogin (chunk : Text) : Prop where
  whole : (reassemble [] chunk).2 = []
  notLogin : (reassemble [] chunk).1.take 4 ≠ "1234".toList
  notUser : (reassemble [] chunk).1.take 4 ≠ "1238".toList

structure Session.LoggedOut (session : Session) (shown : List SessionOutput) : Prop where
  tempStr : session.tempStr = []
  loginFlag : session.cn.loginFlag = false
  handled : handledIn shown = []

theorem NoLogin.of_loggedInTexts {chunk : Text} (listed : chunk ∈ ClientProcess.loggedInTexts) :
    NoLogin chunk := by
  simp only [ClientProcess.loggedInTexts, List.mem_cons, List.not_mem_nil, or_false] at listed
  rcases listed with rfl | rfl | rfl | rfl <;> exact ⟨by decide, by decide, by decide⟩

section

variable {session next last : Session} {event : SessionEvent} {events : List SessionEvent}
    {shown later : List SessionOutput}

theorem NoLogin.loginMsgHandle {chunk : Text} (noLogin : NoLogin chunk) (draws : ℕ × ℕ)
    (added : Bool) (userList : Accounts) (cn : Connection) :
    InertiaTrader.loginMsgHandle draws added (reassemble [] chunk).1 userList cn =
      .ok (userList, cn, []) := by
  simp only [InertiaTrader.loginMsgHandle, if_neg noLogin.notLogin, if_neg noLogin.notUser]
  rfl

theorem Session.LoggedOut.step (loggedOut : session.LoggedOut shown)
    (noLogin : ∀ chunk, event.chunk = some chunk → NoLogin chunk)
    (stepped : sessions.step session event = some (next, later)) :
    next.LoggedOut (shown ++ later) := by
  cases event with
  | users userList =>
      cases stepped
      rw [List.append_nil]
      exact ⟨loggedOut.tempStr, loggedOut.loginFlag, loggedOut.handled⟩
  | recv recvStr draws added =>
      have isNoLogin := noLogin recvStr rfl
      have answered := isNoLogin.loginMsgHandle draws added session.userList session.cn
      rw [← loggedOut.tempStr] at answered
      rw [step_session_login loggedOut.loginFlag answered] at stepped
      cases stepped
      refine ⟨?_, loggedOut.loginFlag, ?_⟩
      · rw [loggedOut.tempStr]
        exact isNoLogin.whole
      · rw [handledIn_append, loggedOut.handled, handledIn_login, List.append_nil]
  | stray recvStr draws letIn =>
      obtain ⟨-, _, _, answered, -⟩ := Session.stray_step stepped
      rw [loggedOut.tempStr] at answered
      exact absurd (strayLogin_cases answered).1 (noLogin recvStr rfl).notLogin

end

namespace Deployment

section

variable {server : MariaDB} {sent : ConnRef → List Text} {past : List DeploymentEvent}
    {state next : Deployment} {outputs : List ExchangeOutput} {cn : ConnRef}

end

end Deployment

end InertiaTrader
