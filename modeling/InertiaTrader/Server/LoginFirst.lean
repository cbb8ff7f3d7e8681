import InertiaTrader.Foundation.History
import InertiaTrader.Server.Heartbeats
import InertiaTrader.Server.LoginDecision
import InertiaTrader.Threads

/-!
# No trading before the login

The constructor of `Connection` sets `recvStatus_` but not `login_flag_`, so a
fresh connection is logged in when the memory it was given happens to say so.  It may
also be logged in by a login message whose user `find` does not find.
-/

namespace InertiaTrader

open Foundation

/-- `loginMsgHandle` has processed a message that logs this user in. -/
def LoggedIn (seen : List SessionOutput) (user : Text) : Prop :=
  ∃ msg userList, .login msg userList ∈ seen ∧ LogsIn userList msg user

/-- Whatever comes next, `msgHandler` is called only for a user who has logged
in, and the connection bears the name of that user. -/
structure LoginFirst (session : Session) (seen : List SessionOutput) : Prop where
  handled : ∀ event next outputs msg, session.step event = some (next, outputs) →
    .handled msg ∈ outputs → ∃ user, LoggedIn seen user
  named : ∀ user, LoggedIn seen user → session.cn.username = user

/-- What comes to a connection, whatever the environment answers. -/
inductive SessionInput where
  | chunk (recvStr : Text)
  | users (userList : Accounts)
  deriving DecidableEq

def SessionEvent.input : SessionEvent → SessionInput
  | .recv recvStr _ _ | .stray recvStr _ _ => .chunk recvStr
  | .users userList => .users userList

/-- A run of the session on the first ones of these inputs. -/
def RunsOn (first : Session) (inputs : List SessionInput) (last : Session)
    (seen : List SessionOutput) : Prop :=
  ∃ events, events.map SessionEvent.input <+: inputs ∧
    sessions.run first events = some (last, seen)

/-- Every login message names a user of the list at that time and has a password. -/
def KnownLogins (seen : List SessionOutput) : Prop :=
  ∀ msg userList, .login msg userList ∈ seen → KnownLogin userList msg

structure Flagged (session : Session) (seen : List SessionOutput) : Prop where
  loggedIn : session.cn.loginFlag = true → ∃ user, LoggedIn seen user
  loggedOut : session.cn.loginFlag = false → ∀ user, ¬ LoggedIn seen user
  named : ∀ user, LoggedIn seen user → session.cn.username = user

section

variable {session next : Session} {event : SessionEvent} {seen outputs : List SessionOutput}

theorem loggedIn_append {user : Text} :
    LoggedIn (seen ++ outputs) user ↔ LoggedIn seen user ∨ LoggedIn outputs user := by
  simp only [LoggedIn, List.mem_append]
  constructor
  · rintro ⟨msg, userList, earlier | now, logsIn⟩
    · exact .inl ⟨msg, userList, earlier, logsIn⟩
    · exact .inr ⟨msg, userList, now, logsIn⟩
  · rintro (⟨msg, userList, earlier, logsIn⟩ | ⟨msg, userList, now, logsIn⟩)
    · exact ⟨msg, userList, .inl earlier, logsIn⟩
    · exact ⟨msg, userList, .inr now, logsIn⟩

theorem loggedIn_login {msg user : Text} {userList : Accounts} {sent : List Text} :
    LoggedIn (.login msg userList :: sent.map .sent) user ↔ LogsIn userList msg user := by
  simp only [LoggedIn, List.mem_cons, SessionOutput.login.injEq, List.mem_map, reduceCtorEq,
    and_false, exists_false, or_false]
  constructor
  · rintro ⟨_, _, ⟨rfl, rfl⟩, logsIn⟩
    exact logsIn
  · exact fun logsIn => ⟨msg, userList, ⟨rfl, rfl⟩, logsIn⟩

theorem not_loggedIn_handled {user : Text} {texts : List Text} {cn : Connection} :
    ¬ LoggedIn (texts.map fun text => .handled (Server.addressed text cn)) user := by
  rintro ⟨msg, userList, shown, -⟩
  obtain ⟨text, -, equality⟩ := List.mem_map.mp shown
  cases equality

theorem loggedOut_step
    (loggedOut : session.cn.loginFlag = false → ∀ user, ¬ LoggedIn seen user)
    (stepped : session.step event = some (next, outputs))
    (flag : next.cn.loginFlag = false) (user : Text) : ¬ LoggedIn (seen ++ outputs) user := by
  rw [loggedIn_append, not_or]
  cases Session.step_cases stepped with
  | users userList => exact ⟨loggedOut flag user, fun ⟨_, _, shown, _⟩ => nomatch shown⟩
  | handles tempStr texts set =>
      rw [set] at flag
      cases flag
  | login tempStr msg draws added userList cn sent clear answered =>
      refine ⟨loggedOut clear user, ?_⟩
      rw [loggedIn_login]
      rcases loginMsgHandle_cases answered with ⟨_, -, rfl⟩ | ⟨nobody, -⟩
      · cases flag
      · exact nobody user
  | stray tempStr msg draws letIn cn sent clear answered =>
      refine ⟨loggedOut clear user, ?_⟩
      rw [loggedIn_login]
      exact (strayLogin_cases answered).2.1 user

theorem flagged_step (flagged : Flagged session seen) (known : KnownLogins outputs)
    (stepped : session.step event = some (next, outputs)) : Flagged next (seen ++ outputs) := by
  have loggedOut := loggedOut_step flagged.loggedOut stepped
  cases Session.step_cases stepped with
  | users userList =>
      rw [List.append_nil] at loggedOut ⊢
      exact ⟨flagged.loggedIn, loggedOut, flagged.named⟩
  | handles tempStr texts flag =>
      have same (user : Text) : LoggedIn (seen ++ texts.map fun text =>
          .handled (Server.addressed text session.cn)) user ↔ LoggedIn seen user := by
        rw [loggedIn_append]
        exact or_iff_left not_loggedIn_handled
      refine ⟨?_, loggedOut, ?_⟩ <;> simp only [same]
      · exact flagged.loggedIn
      · exact flagged.named
  | login tempStr msg draws added userList cn sent flag answered =>
      have nobody := flagged.loggedOut flag
      have now (user : Text) : LoggedIn (seen ++ .login msg session.userList :: sent.map .sent)
          user ↔ LogsIn session.userList msg user := by
        rw [loggedIn_append, loggedIn_login]
        exact or_iff_right (nobody user)
      rcases loginMsgHandle_cases answered with ⟨user, logsIn, rfl⟩ | ⟨nobodyNow, rfl⟩
      · refine ⟨fun _ => ⟨user, (now user).mpr logsIn⟩, loggedOut, ?_⟩
        intro other loggedIn
        have otherLogsIn := (now other).mp loggedIn
        exact Option.some.inj (logsIn.named.symm.trans otherLogsIn.named)
      · refine ⟨?_, loggedOut, ?_⟩
        · intro isFlagged
          rw [flag] at isFlagged
          cases isFlagged
        · intro other loggedIn
          exact absurd ((now other).mp loggedIn) (nobodyNow other)
  | stray tempStr msg draws letIn cn sent flag answered =>
      rw [strayLogin_of_known (known msg session.userList List.mem_cons_self)] at answered
      cases answered

theorem flagged_run {id : ℤ} {userList : Accounts} {events : List SessionEvent}
    (ran : sessions.run (.fresh id false userList) events = some (session, seen))
    (known : KnownLogins seen) : Flagged session seen := by
  have nobody (user : Text) : ¬ LoggedIn [] user := by
    rintro ⟨_, _, shown, -⟩
    cases shown
  refine sessions.invariant_of_run (fun session seen => KnownLogins seen → Flagged session seen)
    ?_ ?_ ran known
  · intro session seen event next outputs flagged stepped known
    have knownBefore : KnownLogins seen := fun msg users shown =>
      known msg users (List.mem_append_left outputs shown)
    have knownNow : KnownLogins outputs := fun msg users shown =>
      known msg users (List.mem_append_right seen shown)
    exact flagged_step (flagged knownBefore) knownNow stepped
  · intro _
    exact ⟨nofun, fun _ => nobody, fun user loggedIn => absurd loggedIn (nobody user)⟩

theorem flag_of_handled {msg : Text} (stepped : session.step event = some (next, outputs))
    (handled : .handled msg ∈ outputs) :
    session.cn.loginFlag = true ∧ ∃ text, msg = Server.addressed text session.cn := by
  cases Session.step_cases stepped with
  | users => cases handled
  | handles tempStr texts flag =>
      obtain ⟨text, -, equality⟩ := List.mem_map.mp handled
      cases equality
      exact ⟨flag, text, rfl⟩
  | login tempStr text draws added userList cn sent
  | stray tempStr text draws letIn cn sent =>
      rcases List.mem_cons.mp handled with equality | isSent
      · cases equality
      · obtain ⟨_, -, equality⟩ := List.mem_map.mp isSent
        cases equality

theorem Flagged.loginFirst (flagged : Flagged session seen) : LoginFirst session seen where
  handled _ _ _ _ stepped handled := flagged.loggedIn (flag_of_handled stepped handled).1
  named := flagged.named

theorem heartbeat_handled (flag : session.cn.loginFlag = true) :
    ∃ msg, session.step (.recv "<3&".toList (0, 0) false) = some (session, [.handled msg]) := by
  have parts : split "<3".toList "&".toList = ["<3".toList] := by decide +kernel
  refine ⟨Server.addressed "<3".toList session.cn, ?_⟩
  simp only [Session.step, msgRecv, reassemble_heartbeat, flag, if_true, parts]
  exact handing_messages (0, 0) false session ["<3".toList]

theorem not_loginFirst_of_flag (flag : session.cn.loginFlag = true)
    (nobody : ∀ user, ¬ LoggedIn seen user) : ¬ LoginFirst session seen := by
  intro loginFirst
  obtain ⟨msg, stepped⟩ := heartbeat_handled flag
  obtain ⟨user, loggedIn⟩ := loginFirst.handled _ _ _ _ stepped (List.mem_singleton_self _)
  exact nobody user loggedIn

theorem not_loginFirst_of_stray {recvStr username : Text} {draws : ℕ × ℕ}
    (nobody : ∀ user, ¬ LoggedIn seen user)
    (stepped : session.step (.stray recvStr draws (some username)) = some (next, outputs)) :
    ¬ LoginFirst next (seen ++ outputs) := by
  obtain ⟨-, cn, sent, answered, rfl, rfl⟩ := Session.stray_step stepped
  obtain ⟨-, notListed, -, -, ⟨notLetIn, -⟩ | ⟨_, -, rfl, -⟩⟩ := strayLogin_cases answered
  · cases notLetIn
  · apply not_loginFirst_of_flag rfl
    intro user
    rw [loggedIn_append, loggedIn_login, not_or]
    exact ⟨nobody user, notListed user⟩

theorem exists_stray (stepped : session.step event = some (next, outputs)) {msg : Text}
    {userList : Accounts} (called : .login msg userList ∈ outputs)
    (unknown : ¬ KnownLogin userList msg) :
    session.cn.loginFlag = false ∧ ∃ recvStr next' outputs', .chunk recvStr = event.input ∧
      session.step (.stray recvStr (0, 0) (some [])) = some (next', outputs') := by
  have letIn (recvStr : Text) (clear : session.cn.loginFlag = false)
      (text : msg = (reassemble session.tempStr recvStr).1) (users : userList = session.userList) :
      ∃ next' outputs',
        session.step (.stray recvStr (0, 0) (some [])) = some (next', outputs') := by
    subst text users
    simp only [Session.step, clear, Bool.false_eq_true, if_false, strayLogin_of_unknown unknown]
    exact ⟨_, _, rfl⟩
  have isCall {text : Text} {users : Accounts} {sent : List Text}
      (listed : .login msg userList ∈ SessionOutput.login text users :: sent.map .sent) :
      msg = text ∧ userList = users := by
    rcases List.mem_cons.mp listed with same | isSent
    · cases same
      exact ⟨rfl, rfl⟩
    · obtain ⟨_, -, same⟩ := List.mem_map.mp isSent
      cases same
  cases event with
  | users =>
      cases stepped
      cases called
  | recv recvStr draws added =>
      cases flag : session.cn.loginFlag with
      | true =>
          simp only [Session.step, msgRecv, flag, if_true, handing_messages] at stepped
          cases stepped
          obtain ⟨_, -, same⟩ := List.mem_map.mp called
          cases same
      | false =>
          simp only [Session.step, msgRecv, flag, Bool.false_eq_true, if_false,
            Machine.run_singleton, handing] at stepped
          split at stepped
          next => cases stepped
          next =>
            cases stepped
            obtain ⟨text, users⟩ := isCall called
            obtain ⟨next', outputs', stepped'⟩ := letIn recvStr flag text users
            exact ⟨rfl, recvStr, next', outputs', rfl, stepped'⟩
  | stray recvStr draws letIn' =>
      obtain ⟨clear, cn, sent, -, -, rfl⟩ := Session.stray_step stepped
      obtain ⟨text, users⟩ := isCall called
      obtain ⟨next', outputs', stepped'⟩ := letIn recvStr clear text users
      exact ⟨clear, recvStr, next', outputs', rfl, stepped'⟩

end

theorem nobodyLoggedIn_run {id : ℤ} {memory : Bool} {userList : Accounts}
    {events : List SessionEvent} {session : Session} {seen : List SessionOutput}
    (ran : sessions.run (.fresh id memory userList) events = some (session, seen))
    (flag : session.cn.loginFlag = false) (user : Text) : ¬ LoggedIn seen user := by
  refine sessions.invariant_of_run (fun session seen => session.cn.loginFlag = false →
    ∀ user, ¬ LoggedIn seen user) ?_ ?_ ran flag user
  · intro session seen event next outputs loggedOut stepped
    exact loggedOut_step loggedOut stepped
  · rintro - user ⟨_, _, shown, -⟩
    cases shown

theorem exists_not_loginFirst {id : ℤ} {memory : Bool} {userList users : Accounts}
    {inputs : List SessionInput} {session : Session} {seen : List SessionOutput} {msg : Text}
    (runs : RunsOn (.fresh id memory userList) inputs session seen)
    (called : .login msg users ∈ seen) (unknown : ¬ KnownLogin users msg) :
    ∃ session' seen', RunsOn (.fresh id memory userList) inputs session' seen' ∧
      ¬ LoginFirst session' seen' := by
  obtain ⟨events, isPrefix, ran⟩ := runs
  obtain ⟨past, event, rest, middle, first, next, outputs, rfl, reached, stepped, listed⟩ :=
    sessions.exists_step_of_mem ran called
  obtain ⟨clear, recvStr, next', outputs', sameInput, stepped'⟩ :=
    exists_stray stepped listed unknown
  have reached' : sessions.run (.fresh id memory userList)
      (past ++ [.stray recvStr (0, 0) (some [])]) = some (next', first ++ outputs') :=
    sessions.run_concat reached stepped'
  refine ⟨next', _, ⟨_, ?_, reached'⟩,
    not_loginFirst_of_stray (nobodyLoggedIn_run reached clear) stepped'⟩
  refine List.IsPrefix.trans ?_ isPrefix
  rw [List.map_append, List.map_append, List.map_singleton, List.map_cons, ← sameInput]
  exact (List.prefix_append_right_inj _).mpr ((List.prefix_cons_inj _).mpr List.nil_prefix)

/-- Every run of a fresh connection on these inputs has its login first exactly when the
memory of the connection does not claim that it is logged in, and every login message
that `loginMsgHandle` gets in such a run names a user of the list and has a password. -/
theorem login_first_iff (id : ℤ) (memory : Bool) (userList : Accounts)
    (inputs : List SessionInput) :
    (∀ session seen, RunsOn (.fresh id memory userList) inputs session seen →
        LoginFirst session seen) ↔
      memory = false ∧ ∀ session seen, RunsOn (.fresh id memory userList) inputs session seen →
        KnownLogins seen := by
  constructor
  · intro always
    constructor
    · cases memory with
      | false => rfl
      | true =>
          have atOnce : RunsOn (.fresh id true userList) inputs (.fresh id true userList) [] :=
            ⟨[], List.nil_prefix, rfl⟩
          refine absurd (always _ _ atOnce) (not_loginFirst_of_flag rfl ?_)
          rintro user ⟨_, _, shown, -⟩
          cases shown
    · intro session seen runs msg users called
      by_contra unknown
      obtain ⟨session', seen', runs', violated⟩ := exists_not_loginFirst runs called unknown
      exact violated (always session' seen' runs')
  · rintro ⟨rfl, known⟩ session seen runs
    have knownLogins := known session seen runs
    obtain ⟨events, -, ran⟩ := runs
    exact (flagged_run ran knownLogins).loginFirst

/-- An order from nobody is handled where the memory held a one, or after the login of
somebody whom the list does not know. -/
theorem order_before_login :
    (¬ LoginFirst (.fresh 0 true .initial) [] ∧
      ∃ last, sessions.run (.fresh 0 true .initial)
          [.recv "87|1|60|1|1|1|KKC|&".toList (0, 0) false] =
        some (last, [.handled "87|1|60|1|1|1|KKC||0|".toList])) ∧
      ∃ session seen, sessions.run (.fresh 0 false .initial)
          [.stray "1234|nobody|KKC|&".toList (0, 0) (some "nobody".toList)] =
            some (session, seen) ∧
        ¬ LoginFirst session seen ∧
        ∃ last, session.step (.recv "87|1|60|1|1|1|KKC|&".toList (0, 0) false) =
          some (last, [.handled "87|1|60|1|1|1|KKC||0|".toList]) := by
  have nobody (user : Text) : ¬ LoggedIn [] user := by
    rintro ⟨_, _, shown, -⟩
    cases shown
  constructor
  · refine ⟨not_loginFirst_of_flag rfl nobody, ?_⟩
    obtain ⟨last, outputs, finished, evaluated⟩ :=
      Machine.exists_run_of_any sessions (.fresh 0 true .initial)
        [.recv "87|1|60|1|1|1|KKC|&".toList (0, 0) false]
        (fun _ outputs => decide (outputs = [.handled "87|1|60|1|1|1|KKC||0|".toList]))
        (by decide +kernel)
    exact ⟨last, of_decide_eq_true evaluated ▸ finished⟩
  · obtain ⟨session, seen, finished, evaluated⟩ :=
      Machine.exists_run_of_any sessions (.fresh 0 false .initial)
        [.stray "1234|nobody|KKC|&".toList (0, 0) (some "nobody".toList)]
        (fun session _ => (session.step (.recv "87|1|60|1|1|1|KKC|&".toList (0, 0) false)).any
          fun result : Session × List SessionOutput =>
            decide (result.2 = [.handled "87|1|60|1|1|1|KKC||0|".toList]))
        (by decide +kernel)
    obtain ⟨⟨last, outputs⟩, stepped, shown⟩ := (Option.any_eq_true ..).mp evaluated
    obtain rfl : outputs = [.handled "87|1|60|1|1|1|KKC||0|".toList] := of_decide_eq_true shown
    refine ⟨session, seen, finished, ?_, last, stepped⟩
    have letIn : (Session.fresh 0 false .initial).step (.stray "1234|nobody|KKC|&".toList (0, 0)
        (some "nobody".toList)) = some (session, seen) :=
      (sessions.run_singleton ..).symm.trans finished
    rw [← List.nil_append seen]
    exact not_loginFirst_of_stray nobody letIn

theorem receive_of_handled (server : MariaDB) (threads : Threads) {cn : ConnRef}
    {session next : Session} {event : SessionEvent} {outputs : List SessionOutput} {msg : Text}
    (same : threads.trader.sr.connections cn = session.cn)
    (stepped : session.step event = some (next, outputs)) (handled : .handled msg ∈ outputs) :
    ∃ text received, msg = Server.addressed text session.cn ∧
      threads.step server (.receive cn text) = some (received, []) ∧
      received.trader.sr = (threads.trader.sr.route msg).1 := by
  obtain ⟨flag, text, rfl⟩ := flag_of_handled stepped handled
  let routed := threads.trader.sr.route (Server.addressed text session.cn)
  refine ⟨text, { threads with
    trader := { threads.trader with sr := routed.1 }
    asking := if routed.2 then
        threads.asking ++ [Server.addressed text session.cn] else threads.asking }, rfl, ?_, rfl⟩
  simp only [Threads.step, same, flag, if_true, routed]

end InertiaTrader
