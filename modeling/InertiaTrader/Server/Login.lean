import InertiaTrader.Server.Accept
import InertiaTrader.Server.Receive

/-!
# `Server::loginMsgHandle`

What a connection does with its messages before and after it is logged in.
-/

namespace InertiaTrader

open Foundation

/-- The members of `UserData` that only the login reads and writes. -/
structure Account extends UserData where
  userID : Text
  password : Text
  bookValue : Price
  deriving DecidableEq

abbrev Accounts := List (Text × Account)

/-- The user of `init.sql`. -/
def Accounts.initial : Accounts :=
  [("0324027".toList, {
    userID := "0324027".toList
    password := "123".toList
    balance := .fin 1000000
    bookValue := .fin 1000000 })]

def numbered (code : Text) (draw : ℕ) : Text := code ++ natText (draw % 100000) ++ "\n".toList

/-- The `1234` branch; returns the connection and the texts sent to it.  The two
draws are what `rand` returns. -/
def loginUser (draws : ℕ × ℕ) (res : List Text) (userList : Accounts) (cn : Connection) :
    Except Fault (Connection × List Text) := do
  if userList = [] then
    return (cn, [])
  else
    let username ← field res 1
    match userList.lookup username with
    | none => .error .endIterator
    | some it =>
        if it.password = (← field res 2) then
          return ({ cn with loginFlag := true, username },
            [numbered "login|".toList draws.1, numbered "1234|".toList draws.2])
        else
          return (cn, [])

/-- The `1238` branch; `added` is what `addTrader` returns.  Exceptions of
`std::stod` are caught. -/
def addUser (added : Bool) (res : List Text) (userList : Accounts) : Except Fault Accounts := do
  let userID ← field res 1
  let password ← field res 2
  match stod (← field res 3) with
  | none => return userList
  | some balance =>
      match stod (← field res 4) with
      | none => return userList
      | some bookValue =>
          if added then
            return insertNew userID { userID, password, balance, bookValue } userList
          else
            return userList

/-- `Server::loginMsgHandle` -/
def loginMsgHandle (draws : ℕ × ℕ) (added : Bool) (msg : Text) (userList : Accounts)
    (cn : Connection) : Except Fault (Accounts × Connection × List Text) := do
  let res := split msg "|".toList
  if msg.take 4 = "1234".toList then
    let (cn, sent) ← loginUser draws res userList cn
    return (userList, cn, sent)
  else if msg.take 4 = "1238".toList then
    return (← addUser added res userList, cn, [])
  else
    return (userList, cn, [])

/-- The `1234` branch where `find` has returned `end()` or a field is missing.  The program
goes on with what it reads there: the comparison fails, or lets some name in. -/
def strayLogin (draws : ℕ × ℕ) (letIn : Option Text) (msg : Text) (userList : Accounts)
    (cn : Connection) : Option (Connection × List Text) :=
  if msg.take 4 = "1234".toList then
    match loginUser draws (split msg "|".toList) userList cn, letIn with
    | .ok _, _ => none
    | .error _, none => some (cn, [])
    | .error _, some username =>
        some ({ cn with loginFlag := true, username },
          [numbered "login|".toList draws.1, numbered "1234|".toList draws.2])
  else none

/-- A login message that names a user of the list with its password. -/
structure LogsIn (userList : Accounts) (msg user : Text) : Prop where
  code : msg.take 4 = "1234".toList
  named : (split msg "|".toList)[1]? = some user
  password : ∃ account, userList.lookup user = some account ∧
    (split msg "|".toList)[2]? = some account.password

/-- One connection between two receives, and the users it can log in. -/
structure Session where
  tempStr : Text := []
  cn : Connection
  userList : Accounts

/-- What a session lets others see. -/
inductive SessionOutput where
  /-- `loginMsgHandle` is called while the users are these. -/
  | login (msg : Text) (userList : Accounts)
  /-- `msgHandler` is called. -/
  | handled (msg : Text)
  | sent (text : Text)
  deriving DecidableEq

inductive SessionEvent where
  /-- A `recv` delivers a chunk. -/
  | recv (recvStr : Text) (draws : ℕ × ℕ) (added : Bool)
  /-- A `recv` delivers a chunk, and `loginMsgHandle` reads what is not there. -/
  | stray (recvStr : Text) (draws : ℕ × ℕ) (letIn : Option Text)
  /-- Other connections have added users. -/
  | users (userList : Accounts)

def handing (draws : ℕ × ℕ) (added : Bool) : Machine Session Handed SessionOutput where
  step session
    | .message text => some (session, [.handled (Server.addressed text session.cn)])
    | .login msg =>
        match loginMsgHandle draws added msg session.userList session.cn with
        | .error _ => none
        | .ok (userList, cn, sent) =>
            some ({ session with userList, cn },
              .login msg session.userList :: sent.map .sent)

namespace Session

/-- The session of a connection that `acceptConn` has just made. -/
def fresh (id : ℤ) (memory : Bool) (userList : Accounts) : Session where
  cn := .construct id memory
  userList

/-- One iteration of `msgRecv`, with the calls it makes. -/
def step (session : Session) : SessionEvent → Option (Session × List SessionOutput)
  | .recv recvStr draws added =>
      match (msgRecv session.cn.loginFlag).step session.tempStr recvStr with
      | none => none
      | some (tempStr, handed) => (handing draws added).run { session with tempStr } handed
  | .stray recvStr draws letIn =>
      let (subStr, tempStr) := reassemble session.tempStr recvStr
      if session.cn.loginFlag then none
      else
        match strayLogin draws letIn subStr session.userList session.cn with
        | none => none
        | some (cn, sent) =>
            some ({ session with tempStr, cn }, .login subStr session.userList :: sent.map .sent)
  | .users userList => some ({ session with userList }, [])

end Session

def sessions : Machine Session SessionEvent SessionOutput := ⟨Session.step⟩

/-- Before the login a chunk is one call of `loginMsgHandle`, afterwards calls of
`msgHandler` only. -/
inductive Session.Step (session : Session) : Session → List SessionOutput → Prop where
  | users (userList : Accounts) : Step session { session with userList } []
  | handles (tempStr : Text) (texts : List Text) :
      session.cn.loginFlag = true →
      Step session { session with tempStr }
        (texts.map fun text => .handled (Server.addressed text session.cn))
  | login (tempStr msg : Text) (draws : ℕ × ℕ) (added : Bool) (userList : Accounts)
      (cn : Connection) (sent : List Text) :
      session.cn.loginFlag = false →
      loginMsgHandle draws added msg session.userList session.cn = .ok (userList, cn, sent) →
      Step session { tempStr, userList, cn } (.login msg session.userList :: sent.map .sent)
  | stray (tempStr msg : Text) (draws : ℕ × ℕ) (letIn : Option Text) (cn : Connection)
      (sent : List Text) :
      session.cn.loginFlag = false →
      strayLogin draws letIn msg session.userList session.cn = some (cn, sent) →
      Step session { session with tempStr, cn } (.login msg session.userList :: sent.map .sent)

theorem handing_messages (draws : ℕ × ℕ) (added : Bool) (session : Session)
    (texts : List Text) :
    (handing draws added).run session (texts.map .message) =
      some (session, texts.map fun text => .handled (Server.addressed text session.cn)) := by
  induction texts with
  | nil => rfl
  | cons text texts inductionHypothesis =>
      exact (Machine.run_cons_iff ..).mpr ⟨session, _, _, rfl, inductionHypothesis, rfl⟩

theorem Session.stray_step {session next : Session} {recvStr : Text} {draws : ℕ × ℕ}
    {letIn : Option Text} {outputs : List SessionOutput}
    (stepped : session.step (.stray recvStr draws letIn) = some (next, outputs)) :
    session.cn.loginFlag = false ∧ ∃ cn sent,
      strayLogin draws letIn (reassemble session.tempStr recvStr).1 session.userList session.cn =
        some (cn, sent) ∧
      next = { session with tempStr := (reassemble session.tempStr recvStr).2, cn } ∧
      outputs = .login (reassemble session.tempStr recvStr).1 session.userList ::
        sent.map .sent := by
  simp only [step] at stepped
  split at stepped
  next => cases stepped
  next flag =>
    split at stepped
    next => cases stepped
    next cn sent answered =>
      cases stepped
      exact ⟨by simpa using flag, cn, sent, answered, rfl, rfl⟩

theorem Session.step_cases {session next : Session} {event : SessionEvent}
    {outputs : List SessionOutput} (stepped : session.step event = some (next, outputs)) :
    session.Step next outputs := by
  cases event with
  | users userList =>
      cases stepped
      exact .users userList
  | recv recvStr draws added =>
      cases flag : session.cn.loginFlag with
      | true =>
          simp only [step, msgRecv, flag, if_true, handing_messages] at stepped
          cases stepped
          exact .handles _ _ flag
      | false =>
          simp only [step, msgRecv, flag, Bool.false_eq_true, if_false, Machine.run_singleton,
            handing] at stepped
          split at stepped
          next => cases stepped
          next userList cn sent answered =>
            cases stepped
            exact .login _ _ draws added userList cn sent flag answered
  | stray recvStr draws letIn =>
      obtain ⟨flag, cn, sent, answered, rfl, rfl⟩ := stray_step stepped
      exact .stray _ _ draws letIn cn sent flag answered

theorem loginUser_cases {draws : ℕ × ℕ} {msg : Text} {userList : Accounts}
    {cn cn' : Connection} {sent : List Text} (code : msg.take 4 = "1234".toList)
    (answered : loginUser draws (split msg "|".toList) userList cn = .ok (cn', sent)) :
    (∃ user, LogsIn userList msg user ∧
        cn' = { cn with loginFlag := true, username := user }) ∨
      (∀ user, ¬ LogsIn userList msg user) ∧ cn' = cn := by
  unfold loginUser at answered
  split at answered
  next empty =>
    cases answered
    refine .inr ⟨?_, rfl⟩
    rintro user ⟨-, -, account, known, -⟩
    rw [empty] at known
    cases known
  next =>
    obtain ⟨username, nameField, answered⟩ := bind_eq_ok_iff.mp answered
    rw [field_eq_ok_iff] at nameField
    split at answered
    next => cases answered
    next it known =>
      obtain ⟨password, passwordField, answered⟩ := bind_eq_ok_iff.mp answered
      rw [field_eq_ok_iff] at passwordField
      split at answered
      next same =>
        cases answered
        exact .inl ⟨username, ⟨code, nameField, it, known, same ▸ passwordField⟩, rfl⟩
      next different =>
        cases answered
        refine .inr ⟨?_, rfl⟩
        rintro user ⟨-, nameField', account, known', passwordField'⟩
        obtain rfl : username = user := Option.some.inj (nameField.symm.trans nameField')
        obtain rfl : it = account := Option.some.inj (known.symm.trans known')
        exact different (Option.some.inj (passwordField'.symm.trans passwordField))

/-- A call of `loginMsgHandle` logs the user in whom the message names with the
right password, and otherwise leaves the connection alone. -/
theorem loginMsgHandle_cases {draws : ℕ × ℕ} {added : Bool} {msg : Text}
    {userList after : Accounts} {cn cn' : Connection} {sent : List Text}
    (answered : loginMsgHandle draws added msg userList cn = .ok (after, cn', sent)) :
    (∃ user, LogsIn userList msg user ∧
        cn' = { cn with loginFlag := true, username := user }) ∨
      (∀ user, ¬ LogsIn userList msg user) ∧ cn' = cn := by
  unfold loginMsgHandle at answered
  dsimp only at answered
  split at answered
  next code =>
    obtain ⟨⟨_, _⟩, loggedIn, returned⟩ := bind_eq_ok_iff.mp answered
    cases returned
    exact loginUser_cases code loggedIn
  next otherCode =>
    refine .inr ⟨fun user logsIn => otherCode logsIn.code, ?_⟩
    split at answered
    next =>
      obtain ⟨_, -, returned⟩ := bind_eq_ok_iff.mp answered
      cases returned
      rfl
    next =>
      cases answered
      rfl

theorem strayLogin_cases {draws : ℕ × ℕ} {letIn : Option Text} {msg : Text}
    {userList : Accounts} {cn cn' : Connection} {sent : List Text}
    (answered : strayLogin draws letIn msg userList cn = some (cn', sent)) :
    msg.take 4 = "1234".toList ∧ (∀ user, ¬ LogsIn userList msg user) ∧
      ∃ fault, loginUser draws (split msg "|".toList) userList cn = .error fault ∧
        (letIn = none ∧ cn' = cn ∧ sent = [] ∨
          ∃ username, letIn = some username ∧
            cn' = { cn with loginFlag := true, username } ∧
            sent = [numbered "login|".toList draws.1, numbered "1234|".toList draws.2]) := by
  unfold strayLogin at answered
  split at answered
  next code =>
    have nobody {fault : Fault}
        (faulted : loginUser draws (split msg "|".toList) userList cn = .error fault)
        (user : Text) : ¬ LogsIn userList msg user := by
      rintro ⟨-, named, account, known, password⟩
      have nonempty : userList ≠ [] := by
        rintro rfl
        cases known
      simp only [loginUser, if_neg nonempty, field, named, known, password, bind, Except.bind,
        if_true] at faulted
      cases faulted
    split at answered
    next => cases answered
    next fault faulted =>
      cases answered
      exact ⟨code, nobody faulted, fault, faulted, .inl ⟨rfl, rfl, rfl⟩⟩
    next fault username faulted =>
      cases answered
      exact ⟨code, nobody faulted, fault, faulted, .inr ⟨username, rfl, rfl, rfl⟩⟩
  next => cases answered

end InertiaTrader
