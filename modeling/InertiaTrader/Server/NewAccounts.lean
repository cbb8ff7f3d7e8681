import InertiaTrader.Database.UserTable

/-!
# New accounts

`loginMsgHandle` keeps the texts of a `1238` message in `userList`, and
`addTrader` puts them into the database, which reads them as numbers.  After a
restart only the database is left.
-/

namespace InertiaTrader

open Foundation

structure UserState where
  userList : Accounts
  users : UserTable

inductive UserEvent where
  /-- `loginMsgHandle` is called on a connection. -/
  | loginMsgHandle (draws : ℕ × ℕ) (connected : Bool) (msg : Text) (cn : Connection)
  /-- The process is started again. -/
  | restart

def newAccount (msg : Text) : Option Account :=
  if msg.take 4 = "1238".toList then
    let res := split msg "|".toList
    match res[1]?, res[2]?, res[3]?.bind stod, res[4]?.bind stod with
    | some userID, some password, some balance, some bookValue =>
        some { userID, password, balance, bookValue }
    | _, _, _, _ => none
  else none

namespace UserState

def addTraderFor (server : UserServer) (connected : Bool) (msg : Text) (users : UserTable) :
    Bool × UserTable :=
  match newAccount msg with
  | none => (false, users)
  | some ud => addTrader server connected ud users

/-- The output is the account for which `addTrader` has returned true. -/
def step (server : UserServer) (state : UserState) :
    UserEvent → Option (UserState × List Account)
  | .loginMsgHandle draws connected msg cn =>
      let (added, users) := addTraderFor server connected msg state.users
      match InertiaTrader.loginMsgHandle draws added msg state.userList cn with
      | .error _ => none
      | .ok (userList, _, _) =>
          some ({ userList, users }, if added then (newAccount msg).toList else [])
  | .restart => some ({ state with userList := getUserData state.users }, [])

/-- The process that was started on a user table. -/
def start (users : UserTable) : UserState := { userList := getUserData users, users }

end UserState

def userStates (server : UserServer) : Machine UserState UserEvent Account :=
  ⟨UserState.step server⟩

structure LoginOf (ud : Account) (msg : Text) : Prop where
  code : msg.take 4 = "1234".toList
  named : (split msg "|".toList)[1]? = some ud.userID
  password : (split msg "|".toList)[2]? = some ud.password

/-- The account is new, the table read back has it with its name and password,
and whatever logs it in now does so after a restart. -/
structure AccountKept (state next : UserState) (ud : Account) : Prop where
  new : ud.userID ∉ state.userList.map Prod.fst
  stored : ∃ account, (getUserData next.users).lookup ud.userID = some account ∧
    account.userID = ud.userID ∧ account.password = ud.password
  login : ∀ msg, LoginOf ud msg → LogsIn next.userList msg ud.userID ∧
    LogsIn (getUserData next.users) msg ud.userID

/-- The account that the step adds survives. -/
def KeepsAccounts (server : UserServer) (state : UserState) (event : UserEvent) : Prop :=
  ∀ next added, state.step server event = some (next, added) →
    ∀ ud ∈ added, AccountKept state next ud

def IsCanonical (text : Text) : Prop := ∃ value, text = natText value

/-- When `addTrader` accepts the account of a message, its name and its password
are numerals without leading zeros. -/
def AddsCanonical (server : UserServer) (state : UserState) : UserEvent → Prop
  | .loginMsgHandle _ connected msg _ => ∀ ud users, newAccount msg = some ud →
      addTrader server connected ud state.users = (true, users) →
      IsCanonical ud.userID ∧ IsCanonical ud.password
  | .restart => True

theorem newAccount_eq_some {msg : Text} {ud : Account} (described : newAccount msg = some ud) :
    msg.take 4 = "1238".toList ∧ (split msg "|".toList)[1]? = some ud.userID ∧
      (split msg "|".toList)[2]? = some ud.password ∧
      (split msg "|".toList)[3]?.bind stod = some ud.balance ∧
      (split msg "|".toList)[4]?.bind stod = some ud.bookValue := by
  unfold newAccount at described
  split at described
  next code =>
    dsimp only at described
    split at described
    next user password balance bookValue =>
      cases described
      exact ⟨code, user, password, balance, bookValue⟩
    next => cases described
  next => cases described

theorem loginMsgHandle_of_newAccount (draws : ℕ × ℕ) (added : Bool) {msg : Text} {ud : Account}
    (userList : Accounts) (cn : Connection) (described : newAccount msg = some ud) :
    loginMsgHandle draws added msg userList cn =
      .ok (if added then insertNew ud.userID ud userList else userList, cn, []) := by
  obtain ⟨code, user, password, balance, bookValue⟩ := newAccount_eq_some described
  obtain ⟨balanceText, balanceField, balanceRead⟩ := Option.bind_eq_some_iff.mp balance
  obtain ⟨valueText, valueField, valueRead⟩ := Option.bind_eq_some_iff.mp bookValue
  simp only [loginMsgHandle, code, if_true, addUser, field_eq_ok_iff.mpr user,
    field_eq_ok_iff.mpr password, field_eq_ok_iff.mpr balanceField,
    field_eq_ok_iff.mpr valueField, balanceRead, valueRead, bind, Except.bind]
  cases added <;> rfl

theorem loginMsgHandle_not_added {draws : ℕ × ℕ} {msg : Text} {userList after : Accounts}
    {cn cn' : Connection} {sent : List Text}
    (answered : loginMsgHandle draws false msg userList cn = .ok (after, cn', sent)) :
    after = userList := by
  unfold loginMsgHandle at answered
  dsimp only at answered
  split at answered
  next =>
    obtain ⟨_, -, returned⟩ := bind_eq_ok_iff.mp answered
    cases returned
    rfl
  next =>
    split at answered
    next =>
      obtain ⟨added, ran, returned⟩ := bind_eq_ok_iff.mp answered
      cases returned
      obtain ⟨_, -, ran⟩ := bind_eq_ok_iff.mp ran
      obtain ⟨_, -, ran⟩ := bind_eq_ok_iff.mp ran
      obtain ⟨_, -, ran⟩ := bind_eq_ok_iff.mp ran
      split at ran
      next =>
        cases ran
        rfl
      next =>
        obtain ⟨_, -, ran⟩ := bind_eq_ok_iff.mp ran
        split at ran <;> cases ran <;> rfl
    next =>
      cases answered
      rfl

namespace UserState

/-- Memory and database before anything is added or read again: the names agree
up to leading zeros, and every name with leading zeros in the table is in memory. -/
structure Backed (state : UserState) : Prop where
  keys : (state.userList.map Prod.fst).Nodup
  listed : ∀ user ∈ state.users.rows.map UserRow.user,
    IsCanonical user ∨ user ∈ state.userList.map Prod.fst
  backed : ∀ user ∈ state.userList.map Prod.fst, user ∈ state.users.rows.map UserRow.user ∨
    ∃ value, digitsValue user = some value ∧
      natText value ∈ state.users.rows.map UserRow.user

theorem backed_getUserData (users : UserTable) :
    Backed { userList := getUserData users, users } := by
  refine ⟨?_, ?_, ?_⟩
  · apply insertAll_nodup
    rw [List.map_map]
    exact users.distinct
  · intro user listed
    exact .inr (mem_keys_getUserData.mpr listed)
  · intro user listed
    exact .inl (mem_keys_getUserData.mp listed)

/-- A step adds the account of its message, or leaves memory and table alone, or
reads the table. -/
theorem step_cases {server : UserServer} {state next : UserState} {event : UserEvent}
    {added : List Account} (stepped : state.step server event = some (next, added)) :
    (next = state ∧ added = []) ∨
      (next = { state with userList := getUserData state.users } ∧ added = []) ∨
      ∃ draws connected msg cn ud users,
        event = .loginMsgHandle draws connected msg cn ∧ newAccount msg = some ud ∧
        addTrader server connected ud state.users = (true, users) ∧
        next = { userList := insertNew ud.userID ud state.userList, users } ∧ added = [ud] := by
  cases event with
  | restart =>
      cases stepped
      exact .inr (.inl ⟨rfl, rfl⟩)
  | loginMsgHandle draws connected msg cn =>
      simp only [step, addTraderFor] at stepped
      cases described : newAccount msg with
      | none =>
          simp only [described] at stepped
          split at stepped
          next => cases stepped
          next userList _ _ answered =>
            cases stepped
            rw [loginMsgHandle_not_added answered]
            exact .inl ⟨rfl, rfl⟩
      | some ud =>
          simp only [described, loginMsgHandle_of_newAccount draws _ _ cn described] at stepped
          rcases outcome : addTrader server connected ud state.users with ⟨isAdded, users⟩
          simp only [outcome] at stepped
          cases isAdded with
          | false =>
              cases stepped
              rw [addTrader_eq_false outcome]
              exact .inl ⟨rfl, rfl⟩
          | true =>
              cases stepped
              exact .inr (.inr ⟨draws, connected, msg, cn, ud, users, rfl, described, outcome,
                rfl, rfl⟩)

section

variable {server : UserServer} {state next : UserState} {connected : Bool} {ud : Account}
  {users : UserTable}

theorem backed_add (backed : state.Backed)
    (added : addTrader server connected ud state.users = (true, users)) :
    Backed { userList := insertNew ud.userID ud state.userList, users } := by
  obtain ⟨row, user, password, -, -, rows, userRead, userStored, -, -⟩ :=
    addTrader_eq_true added
  have keys : users.rows.map UserRow.user =
      state.users.rows.map UserRow.user ++ [natText user] := by
    rw [rows, List.map_append, List.map_singleton, userStored]
  refine ⟨insertNew_nodup ud backed.keys, ?_, ?_⟩
  · intro name listed
    rw [keys, List.mem_append, List.mem_singleton] at listed
    rcases listed with earlier | rfl
    · rcases backed.listed name earlier with canonical | known
      · exact .inl canonical
      · exact .inr (mem_keys_insertNew.mpr (.inr known))
    · exact .inl ⟨user, rfl⟩
  · intro name listed
    simp only [keys, List.mem_append, List.mem_singleton]
    rcases mem_keys_insertNew.mp listed with rfl | earlier
    · exact .inr ⟨user, userRead, .inr rfl⟩
    · rcases backed.backed name earlier with stored | ⟨value, read, stored⟩
      · exact .inl (.inl stored)
      · exact .inr ⟨value, read, .inl stored⟩

theorem backed_step (backed : state.Backed) {event : UserEvent} {added : List Account}
    (stepped : state.step server event = some (next, added)) : next.Backed := by
  rcases step_cases stepped with
    ⟨rfl, -⟩ | ⟨rfl, -⟩ | ⟨_, _, _, _, ud, users, -, -, outcome, rfl, -⟩
  · exact backed
  · exact backed_getUserData state.users
  · exact backed_add backed outcome

theorem accountKept_iff (backed : state.Backed)
    (added : addTrader server connected ud state.users = (true, users)) :
    AccountKept state { userList := insertNew ud.userID ud state.userList, users } ud ↔
      IsCanonical ud.userID ∧ IsCanonical ud.password := by
  obtain ⟨row, user, password, -, free, rows, userRead, userStored, passwordRead,
    passwordStored⟩ := addTrader_eq_true added
  constructor
  · intro kept
    obtain ⟨account, found, -, samePassword⟩ := kept.stored
    obtain ⟨found', listed, sameUser, rfl⟩ := lookup_getUserData_iff.mp found
    rw [rows, List.mem_append, List.mem_singleton] at listed
    rcases listed with earlier | rfl
    · -- A row that was there before has a canonical name, for which there is no second row.
      have known : ud.userID ∈ state.users.rows.map UserRow.user :=
        sameUser ▸ List.mem_map_of_mem earlier
      obtain ⟨value, canonical⟩ := (backed.listed _ known).resolve_right kept.new
      rw [canonical, digitsValue_natText, Option.some.injEq] at userRead
      rw [canonical, userRead, ← userStored] at known
      exact absurd known free
    · exact ⟨⟨user, sameUser.symm.trans userStored⟩,
        ⟨password, samePassword.symm.trans passwordStored⟩⟩
  · rintro ⟨⟨user', sameUser⟩, ⟨password', samePassword⟩⟩
    rw [sameUser, digitsValue_natText, Option.some.injEq] at userRead
    rw [samePassword, digitsValue_natText, Option.some.injEq] at passwordRead
    rw [userRead, ← userStored] at sameUser
    rw [passwordRead, ← passwordStored] at samePassword
    have new : ud.userID ∉ state.userList.map Prod.fst := by
      intro known
      rw [sameUser] at known
      rcases backed.backed row.user known with stored | ⟨value, read, stored⟩
      · exact free stored
      · rw [userStored, digitsValue_natText, Option.some.injEq] at read
        rw [← read, ← userStored] at stored
        exact free stored
    have inMemory := lookup_insertNew ud backed.keys new
    have inTable : (getUserData users).lookup ud.userID = some row.account :=
      lookup_getUserData_iff.mpr ⟨row, by rw [rows]; simp, sameUser.symm, rfl⟩
    refine ⟨new, ⟨row.account, inTable, sameUser.symm, samePassword.symm⟩, ?_⟩
    intro msg login
    refine ⟨⟨login.code, login.named, ud, inMemory, login.password⟩,
      ⟨login.code, login.named, row.account, inTable, ?_⟩⟩
    rw [login.password, samePassword]
    rfl

theorem keepsAccounts_iff (backed : state.Backed) (event : UserEvent) :
    KeepsAccounts server state event ↔ AddsCanonical server state event := by
  constructor
  · intro kept
    cases event with
    | restart => trivial
    | loginMsgHandle draws connected msg cn =>
        intro ud users described added
        have stepped : state.step server (.loginMsgHandle draws connected msg cn) =
            some ({ userList := insertNew ud.userID ud state.userList, users }, [ud]) := by
          simp only [step, addTraderFor, described, added,
            loginMsgHandle_of_newAccount draws true state.userList cn described]
          rfl
        exact (accountKept_iff backed added).mp (kept _ _ stepped ud List.mem_cons_self)
  · intro canonical next outputs stepped ud listed
    rcases step_cases stepped with
      ⟨-, rfl⟩ | ⟨-, rfl⟩ | ⟨_, _, _, _, ud', users, rfl, described, added, rfl, rfl⟩
    · cases listed
    · cases listed
    · obtain rfl : ud = ud' := List.mem_singleton.mp listed
      exact (accountKept_iff backed added).mpr (canonical ud users described added)

end

end UserState

/-- Every account that is added survives a restart exactly when its name and its
password are numerals without leading zeros. -/
theorem accounts_survive_iff (server : UserServer) (users : UserTable)
    (events : List UserEvent) :
    (userStates server).Along (KeepsAccounts server) (.start users) events ↔
      (userStates server).Along (AddsCanonical server) (.start users) events := by
  apply (userStates server).along_congr_of_invariant UserState.Backed
  · intro state event next added backed _ stepped
    exact UserState.backed_step backed stepped
  · intro state event backed
    exact UserState.keepsAccounts_iff backed event
  · exact UserState.backed_getUserData users

/-- The message of the documentation that adds an account. -/
def documentedMessage : UserEvent :=
  .loginMsgHandle (0, 0) true "1238|00878|123|1000000|1000000|&".toList (.construct 5 false)

/-- The account is in memory, but not in what a restart reads. -/
theorem documented_account_lost :
    ∃ next added, (userStates .literal).run (.start .initial) [documentedMessage] =
        some (next, added) ∧
      (next.userList.map Prod.fst = ["00878".toList, "0324027".toList]) ∧
      ((getUserData next.users).map Prod.fst = ["0324027".toList, "878".toList]) ∧
      ¬ KeepsAccounts .literal (.start .initial) documentedMessage := by
  obtain ⟨next, added, finished, evaluated⟩ :=
    Machine.exists_run_of_any (userStates .literal) (.start .initial) [documentedMessage]
      (fun next added =>
        decide (next.userList.map Prod.fst = ["00878".toList, "0324027".toList]) &&
        decide ((getUserData next.users).map Prod.fst = ["0324027".toList, "878".toList]) &&
        decide (added.map (fun ud => ud.userID) = ["00878".toList]))
      (by decide +kernel)
  simp only [Bool.and_eq_true, decide_eq_true_eq] at evaluated
  obtain ⟨⟨inMemory, inTable⟩, named⟩ := evaluated
  refine ⟨next, added, finished, inMemory, inTable, ?_⟩
  intro kept
  rw [Machine.run_singleton] at finished
  obtain ⟨ud, listed, user⟩ : ∃ ud ∈ added, ud.userID = "00878".toList := by
    rw [← List.mem_map, named]
    exact List.mem_singleton_self _
  obtain ⟨account, found, -⟩ := (kept next added finished ud listed).stored
  rw [user] at found
  obtain ⟨row, stored, sameUser, -⟩ := lookup_getUserData_iff.mp found
  have key := mem_keys_getUserData.mpr (List.mem_map_of_mem stored)
  rw [sameUser, inTable] at key
  exact absurd key (by decide)

end InertiaTrader
