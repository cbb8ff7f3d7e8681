import InertiaTrader.Database.MariaDB
import InertiaTrader.Server.Login

/-!
# The table `User`

`addTrader` splices the texts of the client into the INSERT without quotes, and
the columns for user and password are texts.
-/

namespace InertiaTrader

open Foundation

/-- A row of the table `User`. -/
structure UserRow where
  user : Text
  password : Text
  balance : ℚ
  bookValue : ℚ
  deriving DecidableEq

/-- `PRIMARY KEY (user)` -/
abbrev UserTable := KeyedTable UserRow UserRow.user

/-- A server together with what its `varchar(50)` columns store for a text that
stands unquoted in a list of values: digits are an integer, stored in its decimal
form; any other text is an error, and so may be a number that is too long. -/
structure UserServer extends MariaDB where
  varchar : Text → Option Text
  varchar_digits : ∀ text value, digitsValue text = some value →
    (natText value).length ≤ 50 → varchar text = some (natText value)
  varchar_only : ∀ text stored, varchar text = some stored →
    ∃ value, digitsValue text = some value ∧ stored = natText value

/-- A server that accepts decimal literals only. -/
def UserServer.literal : UserServer where
  toMariaDB := .literal
  varchar text := ((digitsValue text).map natText).filter fun stored => stored.length ≤ 50
  varchar_digits text value read short := by simp [read, short]
  varchar_only text stored kept := by
    obtain ⟨mapped, -⟩ := Option.filter_eq_some_iff.mp kept
    obtain ⟨value, read, rfl⟩ := Option.map_eq_some_iff.mp mapped
    exact ⟨value, read, rfl⟩

def userRow (server : UserServer) (ud : Account) : Option UserRow := do
  let user ← server.varchar ud.userID
  let password ← server.varchar ud.password
  let balance ← server.number (toStringDouble ud.balance)
  let bookValue ← server.number (toStringDouble ud.bookValue)
  return { user, password, balance := server.double22 balance, bookValue }

/-- `TradingDataHandler::addTrader` -/
def addTrader (server : UserServer) (connected : Bool) (ud : Account) (users : UserTable) :
    Bool × UserTable :=
  match (if connected then userRow server ud else none).bind users.insert with
  | none => (false, users)
  | some stored => (true, stored)

/-- The account that `getUserData` makes of a row. -/
def UserRow.account (row : UserRow) : Account where
  userID := row.user
  password := row.password
  balance := .fin row.balance
  bookValue := .fin row.bookValue

/-- `TradingDataHandler::getUserData` -/
def getUserData (users : UserTable) : Accounts :=
  insertAll (users.rows.map fun row => (row.user, row.account))

/-- The table as `init.sql` creates it. -/
def UserTable.initial : UserTable where
  rows := [{ user := "0324027".toList, password := "123".toList, balance := 1000000,
             bookValue := 1000000 }]
  distinct := List.nodup_singleton _

example : getUserData .initial = .initial := by decide +kernel

theorem addTrader_eq_true {server : UserServer} {connected : Bool} {ud : Account}
    {users stored : UserTable} (added : addTrader server connected ud users = (true, stored)) :
    ∃ row user password, userRow server ud = some row ∧ row.user ∉ users.rows.map UserRow.user ∧
      stored.rows = users.rows ++ [row] ∧ digitsValue ud.userID = some user ∧
      row.user = natText user ∧ digitsValue ud.password = some password ∧
      row.password = natText password := by
  unfold addTrader at added
  split at added
  next => simp at added
  next extended inserted =>
    simp only [Prod.mk.injEq, true_and] at added
    subst added
    obtain ⟨row, described, appended⟩ := Option.bind_eq_some_iff.mp inserted
    have described : userRow server ud = some row := by
      cases connected with
      | false => cases described
      | true => exact described
    obtain ⟨free, rows⟩ := KeyedTable.insert_eq_some_iff.mp appended
    have fields := described
    simp only [userRow, Option.bind_eq_bind, Option.bind_eq_some_iff] at fields
    obtain ⟨userText, userStored, passwordText, passwordStored, _, -, _, -, returned⟩ := fields
    cases returned
    obtain ⟨user, userRead, rfl⟩ := server.varchar_only _ _ userStored
    obtain ⟨password, passwordRead, rfl⟩ := server.varchar_only _ _ passwordStored
    exact ⟨_, user, password, described, free, rows, userRead, rfl, passwordRead, rfl⟩

theorem addTrader_eq_false {server : UserServer} {connected : Bool} {ud : Account}
    {users stored : UserTable} (refused : addTrader server connected ud users = (false, stored)) :
    stored = users := by
  unfold addTrader at refused
  split at refused
  next => simpa using refused.symm
  next => simp at refused

theorem lookup_getUserData_iff {users : UserTable} {user : Text} {account : Account} :
    (getUserData users).lookup user = some account ↔
      ∃ row ∈ users.rows, row.user = user ∧ row.account = account := by
  have distinct : ((users.rows.map fun row => (row.user, row.account)).map Prod.fst).Nodup := by
    rw [List.map_map]
    exact users.distinct
  rw [getUserData, lookup_insertAll_iff distinct, List.mem_map]
  simp only [Prod.mk.injEq]

theorem mem_keys_getUserData {users : UserTable} {user : Text} :
    user ∈ (getUserData users).map Prod.fst ↔ user ∈ users.rows.map UserRow.user := by
  have distinct : ((users.rows.map fun row => (row.user, row.account)).map Prod.fst).Nodup := by
    rw [List.map_map]
    exact users.distinct
  rw [getUserData, ((insertAll_perm distinct).map Prod.fst).mem_iff, List.map_map]
  rfl

end InertiaTrader
