import InertiaTrader.Funclib.Faults
import InertiaTrader.Funclib.Split

/-!
# `Server`

Connections, users and quotes, and what `msgHandler` does with a message.  A
map is the list of its entries; a lookup that fails in `operator[]` yields the
null pointer that `operator[]` inserts, which every caller dereferences.
-/

namespace InertiaTrader

/-- The address of a `Connection` object. -/
abbrev ConnRef := ℕ

structure Connection where
  connectionID : ℤ
  username : Text
  loginFlag : Bool
  deriving DecidableEq

structure UserData where
  balance : Price
  deriving DecidableEq

structure Stock where
  priceNow : Price
  priceMax : Price
  priceMin : Price
  deriving DecidableEq

structure Server where
  dq : List Text := []
  dqOrderhandle : List Text := []
  connStorage : List (ℤ × ConnRef) := []
  connections : ConnRef → Connection
  userList : List (Text × UserData)
  quotesList : List (Text × Stock)

namespace Server

/-- The quotes that `Server::essentialData_initialise` loads. -/
def initialQuotes : List (Text × Stock) :=
  [("KKC".toList, { priceNow := .fin 60, priceMax := .fin 60, priceMin := .fin 60 })]

/-- The user of `init.sql`. -/
def initialUsers : List (Text × UserData) := [("0324027".toList, ⟨.fin 1000000⟩)]

/-- `Server::Server` with the users that `getUserData` returns. -/
def construct (userList : List (Text × UserData)) (connections : ConnRef → Connection) : Server where
  connections
  userList
  quotesList := initialQuotes

/-- `Server::getConnObject`; `none` is the null pointer. -/
def getConnObject (sr : Server) (connNum : ℤ) : Option ConnRef := sr.connStorage.lookup connNum

/-- `Server::sendToClient`: the connection object written to, and the text. -/
def sendToClient (sr : Server) (connNum : ℤ) (msg : Text) : Except Fault (ConnRef × Text) :=
  match sr.connStorage.lookup connNum with
  | none => .error .nullPointer
  | some cn => .ok (cn, msg ++ "\n".toList)

theorem sendToClient_eq_ok_iff {sr : Server} {connNum : ℤ} {msg : Text} {sent : ConnRef × Text} :
    sr.sendToClient connNum msg = .ok sent ↔
      ∃ cn, sr.getConnObject connNum = some cn ∧ sent = (cn, msg ++ "\n".toList) := by
  unfold sendToClient getConnObject
  split
  next absent => simp [absent]
  next cn present => simp [present, eq_comm]

end Server

/-- The assignments of `quoteUpdate` to one stock. -/
def Stock.quote (stock : Stock) (execPrice : Price) : Stock :=
  if execPrice < stock.priceMin then
    { stock with priceNow := execPrice, priceMin := execPrice }
  else if stock.priceMax < execPrice then
    { stock with priceNow := execPrice, priceMax := execPrice }
  else
    { stock with priceNow := execPrice }

namespace Server

/-- `Server::quoteUpdate` -/
def quoteUpdate (sr : Server) (stockNum : Text) (execPrice : Price) : Except Fault Server :=
  match sr.quotesList.lookup stockNum with
  | none => .error .nullPointer
  | some _ => .ok { sr with
      quotesList := sr.quotesList.map fun (name, stock) =>
        if name = stockNum then (name, stock.quote execPrice) else (name, stock) }

/-- The number that `msgHandler` switches on; `none` when it returns early or
its conversion throws. -/
def codeNum (msg : Text) : Option ℤ :=
  if msg.take 2 = "<3".toList then none else stoi (msg.takeWhile (· ≠ '|'))

/-- The queue a message goes to, and whether `msgHandler` then enters the body
of `case 1233`: cases 88 and 89 have no `break`. -/
def route (sr : Server) (msg : Text) : Server × Bool :=
  match codeNum msg with
  | some 87 => ({ sr with dq := sr.dq ++ [msg] }, false)
  | some 88 | some 89 => ({ sr with dqOrderhandle := sr.dqOrderhandle ++ [msg] }, true)
  | some 1233 => (sr, true)
  | _ => (sr, false)

theorem route_sr (sr : Server) (msg : Text) :
    ∃ dq dqOrderhandle, (sr.route msg).1 = { sr with dq, dqOrderhandle } := by
  unfold route
  split <;> exact ⟨_, _, rfl⟩

/-- The body of `case 1233`.  The arguments of `sendToClient` are evaluated
from right to left; only the exception of `std::stoi` is caught. -/
def priceAsking (sr : Server) (msg : Text) : Except Fault (List (ConnRef × Text)) := do
  let temp := split msg "|".toList
  match sr.quotesList.lookup (← field temp 1) with
  | none => .error .nullPointer
  | some stock =>
      match stoi (← field temp 2) with
      | none => return []
      | some connNum =>
          let reply := "1233|".toList ++ toStringDouble stock.priceNow ++ "|&".toList
          return [← sr.sendToClient connNum reply]

/-- `Server::msgHandler` -/
def msgHandler (sr : Server) (msg : Text) : Except Fault (Server × List (ConnRef × Text)) := do
  let (routed, asks) := sr.route msg
  if asks then
    return (routed, ← routed.priceAsking msg)
  else
    return (routed, [])

/-- What `msgRecv` makes of a message before it calls `msgHandler`. -/
def addressed (text : Text) (cn : Connection) : Text :=
  text ++ "|".toList ++ toStringInt cn.connectionID ++ "|".toList

theorem split_addressed {text : Text} (noNul : '\x00' ∉ text) (cn : Connection) :
    split (addressed text cn) "|".toList =
      split text "|".toList ++ [toStringInt cn.connectionID] := by
  have plain : ∀ symbol : Char, symbol ≠ '-' → symbol.isDigit = false →
      symbol ∉ toStringInt cn.connectionID := by
    intro symbol noSign noDigit membership
    rcases mem_toStringInt membership with sign | digit
    · exact noSign sign
    · rw [noDigit] at digit
      cases digit
  have idNoNul := plain '\x00' (by decide) (by decide)
  have idPlain := plain '|' (by decide) (by decide)
  have layout : addressed text cn = text ++ '|' :: (toStringInt cn.connectionID ++ ['|']) := by
    simp [addressed]
  have delimiter : "|".toList = ['|'] := rfl
  rw [layout, delimiter, split_append_delimiter noNul (by simp [idNoNul]) (by decide),
    split_append_delimiter idNoNul (by simp) (by decide),
    split_plain (toStringInt_ne_nil _) idNoNul (by decide) idPlain]
  rfl

end Server

end InertiaTrader
