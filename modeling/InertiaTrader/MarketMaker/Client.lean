import InertiaTrader.Server.Basic

/-!
# `Client`

The market maker: what it remembers of its orders, and what `msgHandler` makes of
a text that `recvMsg` hands to it.
-/

namespace InertiaTrader

/-- The members that the threads of the market maker share.  `priceNow` has no
initialiser. -/
structure Client where
  priceNow : Option Price := none
  orderNum : ℤ := 0
  orderLimitation : ℤ := 10
  loginflag : Bool := false
  inventoryLimit : ℤ := 10
  inventoryNum : ℤ := 0
  deriving DecidableEq

namespace Client

/-- The branch `default` of `msgHandler`. -/
def countAnswer (answer : Text) (client : Client) : Client :=
  if answer = "success".toList then
    { client with orderNum := client.orderNum + 1 }
  else if answer = "exec".toList then
    { client with inventoryNum := client.inventoryNum + 1 }
  else client

/-- `Client::msgHandler`.  The exceptions of `std::stoi` and `std::stod` are
caught, an index past the end of `temp` is not. -/
def msgHandler (client : Client) (msg : Text) : Except Fault Client := do
  if msg.take 2 = "<3".toList then
    return client
  else
    let temp := split msg "|".toList
    match stoi (← field temp 0) with
    | none => return client
    | some 1233 =>
        match stod (← field temp 1) with
        | none => return client
        | some price => return { client with priceNow := some price }
    | some 1234 => return { client with loginflag := true }
    | some _ => return client.countAnswer (← field temp 1)

/-- The effect of a text whose first field is read as `number` and whose second
field is `answer`. -/
def updated (number : Option ℤ) (answer : Text) (client : Client) : Client :=
  match number with
  | none => client
  | some 1233 =>
      match stod answer with
      | none => client
      | some price => { client with priceNow := some price }
  | some 1234 => { client with loginflag := true }
  | some _ => client.countAnswer answer

theorem msgHandler_of_fields {msg code answer : Text} {rest : List Text}
    (noHeartbeat : msg.take 2 ≠ "<3".toList)
    (fields : split msg "|".toList = code :: answer :: rest) (client : Client) :
    client.msgHandler msg = .ok (client.updated (stoi code) answer) := by
  have first : field (code :: answer :: rest) 0 = .ok code := rfl
  have second : field (code :: answer :: rest) 1 = .ok answer := rfl
  simp only [msgHandler, if_neg noHeartbeat, fields, first, second, updated, bind, Except.bind]
  split
  next => rfl
  next => split <;> rfl
  next => rfl
  next => rfl

theorem updated_of_order {number : ℤ} (noQuote : number ≠ 1233) (noLogin : number ≠ 1234)
    (answer : Text) (client : Client) :
    client.updated (some number) answer = client.countAnswer answer := by
  unfold updated
  split
  next unread => cases unread
  next quote =>
    cases quote
    exact absurd rfl noQuote
  next login =>
    cases login
    exact absurd rfl noLogin
  next => rfl

theorem updated_of_quote {answer : Text} {price : Price} (quoted : stod answer = some price)
    (client : Client) :
    client.updated (some 1233) answer = { client with priceNow := some price } := by
  simp only [updated, quoted]

theorem updated_of_unreadQuote {answer : Text} (unread : stod answer = none) (client : Client) :
    client.updated (some 1233) answer = client := by
  simp only [updated, unread]

theorem exists_updated_of_msgHandler {client next : Client} {msg : Text}
    (handled : client.msgHandler msg = .ok next) :
    ∃ number answer, next = client.updated number answer := by
  simp only [msgHandler, bind, Except.bind] at handled
  split at handled
  next =>
    cases handled
    exact ⟨none, [], rfl⟩
  next =>
    split at handled
    next => cases handled
    next code first =>
      split at handled
      next =>
        cases handled
        exact ⟨none, [], rfl⟩
      next =>
        split at handled
        next => cases handled
        next answer second =>
          split at handled
          next unread =>
            cases handled
            exact ⟨some 1233, answer, (updated_of_unreadQuote unread client).symm⟩
          next price quoted =>
            cases handled
            exact ⟨some 1233, answer, (updated_of_quote quoted client).symm⟩
      next =>
        cases handled
        exact ⟨some 1234, [], rfl⟩
      next number noQuote noLogin read =>
        split at handled
        next => cases handled
        next answer second =>
          cases handled
          exact ⟨some number, answer, (updated_of_order noQuote noLogin answer client).symm⟩

end Client

end InertiaTrader
