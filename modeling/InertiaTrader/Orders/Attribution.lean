import InertiaTrader.Trader.GetOrder

/-!
# Whom an order is attributed to

`msgRecv` appends the connection id behind the text of the client, `getOrder`
looks for it in the eighth field.  The two meet only when the client sends at
most seven fields.  The user of every order is one fixed name.
-/

namespace InertiaTrader

open Foundation

/-- An iteration of `getOrder` acts for the user of a connection and answers
that connection. -/
structure Attributed (server : MariaDB) (trader next : Trader) (cn : ConnRef)
    (observations : List Observation) : Prop where
  order : ∀ od reply, .ordered od reply ∈ observations →
    od.connId = some (trader.sr.connections cn).connectionID ∧
      od.userID = (trader.sr.connections cn).username
  balance : ∀ user, .balanceTested user ∈ observations →
    user = (trader.sr.connections cn).username
  stored : ∀ odt, .insertOrderToDB odt ∈ observations →
    odt.userID = (trader.sr.connections cn).username
  row : ∀ row ∈ next.db.order.rows, row ∈ trader.db.order.rows ∨
    (server.number (trader.sr.connections cn).username).map server.float = some row.userID
  reply : ∀ receiver text, .sent receiver text ∈ observations → receiver = cn

theorem userID_of_insertOrder {server : MariaDB} {connected : Bool} {od : OrderData}
    {db : Database} {row : OrderRow}
    (membership : row ∈ (insertOrder server connected od db).2.order.rows) :
    row ∈ db.order.rows ∨ (server.number od.userID).map server.float = some row.userID := by
  rcases result : insertOrder server connected od db with ⟨stored, after⟩
  rw [result] at membership
  cases stored with
  | false => exact .inl (by rwa [insertOrder_eq_false result] at membership)
  | true =>
      obtain ⟨inserted, described, rows, -⟩ := insertOrder_eq_true result
      rw [rows, List.mem_append, List.mem_singleton] at membership
      rcases membership with earlier | rfl
      · exact .inl earlier
      · simp only [orderRow, Option.bind_eq_bind, Option.bind_eq_some_iff] at described
        obtain ⟨_, -, _, -, userID, read, _, -, _, -, returned⟩ := described
        cases returned
        exact .inr (by rw [read, Option.map_some])

theorem attributed_of_handling_iff {server : MariaDB} {address : ℕ} {connected : Bool}
    {connId : ℤ} {od : Order} {trader next : Trader} {receiver cn : ConnRef} {rest : List Text}
    {observations : List Observation}
    (found : trader.sr.getConnObject connId = some receiver)
    (member : od.connId = some connId) (user : od.userID = "0324027".toList)
    (handling : Trader.Handling server address connected connId od
      { trader with sr := { trader.sr with dq := rest } } receiver next observations) :
    Attributed server trader next cn observations ↔
      connId = (trader.sr.connections cn).connectionID ∧ receiver = cn ∧
        (trader.sr.connections cn).username = "0324027".toList := by
  constructor
  · intro attributed
    obtain ⟨od', reply, ordered, sent, sameId, sameUser⟩ := handling.answers
    obtain ⟨ownId, ownUser⟩ := attributed.order od' reply ordered
    rw [sameId, member, Option.some.injEq] at ownId
    rw [sameUser, user] at ownUser
    exact ⟨ownId, attributed.reply receiver _ sent, ownUser.symm⟩
  · rintro ⟨rfl, rfl, known⟩
    cases handling with
    | failed rejected =>
        exact ⟨by simp [member, user, known], by simp, by simp, fun _ => .inl, by simp⟩
    | insufficient username passed tested =>
        obtain ⟨rfl, -⟩ := Trader.balanceTest_eq_ok found tested
        exact ⟨by simp [member, user, known], by simp, by simp, fun _ => .inl, by simp⟩
    | accepted username passed tested =>
        obtain ⟨rfl, -⟩ := Trader.balanceTest_eq_ok found tested
        refine ⟨by simp [member, user, known], by simp, ?_, fun row membership => ?_, by simp⟩
        · simp [Trader.newOrderData, user, known]
        · have origin := userID_of_insertOrder membership
          rwa [Trader.newOrderData, Trader.acceptedOrder_userID, user, ← known] at origin

/-- The client cannot name a connection other than its own. -/
def NamesOwnConnection (text : Text) (connectionID : ℤ) : Prop :=
  ∀ connText, (split text "|".toList)[7]? = some connText → stoi connText = some connectionID

theorem namesOwnConnection_iff {text connText : Text} {cn : Connection} {connId : ℤ}
    (noNul : '\x00' ∉ text)
    (connField : (split (Server.addressed text cn) "|".toList)[7]? = some connText)
    (connRead : stoi connText = some connId) :
    NamesOwnConnection text cn.connectionID ↔ connId = cn.connectionID := by
  rw [Server.split_addressed noNul] at connField
  unfold NamesOwnConnection
  cases eighth : (split text "|".toList)[7]? with
  | some clientText =>
      rw [List.getElem?_append_left (List.getElem?_eq_some_iff.mp eighth).1, eighth,
        Option.some.injEq] at connField
      subst connField
      simp [connRead]
  | none =>
      -- The eighth field is the appended one.
      rw [List.getElem?_append_right (List.getElem?_eq_none_iff.mp eighth)] at connField
      have appended := List.mem_of_getElem? connField
      rw [List.mem_singleton] at appended
      rw [appended, stoi_toStringInt] at connRead
      split at connRead
      next => simpa using (Option.some.inj connRead).symm
      next => cases connRead

/-- An order is attributed to its sender exactly when the text names no other
connection, the sender is still connected, and is the one fixed user. -/
theorem attributed_iff (server : MariaDB) (address : ℕ) (connected : Bool)
    (trader next : Trader) (observations : List Observation) (cn : ConnRef)
    (received text : Text) (rest : List Text)
    (handed : text ∈ split received "&".toList)
    (queued : trader.sr.dq = Server.addressed text (trader.sr.connections cn) :: rest)
    (finished : trader.getOrder server address connected = .ok (next, observations)) :
    Attributed server trader next cn observations ↔
      NamesOwnConnection text (trader.sr.connections cn).connectionID ∧
        trader.sr.getConnObject (trader.sr.connections cn).connectionID = some cn ∧
        (trader.sr.connections cn).username = "0324027".toList := by
  rcases Trader.getOrder_cases finished with
    ⟨empty, -, -⟩ | ⟨msg, rest', od, connId, receiver, popped, built, member, found, handling⟩
  · simp [empty] at queued
  · rw [queued, List.cons.injEq] at popped
    obtain ⟨rfl, rfl⟩ := popped
    obtain ⟨connText, connId', connField, connRead, member'⟩ := Trader.newOrder_connId built
    obtain rfl : connId = connId' := by simpa [member] using member'
    rw [attributed_of_handling_iff found member (Trader.newOrder_userID built) handling,
      namesOwnConnection_iff (noNul_of_mem_split handed) connField connRead]
    constructor
    · rintro ⟨rfl, rfl, known⟩
      exact ⟨rfl, found, known⟩
    · rintro ⟨rfl, registered, known⟩
      exact ⟨rfl, Option.some.inj (found.symm.trans registered), known⟩

/-- Two users are connected.  The second one has sent an order whose eighth
field is the connection id of the first. -/
def impersonated : Trader :=
  .construct .literal .initial .initial 1 {
    dq := [Server.addressed "87|1|60|1|1|1|KKC|0".toList ⟨1, "00878".toList, true⟩]
    connStorage := [(0, 0), (1, 1)]
    connections := fun cn =>
      if cn = 0 then ⟨0, "0324027".toList, true⟩ else ⟨1, "00878".toList, true⟩
    userList := Server.initialUsers ++ [("00878".toList, ⟨.fin 1000000⟩)]
    quotesList := Server.initialQuotes }

theorem answers_other_connection :
    ∃ next observations, impersonated.getOrder .literal 10 true = .ok (next, observations) ∧
      ¬ Attributed .literal impersonated next 1 observations := by
  obtain ⟨⟨next, observations⟩, finished, answered⟩ :=
    exists_ok_of_any (impersonated.getOrder .literal 10 true)
      (fun result => decide (.sent 0 "1|success\n".toList ∈ result.2))
      (by decide +kernel)
  refine ⟨next, observations, finished, fun attributed => ?_⟩
  exact absurd (attributed.reply 0 _ (of_decide_eq_true answered)) (by decide)

theorem attributed_iff_impersonated :
    ∃ next observations, impersonated.getOrder .literal 10 true = .ok (next, observations) ∧
      (Attributed .literal impersonated next 1 observations ↔
        NamesOwnConnection "87|1|60|1|1|1|KKC|0".toList 1 ∧
          impersonated.sr.getConnObject 1 = some 1 ∧ "00878".toList = "0324027".toList) := by
  obtain ⟨⟨next, observations⟩, finished, -⟩ :=
    exists_ok_of_any (impersonated.getOrder .literal 10 true)
      (fun _ => true) (by decide +kernel)
  exact ⟨next, observations, finished,
    attributed_iff .literal 10 true impersonated next observations 1
      "87|1|60|1|1|1|KKC|0&".toList "87|1|60|1|1|1|KKC|0".toList [] (by decide +kernel) rfl finished⟩

end InertiaTrader
