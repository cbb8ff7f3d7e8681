import InertiaTrader.Trader.GetOrder

/-!
# Acceptance of orders

`getOrder` puts an order into a raw book before it calls the database, and
leaves it there when the database refuses it.
-/

namespace InertiaTrader

open Foundation Trader

def replies (observations : List Observation) : List (ConnRef × Text) :=
  observations.filterMap fun
    | .sent cn text => some (cn, text)
    | _ => none

/-- An order message with eight fields whose connection and user are known. -/
structure WellFormed (sr : Server) (msg nid : Text) : Prop where
  length : (split msg "|".toList).length = 8
  nid : (split msg "|".toList)[1]? = some nid
  price : ∃ text price, (split msg "|".toList)[2]? = some text ∧ stod text = some price
  side : ∃ text side, (split msg "|".toList)[3]? = some text ∧ stoi text = some side
  connection : ∃ text connId cn user, (split msg "|".toList)[7]? = some text ∧
    stoi text = some connId ∧ sr.getConnObject connId = some cn ∧
    sr.userList.lookup (sr.connections cn).username = some user

def Booked (server : MariaDB) (trader next : Trader) (address : ℕ) (nid : Text) : Prop :=
  ∃ od clientSerialNum row, od.nid = nid ∧ od.clientSerialNum = some clientSerialNum ∧
    Xor (⟨address, od⟩ ∈ next.rawBuyside.items) (⟨address, od⟩ ∈ next.rawSellside.items) ∧
    orderRow server (newOrderData od clientSerialNum) = some row ∧
    next.db.order.rows = trader.db.order.rows ++ [row]

/-- One reply; after `success` the order is booked, after any other the books
and the table are as before. -/
def AllOrNothing (server : MariaDB) (trader next : Trader) (address : ℕ) (nid : Text)
    (observations : List Observation) : Prop :=
  ∃ cn verdict, replies observations = [(cn, nid ++ verdict ++ "\n".toList)] ∧
    (verdict = "|success".toList → Booked server trader next address nid) ∧
    (verdict ≠ "|success".toList →
      next.rawBuyside = trader.rawBuyside ∧ next.rawSellside = trader.rawSellside ∧
        next.db.order = trader.db.order)

/-- The database takes the order if it passes the risk control and the balance
test. -/
def DatabaseTakes (server : MariaDB) (connected : Bool) (trader : Trader) (msg : Text) : Prop :=
  ∀ od connId username, newOrder (split msg "|".toList) = .ok od → od.connId = some connId →
    trader.rc.rejects od = false → balanceTest trader.sr connId od = .ok (username, true) →
    trader.storesOrder server connected od = true

theorem getOrder_total (server : MariaDB) (address : ℕ) (connected : Bool) {trader : Trader}
    {msg nid : Text} {rest : List Text} (queued : trader.sr.dq = msg :: rest)
    (wellFormed : WellFormed trader.sr msg nid) :
    ∃ next observations,
      trader.getOrder server address connected = .ok (next, observations) := by
  obtain ⟨priceText, price, priceField, priceRead⟩ := wellFormed.price
  obtain ⟨sideText, side, sideField, sideRead⟩ := wellFormed.side
  obtain ⟨connText, connId, cn, user, connField, connRead, found, known⟩ := wellFormed.connection
  obtain ⟨symbol, symbolField⟩ : ∃ symbol, (split msg "|".toList)[6]? = some symbol :=
    ⟨_, List.getElem?_eq_getElem (by rw [wellFormed.length]; norm_num)⟩
  obtain ⟨next, observations, finished, -⟩ := (getOrder_ok_iff server address connected queued).mpr
    ⟨price, side, symbol, connId, cn, by rw [priceField, Option.bind_some, priceRead],
      by rw [sideField, Option.bind_some, sideRead], symbolField,
      by rw [connField, Option.bind_some, connRead], found, fun _ => ⟨user, known⟩⟩
  exact ⟨next, observations, finished⟩

theorem allOrNothing_of_accepted_iff {server : MariaDB} {address : ℕ} {connected : Bool}
    {od : Order} {trader : Trader} {cn : ConnRef} {username nid : Text} (sameNid : od.nid = nid)
    (fresh : ∀ pointer ∈ trader.rawBuyside.items ++ trader.rawSellside.items,
      pointer.address ≠ address) :
    AllOrNothing server trader (trader.afterAccept server address connected od) address nid
        [.balanceTested username, .inserted ⟨address, trader.acceptedOrder od⟩,
          .insertOrderToDB (newOrderData (trader.acceptedOrder od) trader.generateNid.1),
          .sent cn (trader.acceptReply server connected od ++ "\n".toList),
          .ordered (trader.acceptedOrder od) (trader.acceptReply server connected od)] ↔
      trader.storesOrder server connected od = true := by
  have acceptedNid : (trader.acceptedOrder od).nid = nid := by
    rw [acceptedOrder_nid, sameNid]
  have inBook := Books.orderDataInsert_xor
    { trader.toBooks with od := some (trader.acceptedOrder od) }
    ⟨address, trader.acceptedOrder od⟩ fresh
  cases stored : trader.storesOrder server connected od with
  | true =>
      obtain ⟨row, described, rows, -⟩ := insertOrder_eq_true (Prod.ext stored rfl)
      refine iff_of_true ⟨cn, "|success".toList, ?_, fun _ => ?_, fun other => absurd rfl other⟩ rfl
      · simp [replies, acceptReply, sameNid, stored]
      · exact ⟨trader.acceptedOrder od, trader.generateNid.1, row, acceptedNid, rfl, inBook,
          described, rows⟩
  | false =>
      refine iff_of_false ?_ Bool.false_ne_true
      rintro ⟨cn', verdict, reply, -, unchanged⟩
      have failure : "|failed, repeat nid".toList = verdict := by
        have sameText : trader.acceptReply server connected od ++ "\n".toList =
            nid ++ verdict ++ "\n".toList := congrArg Prod.snd (List.cons.inj reply).1
        rw [acceptReply, acceptedNid, stored, if_neg Bool.false_ne_true] at sameText
        exact List.append_cancel_left (List.append_cancel_right sameText)
      obtain ⟨sameBuyside, sameSellside, -⟩ := unchanged (by rw [← failure]; decide)
      -- The refused order is in a book, although no book held its address before.
      have absent : ∀ order ∈ trader.rawBuyside.items ++ trader.rawSellside.items,
          order ≠ ⟨address, trader.acceptedOrder od⟩ := by
        rintro order membership rfl
        exact fresh _ membership rfl
      rcases inBook with ⟨inBuyside, -⟩ | ⟨inSellside, -⟩
      · exact absent _ (List.mem_append_left _ (sameBuyside ▸ inBuyside)) rfl
      · exact absent _ (List.mem_append_right _ (sameSellside ▸ inSellside)) rfl

/-- A well-formed message is handled without a fault, and as a whole or not at
all exactly when the database does not refuse an order that may trade. -/
theorem acceptance_allOrNothing_iff (server : MariaDB) (address : ℕ) (connected : Bool)
    (trader : Trader) (msg nid : Text) (rest : List Text)
    (queued : trader.sr.dq = msg :: rest) (wellFormed : WellFormed trader.sr msg nid)
    (fresh : ∀ pointer ∈ trader.rawBuyside.items ++ trader.rawSellside.items,
      pointer.address ≠ address) :
    ∃ next observations,
      trader.getOrder server address connected = .ok (next, observations) ∧
        (AllOrNothing server trader next address nid observations ↔
          DatabaseTakes server connected trader msg) := by
  obtain ⟨next, observations, finished⟩ :=
    getOrder_total server address connected queued wellFormed
  refine ⟨next, observations, finished, ?_⟩
  rcases getOrder_cases finished with
    ⟨empty, -, -⟩ | ⟨msg', rest', od, connId, cn, popped, built, member, found, handling⟩
  · simp [empty] at queued
  rw [queued, List.cons.injEq] at popped
  obtain ⟨rfl, rfl⟩ := popped
  obtain rfl : od.nid = nid := by
    obtain ⟨nid', _, _, _, _, _, _, _, nidField, _, _, _, _, _, _, _, rfl⟩ :=
      newOrder_eq_ok_iff.mp built
    exact Option.some.inj (nidField.symm.trans wellFormed.nid)
  -- The order built from the message is the only one the condition speaks of.
  have takes_iff : DatabaseTakes server connected trader msg ↔
      ∀ username, trader.rc.rejects od = false →
        balanceTest trader.sr connId od = .ok (username, true) →
        trader.storesOrder server connected od = true := by
    constructor
    · exact fun takes username => takes od connId username built member
    · intro takes od' connId' username built' member'
      obtain rfl : od = od' := Except.ok.inj (built.symm.trans built')
      obtain rfl : connId = connId' := Option.some.inj (member.symm.trans member')
      exact takes username
  rw [takes_iff]
  cases handling with
  | failed rejected =>
      refine iff_of_true ⟨cn, "|failed".toList, rfl, fun success => absurd success (by decide),
        fun _ => ⟨rfl, rfl, rfl⟩⟩ ?_
      intro _ passed
      simp [rejected] at passed
  | insufficient username passed tested =>
      refine iff_of_true
        ⟨cn, "|failed, Insufficient balance".toList, rfl, fun success => absurd success (by decide),
          fun _ => ⟨rfl, rfl, rfl⟩⟩ ?_
      intro username' _ tested'
      have contradiction' := tested.symm.trans tested'
      simp at contradiction'
  | accepted username passed tested =>
      refine (allOrNothing_of_accepted_iff rfl fresh).trans ⟨fun stored _ _ _ => stored, ?_⟩
      exact fun takes => takes username passed tested

/-- The user of `init.sql` has sent an order. -/
def submitted : Trader :=
  .construct .literal .initial .initial 1 {
    dq := [Server.addressed "87|1|60|1|1|1|KKC|".toList ⟨0, "0324027".toList, true⟩]
    connStorage := [(0, 0)]
    connections := fun _ => ⟨0, "0324027".toList, true⟩
    userList := Server.initialUsers
    quotesList := Server.initialQuotes }

theorem submitted_wellFormed :
    WellFormed submitted.sr "87|1|60|1|1|1|KKC||0|".toList "1".toList where
  length := by decide +kernel
  nid := by decide +kernel
  price := ⟨"60".toList, .fin 60, by decide +kernel, by decide +kernel⟩
  side := ⟨"1".toList, 1, by decide +kernel, by decide +kernel⟩
  connection := ⟨"0".toList, 0, 0, ⟨.fin 1000000⟩, by decide +kernel, by decide +kernel,
    by decide +kernel, by decide +kernel⟩

/-- The database is not reachable: the client is told that the order failed,
but the order is in a book. -/
theorem refused_order_booked :
    WellFormed submitted.sr "87|1|60|1|1|1|KKC||0|".toList "1".toList ∧
      ∃ next observations, submitted.getOrder .literal 10 false = .ok (next, observations) ∧
        ¬ AllOrNothing .literal submitted next 10 "1".toList observations := by
  obtain ⟨⟨next, observations⟩, finished, evaluated⟩ :=
    exists_ok_of_any (submitted.getOrder .literal 10 false)
      (fun result => decide (
        replies result.2 = [(0, "1|failed, repeat nid\n".toList)] ∧
          result.1.rawBuyside.items ≠ submitted.rawBuyside.items))
      (by decide +kernel)
  obtain ⟨answered, booked⟩ := of_decide_eq_true evaluated
  refine ⟨submitted_wellFormed, next, observations, finished, ?_⟩
  rintro ⟨cn, verdict, reply, -, unchanged⟩
  have sameText : "1|failed, repeat nid\n".toList = "1".toList ++ verdict ++ "\n".toList :=
    congrArg Prod.snd (List.cons.inj (answered.symm.trans reply)).1
  by_cases success : verdict = "|success".toList
  · rw [success] at sameText
    exact absurd sameText (by decide)
  · exact booked (congrArg OrderedBag.items (unchanged success).1)

theorem acceptance_allOrNothing_iff_submitted :
    ∃ next observations, submitted.getOrder .literal 10 false = .ok (next, observations) ∧
      (AllOrNothing .literal submitted next 10 "1".toList observations ↔
        DatabaseTakes .literal false submitted "87|1|60|1|1|1|KKC||0|".toList) :=
  acceptance_allOrNothing_iff .literal 10 false submitted _ _ [] (by decide +kernel)
    submitted_wellFormed (by decide +kernel)

end InertiaTrader
