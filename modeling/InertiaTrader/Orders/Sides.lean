import InertiaTrader.Orders.DatabaseAgreement

/-!
# The side of an order

`getOrder` compares the side field with `1` to fill the private member `side_`,
and reads it as a number into the public member `side`.  The book and the row
follow the former, and after a restart the vector follows the row.
-/

namespace InertiaTrader

open Foundation Trader

def searched (code side : Text) : Option Listing :=
  if code = "88".toList then Listing.ofSide side else some .buyside

theorem searched_cancel (side : Text) : searched "88".toList side = Listing.ofSide side :=
  if_pos rfl

theorem searched_modify (side : Text) : searched "89".toList side = some .buyside :=
  if_neg (by decide)

def confirmation (code : Text) : Text :=
  if code = "88".toList then "|cancel order success".toList
  else "|modify order success".toList

theorem confirmation_cancel : confirmation "88".toList = "|cancel order success".toList :=
  if_pos rfl

theorem confirmation_modify : confirmation "89".toList = "|modify order success".toList :=
  if_neg (by decide)

theorem ofSide_eq_some_iff {side : Text} {chosen : Listing} :
    Listing.ofSide side = some chosen ↔ side = chosen.sideText := by
  unfold Listing.ofSide
  split
  next buy =>
    subst buy
    cases chosen with
    | buyside => exact iff_of_true rfl rfl
    | sellside => exact iff_of_false nofun (by decide)
  next notBuy =>
    split
    next sell =>
      subst sell
      cases chosen with
      | buyside => exact iff_of_false nofun (by decide)
      | sellside => exact iff_of_true rfl rfl
    next notSell =>
      cases chosen with
      | buyside => exact iff_of_false nofun notBuy
      | sellside => exact iff_of_false nofun notSell

section

variable {server : MariaDB} {connected : Bool} {trader : Trader} {val : Text} {rest : List Text}
    {code nid side : Text} {orderPrice : Price} {connId : ℤ} {cn : ConnRef}

theorem searched_of_confirmed {next : Trader} {observations : List Observation}
    (queued : trader.sr.dqOrderhandle = val :: rest)
    (codeField : (split val "|".toList)[0]? = some code)
    (nidField : (split val "|".toList)[1]? = some nid)
    (sideField : (split val "|".toList)[3]? = some side)
    (finished : trader.getCancelOrder server connected = .ok (next, observations))
    (confirmed : .amended (split val "|".toList) (nid ++ confirmation code) ∈ observations) :
    ∃ chosen, searched code side = some chosen ∧
      ∃ order ∈ (trader.listing chosen).items, order.nid = nid := by
  rcases getCancelOrder_cases finished with ⟨empty, -, -⟩ | ⟨val', rest', popped, amendment⟩
  · rw [queued] at empty
    cases empty
  · rw [queued, List.cons.injEq] at popped
    obtain ⟨rfl, rfl⟩ := popped
    cases amendment with
    | cancelled chosen nid' it order cn isCancel nidField' sideField' atPosition sameNid =>
        obtain rfl : code = "88".toList := Option.some.inj (codeField.symm.trans isCancel)
        obtain rfl : side = chosen.sideText := Option.some.inj (sideField.symm.trans sideField')
        obtain rfl : nid = nid' := Option.some.inj (nidField.symm.trans nidField')
        refine ⟨chosen, ofSide_eq_some_iff.mpr rfl, order, ?_, sameNid⟩
        cases chosen <;> exact List.mem_of_getElem? atPosition
    | modified nid' price orderPrice it order cn notCancel nidField' _ _ atPosition sameNid =>
        obtain rfl : nid = nid' := Option.some.inj (nidField.symm.trans nidField')
        have isModify : code ≠ "88".toList := fun isCancel => notCancel (isCancel ▸ codeField)
        exact ⟨.buyside, if_neg isModify, order, List.mem_of_getElem? atPosition, sameNid⟩
    | refused nid' verdict cn listed nidField' =>
        obtain rfl : nid = nid' := Option.some.inj (nidField.symm.trans nidField')
        have sameVerdict : confirmation code = verdict := by simpa using confirmed
        rw [← sameVerdict, confirmation] at listed
        split at listed <;> exact absurd listed (by decide)

theorem confirmed_of_searched (queued : trader.sr.dqOrderhandle = val :: rest)
    (isCode : code = "88".toList ∨ code = "89".toList)
    (codeField : (split val "|".toList)[0]? = some code)
    (nidField : (split val "|".toList)[1]? = some nid)
    (priceField : (split val "|".toList)[2]?.bind stod = some orderPrice)
    (sideField : (split val "|".toList)[3]? = some side)
    (sender : (split val "|".toList)[7]?.bind stoi = some connId)
    (registered : trader.sr.getConnObject connId = some cn) {chosen : Listing}
    (isSearched : searched code side = some chosen)
    (holds : ∃ order ∈ (trader.listing chosen).items, order.nid = nid) :
    ∃ next observations, trader.getCancelOrder server connected = .ok (next, observations) ∧
      .amended (split val "|".toList) (nid ++ confirmation code) ∈ observations := by
  obtain ⟨it, found⟩ : ∃ it, findNid nid (trader.listing chosen).items = some it := by
    rw [← Option.isSome_iff_exists, Option.isSome_iff_ne_none, ne_eq, findNid_eq_none_iff]
    obtain ⟨order, listed, sameNid⟩ := holds
    exact fun absent => absent order listed sameNid
  obtain ⟨order, position, -, rfl⟩ := findNid_eq_some found
  have popped := getCancelOrder_popped server connected queued
  rcases isCode with rfl | rfl
  · rw [searched_cancel] at isSearched
    obtain rfl := ofSide_eq_some_iff.mp isSearched
    have message : Requests (split val "|".toList) chosen order.nid connId .cancel :=
      ⟨codeField, nidField, sideField, sender⟩
    have finished := (popped.trans (amendOrder_cancels message)).trans
      (cancelFrom_eq_ok message registered found position)
    rw [confirmation_cancel]
    exact ⟨_, _, finished, .tail _ (.head _)⟩
  · rw [searched_modify, Option.some.injEq] at isSearched
    subst isSearched
    obtain ⟨price, priceText, -⟩ := Option.bind_eq_some_iff.mp priceField
    have message : Modifies (split val "|".toList) order.nid side orderPrice connId :=
      ⟨codeField, nidField, priceField, sideField, sender⟩
    have modified := (popped.trans (amendOrder_modifies message)).trans
      (modifyOrder_found message found)
    have finished := modified.trans (modifyBuyside_eq_ok message priceText registered position)
    rw [confirmation_modify]
    exact ⟨_, _, finished, .tail _ (.head _)⟩

end

/-- A message for a side finds a loaded order. -/
def FoundBy (restart : Trader) (order : Order) (code side : Text) : Prop :=
  ∃ chosen, searched code side = some chosen ∧ order ∈ (restart.listing chosen).items

/-- The order that is loaded for a row. -/
def loadedFor (server : MariaDB) (row : OrderRow) : Order where
  nid := server.floatText row.nid
  orderPrice := .fin row.orderPrice
  side := row.side
  clientSerialNum := some row.clientSerialNum

/-- The side field, both members of the order, its book, its row, and the side of
a cancellation that finds it after a restart are one side. -/
structure SidesAgree (server : MariaDB) (sideText : Text) (order : OrderPtr) (row : OrderRow)
    (next restart : Trader) : Prop where
  denotes : stoi sideText = some 1 ∨ stoi sideText = some 2
  read : stoi sideText = some order.order.side
  member : (order.order.side_.getD .none).toInt = order.order.side
  buyBook : order ∈ next.rawBuyside.items ↔ order.order.side = 1
  sellBook : order ∈ next.rawSellside.items ↔ order.order.side = 2
  stored : row.side = order.order.side
  cancelled : ∀ side ∈ ["1".toList, "2".toList],
    FoundBy restart (loadedFor server row) "88".toList side ↔ stoi side = some order.order.side

/-- Moreover the order is found by modifications for its side, and by no others. -/
structure OneSide (server : MariaDB) (sideText : Text) (order : OrderPtr) (row : OrderRow)
    (next restart : Trader) : Prop
    extends SidesAgree server sideText order row next restart where
  modified : ∀ side ∈ ["1".toList, "2".toList],
    FoundBy restart (loadedFor server row) "89".toList side ↔ stoi side = some order.order.side

section

variable {server : MariaDB} {db : Database} {rc : RiskController} {nidSub1 : BitVec 32}
    {sr : Server} {row : OrderRow}

theorem loadedFor_mem_iff (inTable : row ∈ db.order.rows) (live : row.orderSituation = 1)
    (chosen : Listing) :
    loadedFor server row ∈ ((Trader.construct server db rc nidSub1 sr).listing chosen).items ↔
      Listing.forSide row.side = chosen := by
  rw [items_construct, List.mem_map]
  constructor
  · rintro ⟨existing, listed, same⟩
    have here := of_decide_eq_true (List.mem_filter.mp listed).2
    rwa [show existing.side = row.side from congrArg Order.side same] at here
  · intro here
    have isLive : row ∈ db.order.rows.filter fun row => row.orderSituation = 1 :=
      List.mem_filter.mpr ⟨inTable, decide_eq_true live⟩
    have existing : {
        nid := server.floatText row.nid
        orderPrice := .fin row.orderPrice
        side := row.side
        clientSerialnum := row.clientSerialNum } ∈ getExistOrder server db :=
      List.mem_map_of_mem isLive
    exact ⟨_, List.mem_filter.mpr ⟨existing, decide_eq_true here⟩, rfl⟩

theorem foundBy_cancel_iff (inTable : row ∈ db.order.rows) (live : row.orderSituation = 1)
    (side : Text) :
    FoundBy (.construct server db rc nidSub1 sr) (loadedFor server row) "88".toList side ↔
      side = (Listing.forSide row.side).sideText := by
  simp only [FoundBy, searched_cancel, ofSide_eq_some_iff, loadedFor_mem_iff inTable live]
  constructor
  · rintro ⟨chosen, rfl, rfl⟩
    rfl
  · exact fun same => ⟨_, same, rfl⟩

theorem foundBy_modify_iff (inTable : row ∈ db.order.rows) (live : row.orderSituation = 1)
    (side : Text) :
    FoundBy (.construct server db rc nidSub1 sr) (loadedFor server row) "89".toList side ↔
      Listing.forSide row.side = .buyside := by
  simp only [FoundBy, searched_modify, loadedFor_mem_iff inTable live, Option.some.injEq,
    exists_eq_left']

end

theorem orderRow_side {server : MariaDB} {od : OrderData} {row : OrderRow}
    (described : orderRow server od = some row) : row.side = od.side ∧ row.orderSituation = 1 := by
  have read : server.number (toStringInt od.side) = some (od.side : ℚ) :=
    server.number_literal _ _ (literalValue_intText od.side)
  simp only [orderRow, Option.bind_eq_bind, Option.bind_eq_some_iff] at described
  obtain ⟨_, -, _, -, _, -, side, sideRead, _, -, returned⟩ := described
  cases returned
  obtain rfl := Option.some.inj (read.symm.trans sideRead)
  exact ⟨intColumn_intCast od.side, rfl⟩

theorem acceptedOrder_sides (trader : Trader) (od : Order) :
    (trader.acceptedOrder od).side = od.side ∧ (trader.acceptedOrder od).side_ = od.side_ := by
  rw [acceptedOrder, RiskController.verify_eq]
  exact ⟨rfl, rfl⟩

theorem newOrder_sides {res : List Text} {od : Order} (built : newOrder res = .ok od) :
    ∃ text, res[3]? = some text ∧ stoi text = some od.side ∧
      od.side_ = some (if text = "1".toList then .buy else .sell) := by
  obtain ⟨_, _, _, sideText, side, _, _, _, _, _, _, sideField, sideRead, _, _, _, rfl⟩ :=
    newOrder_eq_ok_iff.mp built
  exact ⟨sideText, sideField, sideRead, rfl⟩

/-- An order that was confirmed to the client: the members that hold its side, its
row, and its book. -/
structure Accepted (trader next : Trader) (address : ℕ) (sideText : Text) (order : Order)
    (row : OrderRow) : Prop where
  read : stoi sideText = some order.side
  member : order.side_ = some (if sideText = "1".toList then .buy else .sell)
  rows : next.db.order.rows = trader.db.order.rows ++ [row]
  stored : row.side = (order.side_.getD .none).toInt
  live : row.orderSituation = 1
  books : next.toBooks = { trader.toBooks with od := some order }.orderDataInsert ⟨address, order⟩

theorem accepted_of_success {server : MariaDB} {address : ℕ} {connected : Bool}
    {trader next : Trader} {msg sideText : Text} {rest : List Text} {order : Order}
    {observations : List Observation} (queued : trader.sr.dq = msg :: rest)
    (sideField : (split msg "|".toList)[3]? = some sideText)
    (finished : trader.getOrder server address connected = .ok (next, observations))
    (success : .ordered order (order.nid ++ "|success".toList) ∈ observations) :
    ∃ row, Accepted trader next address sideText order row := by
  rcases getOrder_cases finished with
    ⟨empty, -, -⟩ | ⟨msg', rest', od, connId, cn, popped, built, member, found, handling⟩
  · simp [empty] at queued
  rw [queued, List.cons.injEq] at popped
  obtain ⟨rfl, rfl⟩ := popped
  obtain ⟨sideText', sideField', read, sideMember⟩ := newOrder_sides built
  obtain rfl : sideText = sideText' := Option.some.inj (sideField.symm.trans sideField')
  cases handling with
  | failed | insufficient =>
      simp only [List.mem_cons, reduceCtorEq, List.not_mem_nil, Observation.ordered.injEq,
        false_or, or_false] at success
      obtain ⟨rfl, sameText⟩ := success
      rw [verify_nid] at sameText
      exact absurd (List.append_cancel_left sameText) (by decide)
  | accepted username passed tested =>
      simp only [List.mem_cons, reduceCtorEq, List.not_mem_nil, Observation.ordered.injEq,
        false_or, or_false] at success
      obtain ⟨rfl, sameText⟩ := success
      have verdict := List.append_cancel_left sameText
      split at verdict
      next stored =>
        obtain ⟨row, described, rows, -⟩ := insertOrder_eq_true (Prod.ext stored rfl)
        obtain ⟨sameSide, live⟩ := orderRow_side described
        have sides := acceptedOrder_sides
          { trader with sr := { trader.sr with dq := rest } } od
        exact ⟨row, {
          read := by rw [sides.1, read]
          member := by rw [sides.2, sideMember]
          rows
          stored := sameSide
          live
          books := rfl }⟩
      next => exact absurd verdict (by decide)

theorem mem_orderDataInsert_iff (books : Books) (order : OrderPtr)
    (fresh : ∀ pointer ∈ books.rawBuyside.items ++ books.rawSellside.items,
      pointer.address ≠ order.address) :
    (order ∈ (books.orderDataInsert order).rawBuyside.items ↔ order.order.side_ = some .buy) ∧
      (order ∈ (books.orderDataInsert order).rawSellside.items ↔
        order.order.side_ ≠ some .buy) := by
  have notBuy : order ∉ books.rawBuyside.items := fun membership =>
    fresh order (List.mem_append_left _ membership) rfl
  have notSell : order ∉ books.rawSellside.items := fun membership =>
    fresh order (List.mem_append_right _ membership) rfl
  unfold Books.orderDataInsert
  split
  next buy => simp [buy, notSell]
  next sell => simp [sell, notBuy]

section

variable {server : MariaDB} {trader next : Trader} {address : ℕ} {sideText : Text}
    {order : Order} {row : OrderRow}

theorem Accepted.inTable (accepted : Accepted trader next address sideText order row) :
    row ∈ next.db.order.rows := by
  rw [accepted.rows]
  exact List.mem_append_right _ (List.mem_singleton_self row)

theorem Accepted.sides (accepted : Accepted trader next address sideText order row) :
    (sideText = "1".toList ∧ order.side_ = some .buy ∧ row.side = 1) ∨
      (sideText ≠ "1".toList ∧ order.side_ = some .sell ∧ row.side = 2) := by
  have member := accepted.member
  have stored := accepted.stored
  split at member
  next buy =>
    rw [member] at stored
    exact .inl ⟨buy, member, stored⟩
  next other =>
    rw [member] at stored
    exact .inr ⟨other, member, stored⟩

theorem Accepted.foundBy_modify_iff (accepted : Accepted trader next address sideText order row)
    (rc : RiskController) (nidSub1 : BitVec 32) (sr : Server) (side : Text) :
    FoundBy (.construct server next.db rc nidSub1 sr) (loadedFor server row) "89".toList side ↔
      sideText = "1".toList := by
  rw [InertiaTrader.foundBy_modify_iff accepted.inTable accepted.live]
  rcases accepted.sides with ⟨buy, -, stored⟩ | ⟨other, -, stored⟩
  · rw [stored]
    exact iff_of_true rfl buy
  · rw [stored]
    exact iff_of_false (by decide) other

theorem stoi_one : stoi "1".toList = some 1 := by decide +kernel

theorem stoi_two : stoi "2".toList = some 2 := by decide +kernel

/-- The two members for the side are equal for the text `1` and for the texts that
are read as 2. -/
theorem Accepted.member_iff (accepted : Accepted trader next address sideText order row) :
    (order.side_.getD .none).toInt = order.side ↔
      sideText = "1".toList ∨ stoi sideText = some 2 := by
  have read := accepted.read
  rcases accepted.sides with ⟨rfl, side, -⟩ | ⟨other, side, -⟩
  · rw [stoi_one, Option.some.injEq] at read
    rw [side, ← read]
    exact iff_of_true rfl (.inl rfl)
  · rw [side, read, Option.some.injEq, eq_comm]
    exact (or_iff_right other).symm

theorem sideText_iff (value : ℤ) (isSide : value = 1 ∨ value = 2) :
    ∀ side ∈ ["1".toList, "2".toList],
      side = (Listing.forSide value).sideText ↔ stoi side = some value := by
  rcases isSide with rfl | rfl
  · decide +kernel
  · decide +kernel

theorem Accepted.sidesAgree (accepted : Accepted trader next address sideText order row)
    (rc : RiskController) (nidSub1 : BitVec 32) (sr : Server)
    (fresh : ∀ pointer ∈ trader.rawBuyside.items ++ trader.rawSellside.items,
      pointer.address ≠ address)
    (same : (order.side_.getD .none).toInt = order.side) :
    SidesAgree server sideText ⟨address, order⟩ row next
      (.construct server next.db rc nidSub1 sr) := by
  obtain ⟨buyBook, sellBook⟩ := mem_orderDataInsert_iff
    { trader.toBooks with od := some order } ⟨address, order⟩ fresh
  rw [← accepted.books] at buyBook sellBook
  have stored : row.side = order.side := accepted.stored.trans same
  have values : (order.side = 1 ∧ order.side_ = some .buy) ∨
      (order.side = 2 ∧ order.side_ = some .sell) := by
    rcases accepted.sides with ⟨-, side, isOne⟩ | ⟨-, side, isTwo⟩
    · exact .inl ⟨stored.symm.trans isOne, side⟩
    · exact .inr ⟨stored.symm.trans isTwo, side⟩
  have isSide : order.side = 1 ∨ order.side = 2 := values.imp And.left And.left
  refine {
    denotes := accepted.read ▸ isSide.imp (congrArg some) (congrArg some)
    read := accepted.read
    member := same
    buyBook := buyBook.trans ?_
    sellBook := sellBook.trans ?_
    stored
    cancelled := fun side listed => ?_ }
  · rcases values with ⟨one, buy⟩ | ⟨two, sell⟩
    · exact iff_of_true buy one
    · exact iff_of_false (by rw [sell]; decide) (by rw [two]; decide)
  · rcases values with ⟨one, buy⟩ | ⟨two, sell⟩
    · exact iff_of_false (not_not_intro buy) (by rw [one]; decide)
    · exact iff_of_true (by rw [sell]; decide) two
  · rw [foundBy_cancel_iff accepted.inTable accepted.live, stored]
    exact sideText_iff order.side isSide side listed

end

/-- The sides of an accepted order agree, as far as cancellations go, exactly when
the text is `1` or is read as 2.  Modifications find it only when the text is `1`,
and then for every side, so no accepted order has one side. -/
theorem order_sides (server : MariaDB) (address : ℕ) (connected : Bool) (trader next : Trader)
    (observations : List Observation) (order : Order) (msg sideText : Text) (rest : List Text)
    (rc : RiskController) (nidSub1 : BitVec 32) (sr : Server)
    (queued : trader.sr.dq = msg :: rest)
    (sideField : (split msg "|".toList)[3]? = some sideText)
    (fresh : ∀ pointer ∈ trader.rawBuyside.items ++ trader.rawSellside.items,
      pointer.address ≠ address)
    (finished : trader.getOrder server address connected = .ok (next, observations))
    (success : .ordered order (order.nid ++ "|success".toList) ∈ observations) :
    ∃ row, next.db.order.rows = trader.db.order.rows ++ [row] ∧
      ¬ OneSide server sideText ⟨address, order⟩ row next
        (.construct server next.db rc nidSub1 sr) ∧
      (SidesAgree server sideText ⟨address, order⟩ row next
          (.construct server next.db rc nidSub1 sr) ↔
        sideText = "1".toList ∨ stoi sideText = some 2) ∧
      ∀ side, FoundBy (.construct server next.db rc nidSub1 sr) (loadedFor server row)
        "89".toList side ↔ sideText = "1".toList := by
  obtain ⟨row, accepted⟩ := accepted_of_success queued sideField finished success
  have modified (side : Text) : FoundBy (.construct server next.db rc nidSub1 sr)
      (loadedFor server row) "89".toList side ↔ sideText = "1".toList :=
    accepted.foundBy_modify_iff rc nidSub1 sr side
  refine ⟨row, accepted.rows, ?_, ?_, modified⟩
  · intro oneSide
    -- Both sides would have to find the order, or neither.
    have sameAnswer : stoi "1".toList = some order.side ↔ stoi "2".toList = some order.side := by
      rw [← oneSide.modified "1".toList (by decide), ← oneSide.modified "2".toList (by decide),
        modified, modified]
    have denotes := oneSide.denotes
    rw [stoi_one, stoi_two, ← oneSide.read] at sameAnswer
    rcases denotes with isOne | isTwo
    · rw [isOne] at sameAnswer
      simp at sameAnswer
    · rw [isTwo] at sameAnswer
      simp at sameAnswer
  · rw [← accepted.member_iff]
    exact ⟨fun agree => agree.member, accepted.sidesAgree rc nidSub1 sr fresh⟩

/-- The user of `init.sql` has sent an order with this side field. -/
def ordering (sideText : Text) : Trader :=
  .construct .literal .initial .initial 1 {
    dq := ["87|1|60|".toList ++ sideText ++ "|1|1|KKC|0|".toList]
    connStorage := [(0, 0)]
    connections := fun _ => ⟨0, "0324027".toList, true⟩
    userList := Server.initialUsers
    quotesList := Server.initialQuotes }

/-- The order that `getOrder` builds from it. -/
def sidedOrder (side : ℤ) (side_ : Side) : Order where
  nid := "1".toList
  orderPrice := .fin 60
  symbol := "KKC".toList
  userID := "0324027".toList
  clientSerialNum := some 4294967297
  connId := some 0
  side
  side_ := some side_
  orderstatus := some .verified

/-- A side written as `01` is 1 in one member and a sell order in the other. -/
theorem padded_side_sells :
    ∃ next observations, (ordering "01".toList).getOrder .literal 10 true =
        .ok (next, observations) ∧
      .ordered (sidedOrder 1 .sell) "1|success".toList ∈ observations ∧
      ∀ row restart, ¬ OneSide .literal "01".toList ⟨10, sidedOrder 1 .sell⟩ row next restart := by
  obtain ⟨⟨next, observations⟩, finished, success⟩ :=
    exists_ok_of_any ((ordering "01".toList).getOrder .literal 10 true)
      (fun result => decide (.ordered (sidedOrder 1 .sell) "1|success".toList ∈ result.2))
      (by decide +kernel)
  refine ⟨next, observations, finished, of_decide_eq_true success, fun row restart oneSide => ?_⟩
  exact absurd oneSide.member (by decide)

theorem order_sides_ordering :
    ∃ next observations row, (ordering "2".toList).getOrder .literal 10 true =
        .ok (next, observations) ∧
      ¬ OneSide .literal "2".toList ⟨10, sidedOrder 2 .sell⟩ row next
        (.construct .literal next.db .initial 1 (ordering "2".toList).sr) ∧
      SidesAgree .literal "2".toList ⟨10, sidedOrder 2 .sell⟩ row next
        (.construct .literal next.db .initial 1 (ordering "2".toList).sr) := by
  obtain ⟨⟨next, observations⟩, finished, success⟩ :=
    exists_ok_of_any ((ordering "2".toList).getOrder .literal 10 true)
      (fun result => decide (.ordered (sidedOrder 2 .sell) "1|success".toList ∈ result.2))
      (by decide +kernel)
  obtain ⟨row, -, notOne, agree_iff, -⟩ := order_sides .literal 10 true (ordering "2".toList) next
    observations (sidedOrder 2 .sell) "87|1|60|2|1|1|KKC|0|".toList "2".toList [] .initial 1
    (ordering "2".toList).sr (by decide +kernel) (by decide +kernel) (by decide +kernel) finished
    (of_decide_eq_true success)
  exact ⟨next, observations, row, finished, notOne, agree_iff.mpr (.inr stoi_two)⟩

end InertiaTrader
