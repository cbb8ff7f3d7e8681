import InertiaTrader.Database.TradingDataHandler
import InertiaTrader.Foundation.Tokens

/-!
# The texts of the statements

What `insertOrder`, `insertReport` and `updateOrderSituation` send to the
database.  The nid is the only text of a client that they splice in unquoted.
-/

namespace InertiaTrader

open Foundation

/-- A nonempty text of decimal digits. -/
def IsDigits (text : Text) : Prop := (digitsValue text).isSome = true

def IsLiteral (text : Text) : Prop := (literalValue text).isSome = true

instance (text : Text) : Decidable (IsDigits text) := inferInstanceAs (Decidable (_ = _))

instance (text : Text) : Decidable (IsLiteral text) := inferInstanceAs (Decidable (_ = _))

def insertOrderValue (nid orderPrice symbol userID side clientSerialnum : Text) : Text :=
  nid ++ ",".toList ++ orderPrice ++ ",".toList ++ "'".toList ++ symbol ++ "'".toList ++
    ",".toList ++ userID ++ ",".toList ++ side ++ ", '1' ,".toList ++ clientSerialnum

/-- The INSERT of `insertOrder`. -/
def insertOrderText (nid orderPrice symbol userID side clientSerialnum : Text) : Text :=
  "INSERT INTO `stock`.`Order` (`NID`, `OrderPrice`, `Symbol`, `UserID`, `Side`, ".toList ++
    "`Order_situation`, `Client_SerialNum`) VALUES (".toList ++
    insertOrderValue nid orderPrice symbol userID side clientSerialnum ++ ");".toList

def insertOrderQuery (od : OrderData) : Text :=
  insertOrderText od.nid (toStringDouble od.orderPrice) od.symbol od.userID (toStringInt od.side)
    (toStringInt od.clientSerialnum)

/-- The INSERT of `insertReport`. -/
def insertReportText (nid orderPrice execPrice side clientSerialNum : Text) : Text :=
  let value := nid ++ ",".toList ++ orderPrice ++ ",".toList ++ execPrice ++ ",".toList ++ side ++
    ",".toList ++ clientSerialNum
  "INSERT INTO `stock`.`ExecReport` (`NID`, `OrderPrice`, `ExecPrice`, `Side`, ".toList ++
    "`Client_SerialNum`) VALUES (".toList ++ value ++ ");".toList

/-- The UPDATE of `updateOrderSituation`. -/
def updateOrderSituationText (nid status : Text) : Text :=
  "UPDATE `stock`.`Order` SET `Order_situation`='".toList ++ status ++ "' WHERE `NID`=".toList ++
    nid ++ ";".toList

/-- The fixed statement for an order of this symbol, with a number in each of its
unquoted places. -/
def InsertsOneOrder (symbol query : Text) : Prop :=
  ∃ nid orderPrice userID side clientSerialnum, IsDigits nid ∧ IsLiteral orderPrice ∧
    IsLiteral userID ∧ IsLiteral side ∧ IsLiteral clientSerialnum ∧
    query = insertOrderText nid orderPrice symbol userID side clientSerialnum

def InsertsOneReport (query : Text) : Prop :=
  ∃ nid orderPrice execPrice side clientSerialNum, IsDigits nid ∧ IsLiteral orderPrice ∧
    IsLiteral execPrice ∧ IsLiteral side ∧ IsLiteral clientSerialNum ∧
    query = insertReportText nid orderPrice execPrice side clientSerialNum

def UpdatesOneNid (query : Text) : Prop :=
  ∃ nid status, IsDigits nid ∧ IsLiteral status ∧ query = updateOrderSituationText nid status

theorem comma_notMem_digits {text : Text} (digits : IsDigits text) : ',' ∉ text := by
  intro membership
  obtain ⟨value, read⟩ := Option.isSome_iff_exists.mp digits
  exact absurd (isDigit_of_mem_digits read membership) (by decide)

theorem comma_notMem_literal {text : Text} (literal : IsLiteral text) : ',' ∉ text := by
  intro membership
  obtain ⟨value, read⟩ := Option.isSome_iff_exists.mp literal
  rcases mem_literalValue read membership with sign | point | digit
  · exact absurd sign (by decide)
  · exact absurd point (by decide)
  · exact absurd digit (by decide)

theorem isLiteral_toStringInt (value : ℤ) : IsLiteral (toStringInt value) := by
  rw [IsLiteral, toStringInt, literalValue_intText]
  rfl

theorem isLiteral_toStringDouble_iff {price : Price} :
    IsLiteral (toStringDouble price) ↔ ∃ value, price = .fin value := by
  cases price with
  | fin value => exact iff_of_true (literalValue_sixDecimals_isSome value) ⟨value, rfl⟩
  | nan | negInf | posInf =>
      apply iff_of_false
      · decide +kernel
      · rintro ⟨value, equality⟩
        cases equality

theorem comma_notMem_toStringDouble (price : Price) : ',' ∉ toStringDouble price := by
  cases price with
  | fin value => exact comma_notMem_literal (isLiteral_toStringDouble_iff.mpr ⟨value, rfl⟩)
  | nan | negInf | posInf => decide

/-- With as many commas as the fixed statement has, the values stand in their
places. -/
theorem insertOrderText_inj {symbol nid nid' orderPrice orderPrice' userID userID' side side'
    clientSerialnum clientSerialnum' : Text}
    (same : insertOrderText nid orderPrice symbol userID side clientSerialnum =
      insertOrderText nid' orderPrice' symbol userID' side' clientSerialnum')
    (plain : ∀ text ∈ [orderPrice, userID, side, clientSerialnum, nid', orderPrice', userID',
      side', clientSerialnum'], ',' ∉ text) :
    nid = nid' ∧ orderPrice = orderPrice' := by
  simp only [List.forall_mem_cons, List.not_mem_nil, false_implies, implies_true, and_true,
    ← List.count_eq_zero] at plain
  obtain ⟨priceCount, userCount, sideCount, serialCount, nidCount', priceCount', userCount',
    sideCount', serialCount'⟩ := plain
  have values : insertOrderValue nid orderPrice symbol userID side clientSerialnum =
      insertOrderValue nid' orderPrice' symbol userID' side' clientSerialnum' :=
    List.append_cancel_left (List.append_cancel_right same)
  have nidCount : nid.count ',' = 0 := by
    have counted := congrArg (List.count ',') values
    simp only [insertOrderValue, List.count_append] at counted
    omega
  simp only [insertOrderValue, List.append_assoc] at values
  obtain ⟨sameNid, later⟩ := append_separator_inj (List.count_eq_zero.mp nidCount)
    (List.count_eq_zero.mp nidCount') values
  have samePrice := append_separator_inj (List.count_eq_zero.mp priceCount)
    (List.count_eq_zero.mp priceCount') later
  exact ⟨sameNid, samePrice.1⟩

/-- The INSERT for an order of a known user is the fixed one exactly when its nid
consists of digits and its price is finite. -/
theorem insertsOneOrder_iff {od : OrderData} (user : IsLiteral od.userID) :
    InsertsOneOrder od.symbol (insertOrderQuery od) ↔
      IsDigits od.nid ∧ ∃ value, od.orderPrice = .fin value := by
  constructor
  · rintro ⟨nid, orderPrice, userID, side, clientSerialnum, nidDigits, priceLiteral, userLiteral,
      sideLiteral, serialLiteral, same⟩
    obtain ⟨sameNid, samePrice⟩ := insertOrderText_inj same (by
      simp only [List.forall_mem_cons, List.not_mem_nil, false_implies, implies_true, and_true]
      exact ⟨comma_notMem_toStringDouble _, comma_notMem_literal user,
        comma_notMem_literal (isLiteral_toStringInt _),
        comma_notMem_literal (isLiteral_toStringInt _), comma_notMem_digits nidDigits,
        comma_notMem_literal priceLiteral, comma_notMem_literal userLiteral,
        comma_notMem_literal sideLiteral, comma_notMem_literal serialLiteral⟩)
    rw [← sameNid] at nidDigits
    rw [← samePrice] at priceLiteral
    exact ⟨nidDigits, isLiteral_toStringDouble_iff.mp priceLiteral⟩
  · rintro ⟨nidDigits, finite⟩
    exact ⟨_, _, _, _, _, nidDigits, isLiteral_toStringDouble_iff.mpr finite, user,
      isLiteral_toStringInt _, isLiteral_toStringInt _, rfl⟩

end InertiaTrader
