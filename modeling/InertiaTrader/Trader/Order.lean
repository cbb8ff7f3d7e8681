import InertiaTrader.Funclib.Standard

/-!
# `Order` and `RiskController`

Members that a constructor leaves unset are optional.
-/

namespace InertiaTrader

open Foundation

inductive Side where
  | none
  | buy
  | sell
  deriving DecidableEq

/-- `static_cast<int>` of a `Side`. -/
def Side.toInt : Side → ℤ
  | .none => 0
  | .buy => 1
  | .sell => 2

inductive OrderStatus where
  | verified
  | failed
  deriving DecidableEq

structure Order where
  nid : Text
  orderPrice : Price
  execPrice : Option Price := none
  symbol : Text := []
  userID : Text := []
  clientSerialNum : Option ℤ := none
  connId : Option ℤ := none
  /-- The public member `side`. -/
  side : ℤ
  /-- The private member `side_` behind `setside` and `getside`. -/
  side_ : Option Side := none
  orderstatus : Option OrderStatus := none
  deriving DecidableEq

/-- The product list and the row of `InitData`, whose third column is a number. -/
structure RiskController where
  productList : List Text
  tradeBasicData : List Text
  loaded : (tradeBasicData[2]?.bind stod).isSome

namespace RiskController

/-- What `Trader::essentialData_initialise` reads from the rows of `init.sql`. -/
def initial : RiskController where
  productList := ["KKC".toList]
  tradeBasicData :=
    ["1".toList, "20210425".toList, "60".toList, "60.5".toList, "60.5".toList]
  loaded := by decide +kernel

/-- `std::stod(tradeBasicData[2])` -/
def reference (rc : RiskController) : Price :=
  (rc.tradeBasicData[2]?.bind stod).get rc.loaded

/-- The three tests of `verify`. -/
def rejects (rc : RiskController) (order : Order) : Bool :=
  rc.reference.scale (11 / 10) < order.orderPrice ∨
    order.orderPrice < rc.reference.scale (9 / 10) ∨ order.symbol ∉ rc.productList

/-- `RiskController::verify` -/
def verify (rc : RiskController) (order : Order) : Order :=
  if rc.rejects order then
    { order with orderstatus := some .failed }
  else
    { order with orderstatus := some .verified }

theorem verify_eq (rc : RiskController) (order : Order) :
    rc.verify order =
      { order with orderstatus := some (if rc.rejects order then .failed else .verified) } := by
  unfold verify
  split <;> rfl

end RiskController

end InertiaTrader
