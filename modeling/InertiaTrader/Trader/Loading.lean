import InertiaTrader.Trader.GetCancelOrder

/-!
# Loaded orders

What `loadExistOrder` puts into the two vectors.
-/

namespace InertiaTrader

namespace Trader

def Listing.forSide (side : ℤ) : Listing := if side = 1 then .buyside else .sellside

def loadedOrder (existing : OrderData) : Order where
  nid := existing.nid
  orderPrice := existing.orderPrice
  side := existing.side
  clientSerialNum := some existing.clientSerialnum

theorem listing_loadOrder (trader : Trader) (existing : OrderData) (chosen : Listing) :
    (trader.loadOrder existing).listing chosen =
      if Listing.forSide existing.side = chosen then
        (trader.listing chosen).pushBack (loadedOrder existing)
      else trader.listing chosen := by
  unfold loadOrder Listing.forSide
  dsimp only
  split
  next => cases chosen <;> rfl
  next => cases chosen <;> rfl

theorem items_loadOrders (existing : List OrderData) (trader : Trader) (chosen : Listing) :
    ((existing.foldl loadOrder trader).listing chosen).items =
      (trader.listing chosen).items ++
        (existing.filter fun od => Listing.forSide od.side = chosen).map loadedOrder := by
  induction existing generalizing trader with
  | nil => simp
  | cons od existing inductionHypothesis =>
      rw [List.foldl_cons, inductionHypothesis, listing_loadOrder]
      by_cases here : Listing.forSide od.side = chosen
      · simp [here, OrderVector.pushBack]
      · simp [here]

theorem allocated_loadOrders (existing : List OrderData) {trader : Trader}
    (before : ∀ chosen, (trader.listing chosen).items ≠ [] →
      (trader.listing chosen).allocated = true) (chosen : Listing) :
    ((existing.foldl loadOrder trader).listing chosen).items ≠ [] →
      ((existing.foldl loadOrder trader).listing chosen).allocated = true := by
  induction existing generalizing trader with
  | nil => exact before chosen
  | cons od existing inductionHypothesis =>
      apply inductionHypothesis
      intro other
      rw [listing_loadOrder]
      split
      next => exact fun _ => rfl
      next => exact before other

section

variable (server : MariaDB) (db : Database) (rc : RiskController) (nidSub1 : BitVec 32)
    (sr : Server) (chosen : Listing)

theorem items_construct :
    ((construct server db rc nidSub1 sr).listing chosen).items =
      ((getExistOrder server db).filter
        fun od => Listing.forSide od.side = chosen).map loadedOrder := by
  have empty : (({ Books.empty with sr, rc, db, nidSub1 } : Trader).listing chosen).items = [] := by
    cases chosen <;> rfl
  have loaded := items_loadOrders (getExistOrder server db)
    { Books.empty with sr, rc, db, nidSub1 } chosen
  rw [empty, List.nil_append] at loaded
  exact loaded

theorem allocated_construct :
    ((construct server db rc nidSub1 sr).listing chosen).items ≠ [] →
      ((construct server db rc nidSub1 sr).listing chosen).allocated = true := by
  apply @allocated_loadOrders (getExistOrder server db) { Books.empty with sr, rc, db, nidSub1 }
  intro other nonempty
  cases other <;> exact absurd rfl nonempty

theorem construct_db : (construct server db rc nidSub1 sr).db = db := by
  obtain ⟨buyside, sellside, equality⟩ := construct_eq server db rc nidSub1 sr
  rw [equality]

end

end Trader

end InertiaTrader
