import InertiaTrader.Orders.HeldOrders

/-!
# The risk band

`verify` rejects by negated comparisons, so a price that is no number passes it.
The balance test compares the other way round and stops what `verify` lets
through.
-/

namespace InertiaTrader

open Foundation

def InBand (ref : ℚ) (price : Price) : Prop :=
  ∃ value, price = .fin value ∧ ref * (9 / 10) ≤ value ∧ value ≤ ref * (11 / 10)

structure Banded (rc : RiskController) (ref : ℚ) (order : Order) : Prop where
  symbol : order.symbol ∈ rc.productList
  orderPrice : InBand ref order.orderPrice
  execPrice : ∀ price ∈ order.execPrice, InBand ref price

def Books.quotedPrice (books : Books) : Option Price :=
  match books.matchup with
  | .ok (_, some (_, ods)) => some ods.order.orderPrice
  | _ => none

/-- Everything that can trade, has traded or is about to trade is in the band. -/
structure WithinRiskBand (rc : RiskController) (ref : ℚ) (threads : Threads)
    (observations : List Observation) : Prop where
  resting : ∀ order ∈ threads.trader.rawBuyside.items ++ threads.trader.rawSellside.items,
    Banded rc ref order.order
  listed : ∀ order ∈ threads.trader.reportList, Banded rc ref order.order
  executed : ∀ order ∈ executedIn observations, Banded rc ref order.order
  quoted : ∀ price ∈ threads.trader.toBooks.quotedPrice, InBand ref price

section

variable {rc : RiskController} {ref : ℚ}

theorem inBand_of_passes (finite : rc.reference = .fin ref) {order : Order} {balance : Price}
    (verified : rc.rejects order = false)
    (sufficient : order.orderPrice.scale 1000 < balance) :
    order.symbol ∈ rc.productList ∧ InBand ref order.orderPrice := by
  simp only [RiskController.rejects, finite, ExtendedRat.scale, decide_eq_false_iff_not,
    not_or, not_not] at verified
  obtain ⟨notAbove, notBelow, product⟩ := verified
  refine ⟨product, ?_⟩
  cases price : order.orderPrice with
  | nan =>
      rw [price] at sufficient
      exact sufficient.elim
  | negInf =>
      rw [price] at notBelow
      exact absurd trivial notBelow
  | posInf =>
      rw [price] at notAbove
      exact absurd trivial notAbove
  | fin value =>
      rw [price, ExtendedRat.fin_lt_fin, not_lt] at notAbove notBelow
      exact ⟨value, rfl, notBelow, notAbove⟩

theorem banded_of_accepts {trader : Trader} (finite : trader.rc.reference = .fin ref)
    {order : Order} (accepts : trader.Accepts order) : Banded trader.rc ref order := by
  obtain ⟨connId, cn, user, -, -, -, sufficient⟩ := accepts.sufficient
  obtain ⟨product, inBand⟩ := inBand_of_passes finite accepts.verified sufficient
  refine ⟨product, inBand, ?_⟩
  intro price executed
  rw [accepts.execPrice] at executed
  cases executed

theorem Banded.withExecPrice {order sell : OrderPtr} (banded : Banded rc ref order.order)
    (sellBanded : Banded rc ref sell.order) :
    Banded rc ref (order.withExecPrice sell.order.orderPrice).order where
  symbol := banded.symbol
  orderPrice := banded.orderPrice
  execPrice price executed := by
    cases executed
    exact sellBanded.orderPrice

theorem quotedPrice_resting {books : Books} {price : Price}
    (quoted : price ∈ books.quotedPrice) :
    ∃ order ∈ books.rawSellside.items, price = order.order.orderPrice := by
  unfold Books.quotedPrice at quoted
  split at quoted
  next toBooks odb ods passed =>
    obtain ⟨buy, sell, -, rfl, -, sellRemoved⟩ := (Books.matchup_cases passed).removes
    cases quoted
    exact ⟨sell, sellRemoved.subset (by simp), rfl⟩
  next => cases quoted

end

/-- In every state that a run reaches, whatever was sent and however the threads
interleave. -/
theorem risk_band_holds (server : MariaDB) (db : Database) (rc : RiskController)
    (nidSub1 : BitVec 32) (sr : Server) (ref : ℚ) (finite : rc.reference = .fin ref)
    (events : List Event) (last : Threads) (observations : List Observation)
    (finished : (threads server).run (.start (.construct server db rc nidSub1 sr)) events =
      some (last, observations)) :
    WithinRiskBand rc ref last observations := by
  have started : (Threads.start (.construct server db rc nidSub1 sr)).trader.rc = rc := by
    obtain ⟨buyside, sellside, equality⟩ := Trader.construct_eq server db rc nidSub1 sr
    rw [equality]
    rfl
  have accepted : ∀ order ∈ insertedIn observations, Banded rc ref order.order := by
    intro order isInserted
    obtain ⟨earlier, event, rest, middle, seen, next, shown, -, reached, stepped, now⟩ :=
      (threads server).exists_step_of_mem finished (mem_insertedIn.mp isInserted)
    obtain ⟨-, accepts⟩ := accepts_of_inserted stepped now
    have same : middle.trader.rc = rc := (rc_run reached).trans started
    rw [← same] at finite ⊢
    exact banded_of_accepts finite accepts
  obtain ⟨held, executed, -⟩ := held_run (fun order => Banded rc ref order.order)
    (fun _ _ banded sellBanded => banded.withExecPrice sellBanded) finished accepted
  refine ⟨fun order resting => held order (mem_held_of_resting resting), ?_, executed, ?_⟩
  · intro order listed
    exact held order (by simp [Threads.held, listed])
  · intro price quoted
    obtain ⟨order, resting, rfl⟩ := quotedPrice_resting quoted
    exact (held order (mem_held_of_resting (List.mem_append_right _ resting))).orderPrice

/-- Prices that `std::stod` reads as no number or as infinite, one outside the
band, and two at its edges. -/
def strangePricesRun : List Event :=
  [.firstLogin,
    .receive 0 "87|1|nan|1|1|1|KKC".toList, .getOrder 10 true,
    .receive 0 "87|2|inf|1|1|1|KKC".toList, .getOrder 20 true,
    .receive 0 "87|3|66.1|1|1|1|KKC".toList, .getOrder 30 true,
    .receive 0 "87|4|54|2|1|1|KKC".toList, .getOrder 40 true,
    .receive 0 "87|5|66|1|1|1|KKC".toList, .getOrder 50 true,
    .matchup, .pushReport]

theorem risk_band_holds_strangePricesRun :
    ∃ last observations,
      (threads .literal).run .initial strangePricesRun = some (last, observations) ∧
        (executedIn observations).length = 2 ∧ last.trader.reportList.length = 1 ∧
        WithinRiskBand .initial 60 last observations := by
  obtain ⟨last, observations, finished, evaluated⟩ :=
    Machine.exists_run_of_any (threads .literal) .initial strangePricesRun
      (fun last observations => decide ((executedIn observations).length = 2 ∧
        last.trader.reportList.length = 1)) (by decide +kernel)
  obtain ⟨executed, listed⟩ := of_decide_eq_true evaluated
  exact ⟨last, observations, finished, executed, listed,
    risk_band_holds _ _ _ _ _ 60 (by decide +kernel) _ _ _ finished⟩

end InertiaTrader
