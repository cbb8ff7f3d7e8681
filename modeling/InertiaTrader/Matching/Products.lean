import InertiaTrader.Matching.PairSelection
import InertiaTrader.Orders.HeldOrders
import InertiaTrader.Server.Quotes

/-!
# Products

The risk control admits every product of the list, but all products share the
two books, and `matchup` updates the quote of `KKC` whatever it executes.
-/

namespace InertiaTrader

open Foundation

/-- A pair has one symbol, whose quote takes its price and no other quote changes. -/
structure OneProduct (before after : Server) (odb ods : Order) : Prop where
  symbol : odb.symbol = ods.symbol
  quoted : ∃ stock execPrice, before.quotesList.lookup odb.symbol = some stock ∧
    odb.execPrice = some execPrice ∧
    after.quotesList.lookup odb.symbol = some (stock.quote execPrice)
  others : ∀ symbol, symbol ≠ odb.symbol →
    after.quotesList.lookup symbol = before.quotesList.lookup symbol

/-- Every pair that the step executes stays within one product. -/
def TradesOneProduct (state : Threads) (_ : Event) (next : Threads)
    (observations : List Observation) : Prop :=
  ∀ odb ods, .executed odb ods ∈ observations →
    OneProduct state.trader.sr next.trader.sr odb.order ods.order

/-- The pair that a pass over these books takes is one of `KKC`. -/
def Books.PairsKKC (books : Books) : Prop :=
  ∀ odb ods, books.NextPair odb ods →
    odb.order.symbol = "KKC".toList ∧ ods.order.symbol = "KKC".toList

/-- The quotes that `Server::essentialData_initialise` loads are all there are. -/
def Server.QuotesKKC (sr : Server) : Prop :=
  ∀ symbol stock, sr.quotesList.lookup symbol = some stock → symbol = "KKC".toList

section

variable {server : MariaDB} {sr after : Server} {name symbol : Text} {price : Price}
    {state next : Threads} {event : Event} {observations : List Observation}

theorem quotesKKC_update (onlyKKC : sr.QuotesKKC) (quoted : sr.quoteUpdate name price = .ok after) :
    after.QuotesKKC := by
  intro symbol stock found
  rw [lookup_quoteUpdate quoted, Option.map_eq_some_iff] at found
  obtain ⟨stock', known, -⟩ := found
  exact onlyKKC symbol stock' known

theorem quotesKKC_construct (userList : List (Text × UserData))
    (connections : ConnRef → Connection) : (Server.construct userList connections).QuotesKKC := by
  intro symbol stock found
  simp only [Server.construct, Server.initialQuotes, List.lookup_cons, List.lookup_nil] at found
  split at found
  next same => exact eq_of_beq same
  next => cases found

theorem quotesList_step (stepped : state.step server event = some (next, observations))
    (notPass : event ≠ .matchup) :
    next.trader.sr.quotesList = state.trader.sr.quotesList := by
  by_cases connects : ∃ connStorage connections userList,
      event = .connect connStorage connections userList
  · obtain ⟨connStorage, connections, userList, rfl⟩ := connects
    cases stepped
    rfl
  · obtain ⟨dq, dqOrderhandle, equality⟩ := Threads.sr_step stepped
      (fun _ _ _ isConnect => connects ⟨_, _, _, isConnect⟩) notPass
    rw [equality]

theorem quotesKKC_step (onlyKKC : state.trader.sr.QuotesKKC)
    (stepped : state.step server event = some (next, observations)) :
    next.trader.sr.QuotesKKC := by
  by_cases isPass : event = .matchup
  · subst isPass
    rcases Threads.matchup_step stepped with
      ⟨-, rfl, -⟩ | ⟨toBooks, odb, ods, sr, -, quoted, rfl, -⟩
    · exact onlyKKC
    · exact quotesKKC_update onlyKKC quoted
  · intro symbol stock found
    rw [quotesList_step stepped isPass] at found
    exact onlyKKC symbol stock found

theorem tradesOneProduct_iff (onlyKKC : state.trader.sr.QuotesKKC)
    (stepped : state.step server event = some (next, observations)) :
    TradesOneProduct state event next observations ↔
      BeforePass Books.PairsKKC state event := by
  apply executions_iff_beforePass stepped
  · intro pass odb ods pair
    exact absurd pair pass.not_nextPair
  · intro toBooks odb ods pass quoted
    obtain ⟨buy, sell, pair, rfl, rfl⟩ := pass.nextPair
    constructor
    · rintro ⟨sameSymbol, ⟨stock, execPrice, known, -, -⟩, -⟩ buy' sell' pair'
      obtain ⟨rfl, rfl⟩ := pair.unique pair'
      have isKKC : buy.order.symbol = "KKC".toList := onlyKKC _ stock known
      exact ⟨isKKC, sameSymbol.symm.trans isKKC⟩
    · intro pairsKKC
      obtain ⟨buyKKC, sellKKC⟩ := pairsKKC buy sell pair
      obtain ⟨stock, known⟩ := known_of_quoteUpdate quoted
      refine ⟨buyKKC.trans sellKKC.symm, ⟨stock, sell.order.orderPrice, ?_, rfl, ?_⟩, ?_⟩
      · change state.trader.sr.quotesList.lookup buy.order.symbol = some stock
        rw [buyKKC, known]
      · change next.trader.sr.quotesList.lookup buy.order.symbol = _
        rw [buyKKC, lookup_quoteUpdate quoted, known, Option.map_some, if_pos rfl]
        rfl
      · intro symbol other
        change symbol ≠ buy.order.symbol at other
        rw [buyKKC] at other
        simp only [lookup_quoteUpdate quoted, if_neg other, Option.map_id']

theorem symbols_step (kkc : state.trader.rc.productList = ["KKC".toList])
    (symbols : ∀ order ∈ state.held, order.order.symbol = "KKC".toList)
    (stepped : state.step server event = some (next, observations)) :
    ∀ order ∈ next.held, order.order.symbol = "KKC".toList := by
  intro order held
  rcases held_step stepped held with already | new | ⟨original, originalHeld, sell, -, rfl⟩
  · exact symbols order already
  · have verified := (accepts_of_inserted stepped new).2.verified
    simp only [RiskController.rejects, decide_eq_false_iff_not, not_or, not_not] at verified
    rw [kkc, List.mem_singleton] at verified
    exact verified.2.2
  · exact symbols original originalHeld

theorem pairsKKC_of_symbols
    (symbols : ∀ order ∈ state.held, order.order.symbol = "KKC".toList) :
    state.trader.toBooks.PairsKKC := by
  rintro odb ods ⟨od, -, first, last, -⟩
  have buyRests := List.mem_of_head? first
  have sellRests := List.mem_of_getLast? last
  exact ⟨symbols odb (mem_held_of_resting (List.mem_append_left _ buyRests)),
    symbols ods (mem_held_of_resting (List.mem_append_right _ sellRests))⟩

end

/-- Over a whole run, for any product list: trades stay within one product exactly
when every pass that takes a pair takes one of `KKC`. -/
theorem one_product_iff (server : MariaDB) (db : Database) (rc : RiskController)
    (nidSub1 : BitVec 32) (userList : List (Text × UserData)) (connections : ConnRef → Connection)
    (events : List Event) (last : Threads) (observations : List Observation)
    (finished : (threads server).run
      (.start (.construct server db rc nidSub1 (.construct userList connections))) events =
        some (last, observations)) :
    (threads server).EachStep TradesOneProduct
        (.start (.construct server db rc nidSub1 (.construct userList connections))) events ↔
      (threads server).Along (BeforePass Books.PairsKKC)
        (.start (.construct server db rc nidSub1 (.construct userList connections))) events := by
  apply (threads server).eachStep_iff_along_of_invariant
    (fun state => state.trader.sr.QuotesKKC) _ _ _ finished
  · intro state event next observations onlyKKC stepped _
    exact quotesKKC_step onlyKKC stepped
  · intro state event next observations onlyKKC stepped
    exact tradesOneProduct_iff onlyKKC stepped
  · obtain ⟨buyside, sellside, equality⟩ := Trader.construct_eq server db rc nidSub1
      (.construct userList connections)
    rw [equality]
    exact quotesKKC_construct userList connections

/-- The product list of `init.sql` with a second product. -/
def RiskController.twoProducts : RiskController :=
  { RiskController.initial with productList := ["KKC".toList, "ABC".toList] }

def Threads.twoProducts : Threads :=
  .start (.construct .literal .initial .twoProducts 1
    (.construct Server.initialUsers fun _ => ⟨0, [], false⟩))

/-- A buy order for one product and a sell order for the other. -/
def mixedProductsRun : List Event :=
  [.firstLogin,
    .receive 0 "87|1|60|1|1|1|ABC".toList, .getOrder 10 true,
    .receive 0 "87|2|60|2|1|1|KKC".toList, .getOrder 20 true]

/-- The pass after it executes them against each other. -/
theorem mixed_products_traded :
    ∃ before seen next observations odb ods,
      (threads .literal).run .twoProducts mixedProductsRun = some (before, seen) ∧
        before.step .literal .matchup = some (next, observations) ∧
        .executed odb ods ∈ observations ∧
        ¬ OneProduct before.trader.sr next.trader.sr odb.order ods.order := by
  obtain ⟨before, seen, next, observations, odb, ods, ran, stepped, executed, mixed⟩ :=
    exists_executed_of_any .literal .twoProducts mixedProductsRun
      (fun _ _ odb ods => decide (odb.order.symbol ≠ ods.order.symbol)) (by decide +kernel)
  exact ⟨before, seen, next, observations, odb, ods, ran, stepped, executed,
    fun oneProduct => of_decide_eq_true mixed oneProduct.symbol⟩

theorem one_product_iff_mixedProductsRun :
    ∃ last observations,
      (threads .literal).run .twoProducts (mixedProductsRun ++ [.matchup]) =
          some (last, observations) ∧
        ((threads .literal).EachStep TradesOneProduct .twoProducts
            (mixedProductsRun ++ [.matchup]) ↔
          (threads .literal).Along (BeforePass Books.PairsKKC) .twoProducts
            (mixedProductsRun ++ [.matchup])) := by
  obtain ⟨last, observations, finished, -⟩ :=
    Machine.exists_run_of_any (threads .literal) .twoProducts (mixedProductsRun ++ [.matchup])
      (fun _ _ => true) (by decide +kernel)
  exact ⟨last, observations, finished, one_product_iff _ _ _ _ _ _ _ _ _ finished⟩

theorem one_product_of_kkc (server : MariaDB) (db : Database) (rc : RiskController)
    (kkc : rc.productList = ["KKC".toList])
    (nidSub1 : BitVec 32) (userList : List (Text × UserData)) (connections : ConnRef → Connection)
    (events : List Event) :
    (threads server).EachStep TradesOneProduct
      (.start (.construct server db rc nidSub1 (.construct userList connections))) events := by
  apply (threads server).eachStep_of_invariant
    (fun state => state.trader.sr.QuotesKKC ∧ state.trader.rc.productList = ["KKC".toList] ∧
      ∀ order ∈ state.held, order.order.symbol = "KKC".toList)
  · rintro state event next observations ⟨onlyKKC, products, symbols⟩ stepped
    have sameProducts : next.trader.rc.productList = ["KKC".toList] := by
      rw [rc_step stepped, products]
    refine ⟨⟨quotesKKC_step onlyKKC stepped, sameProducts,
      symbols_step products symbols stepped⟩, ?_⟩
    apply (tradesOneProduct_iff onlyKKC stepped).mpr
    cases event with
    | matchup => exact pairsKKC_of_symbols symbols
    | _ => trivial
  · obtain ⟨buyside, sellside, equality⟩ := Trader.construct_eq server db rc nidSub1
      (.construct userList connections)
    rw [equality]
    refine ⟨quotesKKC_construct userList connections, kkc, ?_⟩
    intro order isHeld
    cases isHeld

end InertiaTrader
