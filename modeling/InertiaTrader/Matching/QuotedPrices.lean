import InertiaTrader.Matching.Products
import InertiaTrader.Server.Dispatch

/-!
# Quotes and executions

Nothing but an execution changes a quote.  What a client is told when it asks for the
price is therefore the price of the last execution, and the range of the stock is
that of all executions.
-/

namespace InertiaTrader

open Foundation

def Observation.executionPrice : Observation → Option Price
  | .executed _ ods => some ods.order.orderPrice
  | _ => none

/-- The prices of all executions, in their order. -/
def executionPrices (observations : List Observation) : List Price :=
  observations.filterMap Observation.executionPrice

section

variable {server : MariaDB} {state next last : Threads} {event : Event} {events : List Event}
    {observations seen : List Observation}

theorem executionPrices_append (first second : List Observation) :
    executionPrices (first ++ second) = executionPrices first ++ executionPrices second :=
  List.filterMap_append

theorem executionPrices_of_step (stepped : state.step server event = some (next, observations))
    (notPass : event ≠ .matchup) : executionPrices observations = [] := by
  rw [executionPrices, List.filterMap_eq_nil_iff]
  intro observation listed
  cases observation with
  | executed => exact absurd (Threads.executed_of_step stepped listed) notPass
  | _ => rfl

/-- A step hands the prices of its executions to the stock `KKC`, and does nothing
else to the quotes. -/
theorem lookup_step (stepped : state.step server event = some (next, observations))
    (symbol : Text) :
    next.trader.sr.quotesList.lookup symbol =
      (state.trader.sr.quotesList.lookup symbol).map fun stock =>
        if symbol = "KKC".toList then (executionPrices observations).foldl Stock.quote stock
        else stock := by
  by_cases isPass : event = .matchup
  · subst isPass
    rcases Threads.matchup_step stepped with
      ⟨-, rfl, rfl⟩ | ⟨toBooks, odb, ods, sr, -, quoted, rfl, rfl⟩
    · simp [executionPrices]
    · exact lookup_quoteUpdate quoted symbol
  · rw [quotesList_step stepped isPass, executionPrices_of_step stepped isPass]
    simp

theorem lookup_run (finished : (threads server).run state events = some (last, observations))
    (symbol : Text) :
    last.trader.sr.quotesList.lookup symbol =
      (state.trader.sr.quotesList.lookup symbol).map fun stock =>
        if symbol = "KKC".toList then (executionPrices observations).foldl Stock.quote stock
        else stock := by
  apply (threads server).invariant_of_run
    (fun current seen => current.trader.sr.quotesList.lookup symbol =
      (state.trader.sr.quotesList.lookup symbol).map fun stock =>
        if symbol = "KKC".toList then (executionPrices seen).foldl Stock.quote stock
        else stock) _ _ finished
  · intro current seen event next shown quoted stepped
    rw [lookup_step stepped, quoted, Option.map_map]
    apply congrArg (fun change => (state.trader.sr.quotesList.lookup symbol).map change)
    funext stock
    by_cases same : symbol = "KKC".toList
    · simp only [Function.comp_apply, if_pos same, executionPrices_append, List.foldl_append]
    · simp only [Function.comp_apply, if_neg same]
  · simp [executionPrices]

theorem inserted_of_accepts_run {property : Order → Prop}
    (accepted : ∀ (trader : Trader) (order : Order), trader.Accepts order → property order)
    (finished : (threads server).run state events = some (last, observations)) :
    ∀ order ∈ insertedIn observations, property order.order := by
  intro order inserted
  obtain ⟨earlier, event, rest, middle, seen, next, shown, -, reached, stepped, now⟩ :=
    (threads server).exists_step_of_mem finished (mem_insertedIn.mp inserted)
  exact accepted middle.trader order.order (accepts_of_inserted stepped now).2

theorem number_of_accepts {trader : Trader} {order : Order} (accepts : trader.Accepts order) :
    order.orderPrice ≠ .nan := by
  intro isNan
  obtain ⟨connId, cn, user, -, -, -, sufficient⟩ := accepts.sufficient
  rw [isNan] at sufficient
  exact sufficient

theorem numbers_of_run {db : Database} {rc : RiskController} {nidSub1 : BitVec 32} {sr : Server}
    (finished : (threads server).run (.start (.construct server db rc nidSub1 sr)) events =
      some (last, observations)) :
    ∀ price ∈ executionPrices observations, price ≠ .nan := by
  intro price listed
  obtain ⟨observation, shown, isPrice⟩ := List.mem_filterMap.mp listed
  obtain ⟨-, executed, -⟩ := held_run (fun order => order.order.orderPrice ≠ .nan)
    (fun _ _ number _ => number) finished
    (inserted_of_accepts_run (fun _ _ => number_of_accepts) finished)
  cases observation with
  | executed odb ods =>
      cases isPrice
      exact executed ods (mem_executedIn.mpr ⟨odb, ods, shown, .inr rfl⟩)
  | _ => cases isPrice

theorem shows_executions {prices : List Price} (numbers : ∀ price ∈ prices, price ≠ .nan) :
    let quoted := prices.foldl Stock.quote ⟨.fin 60, .fin 60, .fin 60⟩
    quoted.priceNow = prices.getLastD (.fin 60) ∧
      IsLeast (insert (.fin 60) {price | price ∈ prices}) quoted.priceMin ∧
      IsGreatest (insert (.fin 60) {price | price ∈ prices}) quoted.priceMax := by
  obtain ⟨range, isRange⟩ := Stock.exists_ofRange
    (⟨by decide, by decide⟩ : Stock.Ordered ⟨.fin 60, .fin 60, .fin 60⟩)
  obtain ⟨prices, rfl⟩ : ∃ given : List Number, given.map Number.value = prices :=
    ⟨prices.pmap Number.mk numbers, by simp [List.map_pmap]⟩
  have first : range.last.value = .fin 60 := (congrArg Stock.priceNow isRange).symm
  have shown : insert (.fin 60) {price | price ∈ prices.map Number.value} =
      Number.value '' (range.shown ∪ {price | price ∈ prices}) := by
    rw [← seen_ofRange, ← isRange, Stock.seen]
    simp
  rw [isRange, Stock.foldl_quote_ofRange, shown]
  refine ⟨?_, ?_, ?_⟩
  · change (prices.foldl RunningRange.record range).last.value = _
    rw [range.foldl_record_last, List.getLastD_eq_getLast?, List.getLastD_eq_getLast?,
      List.getLast?_map, ← first, Option.getD_map]
  · exact isLeast_image_value (RunningRange.isLeast_foldl_record range.isLeast_shown prices)
  · exact isGreatest_image_value
      (RunningRange.isGreatest_foldl_record range.isGreatest_shown prices)

theorem quotesKKC_run (onlyKKC : state.trader.sr.QuotesKKC)
    (finished : (threads server).run state events = some (last, observations)) :
    last.trader.sr.QuotesKKC := by
  apply (threads server).invariant_of_run (fun current _ => current.trader.sr.QuotesKKC) _ onlyKKC
    finished
  intro current _ event next shown onlyKKC stepped
  exact quotesKKC_step onlyKKC stepped

theorem replies_quoteLine {index : ℕ} {stock : Stock} (onlyKKC : state.trader.sr.QuotesKKC)
    (known : state.trader.sr.quotesList.lookup "KKC".toList = some stock)
    (stepped : state.step server (.priceAsking index) = some (next, observations)) :
    ∀ observation ∈ observations, ∃ cn, observation = .sent cn (Server.quoteLine stock) := by
  simp only [Threads.step] at stepped
  split at stepped
  next => cases stepped
  next msg waiting =>
    split at stepped
    next => cases stepped
    next replies asked =>
      cases stepped
      obtain ⟨symbol, third, stock', names, outcome⟩ := Server.priceAsking_eq_ok_iff.mp asked
      have isKKC := onlyKKC symbol stock' names.known
      have same : stock' = stock := by
        have known' := names.known
        rw [isKKC, known, Option.some.injEq] at known'
        exact known'.symm
      intro observation listed
      obtain ⟨reply, isReply, rfl⟩ := List.mem_map.mp listed
      rcases outcome with ⟨-, rfl⟩ | ⟨connNum, cn, -, -, rfl⟩
      · cases isReply
      · rw [List.mem_singleton.mp isReply, same]
        exact ⟨cn, rfl⟩

end

/-- After every run: the stock shows the price of the last execution, the lowest and
the highest of all, each together with the initial 60, and this is what the clients
are told. -/
theorem quotes_show_executions (server : MariaDB) (db : Database) (rc : RiskController)
    (nidSub1 : BitVec 32) (userList : List (Text × UserData))
    (connections : ConnRef → Connection) (events : List Event) (last : Threads)
    (observations : List Observation)
    (finished : (threads server).run
      (.start (.construct server db rc nidSub1 (.construct userList connections))) events =
        some (last, observations)) :
    ∃ stock, last.trader.sr.quotesList.lookup "KKC".toList = some stock ∧
      stock.priceNow = (executionPrices observations).getLastD (.fin 60) ∧
      IsLeast (insert (.fin 60) {price | price ∈ executionPrices observations})
        stock.priceMin ∧
      IsGreatest (insert (.fin 60) {price | price ∈ executionPrices observations})
        stock.priceMax ∧
      ∀ index next shown, last.step server (.priceAsking index) = some (next, shown) →
        ∀ observation ∈ shown, ∃ cn, observation = .sent cn (Server.quoteLine stock) := by
  have started : (Threads.start (.construct server db rc nidSub1
      (.construct userList connections))).trader.sr = .construct userList connections := by
    obtain ⟨buyside, sellside, equality⟩ := Trader.construct_eq server db rc nidSub1
      (.construct userList connections)
    rw [equality]
    rfl
  have known := lookup_run finished "KKC".toList
  have initially : (Server.construct userList connections).quotesList.lookup "KKC".toList =
      some ⟨.fin 60, .fin 60, .fin 60⟩ := rfl
  rw [started, initially, Option.map_some] at known
  simp only [if_true] at known
  have initiallyKKC : (Threads.start (.construct server db rc nidSub1
      (.construct userList connections))).trader.sr.QuotesKKC := by
    rw [started]
    exact quotesKKC_construct userList connections
  have onlyKKC := quotesKKC_run initiallyKKC finished
  obtain ⟨now, least, greatest⟩ := shows_executions (numbers_of_run finished)
  refine ⟨_, known, now, least, greatest, ?_⟩
  intro index next shown stepped
  exact replies_quoteLine onlyKKC known stepped

def quotedRun : List Event :=
  [.firstLogin, .receive 0 "87|1|61|1|1|1|KKC".toList, .getOrder 10 true,
    .receive 0 "87|2|61|1|1|1|KKC".toList, .getOrder 20 true,
    .receive 0 "87|3|58|2|1|1|KKC".toList, .getOrder 40 true, .matchup, .pushReport, .pushReport,
    .receive 0 "87|4|57|2|1|1|KKC".toList, .getOrder 30 true,
    .receive 0 "1233|KKC".toList, .matchup]

theorem quotes_show_executions_quotedRun :
    ∃ last observations, (threads .literal).run .initial quotedRun = some (last, observations) ∧
      executionPrices observations = [.fin 58, .fin 57] ∧
      ∃ stock, last.trader.sr.quotesList.lookup "KKC".toList = some stock ∧
        stock.priceNow = (executionPrices observations).getLastD (.fin 60) := by
  obtain ⟨last, observations, finished, evaluated⟩ :=
    Machine.exists_run_of_any (threads .literal) .initial quotedRun
      (fun _ observations => decide (executionPrices observations = [.fin 58, .fin 57]))
      (by decide +kernel)
  obtain ⟨stock, known, now, -⟩ := quotes_show_executions _ _ _ _ _ _ _ _ _ finished
  exact ⟨last, observations, finished, of_decide_eq_true evaluated, stock, known, now⟩

end InertiaTrader
