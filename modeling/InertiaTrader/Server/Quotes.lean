import InertiaTrader.Foundation.AssociationList
import InertiaTrader.Foundation.RunningRange
import InertiaTrader.Server.Basic

/-!
# Quotes

`quoteUpdate` keeps the last, the lowest and the highest price of a stock.  It
compares a price with `priceMax` only when it is not below `priceMin`.
-/

namespace InertiaTrader

open Foundation

section

variable {sr after : Server} {name : Text} {price : Price}

theorem lookup_quoteUpdate (quoted : sr.quoteUpdate name price = .ok after) (symbol : Text) :
    after.quotesList.lookup symbol =
      (sr.quotesList.lookup symbol).map fun stock =>
        if symbol = name then stock.quote price else stock := by
  unfold Server.quoteUpdate at quoted
  split at quoted
  next => cases quoted
  next =>
    cases quoted
    have keyed := lookup_mapValues
      (fun name' stock => if name' = name then stock.quote price else stock) sr.quotesList symbol
    refine Eq.trans ?_ keyed
    apply congrArg (List.lookup symbol)
    apply List.map_congr_left
    rintro ⟨name', stock⟩ -
    dsimp only
    split <;> rfl

theorem known_of_quoteUpdate (quoted : sr.quoteUpdate name price = .ok after) :
    ∃ stock, sr.quotesList.lookup name = some stock := by
  unfold Server.quoteUpdate at quoted
  split at quoted
  next => cases quoted
  next stock known => exact ⟨stock, known⟩

theorem quoteUpdate_of_known {stock : Stock} (known : sr.quotesList.lookup name = some stock)
    (price : Price) : ∃ quotesList, sr.quoteUpdate name price = .ok { sr with quotesList } := by
  rw [Server.quoteUpdate, known]
  exact ⟨_, rfl⟩

end

namespace Stock

/-- The prices of a stock stand in their order, and are numbers. -/
structure Ordered (stock : Stock) : Prop where
  min_le : stock.priceMin ≤ stock.priceNow
  le_max : stock.priceNow ≤ stock.priceMax

def ofRange (range : RunningRange Number) : Stock where
  priceNow := range.last.value
  priceMax := range.high.value
  priceMin := range.low.value

theorem ordered_ofRange (range : RunningRange Number) : (ofRange range).Ordered :=
  ⟨range.low_le_last, range.last_le_high⟩

theorem exists_ofRange {stock : Stock} (ordered : stock.Ordered) :
    ∃ range, stock = ofRange range := by
  have minNumber : stock.priceMin ≠ .nan := by
    intro isNan
    have below := ordered.min_le
    rw [isNan] at below
    exact below
  have nowNumber : stock.priceNow ≠ .nan := by
    intro isNan
    have below := ordered.le_max
    rw [isNan] at below
    exact below
  have maxNumber : stock.priceMax ≠ .nan := by
    intro isNan
    have above := ordered.le_max
    rw [isNan] at above
    cases now : stock.priceNow <;> rw [now] at above <;> exact above
  exact ⟨⟨⟨stock.priceMin, minNumber⟩, ⟨stock.priceNow, nowNumber⟩, ⟨stock.priceMax, maxNumber⟩,
    ordered.min_le, ordered.le_max⟩, rfl⟩

theorem quote_ofRange (range : RunningRange Number) (price : Number) :
    (ofRange range).quote price.value = ofRange (range.record price) := by
  unfold quote RunningRange.record
  by_cases below : price < range.low
  · have belowMin : price.value < (ofRange range).priceMin := below
    rw [if_pos belowMin, dif_pos below]
    rfl
  · have notBelowMin : ¬ price.value < (ofRange range).priceMin := below
    rw [if_neg notBelowMin, dif_neg below]
    by_cases above : range.high < price
    · have aboveMax : (ofRange range).priceMax < price.value := above
      rw [if_pos aboveMax, dif_pos above]
      rfl
    · have notAboveMax : ¬ (ofRange range).priceMax < price.value := above
      rw [if_neg notAboveMax, dif_neg above]
      rfl

theorem foldl_quote_ofRange (range : RunningRange Number) (prices : List Number) :
    (prices.map Number.value).foldl quote (ofRange range) =
      ofRange (prices.foldl RunningRange.record range) := by
  rw [List.foldl_map]
  exact List.foldl_hom ofRange fun range price => quote_ofRange range price

/-- The prices that a stock shows, and those given to it later. -/
def seen (stock : Stock) (prices : List Price) : Set Price :=
  {stock.priceMin, stock.priceNow, stock.priceMax} ∪ {price | price ∈ prices}

end Stock

/-- A sequence of calls of `quoteUpdate` for one stock. -/
def Server.quoteUpdates (sr : Server) (stockNum : Text) (prices : List Price) :
    Except Fault Server :=
  prices.foldlM (fun sr execPrice => sr.quoteUpdate stockNum execPrice) sr

theorem quoteUpdates_of_known {sr : Server} {stockNum : Text} {stock : Stock}
    (known : sr.quotesList.lookup stockNum = some stock) (prices : List Price) :
    ∃ quotesList, sr.quoteUpdates stockNum prices = .ok { sr with quotesList } ∧
      ∀ symbol, quotesList.lookup symbol = (sr.quotesList.lookup symbol).map fun stock =>
        if symbol = stockNum then prices.foldl Stock.quote stock else stock := by
  induction prices generalizing sr stock with
  | nil =>
      refine ⟨sr.quotesList, rfl, ?_⟩
      intro symbol
      simp only [List.foldl_nil, ite_self, Option.map_id']
  | cons price prices inductionHypothesis =>
      obtain ⟨quotesList, quoted⟩ := quoteUpdate_of_known known price
      have lookups := lookup_quoteUpdate quoted
      have knownLater := lookups stockNum
      rw [known, Option.map_some, if_pos rfl] at knownLater
      obtain ⟨last, finished, lastLookups⟩ := inductionHypothesis knownLater
      refine ⟨last, ?_, ?_⟩
      · rw [Server.quoteUpdates, List.foldlM_cons, quoted]
        exact finished
      · intro symbol
        rw [lastLookups, lookups, Option.map_map]
        apply congrArg (fun change => (sr.quotesList.lookup symbol).map change)
        funext stock
        by_cases same : symbol = stockNum
        · simp only [Function.comp_apply, if_pos same, List.foldl_cons]
        · simp only [Function.comp_apply, if_neg same]

theorem isLeast_image_value {numbers : Set Number} {number : Number}
    (least : IsLeast numbers number) : IsLeast (Number.value '' numbers) number.value := by
  refine ⟨Set.mem_image_of_mem _ least.1, ?_⟩
  rintro _ ⟨other, membership, rfl⟩
  exact least.2 membership

theorem isGreatest_image_value {numbers : Set Number} {number : Number}
    (greatest : IsGreatest numbers number) :
    IsGreatest (Number.value '' numbers) number.value := by
  refine ⟨Set.mem_image_of_mem _ greatest.1, ?_⟩
  rintro _ ⟨other, membership, rfl⟩
  exact greatest.2 membership

theorem seen_ofRange (range : RunningRange Number) (prices : List Number) :
    (Stock.ofRange range).seen (prices.map Number.value) =
      Number.value '' (range.shown ∪ {price | price ∈ prices}) := by
  have given : {price | price ∈ prices.map Number.value} =
      Number.value '' {price | price ∈ prices} := by
    ext price
    exact List.mem_map
  rw [Stock.seen, given, Set.image_union, RunningRange.shown, Set.image_insert_eq,
    Set.image_pair]
  rfl

/-- The prices of a stock after any sequence of calls for it: the last, the lowest
and the highest of all that it has seen.  The calls change nothing else. -/
theorem quotes_running {sr : Server} {stockNum : Text} {stock : Stock} {prices : List Price}
    (known : sr.quotesList.lookup stockNum = some stock) (ordered : stock.Ordered)
    (numbers : ∀ price ∈ prices, price ≠ .nan) :
    ∃ quotesList quoted, sr.quoteUpdates stockNum prices = .ok { sr with quotesList } ∧
      quotesList.lookup stockNum = some quoted ∧
      quoted.priceNow = prices.getLastD stock.priceNow ∧
      IsLeast (stock.seen prices) quoted.priceMin ∧
      IsGreatest (stock.seen prices) quoted.priceMax ∧
      quoted.priceMin ≤ quoted.priceNow ∧ quoted.priceNow ≤ quoted.priceMax ∧
      ∀ other, other ≠ stockNum → quotesList.lookup other = sr.quotesList.lookup other := by
  obtain ⟨quotesList, finished, lookups⟩ := quoteUpdates_of_known known prices
  obtain ⟨range, rfl⟩ := Stock.exists_ofRange ordered
  obtain ⟨prices, rfl⟩ : ∃ given : List Number, given.map Number.value = prices :=
    ⟨prices.pmap Number.mk numbers, by simp [List.map_pmap]⟩
  have here := lookups stockNum
  rw [known, Option.map_some, if_pos rfl, Stock.foldl_quote_ofRange] at here
  have last : (prices.foldl RunningRange.record range).last.value =
      (prices.map Number.value).getLastD range.last.value := by
    rw [range.foldl_record_last, List.getLastD_eq_getLast?, List.getLastD_eq_getLast?,
      List.getLast?_map, Option.getD_map]
  refine ⟨quotesList, _, finished, here, last, ?_, ?_,
    (Stock.ordered_ofRange _).min_le, (Stock.ordered_ofRange _).le_max, ?_⟩
  · rw [seen_ofRange]
    exact isLeast_image_value (RunningRange.isLeast_foldl_record range.isLeast_shown prices)
  · rw [seen_ofRange]
    exact isGreatest_image_value
      (RunningRange.isGreatest_foldl_record range.isGreatest_shown prices)
  · intro other different
    rw [lookups]
    simp only [if_neg different, Option.map_id']

theorem quotes_running_kkc :
    ∃ quotesList quoted,
      (Server.construct Server.initialUsers fun _ => ⟨0, [], false⟩).quoteUpdates "KKC".toList
          [.fin 61, .fin 58, .fin 59] =
        .ok { Server.construct Server.initialUsers fun _ => ⟨0, [], false⟩ with quotesList } ∧
      quotesList.lookup "KKC".toList = some quoted ∧
      quoted.priceNow = .fin 59 ∧
      IsLeast (Stock.seen ⟨.fin 60, .fin 60, .fin 60⟩ [.fin 61, .fin 58, .fin 59])
        quoted.priceMin ∧
      IsGreatest (Stock.seen ⟨.fin 60, .fin 60, .fin 60⟩ [.fin 61, .fin 58, .fin 59])
        quoted.priceMax ∧
      quoted.priceMin ≤ quoted.priceNow ∧ quoted.priceNow ≤ quoted.priceMax ∧
      ∀ other, other ≠ "KKC".toList →
        quotesList.lookup other = Server.initialQuotes.lookup other :=
  quotes_running (by decide) ⟨by decide, by decide⟩ (by decide)

end InertiaTrader
