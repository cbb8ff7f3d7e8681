import InertiaTrader.Threads

/-!
# Which pair a pass selects

The multisets of pointers are ordered by address, since `Order::operator<` is
not what compares pointers.  A pass takes the buy order of the lowest and the
sell order of the highest address, whatever their prices, and whether it takes
them depends on the order received last.
-/

namespace InertiaTrader

open Foundation

/-- No order resting in the books is priced better than its side of the pair. -/
structure BestPair (books : Books) (odb ods : OrderPtr) : Prop where
  sell : ∀ other ∈ books.rawSellside.items, ¬ other.order.orderPrice < ods.order.orderPrice
  buy : ∀ other ∈ books.rawBuyside.items, ¬ odb.order.orderPrice < other.order.orderPrice

instance (books : Books) (odb ods : OrderPtr) : Decidable (BestPair books odb ods) :=
  decidable_of_iff
    ((∀ other ∈ books.rawSellside.items, ¬ other.order.orderPrice < ods.order.orderPrice) ∧
      ∀ other ∈ books.rawBuyside.items, ¬ odb.order.orderPrice < other.order.orderPrice)
    ⟨fun best => ⟨best.1, best.2⟩, fun best => ⟨best.sell, best.buy⟩⟩

/-- Some resting buy order reaches some resting sell order. -/
def Books.Crosses (books : Books) : Prop :=
  ∃ buy ∈ books.rawBuyside.items, ∃ sell ∈ books.rawSellside.items,
    sell.order.orderPrice ≤ buy.order.orderPrice

instance (books : Books) : Decidable books.Crosses :=
  inferInstanceAs (Decidable (∃ buy ∈ books.rawBuyside.items, _))

/-- Every pair that the step executes is the best of the books before it. -/
def ExecutesBest (state : Threads) (_ : Event) (_ : Threads) (observations : List Observation) :
    Prop :=
  ∀ odb ods, .executed odb ods ∈ observations → BestPair state.trader.toBooks odb ods

/-- A pass over books that cross executes a pair. -/
def ExecutesCross (state : Threads) (event : Event) (_ : Threads)
    (observations : List Observation) : Prop :=
  event = .matchup → state.trader.toBooks.Crosses → ∃ odb ods, .executed odb ods ∈ observations

/-- If the order received last reaches the sell order of the highest address, then
that is the cheapest one, and the buy order of the lowest address the dearest. -/
def Books.AddressesSuit (books : Books) : Prop :=
  ∀ od odb ods, books.od = some od → books.rawBuyside.items.head? = some odb →
    books.rawSellside.items.getLast? = some ods →
    ods.order.orderPrice ≤ od.orderPrice → BestPair books odb ods

/-- If the books cross, the order received last reaches the sell order of the
highest address. -/
def Books.LastOrderReaches (books : Books) : Prop :=
  books.Crosses → ∀ od ods, books.od = some od → books.rawSellside.items.getLast? = some ods →
    ods.order.orderPrice ≤ od.orderPrice

/-- A condition on the books in which a pass of `matchup` starts. -/
def BeforePass (condition : Books → Prop) (threads : Threads) : Event → Prop
  | .matchup => condition threads.trader.toBooks
  | _ => True

section

variable {server : MariaDB} {books after : Books} {odb ods : OrderPtr}
    {state next : Threads} {event : Event} {observations : List Observation}

theorem addressesSuit_iff :
    books.AddressesSuit ↔ ∀ odb ods, books.NextPair odb ods → BestPair books odb ods := by
  constructor
  · rintro suits odb ods ⟨od, received, first, last, crossed⟩
    exact suits od odb ods received first last crossed
  · intro suits od odb ods received first last crossed
    exact suits odb ods ⟨od, received, first, last, crossed⟩

theorem bestPair_of_pass_iff (pass : books.Pass after (some (odb, ods))) :
    BestPair books odb ods ↔ books.AddressesSuit := by
  obtain ⟨buy, sell, pair, rfl, rfl⟩ := pass.nextPair
  rw [addressesSuit_iff]
  constructor
  · intro best buy' sell' pair'
    obtain ⟨rfl, rfl⟩ := pair.unique pair'
    exact ⟨best.sell, best.buy⟩
  · intro suits
    have best := suits buy sell pair
    exact ⟨best.sell, best.buy⟩

theorem addressesSuit_of_idle (pass : books.Pass after none) : books.AddressesSuit := by
  rw [addressesSuit_iff]
  intro odb ods pair
  exact absurd pair pass.not_nextPair

theorem executions_iff_beforePass {property : OrderPtr → OrderPtr → Prop}
    {condition : Books → Prop}
    (stepped : state.step server event = some (next, observations))
    (idle : state.trader.toBooks.Pass state.trader.toBooks none → condition state.trader.toBooks)
    (executes : ∀ toBooks odb ods, state.trader.toBooks.Pass toBooks (some (odb, ods)) →
      state.trader.sr.quoteUpdate "KKC".toList ods.order.orderPrice = .ok next.trader.sr →
      (property odb ods ↔ condition state.trader.toBooks)) :
    (∀ odb ods, .executed odb ods ∈ observations → property odb ods) ↔
      BeforePass condition state event := by
  by_cases isPass : event = .matchup
  · subst isPass
    rcases Threads.matchup_step stepped with
      ⟨finished, -, rfl⟩ | ⟨toBooks, odb, ods, sr, finished, quoted, rfl, rfl⟩
    · apply iff_of_true
      · intro odb ods executed
        exact absurd executed List.not_mem_nil
      · exact idle (Books.matchup_cases finished)
    · apply Iff.trans _ (executes toBooks odb ods (Books.matchup_cases finished) quoted)
      constructor
      · intro holds
        exact holds odb ods (List.mem_singleton_self _)
      · intro holds odb' ods' executed
        rw [List.mem_singleton, Observation.executed.injEq] at executed
        rwa [executed.1, executed.2]
  · apply iff_of_true
    · intro odb ods executed
      exact absurd (Threads.executed_of_step stepped executed) isPass
    · cases event <;> trivial

/-- Only whether the last order reaches the last sell order decides whether a
cross is missed. -/
theorem executes_of_matchup_iff {pair : Option (OrderPtr × OrderPtr)}
    (finished : books.matchup = .ok (after, pair)) :
    (books.Crosses → pair.isSome) ↔ books.LastOrderReaches := by
  cases Books.matchup_cases finished with
  | executes od odb ods received first last crossed =>
      apply iff_of_true
      · exact fun _ => rfl
      · intro _ od' ods' received' last'
        obtain rfl : od = od' := Option.some.inj (received.symm.trans received')
        obtain rfl : ods = ods' := Option.some.inj (last.symm.trans last')
        exact crossed
  | idle nothing =>
      constructor
      · intro executes crosses
        exact absurd (executes crosses) Bool.false_ne_true
      · intro reaches crosses
        have reached := reaches crosses
        obtain ⟨buy, inBuyside, sell, inSellside, -⟩ := crosses
        obtain ⟨odb, first⟩ : ∃ odb, books.rawBuyside.items.head? = some odb :=
          ⟨_, List.head?_eq_some_head (List.ne_nil_of_mem inBuyside)⟩
        obtain ⟨ods, last⟩ : ∃ ods, books.rawSellside.items.getLast? = some ods :=
          ⟨_, List.getLast?_eq_some_getLast (List.ne_nil_of_mem inSellside)⟩
        obtain ⟨od, received⟩ := Books.received_of_matchup finished first last
        exact absurd (reached od ods received last) (nothing od odb ods received first last)

theorem executesBest_iff (stepped : state.step server event = some (next, observations)) :
    ExecutesBest state event next observations ↔
      BeforePass Books.AddressesSuit state event := by
  apply executions_iff_beforePass stepped
  · exact addressesSuit_of_idle
  · intro toBooks odb ods pass _
    exact bestPair_of_pass_iff pass

theorem executesCross_iff (stepped : state.step server event = some (next, observations)) :
    ExecutesCross state event next observations ↔
      BeforePass Books.LastOrderReaches state event := by
  by_cases isPass : event = .matchup
  · subst isPass
    rcases Threads.matchup_step stepped with
      ⟨finished, -, rfl⟩ | ⟨toBooks, odb, ods, sr, finished, -, -, rfl⟩
    · apply Iff.trans _ (executes_of_matchup_iff finished)
      constructor
      · intro executes crosses
        obtain ⟨odb, ods, executed⟩ := executes rfl crosses
        exact absurd executed List.not_mem_nil
      · intro executes _ crosses
        exact absurd (executes crosses) Bool.false_ne_true
    · apply Iff.trans _ (executes_of_matchup_iff finished)
      apply iff_of_true
      · intro _ _
        exact ⟨odb, ods, List.mem_singleton_self _⟩
      · exact fun _ => rfl
  · apply iff_of_true
    · exact fun isMatchup => absurd isMatchup isPass
    · cases event <;> trivial

end

/-- Over a whole run: every pair executed is the best one exactly when no pass
starts while the last order crosses and the addresses do not suit the prices. -/
theorem price_priority_iff (server : MariaDB) (db : Database) (rc : RiskController)
    (nidSub1 : BitVec 32) (sr : Server) (events : List Event) (last : Threads)
    (observations : List Observation)
    (finished : (threads server).run (.start (.construct server db rc nidSub1 sr)) events =
      some (last, observations)) :
    (threads server).EachStep ExecutesBest (.start (.construct server db rc nidSub1 sr)) events ↔
      (threads server).Along (BeforePass Books.AddressesSuit)
        (.start (.construct server db rc nidSub1 sr)) events :=
  (threads server).eachStep_iff_along (fun _ _ _ _ => executesBest_iff) finished

theorem exists_executed_of_any (server : MariaDB) (start : Threads) (events : List Event)
    (property : Threads → Threads → OrderPtr → OrderPtr → Bool)
    (evaluated : ((threads server).run start events).any (fun before =>
      (before.1.step server .matchup).any fun passed =>
        passed.2.any fun observation =>
          observation.execution.any fun pair =>
            property before.1 passed.1 pair.1 pair.2) = true) :
    ∃ before seen next observations odb ods,
      (threads server).run start events = some (before, seen) ∧
        before.step server .matchup = some (next, observations) ∧
        .executed odb ods ∈ observations ∧ property before next odb ods = true := by
  obtain ⟨⟨before, seen⟩, ran, passes⟩ := (Option.any_eq_true ..).mp evaluated
  obtain ⟨⟨next, observations⟩, stepped, shows⟩ := (Option.any_eq_true ..).mp passes
  obtain ⟨observation, membership, executes⟩ := List.any_eq_true.mp shows
  obtain ⟨⟨odb, ods⟩, isPair, holds⟩ := (Option.any_eq_true ..).mp executes
  rw [Observation.execution_eq_some_iff] at isPair
  subst isPair
  exact ⟨before, seen, next, observations, odb, ods, ran, stepped, membership, holds⟩

/-- A buy order at 60, a better one at 62 with a higher address, and a sell order. -/
def dearerBuyRun : List Event :=
  [.firstLogin,
    .receive 0 "87|1|60|1|1|1|KKC".toList, .getOrder 10 true,
    .receive 0 "87|2|62|1|1|1|KKC".toList, .getOrder 30 true,
    .receive 0 "87|3|60|2|1|1|KKC".toList, .getOrder 20 true]

/-- The pass after it executes the buy order at 60, while the one at 62 rests. -/
theorem dearer_buy_passed_over :
    ∃ before seen next observations odb ods,
      (threads .literal).run .initial dearerBuyRun = some (before, seen) ∧
        before.step .literal .matchup = some (next, observations) ∧
        .executed odb ods ∈ observations ∧ ¬ BestPair before.trader.toBooks odb ods := by
  obtain ⟨before, seen, next, observations, odb, ods, ran, stepped, executed, notBest⟩ :=
    exists_executed_of_any .literal .initial dearerBuyRun
      (fun before _ odb ods => decide (¬ BestPair before.trader.toBooks odb ods))
      (by decide +kernel)
  exact ⟨before, seen, next, observations, odb, ods, ran, stepped, executed,
    of_decide_eq_true notBest⟩

theorem price_priority_iff_dearerBuyRun :
    ∃ last observations,
      (threads .literal).run .initial (dearerBuyRun ++ [.matchup]) = some (last, observations) ∧
        ((threads .literal).EachStep ExecutesBest .initial (dearerBuyRun ++ [.matchup]) ↔
          (threads .literal).Along (BeforePass Books.AddressesSuit) .initial
            (dearerBuyRun ++ [.matchup])) := by
  obtain ⟨last, observations, finished, -⟩ :=
    Machine.exists_run_of_any (threads .literal) .initial (dearerBuyRun ++ [.matchup])
      (fun _ _ => true) (by decide +kernel)
  exact ⟨last, observations, finished, price_priority_iff _ _ _ _ _ _ _ _ finished⟩

/-- Over a whole run: no pass misses a cross exactly when at every pass over books
that cross the order received last reaches the sell order of the highest address. -/
theorem no_missed_cross_iff (server : MariaDB) (db : Database) (rc : RiskController)
    (nidSub1 : BitVec 32) (sr : Server) (events : List Event) (last : Threads)
    (observations : List Observation)
    (finished : (threads server).run (.start (.construct server db rc nidSub1 sr)) events =
      some (last, observations)) :
    (threads server).EachStep ExecutesCross (.start (.construct server db rc nidSub1 sr)) events ↔
      (threads server).Along (BeforePass Books.LastOrderReaches)
        (.start (.construct server db rc nidSub1 sr)) events :=
  (threads server).eachStep_iff_along (fun _ _ _ _ => executesCross_iff) finished

/-- A buy order at 62, a sell order at 60, and a buy order at 58 received last. -/
def lowBuyLastRun : List Event :=
  [.firstLogin,
    .receive 0 "87|1|62|1|1|1|KKC".toList, .getOrder 10 true,
    .receive 0 "87|2|60|2|1|1|KKC".toList, .getOrder 20 true,
    .receive 0 "87|3|58|1|1|1|KKC".toList, .getOrder 30 true]

/-- The books cross at 62 and 60, but the pass after it executes nothing. -/
theorem cross_missed :
    ∃ before seen next,
      (threads .literal).run .initial lowBuyLastRun = some (before, seen) ∧
        before.trader.toBooks.Crosses ∧ before.step .literal .matchup = some (next, []) := by
  obtain ⟨before, seen, ran, evaluated⟩ :=
    Machine.exists_run_of_any (threads .literal) .initial lowBuyLastRun
      (fun before _ => decide before.trader.toBooks.Crosses &&
        (before.step .literal .matchup).any
          fun (result : Threads × List Observation) => decide (result.2 = []))
      (by decide +kernel)
  obtain ⟨crosses, passed⟩ := Bool.and_eq_true_iff.mp evaluated
  obtain ⟨⟨next, observations⟩, stepped, nothing⟩ := (Option.any_eq_true ..).mp passed
  obtain rfl : observations = [] := of_decide_eq_true nothing
  exact ⟨before, seen, next, ran, of_decide_eq_true crosses, stepped⟩

theorem no_missed_cross_iff_lowBuyLastRun :
    ∃ last observations,
      (threads .literal).run .initial (lowBuyLastRun ++ [.matchup]) = some (last, observations) ∧
        ((threads .literal).EachStep ExecutesCross .initial (lowBuyLastRun ++ [.matchup]) ↔
          (threads .literal).Along (BeforePass Books.LastOrderReaches) .initial
            (lowBuyLastRun ++ [.matchup])) := by
  obtain ⟨last, observations, finished, -⟩ :=
    Machine.exists_run_of_any (threads .literal) .initial (lowBuyLastRun ++ [.matchup])
      (fun _ _ => true) (by decide +kernel)
  exact ⟨last, observations, finished, no_missed_cross_iff _ _ _ _ _ _ _ _ finished⟩

end InertiaTrader
