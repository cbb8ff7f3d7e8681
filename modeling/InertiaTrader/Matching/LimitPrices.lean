import InertiaTrader.Threads

/-!
# Limit prices

`matchup` compares the price of the sell order it takes with the price of the
order received last, not with the price of the buy order it takes.  A run
executes every pair within its limits exactly when no pass meets a last order
that crosses while the buy order does not.
-/

namespace InertiaTrader

open Foundation

/-- Both orders got one execution price, and it is within both limits. -/
def WithinLimits (odb ods : OrderPtr) : Prop :=
  ∃ execPrice, odb.order.execPrice = some execPrice ∧ ods.order.execPrice = some execPrice ∧
    ods.order.orderPrice ≤ execPrice ∧ execPrice ≤ odb.order.orderPrice

instance (odb ods : OrderPtr) : Decidable (WithinLimits odb ods) :=
  match executed : odb.order.execPrice with
  | none => .isFalse (by simp [WithinLimits, executed])
  | some execPrice =>
      decidable_of_iff (ods.order.execPrice = some execPrice ∧
        ods.order.orderPrice ≤ execPrice ∧ execPrice ≤ odb.order.orderPrice)
        (by simp [WithinLimits, executed])

def Observation.WithinLimits : Observation → Prop
  | .executed odb ods => InertiaTrader.WithinLimits odb ods
  | _ => True

instance : DecidablePred Observation.WithinLimits
  | .executed odb ods => inferInstanceAs (Decidable (InertiaTrader.WithinLimits odb ods))
  | .sent .. | .balanceTested .. | .inserted .. | .insertOrderToDB .. | .ordered .. | .pushed ..
  | .reported .. | .updated .. | .amended .. => .isTrue trivial

/-- Whenever the order received last reaches the sell order of the highest
address, so does the buy order of the lowest address. -/
def Books.LastOrderSuits (books : Books) : Prop :=
  ∀ od odb ods, books.od = some od → books.rawBuyside.items.head? = some odb →
    books.rawSellside.items.getLast? = some ods →
    ods.order.orderPrice ≤ od.orderPrice → ods.order.orderPrice ≤ odb.order.orderPrice

/-- The condition on the state in which a pass of `matchup` starts. -/
def SuitsPass (threads : Threads) : Event → Prop
  | .matchup => threads.trader.LastOrderSuits
  | _ => True

theorem lastOrderSuits_iff {books : Books} :
    books.LastOrderSuits ↔
      ∀ odb ods, books.NextPair odb ods → ods.order.orderPrice ≤ odb.order.orderPrice := by
  constructor
  · rintro suits odb ods ⟨od, received, first, last, crossed⟩
    exact suits od odb ods received first last crossed
  · intro suits od odb ods received first last crossed
    exact suits odb ods ⟨od, received, first, last, crossed⟩

theorem withinLimits_of_pass_iff {books next : Books} {odb ods : OrderPtr}
    (pass : books.Pass next (some (odb, ods))) :
    WithinLimits odb ods ↔ books.LastOrderSuits := by
  obtain ⟨buy, sell, pair, rfl, rfl⟩ := pass.nextPair
  have number : sell.order.orderPrice ≤ sell.order.orderPrice := by
    obtain ⟨od, -, -, -, crossed⟩ := pair
    exact ExtendedRat.le_self_of_le crossed
  rw [lastOrderSuits_iff]
  constructor
  · rintro ⟨execPrice, executed, -, -, within⟩ buy' sell' pair'
    obtain rfl : sell.order.orderPrice = execPrice := Option.some.inj executed
    obtain ⟨rfl, rfl⟩ := pair.unique pair'
    exact within
  · intro suits
    exact ⟨sell.order.orderPrice, rfl, rfl, number, suits buy sell pair⟩

theorem lastOrderSuits_of_idle {books next : Books} (pass : books.Pass next none) :
    books.LastOrderSuits := by
  rw [lastOrderSuits_iff]
  intro odb ods pair
  exact absurd pair pass.not_nextPair

theorem step_withinLimits_iff {server : MariaDB} {state next : Threads} {event : Event}
    {observations : List Observation}
    (stepped : state.step server event = some (next, observations)) :
    (∀ observation ∈ observations, observation.WithinLimits) ↔ SuitsPass state event := by
  cases Threads.step_cases stepped with
  | communicates _ sr asking _ sends other _ =>
      have suits : SuitsPass state event := by
        cases event <;> trivial
      refine ⟨fun _ => suits, fun _ observation membership => ?_⟩
      obtain ⟨cn, text, rfl⟩ := sends observation membership
      trivial
  | rests _ nothing _ =>
      refine ⟨fun _ => ?_, fun _ => by simp⟩
      cases event <;> first | trivial | exact lastOrderSuits_of_idle (nothing rfl)
  | handlesOrder address connected rest connId od cn trader _ fresh handling =>
      cases handling <;> simp [SuitsPass, Observation.WithinLimits]
  | amends connected val rest trader _ popped amendment =>
      cases amendment <;> simp [SuitsPass, Observation.WithinLimits]
  | executes toBooks odb ods sr finished pass =>
      simpa [Observation.WithinLimits, SuitsPass] using withinLimits_of_pass_iff pass
  | pushes | reads | sends | pops => simp [SuitsPass, Observation.WithinLimits]

/-- Over a whole run: every pair is executed within its limits exactly when
every pass starts in a state whose last order suits. -/
theorem limits_respected_iff (server : MariaDB) (db : Database) (rc : RiskController)
    (nidSub1 : BitVec 32) (sr : Server) (events : List Event) (last : Threads)
    (observations : List Observation)
    (finished : (threads server).run (.start (.construct server db rc nidSub1 sr)) events =
      some (last, observations)) :
    (∀ odb ods, .executed odb ods ∈ observations → WithinLimits odb ods) ↔
      (threads server).Along SuitsPass (.start (.construct server db rc nidSub1 sr)) events := by
  rw [← (threads server).outputs_iff_along (fun _ _ _ _ => step_withinLimits_iff) finished]
  constructor
  · intro respected observation membership
    cases observation with
    | executed odb ods => exact respected odb ods membership
    | _ => trivial
  · exact fun respected odb ods membership => respected _ membership

/-- Orders to buy at 59, to sell at 60 and to buy at 70; the last is refused. -/
def refusedOrderRun : List Event :=
  [.firstLogin,
    .receive 0 "87|1|59|1|1|1|KKC".toList, .getOrder 10 true,
    .receive 0 "87|2|60|2|1|1|KKC".toList, .getOrder 20 true,
    .receive 0 "87|3|70|1|1|1|KKC".toList, .getOrder 30 true,
    .matchup]

/-- The buyer at 59 is executed at 60. -/
theorem buyer_pays_above_limit :
    ∃ last observations odb ods,
      (threads .literal).run .initial refusedOrderRun = some (last, observations) ∧
        .executed odb ods ∈ observations ∧ ¬ WithinLimits odb ods := by
  obtain ⟨last, observations, finished, violated⟩ :=
    Machine.exists_run_of_any (threads .literal) .initial refusedOrderRun
      (fun _ observations =>
        decide (∃ observation ∈ observations, ¬ observation.WithinLimits))
      (by decide +kernel)
  obtain ⟨observation, membership, outside⟩ := of_decide_eq_true violated
  cases observation with
  | executed odb ods => exact ⟨last, observations, odb, ods, finished, membership, outside⟩
  | _ => exact absurd trivial outside

theorem limits_respected_iff_refusedOrderRun :
    ∃ last observations,
      (threads .literal).run .initial refusedOrderRun = some (last, observations) ∧
        ((∀ odb ods, .executed odb ods ∈ observations → WithinLimits odb ods) ↔
          (threads .literal).Along SuitsPass .initial refusedOrderRun) := by
  obtain ⟨last, observations, finished, -⟩ :=
    Machine.exists_run_of_any (threads .literal) .initial refusedOrderRun
      (fun _ _ => true) (by decide +kernel)
  exact ⟨last, observations, finished, limits_respected_iff _ _ _ _ _ _ _ _ finished⟩

end InertiaTrader
