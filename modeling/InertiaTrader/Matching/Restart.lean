import InertiaTrader.Matching.Simulation

/-!
# Restarting the process

`loadExistOrder` fills the vectors `buyside_` and `sellside_`, but `matchup`
reads the raw books.  A new process therefore executes none of the orders that
were live before.
-/

namespace InertiaTrader

open Foundation

/-- What has to survive of an order: its nid, side, price, symbol and serial
number. -/
def Order.identity (od : Order) : Text × Option Side × Price × Text × Option ℤ :=
  (od.nid, od.side_, od.orderPrice, od.symbol, od.clientSerialNum)

def Books.executable (books : Books) : List Order :=
  (books.rawBuyside.items ++ books.rawSellside.items).map OrderPtr.order

/-- The live orders: accepted in the run and not executed, or loaded from the
database and not cancelled. -/
def liveOrders (stopped : Trader) (observations : List Observation) : List Order :=
  ((insertedIn observations).filter fun order =>
      decide (order.address ∉ (executedIn observations).map OrderPtr.address)).map
        OrderPtr.order ++
    stopped.buyside.items ++ stopped.sellside.items

inductive Arrival where
  | accepted (order : OrderPtr)
  | refused (od : Order)
  | pass

def Arrival.events : Arrival → List BookEvent
  | .accepted order => [.received order.order, .orderDataInsert order]
  | .refused od => [.received od]
  | .pass => [.matchup]

def arrivals : Machine Matching Arrival BookOutput := matching.grouped Arrival.events

/-- What is executed and inserted from given books on. -/
def Books.later (books : Books) (arriving : List Arrival) : Option (List BookOutput) :=
  (arrivals.run { books with } arriving).map Prod.snd

/-- The new process can execute exactly the live orders, and goes on as the old
one would have. -/
structure RestartPreserves (stopped restarted : Trader) (observations : List Observation) :
    Prop where
  executable : (restarted.toBooks.executable.map Order.identity).Perm
    ((liveOrders stopped observations).map Order.identity)
  later : ∀ arriving, restarted.toBooks.later arriving = stopped.toBooks.later arriving

/-- Books that differ in nothing, or in the member `od` while nothing can be bought. -/
structure Matching.Alike (first second : Matching) : Prop where
  inserted : first.inserted = second.inserted
  rawBuyside : first.rawBuyside = second.rawBuyside
  rawSellside : first.rawSellside = second.rawSellside
  od : first.od = second.od ∨ first.rawBuyside.items = []

theorem Matching.Alike.toBooks_eq {first second : Matching} (alike : first.Alike second)
    (sameOd : first.od = second.od) : first.toBooks = second.toBooks :=
  Books.ext sameOd alike.rawBuyside alike.rawSellside

theorem arrivals_alike (first second : Matching) (arrival : Arrival) (alike : first.Alike second) :
    (arrivals.step first arrival = none ∧ arrivals.step second arrival = none) ∨
      ∃ first' second' outputs, arrivals.step first arrival = some (first', outputs) ∧
        arrivals.step second arrival = some (second', outputs) ∧ first'.Alike second' := by
  have received (od : Order) :
      Matching.Alike { first with od := some od } { second with od := some od } :=
    ⟨alike.inserted, alike.rawBuyside, alike.rawSellside, .inl rfl⟩
  cases arrival with
  | accepted order =>
      have sameBooks := (received order.order).toBooks_eq rfl
      by_cases taken : order.address ∈ first.inserted.map OrderPtr.address
      · have taken' : order.address ∈ second.inserted.map OrderPtr.address := alike.inserted ▸ taken
        refine .inl ⟨?_, ?_⟩ <;>
          simp only [arrivals, Machine.grouped, Arrival.events, Machine.run, matching,
            Matching.step, if_pos taken, if_pos taken']
      · have new' : order.address ∉ second.inserted.map OrderPtr.address := alike.inserted ▸ taken
        refine .inr ⟨_, _, _, matching_accept order taken, matching_accept order new', ?_⟩
        exact ⟨by rw [alike.inserted], congrArg (·.orderDataInsert order |>.rawBuyside) sameBooks,
          congrArg (·.orderDataInsert order |>.rawSellside) sameBooks,
          .inl (congrArg (·.orderDataInsert order |>.od) sameBooks)⟩
  | refused od => exact .inr ⟨_, _, _, rfl, rfl, received od⟩
  | pass =>
      have single (state : Matching) : arrivals.step state .pass = state.step .matchup :=
        matching.run_singleton state .matchup
      rw [single, single]
      rcases alike.od with sameOd | noBuys
      · have sameBooks := alike.toBooks_eq sameOd
        unfold Matching.step
        rw [← sameBooks]
        rcases first.toBooks.matchup with fault | ⟨toBooks, - | ⟨odb, ods⟩⟩
        · exact .inl ⟨rfl, rfl⟩
        · exact .inr ⟨_, _, _, rfl, rfl, alike.inserted, rfl, rfl, .inl rfl⟩
        · exact .inr ⟨_, _, _, rfl, rfl, alike.inserted, rfl, rfl, .inl rfl⟩
      · have noBuys' : second.rawBuyside.items = [] := alike.rawBuyside ▸ noBuys
        unfold Matching.step
        rw [Books.matchup_of_noBuys noBuys, Books.matchup_of_noBuys noBuys']
        exact .inr ⟨_, _, _, rfl, rfl, alike⟩

/-- Books that differ only in the order received last, with nothing to buy, show
the same whatever arrives. -/
theorem later_eq_of_noBuys {first second : Books} (sameBuyside : first.rawBuyside = second.rawBuyside)
    (sameSellside : first.rawSellside = second.rawSellside) (noBuys : first.rawBuyside.items = [])
    (arriving : List Arrival) : first.later arriving = second.later arriving :=
  have alike : Matching.Alike { first with } { second with } :=
    ⟨rfl, sameBuyside, sameSellside, .inr noBuys⟩
  arrivals.outputs_eq_of_bisimilar arrivals_alike alike arriving

theorem books_empty_of_nothing_live {server : MariaDB} {db : Database} {rc : RiskController}
    {nidSub1 : BitVec 32} {sr : Server} {events : List Event} {last : Threads}
    {observations : List Observation}
    (finished : (threads server).run (.start (.construct server db rc nidSub1 sr)) events =
      some (last, observations))
    (nothing : liveOrders last.trader observations = []) :
    last.trader.rawBuyside.items ++ last.trader.rawSellside.items = [] := by
  rw [List.eq_nil_iff_forall_not_mem]
  intro order resting
  obtain ⟨⟨original, inserted, same⟩, notExecuted⟩ := resting_inserted finished resting
  have sameAddress := congrArg OrderPtr.address same
  rw [OrderPtr.unexecuted_address, OrderPtr.unexecuted_address] at sameAddress
  have live : original.order ∈ liveOrders last.trader observations := by
    refine List.mem_append_left _ (List.mem_append_left _ (List.mem_map_of_mem ?_))
    exact List.mem_filter.mpr ⟨inserted, decide_eq_true (sameAddress ▸ notExecuted)⟩
  rw [nothing] at live
  exact List.not_mem_nil live

theorem nothing_live_of_preserves {server : MariaDB} {db : Database} {rc : RiskController}
    {nidSub1 : BitVec 32} {sr : Server} {stopped : Trader} {observations : List Observation}
    (preserves : RestartPreserves stopped (.construct server db rc nidSub1 sr) observations) :
    liveOrders stopped observations = [] := by
  have executable := preserves.executable
  rw [Trader.construct_toBooks] at executable
  exact List.map_eq_nil_iff.mp (List.nil_perm.mp executable)

/-- After any run, a new process over its tables preserves the live orders
exactly when there are none. -/
theorem restart_preserves_iff (server : MariaDB) (db : Database) (rc rc' : RiskController)
    (nidSub1 nidSub1' : BitVec 32) (sr sr' : Server) (events : List Event) (last : Threads)
    (observations : List Observation)
    (finished : (threads server).run (.start (.construct server db rc nidSub1 sr)) events =
      some (last, observations)) :
    RestartPreserves last.trader (.construct server last.trader.db rc' nidSub1' sr') observations ↔
      liveOrders last.trader observations = [] := by
  constructor
  · exact nothing_live_of_preserves
  · intro nothing
    obtain ⟨noBuys, noSells⟩ := List.append_eq_nil_iff.mp (books_empty_of_nothing_live finished nothing)
    constructor
    · rw [nothing, Trader.construct_toBooks]
      rfl
    · intro arriving
      rw [Trader.construct_toBooks]
      refine later_eq_of_noBuys ?_ ?_ rfl arriving
      · exact OrderedBag.ext noBuys.symm
      · exact OrderedBag.ext noSells.symm

/-- One order to buy was accepted; nothing was executed. -/
def restingOrderRun : List Event :=
  [.firstLogin, .receive 0 "87|1|60|1|1|1|KKC".toList, .getOrder 10 true]

theorem resting_order_lost :
    ∃ last observations,
      (threads .literal).run .initial restingOrderRun = some (last, observations) ∧
        last.trader.reportList = [] ∧
        ¬ RestartPreserves last.trader
          (.construct .literal last.trader.db .initial 2 Threads.initial.trader.sr) observations := by
  obtain ⟨last, observations, finished, evaluated⟩ :=
    Machine.exists_run_of_any (threads .literal) .initial restingOrderRun
      (fun last observations => decide (last.trader.reportList = [] ∧
        liveOrders last.trader observations ≠ []))
      (by decide +kernel)
  obtain ⟨reported, live⟩ := of_decide_eq_true evaluated
  exact ⟨last, observations, finished, reported,
    fun preserves => live (nothing_live_of_preserves preserves)⟩

theorem restart_preserves_iff_restingOrderRun :
    ∃ last observations,
      (threads .literal).run .initial restingOrderRun = some (last, observations) ∧
        (RestartPreserves last.trader
          (.construct .literal last.trader.db .initial 2 Threads.initial.trader.sr) observations ↔
            liveOrders last.trader observations = []) := by
  obtain ⟨last, observations, finished, -⟩ :=
    Machine.exists_run_of_any (threads .literal) .initial restingOrderRun
      (fun _ _ => true) (by decide +kernel)
  exact ⟨last, observations, finished, restart_preserves_iff _ _ _ _ _ _ _ _ _ _ _ finished⟩

end InertiaTrader
