import InertiaTrader.Orders.HeldOrders

/-!
# Buying power

The balance test looks at the price of one order.  Nothing is reserved for the
orders that were accepted before, and no balance ever changes.
-/

namespace InertiaTrader

open Foundation

/-- A thousand times the limit of a BUY order. -/
def Order.committed (order : Order) : ℚ :=
  match order.side_, order.orderPrice with
  | some .buy, .fin price => price * 1000
  | _, _ => 0

/-- What these orders need to be paid, all of them executed. -/
def committed (orders : List OrderPtr) : ℚ :=
  (orders.map fun order => order.order.committed).sum

/-- The step puts exactly those orders into a book that, each by itself, pass the
risk control and cost less than the balance of the user of their connection. -/
def TestsAlone (state : Threads) (event : Event) (_ : Threads) (observations : List Observation) :
    Prop :=
  ∀ order, .inserted order ∈ observations ↔
    (∃ connected, event = .getOrder order.address connected) ∧ state.trader.Accepts order.order

/-- A step of the run has put the order into a book, and it passed both tests in
the state of that step. -/
def AcceptedAlone (server : MariaDB) (start : Threads) (events : List Event)
    (order : OrderPtr) : Prop :=
  ∃ (earlier rest : List Event) (event : Event) (middle next : Threads)
    (seen shown : List Observation) (original : OrderPtr),
    events = earlier ++ event :: rest ∧
    (threads server).run start earlier = some (middle, seen) ∧
    middle.step server event = some (next, shown) ∧ .inserted original ∈ shown ∧
    order.unexecuted = original.unexecuted ∧ middle.trader.Accepts original.order

theorem testsAlone_of_step {server : MariaDB} {state next : Threads} {event : Event}
    {observations : List Observation}
    (stepped : state.step server event = some (next, observations)) :
    TestsAlone state event next observations := by
  intro order
  constructor
  · exact accepts_of_inserted stepped
  · rintro ⟨⟨connected, rfl⟩, accepts⟩
    exact (inserted_of_accepts stepped accepts).1

/-- Every order that can trade or has traded was covered by the balance of its
user when it was accepted, and acceptance looks at nothing but this order. -/
theorem buying_power_per_order (server : MariaDB) (db : Database) (rc : RiskController)
    (nidSub1 : BitVec 32) (sr : Server) (events : List Event) (last : Threads)
    (observations : List Observation)
    (finished : (threads server).run (.start (.construct server db rc nidSub1 sr)) events =
      some (last, observations)) :
    (∀ order ∈ last.held ++ executedIn observations,
        AcceptedAlone server (.start (.construct server db rc nidSub1 sr)) events order) ∧
      (threads server).EachStep TestsAlone (.start (.construct server db rc nidSub1 sr))
        events := by
  constructor
  · have accepted : ∀ order ∈ insertedIn observations,
        AcceptedAlone server (.start (.construct server db rc nidSub1 sr)) events order := by
      intro order inserted
      obtain ⟨earlier, event, rest, middle, seen, next, shown, split, reached, stepped, now⟩ :=
        (threads server).exists_step_of_mem finished (mem_insertedIn.mp inserted)
      exact ⟨earlier, rest, event, middle, next, seen, shown, order, split, reached, stepped, now,
        rfl, (accepts_of_inserted stepped now).2⟩
    -- An execution price does not count in the comparison with the original.
    obtain ⟨held, executed, -⟩ := held_run
      (AcceptedAlone server (.start (.construct server db rc nidSub1 sr)) events)
      (fun _ _ acceptedAlone _ => acceptedAlone) finished accepted
    intro order listed
    rcases List.mem_append.mp listed with isHeld | isExecuted
    · exact held order isHeld
    · exact executed order isExecuted
  · apply (threads server).along_of_forall
    intro state event next observations stepped
    exact testsAlone_of_step stepped

/-- One user with a balance of 100000. -/
def smallAccount : List (Text × UserData) := [("0324027".toList, ⟨.fin 100000⟩)]

def Threads.smallAccount : Threads :=
  .start (.construct .literal .initial .initial 1
    (.construct InertiaTrader.smallAccount fun _ => ⟨0, [], false⟩))

/-- Two BUY orders of this user for 60000 each. -/
def twoBuysRun : List Event :=
  [.connect [(0, 0)] (fun _ => ⟨0, "0324027".toList, true⟩) smallAccount,
    .receive 0 "87|1|60|1|1|1|KKC".toList, .getOrder 10 true,
    .receive 0 "87|2|60|1|1|1|KKC".toList, .getOrder 20 true]

/-- Both rest in the book, and together they need 120000. -/
theorem buying_power_exceeded :
    ∃ last observations,
      (threads .literal).run .smallAccount twoBuysRun = some (last, observations) ∧
        last.trader.sr.getConnObject 0 = some 0 ∧
        last.trader.sr.userList.lookup (last.trader.sr.connections 0).username =
          some ⟨.fin 100000⟩ ∧
        (∀ order ∈ last.trader.rawBuyside.items, order.order.connId = some 0) ∧
        100000 < committed last.trader.rawBuyside.items := by
  obtain ⟨last, observations, finished, evaluated⟩ :=
    Machine.exists_run_of_any (threads .literal) .smallAccount twoBuysRun
      (fun last _ => decide (last.trader.sr.getConnObject 0 = some 0 ∧
        last.trader.sr.userList.lookup (last.trader.sr.connections 0).username =
          some ⟨.fin 100000⟩ ∧
        (∀ order ∈ last.trader.rawBuyside.items, order.order.connId = some 0) ∧
        100000 < committed last.trader.rawBuyside.items)) (by decide +kernel)
  exact ⟨last, observations, finished, of_decide_eq_true evaluated⟩

theorem buying_power_per_order_twoBuysRun :
    ∃ last observations,
      (threads .literal).run .smallAccount twoBuysRun = some (last, observations) ∧
        (∀ order ∈ last.held ++ executedIn observations,
          AcceptedAlone .literal .smallAccount twoBuysRun order) ∧
        (threads .literal).EachStep TestsAlone .smallAccount twoBuysRun := by
  obtain ⟨last, observations, finished, -⟩ :=
    Machine.exists_run_of_any (threads .literal) .smallAccount twoBuysRun
      (fun _ _ => true) (by decide +kernel)
  exact ⟨last, observations, finished, buying_power_per_order _ _ _ _ _ _ _ _ finished⟩

end InertiaTrader
