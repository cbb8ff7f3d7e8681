import InertiaTrader.Threads

/-!
# What the UPDATE statements touch

The rows of the table `Order` are distinct by nid and client serial number, but
the UPDATE statements select them by nid alone.
-/

namespace InertiaTrader

open Foundation

/-- The key of the row that `insertOrder` writes for an order. -/
def IsRowOf (server : MariaDB) (od : Order) (key : ℚ × ℤ) : Prop :=
  ∃ nid clientSerialNum, server.number od.nid = some nid ∧
    od.clientSerialNum = some clientSerialNum ∧ key = (server.float nid, clientSerialNum)

def OtherRowsKept (server : MariaDB) (state next : Threads) (od : Order) : Prop :=
  ∀ key, ¬ IsRowOf server od key →
    next.trader.db.order.find? key = state.trader.db.order.find? key

def Event.executesUpdate : Event → Bool
  | .getCancelOrder connected => connected
  | .sendReport _ updates => updates
  | _ => false

/-- An UPDATE that is executed selects no row of another order, unless that row
holds the value already. -/
def SelectsOwnRow (server : MariaDB) (state : Threads) (event : Event) (od : Order)
    (update : Update) : Prop :=
  ∀ assigned selected, event.executesUpdate = true → server.quoted update.value = some assigned →
    server.whereNid update.nid = some selected →
    ∀ row ∈ state.trader.db.order.rows, ¬ IsRowOf server od row.key → selected row = true →
      update.column.assign assigned row = row

/-- Every UPDATE of a step keeps the rows of other orders. -/
def UpdatesKeepOthers (server : MariaDB) (state : Threads) (event : Event) : Prop :=
  ∀ next observations, state.step server event = some (next, observations) →
    ∀ od update, .updated od update ∈ observations → OtherRowsKept server state next od

/-- Every UPDATE of a step selects nothing of other orders that it would change. -/
def UpdatesSelectOwn (server : MariaDB) (state : Threads) (event : Event) : Prop :=
  ∀ next observations, state.step server event = some (next, observations) →
    ∀ od update, .updated od update ∈ observations → SelectsOwnRow server state event od update

theorem otherRowsKept_iff {server : MariaDB} {state next : Threads} {event : Event}
    {observations : List Observation} {od : Order} {update : Update}
    (stepped : state.step server event = some (next, observations))
    (issued : .updated od update ∈ observations) :
    OtherRowsKept server state next od ↔ SelectsOwnRow server state event od update := by
  cases Threads.step_cases stepped with
  | communicates _ sr asking _ sends =>
      obtain ⟨cn, text, equality⟩ := sends _ issued
      cases equality
  | handlesOrder address connected rest connId od cn trader _ fresh handling =>
      cases handling <;> simp at issued
  | amends connected val rest trader _ popped amendment =>
      cases amendment with
      | cancelled chosen nid it order cn =>
          obtain ⟨rfl, rfl⟩ : od = order ∧ update = ⟨.orderSituation, nid, "3".toList⟩ := by
            simpa using issued
          exact updateColumn_frame_iff server connected .orderSituation nid "3".toList
            state.trader.db (IsRowOf server od)
      | modified nid price orderPrice it order cn =>
          obtain ⟨rfl, rfl⟩ : od = order ∧ update = ⟨.orderPrice, nid, price⟩ := by
            simpa using issued
          exact updateColumn_frame_iff server connected .orderPrice nid price
            state.trader.db (IsRowOf server od)
      | refused => simp at issued
  | sends inserts updates order connId execPrice clientSerialNum cn =>
      obtain ⟨rfl, rfl⟩ : od = order.order ∧
          update = ⟨.orderSituation, order.order.nid, "2".toList⟩ := by
        simpa using issued
      have framed := updateColumn_frame_iff server updates .orderSituation order.order.nid
        "2".toList (insertReport server inserts order.order.nid
          (toStringDouble order.order.orderPrice) (toStringDouble execPrice)
          (if order.order.side_ = some .buy then "1".toList else "2".toList)
          (toStringInt clientSerialNum) state.trader.db).2 (IsRowOf server order.order)
      rw [insertReport_order] at framed
      exact framed
  | rests | executes | pushes | reads | pops => simp at issued

/-- In every run: each UPDATE leaves the rows of all other orders alone exactly
when no other row with its nid is there to be changed. -/
theorem updates_keep_others_iff (server : MariaDB) (db : Database) (rc : RiskController)
    (nidSub1 : BitVec 32) (sr : Server) (events : List Event) :
    (threads server).Along (UpdatesKeepOthers server)
        (.start (.construct server db rc nidSub1 sr)) events ↔
      (threads server).Along (UpdatesSelectOwn server)
        (.start (.construct server db rc nidSub1 sr)) events := by
  refine (threads server).along_congr (fun state event => ?_) _ events
  constructor
  · intro kept next observations stepped od update issued
    exact (otherRowsKept_iff stepped issued).mp (kept next observations stepped od update issued)
  · intro selectsOwn next observations stepped od update issued
    exact (otherRowsKept_iff stepped issued).mpr
      (selectsOwn next observations stepped od update issued)

/-- The two orders of the market maker, up to the report of the first. -/
def marketMakerRun : List Event :=
  [.firstLogin,
    .receive 0 "87|313542|60|1|1|1|KKC|".toList, .getOrder 10 true,
    .receive 0 "87|313542|64|2|1|1|KKC|".toList, .getOrder 20 true,
    .matchup, .pushReport, .readReport]

/-- The report of the buy order marks the sell order, too, as executed. -/
theorem update_changes_other_row :
    ∃ before seen next observations od update key,
      (threads .literal).run .initial marketMakerRun = some (before, seen) ∧
        before.step .literal (.sendReport true true) = some (next, observations) ∧
        .updated od update ∈ observations ∧ ¬ IsRowOf .literal od key ∧
        next.trader.db.order.find? key ≠ before.trader.db.order.find? key := by
  obtain ⟨before, seen, ran, evaluated⟩ :=
    Machine.exists_run_of_any (threads .literal) .initial marketMakerRun
      (fun before _ =>
        (before.step .literal (.sendReport true true)).any
          fun (result : Threads × List Observation) => result.2.any fun
            | .updated od _ => decide (od.clientSerialNum = some 4294967297 ∧
                result.1.trader.db.order.find? (313542, 4294967298) ≠
                  before.trader.db.order.find? (313542, 4294967298))
            | _ => false)
      (by decide +kernel)
  obtain ⟨⟨next, observations⟩, stepped, isUpdated⟩ := (Option.any_eq_true ..).mp evaluated
  obtain ⟨observation, issued, holds⟩ := List.any_eq_true.mp isUpdated
  cases observation with
  | updated od update =>
      obtain ⟨serial, changed⟩ := of_decide_eq_true holds
      refine ⟨before, seen, next, observations, od, update, _, ran, stepped, issued, ?_, changed⟩
      rintro ⟨nid, clientSerialNum, -, numbered, sameKey⟩
      rw [serial, Option.some.injEq] at numbered
      rw [← numbered] at sameKey
      have serials : (4294967298 : ℤ) = 4294967297 := congrArg Prod.snd sameKey
      exact absurd serials (by decide)
  | _ => cases holds

end InertiaTrader
