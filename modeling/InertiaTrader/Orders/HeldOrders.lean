import InertiaTrader.Reports.Reporting

/-!
# The orders a process holds

An order that can still be matched or reported was accepted by `getOrder` at
some earlier step, and nothing but its execution price has changed since then.
-/

namespace InertiaTrader

open Foundation

def Reporter.orders : Reporter → List OrderPtr
  | .read order => [order]
  | .idle | .sent => []

/-- All orders that can still be matched or reported. -/
def Threads.held (threads : Threads) : List OrderPtr :=
  threads.trader.rawBuyside.items ++ threads.trader.rawSellside.items ++ threads.pushing ++
    threads.trader.reportList ++ threads.reporter.orders

/-- The next message becomes this order, and it passes both tests of `getOrder`. -/
structure Trader.Accepts (trader : Trader) (order : Order) : Prop where
  built : ∃ msg rest od, trader.sr.dq = msg :: rest ∧ newOrder (split msg "|".toList) = .ok od ∧
    order = trader.acceptedOrder od
  verified : trader.rc.rejects order = false
  sufficient : ∃ connId cn user, order.connId = some connId ∧
    trader.sr.getConnObject connId = some cn ∧
    trader.sr.userList.lookup (trader.sr.connections cn).username = some user ∧
    order.orderPrice.scale 1000 < user.balance

theorem Trader.Accepts.message {trader : Trader} {order : Order} (accepts : trader.Accepts order)
    {msg : Text} {rest : List Text} (queued : trader.sr.dq = msg :: rest) :
    (split msg "|".toList)[1]? = some order.nid ∧
      (split msg "|".toList)[2]?.bind stod = some order.orderPrice := by
  obtain ⟨msg', rest', od, queued', built, rfl⟩ := accepts.built
  obtain ⟨rfl, -⟩ := List.cons.inj (queued.symm.trans queued')
  obtain ⟨_, _, _, _, _, _, _, _, nidField, priceField, priceRead, _, _, _, _, _, rfl⟩ :=
    newOrder_eq_ok_iff.mp built
  rw [acceptedOrder_nid, acceptedOrder_orderPrice]
  exact ⟨nidField, by rw [priceField, Option.bind_some, priceRead]⟩

theorem Trader.Accepts.execPrice {trader : Trader} {order : Order}
    (accepts : trader.Accepts order) : order.execPrice = none := by
  obtain ⟨msg, rest, od, -, built, rfl⟩ := accepts.built
  rw [acceptedOrder_execPrice, newOrder_execPrice built]

theorem Trader.Accepts.userID {trader : Trader} {order : Order}
    (accepts : trader.Accepts order) : order.userID = "0324027".toList := by
  obtain ⟨msg, rest, od, -, built, rfl⟩ := accepts.built
  rw [acceptedOrder_userID, newOrder_userID built]

section

variable {server : MariaDB} {state next last : Threads} {event : Event} {events : List Event}
    {observations : List Observation}

theorem rc_step (stepped : state.step server event = some (next, observations)) :
    next.trader.rc = state.trader.rc := by
  cases Threads.step_cases stepped with
  | handlesOrder address connected rest connId od cn trader _ fresh handling =>
      cases handling <;> rfl
  | amends connected val rest trader _ popped amendment =>
      cases amendment with
      | cancelled chosen => cases chosen <;> rfl
      | modified | refused => rfl
  | communicates | rests | executes | pushes | reads | sends | pops => rfl

theorem accepts_of_inserted {order : OrderPtr}
    (stepped : state.step server event = some (next, observations))
    (inserted : .inserted order ∈ observations) :
    (∃ connected, event = .getOrder order.address connected) ∧
      state.trader.Accepts order.order := by
  obtain ⟨address, connected, rfl⟩ := Threads.inserted_of_step stepped inserted
  rcases Threads.getOrder_step stepped with
    ⟨-, -, rfl⟩ | ⟨msg, rest, od, connId, cn, trader, -, popped, built, addressed, found,
      handling, -⟩
  · simp at inserted
  · cases handling with
    | failed | insufficient => simp at inserted
    | accepted username verified tested =>
        simp only [List.mem_cons, reduceCtorEq, Observation.inserted.injEq, List.not_mem_nil,
          or_false, false_or] at inserted
        subst inserted
        obtain ⟨rfl, user, known, enough⟩ := Trader.balanceTest_eq_ok found tested
        refine ⟨⟨connected, rfl⟩, ⟨msg, rest, od, popped, built, rfl⟩, ?_, connId, cn, user, ?_,
          found, known, ?_⟩
        · exact (Trader.rejects_acceptedOrder ..).trans verified
        · exact (Trader.acceptedOrder_connId _ _).trans addressed
        · change (state.trader.acceptedOrder od).orderPrice.scale 1000 < user.balance
          rw [Trader.acceptedOrder_orderPrice]
          exact of_decide_eq_true enough.symm

theorem inserted_of_accepts {address : ℕ} {connected : Bool} {order : Order}
    (stepped : state.step server (.getOrder address connected) = some (next, observations))
    (accepts : state.trader.Accepts order) :
    .inserted ⟨address, order⟩ ∈ observations ∧
      .insertOrderToDB (Trader.newOrderData order state.trader.generateNid.1) ∈ observations := by
  obtain ⟨msg, rest, od, popped, built, rfl⟩ := accepts.built
  rcases Threads.getOrder_step stepped with
    ⟨empty, -, -⟩ | ⟨msg', rest', od', connId, cn, trader, -, popped', built', addressed, found,
      handling, -⟩
  · rw [popped] at empty
    cases empty
  · obtain ⟨rfl, rfl⟩ := List.cons.inj (popped.symm.trans popped')
    obtain rfl := Except.ok.inj (built.symm.trans built')
    have verified := accepts.verified
    rw [Trader.rejects_acceptedOrder] at verified
    cases handling with
    | failed rejected => exact absurd (verified.symm.trans rejected) Bool.false_ne_true
    | insufficient username _ tested =>
        obtain ⟨connId', cn', user', addressed', found', known', enough⟩ := accepts.sufficient
        rw [Trader.acceptedOrder_connId, addressed, Option.some.injEq] at addressed'
        subst addressed'
        obtain rfl : cn = cn' := Option.some.inj (found.symm.trans found')
        obtain ⟨rfl, user, known, short⟩ := Trader.balanceTest_eq_ok found tested
        obtain rfl : user = user' := Option.some.inj (known.symm.trans known')
        rw [Trader.acceptedOrder_orderPrice] at enough
        exact absurd enough (of_decide_eq_false short.symm)
    | accepted => exact ⟨.tail _ (.head _), .tail _ (.tail _ (.head _))⟩

theorem inserted_of_insertOrderToDB {odt : OrderData}
    (stepped : state.step server event = some (next, observations))
    (handedOver : .insertOrderToDB odt ∈ observations) :
    ∃ order, .inserted order ∈ observations ∧
      odt = Trader.newOrderData order.order state.trader.generateNid.1 := by
  cases Threads.step_cases stepped with
  | communicates _ sr asking _ sends =>
      obtain ⟨cn, text, equality⟩ := sends _ handedOver
      cases equality
  | handlesOrder address connected rest connId od cn trader _ fresh handling =>
      cases handling with
      | failed | insufficient => simp at handedOver
      | accepted =>
          simp only [List.mem_cons, reduceCtorEq, Observation.insertOrderToDB.injEq,
            List.not_mem_nil, or_false, false_or] at handedOver
          exact ⟨_, .tail _ (.head _), handedOver⟩
  | amends connected val rest trader _ popped amendment =>
      cases amendment <;> simp at handedOver
  | rests | executes | pushes | reads | sends | pops => simp at handedOver

theorem mem_held_of_resting {threads : Threads} {order : OrderPtr}
    (resting : order ∈ threads.trader.rawBuyside.items ++ threads.trader.rawSellside.items) :
    order ∈ threads.held :=
  List.mem_append_left _ (List.mem_append_left _ (List.mem_append_left _ resting))

theorem held_step {order : OrderPtr}
    (stepped : state.step server event = some (next, observations)) (held : order ∈ next.held) :
    order ∈ state.held ∨ .inserted order ∈ observations ∨
      ∃ original ∈ state.held, ∃ sell ∈ state.held,
        order = original.withExecPrice sell.order.orderPrice := by
  cases Threads.step_cases stepped with
  | communicates | rests => exact .inl held
  | handlesOrder address connected rest connId od cn trader _ fresh handling =>
      cases handling with
      | failed | insufficient => exact .inl held
      | accepted =>
          simp only [Threads.held, Trader.afterAccept, Books.orderDataInsert] at held ⊢
          split at held <;>
            simp only [List.mem_append, OrderedBag.mem_insert_items, List.mem_cons] at held ⊢ <;>
            tauto
  | amends connected val rest trader _ popped amendment =>
      cases amendment with
      | cancelled chosen => cases chosen <;> exact .inl held
      | modified | refused => exact .inl held
  | executes toBooks odb ods sr waiting pass =>
      obtain ⟨buy, sell, rfl, rfl, buyRemoved, sellRemoved⟩ := pass.removes
      have buyHeld : buy ∈ state.held :=
        mem_held_of_resting (List.mem_append_left _ (buyRemoved.subset (by simp)))
      have sellHeld : sell ∈ state.held :=
        mem_held_of_resting (List.mem_append_right _ (sellRemoved.subset (by simp)))
      simp only [Threads.held, List.mem_append, List.mem_cons, List.not_mem_nil, or_false] at held
      rcases held with (((isBuy | isSell) | rfl | rfl) | listed) | reporting
      · have before := buyRemoved.subset (List.mem_cons_of_mem buy isBuy)
        exact .inl (mem_held_of_resting (List.mem_append_left _ before))
      · have before := sellRemoved.subset (List.mem_cons_of_mem sell isSell)
        exact .inl (mem_held_of_resting (List.mem_append_right _ before))
      · exact .inr (.inr ⟨buy, buyHeld, sell, sellHeld, rfl⟩)
      · exact .inr (.inr ⟨sell, sellHeld, sell, sellHeld, rfl⟩)
      · exact .inl (by simp [Threads.held, listed])
      · exact .inl (by simp [Threads.held, reporting])
  | pushes order pushing waiting =>
      left
      simp only [Threads.held, Trader.pushReport, waiting, List.mem_append, List.mem_cons,
        List.not_mem_nil, or_false] at held ⊢
      tauto
  | reads order idle isLast =>
      have listed := List.mem_of_getLast? isLast
      left
      simp only [Threads.held, Reporter.orders, idle, List.mem_append, List.mem_cons,
        List.not_mem_nil, or_false] at held ⊢
      rcases held with held | rfl
      · exact held
      · exact .inr listed
  | sends inserts updates order connId execPrice clientSerialNum cn reading =>
      left
      simp only [Threads.held, Reporter.orders, List.append_nil] at held ⊢
      exact List.mem_append_left _ held
  | pops sent =>
      left
      simp only [Threads.held, Reporter.orders, List.append_nil, List.mem_append] at held ⊢
      rcases held with held | listed
      · exact .inl (.inl held)
      · exact .inl (.inr (List.mem_of_mem_dropLast listed))

theorem executed_held {order : OrderPtr}
    (stepped : state.step server event = some (next, observations))
    (executed : order ∈ executedIn observations) : order ∈ next.held := by
  obtain ⟨odb, ods, shown, isOne⟩ := mem_executedIn.mp executed
  obtain rfl := Threads.executed_of_step stepped shown
  rcases Threads.matchup_step stepped with
    ⟨-, -, rfl⟩ | ⟨toBooks, buy, sell, sr, -, -, rfl, rfl⟩
  · cases shown
  · cases List.mem_singleton.mp shown
    simp only [Threads.held, List.mem_append, List.mem_cons, List.not_mem_nil, or_false]
    exact .inl (.inl (.inr isOne))

theorem reported_held {order : OrderPtr}
    (stepped : state.step server event = some (next, observations))
    (reported : order ∈ reportedIn observations) : order ∈ state.held := by
  have step := reportStep stepped
  generalize pushedIn observations = pushes at step
  generalize reportedIn observations = reports at step reported
  cases step with
  | sends inserts updates current reading =>
      rw [List.mem_singleton] at reported
      subst reported
      simp [Threads.held, Reporter.orders, reading]
  | other | pushes | reads | pops => cases reported

/-- What every order put into a book has, and no execution price destroys, holds
of all orders that are held, executed or reported. -/
theorem held_run (property : OrderPtr → Prop) {db : Database} {rc : RiskController}
    {nidSub1 : BitVec 32} {sr : Server}
    (priced : ∀ order sell, property order → property sell →
      property (order.withExecPrice sell.order.orderPrice))
    (finished : (threads server).run (.start (.construct server db rc nidSub1 sr)) events =
      some (last, observations))
    (accepted : ∀ order ∈ insertedIn observations, property order) :
    (∀ order ∈ last.held, property order) ∧
      (∀ order ∈ executedIn observations, property order) ∧
      ∀ order ∈ reportedIn observations, property order := by
  revert accepted
  apply (threads server).invariant_of_run
    (fun current seen => (∀ order ∈ insertedIn seen, property order) →
      (∀ order ∈ current.held, property order) ∧
        (∀ order ∈ executedIn seen, property order) ∧
        ∀ order ∈ reportedIn seen, property order) _ _ finished
  · intro state seen event next observations holds stepped accepted
    simp only [insertedIn_append, List.mem_append, or_imp, forall_and] at accepted
    obtain ⟨before, now⟩ := accepted
    obtain ⟨held, executed, reported⟩ := holds before
    have heldNext : ∀ order ∈ next.held, property order := by
      intro order isHeld
      rcases held_step stepped isHeld with
        already | new | ⟨original, originalHeld, sell, sellHeld, rfl⟩
      · exact held order already
      · exact now order (mem_insertedIn.mpr new)
      · exact priced original sell (held original originalHeld) (held sell sellHeld)
    simp only [executedIn_append, reportedIn_append, List.mem_append, or_imp, forall_and]
    refine ⟨heldNext, ⟨executed, ?_⟩, reported, ?_⟩
    · intro order now
      exact heldNext order (executed_held stepped now)
    · intro order now
      exact held order (reported_held stepped now)
  · intro _
    obtain ⟨buyside, sellside, equality⟩ := Trader.construct_eq server db rc nidSub1 sr
    rw [equality]
    refine ⟨?_, ?_, ?_⟩ <;> intro order isListed <;> cases isListed

theorem rc_run (finished : (threads server).run state events = some (last, observations)) :
    last.trader.rc = state.trader.rc := by
  apply (threads server).invariant_of_run
    (fun current _ => current.trader.rc = state.trader.rc) _ rfl finished
  intro current _ event next observations same stepped
  rw [rc_step stepped, same]

end

end InertiaTrader
