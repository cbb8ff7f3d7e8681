import InertiaTrader.Exchange.Basic
import InertiaTrader.Orders.HeldOrders
import InertiaTrader.Server.NewAccounts

/-!
# Accounts and orders

An account never changes: neither what it buys nor what another client sends makes its
balance larger or smaller.  What an order is compared with is therefore the balance
with which the account was opened.
-/

namespace InertiaTrader

open Foundation

/-- The account is one of those the exchange started with, or comes from a `1238`
message. -/
def Opened (userList : Accounts) (seen : List ExchangeOutput) (user : Text)
    (account : Account) : Prop :=
  userList.lookup user = some account ∨
    ∃ cn msg users, .login cn msg users ∈ seen ∧ newAccount msg = some account ∧
      account.userID = user

/-- The price of the order times a thousand is below the balance of an account. -/
def WithinBalance (userList : Accounts) (order : Order) : Prop :=
  ∃ user account, userList.lookup user = some account ∧
    order.orderPrice.scale 1000 < account.balance

structure Accounted (userList : Accounts) (state : Exchange) (seen : List ExchangeOutput) :
    Prop where
  keys : (state.userList.map Prod.fst).Nodup
  balances : state.sr.userList = state.userList.balances
  kept : ∀ user account, userList.lookup user = some account →
    state.userList.lookup user = some account
  opened : ∀ user account, state.userList.lookup user = some account →
    Opened userList seen user account
  orders : ∀ order, .shown (.inserted order) ∈ seen → WithinBalance state.userList order.order

section

variable {user : Text} {account ud : Account} {userList after : Accounts}

theorem lookup_insertNew_of_some {key : Text} (distinct : (userList.map Prod.fst).Nodup)
    (known : userList.lookup user = some account) :
    (insertNew key ud userList).lookup user = some account := by
  by_cases taken : key ∈ userList.map Prod.fst
  · rwa [insertNew, if_pos taken]
  · rw [lookup_eq_some_iff_mem (insertNew_nodup ud distinct), (insertNew_perm ud taken).mem_iff]
    exact List.mem_cons_of_mem _ ((lookup_eq_some_iff_mem distinct).mp known)

theorem lookup_insertNew_cases {key : Text} (distinct : (userList.map Prod.fst).Nodup)
    (known : (insertNew key ud userList).lookup user = some account) :
    userList.lookup user = some account ∨ user = key ∧ account = ud := by
  by_cases taken : key ∈ userList.map Prod.fst
  · rw [insertNew, if_pos taken] at known
    exact .inl known
  · rw [lookup_eq_some_iff_mem (insertNew_nodup ud distinct), (insertNew_perm ud taken).mem_iff,
      List.mem_cons, Prod.mk.injEq] at known
    exact known.symm.imp_left (lookup_eq_some_iff_mem distinct).mpr

theorem lookup_balances (userList : Accounts) (user : Text) :
    userList.balances.lookup user = (userList.lookup user).map Account.toUserData := by
  induction userList with
  | nil => rfl
  | cons entry rest inductionHypothesis =>
      rw [Accounts.balances, List.map_cons, List.lookup_cons, List.lookup_cons,
        ← Accounts.balances, inductionHypothesis]
      split <;> rfl

theorem userList_of_loginMsgHandle {draws : ℕ × ℕ} {added : Bool} {msg : Text}
    {cn cn' : Connection} {sent : List Text}
    (answered : loginMsgHandle draws added msg userList cn = .ok (after, cn', sent)) :
    after = userList ∨
      ∃ ud, newAccount msg = some ud ∧ after = insertNew ud.userID ud userList := by
  unfold loginMsgHandle at answered
  dsimp only at answered
  split at answered
  next =>
    obtain ⟨_, -, returned⟩ := bind_eq_ok_iff.mp answered
    cases returned
    exact .inl rfl
  next =>
    split at answered
    next code =>
      obtain ⟨users, ran, returned⟩ := bind_eq_ok_iff.mp answered
      cases returned
      obtain ⟨userID, userField, ran⟩ := bind_eq_ok_iff.mp ran
      obtain ⟨password, passwordField, ran⟩ := bind_eq_ok_iff.mp ran
      obtain ⟨balanceText, balanceField, ran⟩ := bind_eq_ok_iff.mp ran
      split at ran
      next =>
        cases ran
        exact .inl rfl
      next balance balanceRead =>
        obtain ⟨valueText, valueField, ran⟩ := bind_eq_ok_iff.mp ran
        split at ran
        next =>
          cases ran
          exact .inl rfl
        next bookValue valueRead =>
          cases added with
          | false =>
              cases ran
              exact .inl rfl
          | true =>
              cases ran
              rw [field_eq_ok_iff] at userField passwordField balanceField valueField
              refine .inr ⟨{ userID, password, balance, bookValue }, ?_, rfl⟩
              simp only [newAccount, code, if_true, userField, passwordField, balanceField,
                valueField, Option.bind_some, balanceRead, valueRead]
    next =>
      cases answered
      exact .inl rfl

end

section

variable {server : MariaDB} {userList : Accounts} {state next : Exchange}
    {event : ExchangeEvent} {seen outputs : List ExchangeOutput}

theorem Accounted.quiet (accounted : Accounted userList state seen)
    (users : next.userList = state.userList) (balances : next.sr.userList = state.sr.userList)
    (within : ∀ order, .shown (.inserted order) ∈ outputs →
      WithinBalance state.userList order.order) :
    Accounted userList next (seen ++ outputs) where
  keys := users ▸ accounted.keys
  balances := by rw [balances, users, accounted.balances]
  kept := users ▸ accounted.kept
  opened user account known := by
    rw [users] at known
    rcases accounted.opened user account known with initially | ⟨cn, msg, others, called, opened⟩
    · exact .inl initially
    · exact .inr ⟨cn, msg, others, List.mem_append_left _ called, opened⟩
  orders order inserted := by
    rw [users]
    exact (List.mem_append.mp inserted).elim (accounted.orders order) (within order)

theorem withinBalance_of_inserted {threads : Threads} {event : Event}
    {observations : List Observation} {order : OrderPtr}
    (balances : state.sr.userList = state.userList.balances)
    (stepped : state.threads.step server event = some (threads, observations))
    (inserted : .inserted order ∈ observations) :
    WithinBalance state.userList order.order := by
  obtain ⟨-, accepts⟩ := accepts_of_inserted stepped inserted
  obtain ⟨connId, cn, user, -, -, known, sufficient⟩ := accepts.sufficient
  change state.sr.userList.lookup _ = some user at known
  rw [balances, lookup_balances, Option.map_eq_some_iff] at known
  obtain ⟨account, listed, rfl⟩ := known
  exact ⟨_, account, listed, sufficient⟩

theorem accounted_step (accounted : Accounted userList state seen)
    (stepped : state.step server event = some (next, outputs)) :
    Accounted userList next (seen ++ outputs) := by
  cases Exchange.step_cases stepped with
  | callsLogin cn recvStr draws added users connection sent _ _ _ _ answered =>
      have noOrder : ∀ order, ExchangeOutput.shown (.inserted order) ∉
          .login cn (reassemble (state.tempStr cn) recvStr).1 state.userList ::
            sent.map (.written cn) := by simp
      rcases userList_of_loginMsgHandle answered with rfl | ⟨ud, described, rfl⟩
      · exact accounted.quiet rfl accounted.balances.symm fun order inserted =>
          absurd inserted (noOrder order)
      · constructor
        · exact insertNew_nodup ud accounted.keys
        · rfl
        · intro user account initially
          exact lookup_insertNew_of_some accounted.keys (accounted.kept user account initially)
        · intro user account known
          rcases lookup_insertNew_cases accounted.keys known with earlier | ⟨rfl, rfl⟩
          · rcases accounted.opened user account earlier with
              initially | ⟨cn', msg, others, called, opened⟩
            · exact .inl initially
            · exact .inr ⟨cn', msg, others, List.mem_append_left _ called, opened⟩
          · exact .inr ⟨cn, _, _, List.mem_append_right _ List.mem_cons_self, described, rfl⟩
        · intro order inserted
          have earlier := (List.mem_append.mp inserted).resolve_right (noOrder order)
          obtain ⟨user, account, known, within⟩ := accounted.orders order earlier
          exact ⟨user, account, lookup_insertNew_of_some accounted.keys known, within⟩
  | hands cn text rest =>
      refine accounted.quiet rfl ?_ (by simp)
      obtain ⟨dq, dqOrderhandle, routed⟩ :=
        Server.route_sr state.sr (Server.addressed text (state.sr.connections cn))
      change (Server.route _ _).1.userList = _
      rw [routed]
  | trades event threads observations isTrading traded =>
      refine accounted.quiet rfl ?_ ?_
      · obtain ⟨dq, dqOrderhandle, quotesList, same⟩ := Threads.sr_of_trading isTrading traded
        change threads.trader.sr.userList = _
        rw [same]
        rfl
      · intro order inserted
        obtain ⟨_, listed, same⟩ := List.mem_map.mp inserted
        cases same
        exact withinBalance_of_inserted accounted.balances traded listed
  | accepts | stopsReceiving | cuts | strays | answersPrice | fails | beats | stopsBeating =>
      exact accounted.quiet rfl rfl (by simp)

theorem accounted_run {db : Database} {rc : RiskController} {nidSub1 : BitVec 32}
    {connections : ConnRef → Connection} {events : List ExchangeEvent} {last : Exchange}
    (distinct : (userList.map Prod.fst).Nodup)
    (finished : (exchange server).run (.start server db rc nidSub1 userList connections) events =
      some (last, outputs)) : Accounted userList last outputs := by
  have initially : Accounted userList (.start server db rc nidSub1 userList connections) [] := by
    refine ⟨distinct, ?_, fun _ _ known => known, fun _ _ known => .inl known, ?_⟩
    · obtain ⟨buyside, sellside, equality⟩ := Trader.construct_eq server db rc nidSub1
        (.construct userList.balances connections)
      rw [Exchange.sr, Exchange.start, Threads.start, equality]
      rfl
    · intro order inserted
      cases inserted
  apply (exchange server).invariant_of_run (Accounted userList) _ initially finished
  intro state seen event next shown holds stepped
  exact accounted_step holds stepped

theorem kept_at_login {db : Database} {rc : RiskController} {nidSub1 : BitVec 32}
    {connections : ConnRef → Connection} {events : List ExchangeEvent} {last : Exchange}
    {cn : ConnRef} {msg : Text} {users : Accounts} (distinct : (userList.map Prod.fst).Nodup)
    (finished : (exchange server).run (.start server db rc nidSub1 userList connections) events =
      some (last, outputs)) (called : .login cn msg users ∈ outputs) :
    ∀ user account, userList.lookup user = some account → users.lookup user = some account := by
  obtain ⟨earlier, event, rest, middle, seen, next, shown, -, reached, stepped, now⟩ :=
    (exchange server).exists_step_of_mem finished called
  have kept := (accounted_run distinct reached).kept
  cases Exchange.step_cases stepped with
  | callsLogin | strays =>
      simp only [List.mem_cons, ExchangeOutput.login.injEq, List.mem_map, reduceCtorEq, and_false,
        exists_false, or_false] at now
      obtain ⟨-, -, rfl⟩ := now
      exact kept
  | answersPrice | trades => simp at now
  | accepts | stopsReceiving | cuts | hands | fails | beats | stopsBeating => simp at now

end

/-- In every run: the accounts of the start are there unchanged, every other one comes
from a `1238` message, and every order that was ever put into a book is one that the
balance of one of these accounts covers, whatever was bought and sold before. -/
theorem orders_within_balances (server : MariaDB) (db : Database) (rc : RiskController)
    (nidSub1 : BitVec 32) (userList : Accounts) (connections : ConnRef → Connection)
    (events : List ExchangeEvent) (last : Exchange) (outputs : List ExchangeOutput)
    (distinct : (userList.map Prod.fst).Nodup)
    (finished : (exchange server).run (.start server db rc nidSub1 userList connections) events =
      some (last, outputs)) :
    (∀ user account, userList.lookup user = some account →
        last.userList.lookup user = some account) ∧
      (∀ user account, last.userList.lookup user = some account →
        Opened userList outputs user account) ∧
      ∀ order, .shown (.inserted order) ∈ outputs → WithinBalance last.userList order.order := by
  have accounted := accounted_run distinct finished
  exact ⟨accounted.kept, accounted.opened, accounted.orders⟩

def newUserRun : List ExchangeEvent :=
  [.acceptConn 0 5 false, .recvfrom 0 (some "1238|42|7|100000|0|&".toList) (0, 0) true,
    .recvfrom 0 (some "1234|42|7|&".toList) (1, 2) false,
    .recvfrom 0 (some "87|1|60|1|1|1|KKC|&".toList) (0, 0) false, .msgHandler 0,
    .trading (.getOrder 10 true)]

theorem orders_within_balances_newUserRun :
    ∃ last outputs, (exchange .literal).run .initial newUserRun = some (last, outputs) ∧
      last.userList.length = 2 ∧ last.threads.trader.rawBuyside.items.length = 1 ∧
      ∀ order, .shown (.inserted order) ∈ outputs →
        WithinBalance last.userList order.order := by
  obtain ⟨last, outputs, finished, evaluated⟩ :=
    Machine.exists_run_of_any (exchange .literal) .initial newUserRun
      (fun last _ => decide (last.userList.length = 2 ∧
        last.threads.trader.rawBuyside.items.length = 1)) (by decide +kernel)
  obtain ⟨users, orders⟩ := of_decide_eq_true evaluated
  have distinct : (Accounts.initial.map Prod.fst).Nodup := List.nodup_singleton _
  exact ⟨last, outputs, finished, users, orders,
    (orders_within_balances _ _ _ _ _ _ _ _ _ distinct finished).2.2⟩

end InertiaTrader
