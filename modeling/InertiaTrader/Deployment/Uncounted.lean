import InertiaTrader.Deployment.Basic
import InertiaTrader.Exchange.Refinement
import InertiaTrader.Foundation.MaximalRuns
import InertiaTrader.MarketMaker.Replies
import InertiaTrader.Matching.QuotedPrices

/-!
# What the market maker counts

Nothing that the exchange writes is counted: every text ends with a newline, which the
market maker takes for a part of the verdict.  So neither of its limits is ever reached.
-/

namespace InertiaTrader

open Foundation

/-- No answer and no execution has been counted, and the limits are those of `client.h`. -/
structure Client.Uncounted (client : Client) : Prop where
  orderNum : client.orderNum = 0
  orderLimitation : client.orderLimitation = 10
  inventoryNum : client.inventoryNum = 0
  inventoryLimit : client.inventoryLimit = 10

/-- `msgHandler` comes to its end and counts nothing. -/
def CountsNothing (msg : Text) : Prop :=
  ∀ client : Client, client.Uncounted → ∃ next, client.msgHandler msg = .ok next ∧ next.Uncounted

section

variable {client : Client} {text word answer : Text}

theorem Client.Uncounted.updated (uncounted : client.Uncounted) {number : Option ℤ}
    (silent : number = some 1233 ∨ answer ≠ "success".toList ∧ answer ≠ "exec".toList) :
    (client.updated number answer).Uncounted := by
  unfold Client.updated
  split
  next => exact uncounted
  next =>
    split
    next => exact uncounted
    next => exact ⟨uncounted.1, uncounted.2, uncounted.3, uncounted.4⟩
  next => exact ⟨uncounted.1, uncounted.2, uncounted.3, uncounted.4⟩
  next number noQuote noLogin =>
    have notCounted := silent.resolve_left fun same => noQuote (Option.some.inj same)
    rw [countAnswer, if_neg notCounted.1, if_neg notCounted.2]
    exact uncounted

end

section

variable {server : MariaDB} {threads next : Threads} {event : Event}
    {observations : List Observation} {cn : ConnRef} {text : Text}

end

section

variable {server : MariaDB} {state next : Exchange} {event : ExchangeEvent}
    {outputs : List ExchangeOutput} {cn : ConnRef} {text : Text}

end

structure Deployment.Uncounted (state : Deployment) : Prop where
  client : state.client.market.client.Uncounted
  texts : ∀ cn, ∀ text ∈ state.toClient cn, CountsNothing text

namespace Deployment

section

variable {server : MariaDB} {state next : Deployment} {outputs : List ExchangeOutput}
    {cn : ConnRef}

end

end Deployment

section

variable {server : MariaDB} {db : Database} {rc : RiskController} {nidSub1 : BitVec 32}
    {userList : Accounts} {connections : ConnRef → Connection}
    {events : List DeploymentEvent} {last : Deployment} {outputs : List ExchangeOutput}

end

end InertiaTrader
