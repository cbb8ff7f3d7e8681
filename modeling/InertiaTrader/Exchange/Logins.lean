import InertiaTrader.Exchange.Answers
import InertiaTrader.Server.LoginFirst

/-!
# Trading after logins

Every order and every change of an order goes back to a message from a connection on
which a user had logged in before.
-/

namespace InertiaTrader

open Foundation

/-- The memory of a new connection does not claim that it is logged in. -/
def ExchangeEvent.ClearsMemory : ExchangeEvent → Prop
  | .acceptConn _ _ memory => memory = false
  | _ => True

def ExchangeOutput.loginCall : ExchangeOutput → Option (Text × Accounts)
  | .login _ msg userList => some (msg, userList)
  | _ => none

section

variable {server : MariaDB} {cn : ConnRef} {past : List ExchangeEvent} {state next : Exchange}
    {seen outputs : List ExchangeOutput} {event : ExchangeEvent} {msg : Text}

end

section

variable {server : MariaDB} {threads next : Threads} {event : Event}
    {observations : List Observation}

end

end InertiaTrader
