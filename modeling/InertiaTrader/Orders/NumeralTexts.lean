import InertiaTrader.Database.Statements
import InertiaTrader.Foundation.Detours
import InertiaTrader.Orders.SerialNumbers

/-!
# Statements with numerals only

The nid of an order and the price of a modification are spliced into the statements as
the client has sent them.  A numeral leaves a statement what it is.  With any other text
the database may be told anything, so the tables may then be any afterwards.
-/

namespace InertiaTrader

open Foundation

/-- The texts of clients that are spliced into a statement are numerals. -/
def Observation.SendsNumerals : Observation → Prop
  | .insertOrderToDB odt => IsLiteral odt.nid
  | .reported order => IsLiteral order.order.nid
  | .updated _ update => IsLiteral update.nid ∧ IsLiteral update.value
  | _ => True

instance : DecidablePred Observation.SendsNumerals
  | .insertOrderToDB odt => inferInstanceAs (Decidable (IsLiteral odt.nid))
  | .reported order => inferInstanceAs (Decidable (IsLiteral order.order.nid))
  | .updated _ update => inferInstanceAs (Decidable (IsLiteral update.nid ∧ IsLiteral update.value))
  | .sent .. | .balanceTested _ | .inserted _ | .ordered .. | .executed .. | .pushed _
  | .amended .. => inferInstanceAs (Decidable True)

def Threads.withDatabase (db : Database) (threads : Threads) : Threads :=
  { threads with trader := { threads.trader with db } }

def Lives.withDatabase (db : Database) (state : Lives) : Lives :=
  { state with threads := state.threads.withDatabase db }

/-- The trading process over a database that executes whatever it is told. -/
def injectedThreads (server : MariaDB) : Machine Threads (Event × Option Database) Observation :=
  (threads server).withDetours Observation.SendsNumerals Threads.withDatabase

/-- The same over restarts. -/
def injectedLives (server : MariaDB) (nidSub1 : BitVec 32) :
    Machine Lives (LifeEvent × Option Database) Observation :=
  (lives server nidSub1).withDetours Observation.SendsNumerals Lives.withDatabase

end InertiaTrader
