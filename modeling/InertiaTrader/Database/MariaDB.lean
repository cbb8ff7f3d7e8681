import InertiaTrader.Foundation.KeyedTable
import InertiaTrader.Funclib.Standard

/-!
# The database server

The tables of `init.sql` that the trader writes, and what it relies on from the
server that executes its statements.  The server is a parameter: the code
splices texts into fixed statements, and the server says what such a text means in
its place.  That a text with a comma or a quote may turn the statement into another
one is not expressed here.
-/

namespace InertiaTrader

open Foundation

/-- A row of the table `Order`. -/
structure OrderRow where
  nid : ℚ
  orderPrice : ℚ
  symbol : Text
  userID : ℚ
  side : ℤ
  orderSituation : ℤ
  clientSerialNum : ℤ
  deriving DecidableEq

/-- `PRIMARY KEY (NID, Client_SerialNum)` -/
def OrderRow.key (row : OrderRow) : ℚ × ℤ := (row.nid, row.clientSerialNum)

/-- A row of the table `ExecReport`. -/
structure ReportRow where
  nid : ℚ
  orderPrice : ℚ
  execPrice : ℚ
  side : ℤ
  clientSerialNum : ℤ
  deriving DecidableEq

/-- `PRIMARY KEY (NID, Side)` -/
def ReportRow.key (row : ReportRow) : ℚ × ℤ := (row.nid, row.side)

abbrev OrderTable := KeyedTable OrderRow OrderRow.key

abbrev ReportTable := KeyedTable ReportRow ReportRow.key

/-- The tables of the schema `stock` that are written while trading. -/
structure Database where
  order : OrderTable
  execReport : ReportTable

/-- The tables as `init.sql` creates them. -/
def Database.initial : Database := ⟨.empty, .empty⟩

/-- How the server reads the texts spliced into statements and what its column
types store.  `none` means that it rejects the statement. -/
structure MariaDB where
  /-- A text standing unquoted in a list of values. -/
  number : Text → Option ℚ
  /-- A quoted text assigned to a numeric column. -/
  quoted : Text → Option ℚ
  /-- The rows selected by ``WHERE `NID`=text``. -/
  whereNid : Text → Option (OrderRow → Bool)
  /-- What a `FLOAT` column stores. -/
  float : ℚ → ℚ
  /-- The text form of a `FLOAT` column. -/
  floatText : ℚ → Text
  /-- What a `double(22,0)` column stores. -/
  double22 : ℚ → ℚ
  number_literal : ∀ text value, literalValue text = some value → number text = some value
  quoted_literal : ∀ text value, literalValue text = some value → quoted text = some value
  whereNid_literal : ∀ text value, literalValue text = some value →
    whereNid text = some fun row => decide (row.nid = value)
  float_intCast : ∀ value : ℤ, |value| < 2 ^ 24 → float value = value
  double22_whole : ∀ value, ∃ whole : ℤ, double22 value = whole
  double22_intCast : ∀ value : ℤ, |value| < 10 ^ 22 → double22 value = value

def intColumn (value : ℚ) : ℤ := ⌊value + 1 / 2⌋

@[simp]
theorem intColumn_intCast (value : ℤ) : intColumn value = value := by
  rw [intColumn, Int.floor_eq_iff]
  constructor <;> linarith

/-- A server that accepts decimal literals only. -/
def MariaDB.literal : MariaDB where
  number := literalValue
  quoted := literalValue
  whereNid text := (literalValue text).map fun value row => decide (row.nid = value)
  float := roundSignificant 24
  floatText value := natText (roundHalfEven |value|).toNat
  double22 value := roundHalfEven value
  number_literal _ _ read := read
  quoted_literal _ _ read := read
  whereNid_literal _ _ read := by rw [read, Option.map_some]
  float_intCast _ small := roundSignificant_intCast small
  double22_whole value := ⟨roundHalfEven value, rfl⟩
  double22_intCast value _ := by rw [roundHalfEven_intCast]

end InertiaTrader
