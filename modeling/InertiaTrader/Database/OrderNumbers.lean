import InertiaTrader.Database.Statements
import InertiaTrader.Foundation.SignificantDigits

/-!
# Order numbers in the database

A nid goes as text into a `FLOAT` column, is compared as a literal with what the
column stores, and comes back as the text form of the column.
-/

namespace InertiaTrader

open Foundation

/-- A `FLOAT` column stores 24 significant bits, and its text form shows six
significant digits. -/
structure MariaDB.FloatColumns (server : MariaDB) : Prop where
  stored : ∀ value, server.float value = roundSignificant 24 value
  written : ∀ value : ℕ, server.floatText value = shortText 6 value

/-- Orders are inserted one after the other, and every INSERT succeeds. -/
def insertOrders (server : MariaDB) : List OrderData → Database → Option Database
  | [], db => some db
  | od :: rest, db =>
      match insertOrder server true od db with
      | (false, _) => none
      | (true, stored) => insertOrders server rest stored

/-- The numbers of these orders survive in the table that holds them: the WHERE
clause of an UPDATE finds the row of the order with the nid and no other, and
reading the orders gives back their nids. -/
structure OrderNumbersSurvive (server : MariaDB) (ods : List OrderData) (db : Database) :
    Prop where
  found : ∀ od ∈ ods, ∃ row selected, orderRow server od = some row ∧
    server.whereNid od.nid = some selected ∧ db.order.rows.filter selected = [row]
  read : (getExistOrder server db).map OrderData.nid = ods.map OrderData.nid

/-- A numeral without leading zeros, below `10 ^ 15`, of at most 24 significant
bits and at most six significant digits. -/
def FitsFloatColumn (nid : Text) : Prop :=
  ∃ value, nid = natText value ∧ value < 10 ^ 15 ∧ FitsDigits 2 24 value ∧
    FitsDigits 10 6 value

theorem orderRow_cases {server : MariaDB} {od : OrderData} {row : OrderRow}
    (described : orderRow server od = some row) :
    ∃ nid, server.number od.nid = some nid ∧ row.nid = server.float nid ∧
      row.orderSituation = 1 := by
  simp only [orderRow, Option.bind_eq_bind, Option.bind_eq_some_iff] at described
  obtain ⟨nid, read, _, -, _, -, _, -, _, -, returned⟩ := described
  cases returned
  exact ⟨nid, read, rfl, rfl⟩

theorem rows_of_insertOrders {server : MariaDB} {ods : List OrderData} {db stored : Database}
    (inserted : insertOrders server ods db = some stored) :
    ∃ rows, List.Forall₂ (fun od row => orderRow server od = some row) ods rows ∧
      stored.order.rows = db.order.rows ++ rows := by
  induction ods generalizing db with
  | nil =>
      cases inserted
      exact ⟨[], .nil, by simp⟩
  | cons od rest inductionHypothesis =>
      simp only [insertOrders] at inserted
      split at inserted
      next => cases inserted
      next middle first =>
        obtain ⟨row, described, extended, -⟩ := insertOrder_eq_true first
        obtain ⟨rows, matched, appended⟩ := inductionHypothesis inserted
        refine ⟨row :: rows, .cons described matched, ?_⟩
        rw [appended, extended, List.append_assoc, List.singleton_append]

section

variable {server : MariaDB}

theorem row_of_digits (columns : server.FloatColumns) {od : OrderData} {row : OrderRow}
    {value : ℕ} (digits : digitsValue od.nid = some value)
    (described : orderRow server od = some row) :
    row.nid = roundSignificant 24 value ∧ row.orderSituation = 1 ∧
      server.whereNid od.nid = some fun other => decide (other.nid = (value : ℚ)) := by
  have literal := literalValue_of_digitsValue digits
  obtain ⟨nid, read, stored, situation⟩ := orderRow_cases described
  rw [server.number_literal _ _ literal, Option.some.injEq] at read
  rw [← read, columns.stored] at stored
  exact ⟨stored, situation, server.whereNid_literal _ _ literal⟩

theorem fits_of_survives (columns : server.FloatColumns) {od : OrderData} {row : OrderRow}
    (numeral : IsDigits od.nid) (described : orderRow server od = some row)
    (found : ∀ selected, server.whereNid od.nid = some selected → selected row = true)
    (read : server.floatText row.nid = od.nid) : FitsFloatColumn od.nid := by
  obtain ⟨value, digits⟩ := Option.isSome_iff_exists.mp numeral
  obtain ⟨stored, -, clause⟩ := row_of_digits columns digits described
  have same : row.nid = value := of_decide_eq_true (found _ clause)
  rw [same, columns.written] at read
  obtain ⟨canonical, small, short⟩ := (shortText_eq_iff (by norm_num) digits).mp read
  exact ⟨value, canonical, small,
    (roundSignificant_eq_self_iff (by norm_num) value).mp (stored.symm.trans same), short⟩

theorem row_of_fits (columns : server.FloatColumns) {od : OrderData} {row : OrderRow}
    (fits : FitsFloatColumn od.nid) (described : orderRow server od = some row) :
    ∃ value : ℕ, od.nid = natText value ∧ row.nid = value ∧
      server.floatText row.nid = od.nid ∧
      server.whereNid od.nid = some fun other => decide (other.nid = (value : ℚ)) := by
  obtain ⟨value, canonical, small, binary, short⟩ := fits
  have digits : digitsValue od.nid = some value := by rw [canonical, digitsValue_natText]
  obtain ⟨stored, -, clause⟩ := row_of_digits columns digits described
  have same : row.nid = value :=
    stored.trans ((roundSignificant_eq_self_iff (by norm_num) value).mpr binary)
  refine ⟨value, canonical, same, ?_, clause⟩
  rw [same, columns.written]
  exact (shortText_eq_iff (by norm_num) digits).mpr ⟨canonical, small, short⟩

theorem getExistOrder_nid {db : Database}
    (valid : ∀ row ∈ db.order.rows, row.orderSituation = 1) :
    (getExistOrder server db).map OrderData.nid =
      db.order.rows.map fun row => server.floatText row.nid := by
  rw [getExistOrder, List.filter_eq_self.mpr (by simpa using valid), List.map_map]
  rfl

end

section

variable {First Second Value : Type} {related : First → Second → Prop} {xs : List First}
  {ys : List Second}

theorem exists_related (matched : List.Forall₂ related xs ys) {x : First} (listed : x ∈ xs) :
    ∃ y ∈ ys, related x y := by
  induction matched with
  | nil => cases listed
  | cons first _ inductionHypothesis =>
      rcases List.mem_cons.mp listed with rfl | later
      · exact ⟨_, List.mem_cons_self, first⟩
      · obtain ⟨y, membership, holds⟩ := inductionHypothesis later
        exact ⟨y, List.mem_cons_of_mem _ membership, holds⟩

theorem map_eq_of_related (matched : List.Forall₂ related xs ys) {f : First → Value}
    {g : Second → Value} (same : ∀ x ∈ xs, ∀ y, related x y → g y = f x) :
    ys.map g = xs.map f := by
  induction matched with
  | nil => rfl
  | cons first _ inductionHypothesis =>
      rw [List.map_cons, List.map_cons, same _ List.mem_cons_self _ first]
      rw [inductionHypothesis fun x later => same x (List.mem_cons_of_mem _ later)]

theorem related_of_map_eq (matched : List.Forall₂ related xs ys) {f : First → Value}
    {g : Second → Value} (same : ys.map g = xs.map f) :
    List.Forall₂ (fun x y => related x y ∧ g y = f x) xs ys := by
  induction matched with
  | nil => exact .nil
  | cons first _ inductionHypothesis =>
      rw [List.map_cons, List.map_cons, List.cons.injEq] at same
      exact .cons ⟨first, same.1⟩ (inductionHypothesis same.2)

theorem filter_eq_singleton [DecidableEq Value] {value : First → Value}
    (distinct : (xs.map value).Nodup) {x : First} (listed : x ∈ xs) :
    xs.filter (fun other => value other = value x) = [x] := by
  induction xs with
  | nil => cases listed
  | cons first rest inductionHypothesis =>
      rw [List.map_cons, List.nodup_cons] at distinct
      rcases List.mem_cons.mp listed with rfl | later
      · have others : ∀ other ∈ rest, value other ≠ value x := by
          intro other membership same
          exact distinct.1 (same ▸ List.mem_map_of_mem membership)
        simpa [List.filter_eq_nil_iff] using others
      · have different : value first ≠ value x := by
          intro same
          exact distinct.1 (same ▸ List.mem_map_of_mem later)
        simpa [different] using inductionHypothesis distinct.2 later

end

/-- Whatever orders are inserted: their numbers survive exactly when each of them
fits the column. -/
theorem order_numbers_survive_iff (server : MariaDB) (columns : server.FloatColumns)
    (ods : List OrderData) (distinct : (ods.map OrderData.nid).Nodup)
    (numerals : ∀ od ∈ ods, IsDigits od.nid) (stored : Database)
    (inserted : insertOrders server ods .initial = some stored) :
    OrderNumbersSurvive server ods stored ↔ ∀ od ∈ ods, FitsFloatColumn od.nid := by
  obtain ⟨rows, matched, rowsEq⟩ := rows_of_insertOrders inserted
  have rowsEq : stored.order.rows = rows := rowsEq
  have valid : ∀ row ∈ stored.order.rows, row.orderSituation = 1 := by
    rw [rowsEq]
    intro row listed
    obtain ⟨od, -, described⟩ := exists_related matched.flip listed
    obtain ⟨_, -, -, situation⟩ := orderRow_cases described
    exact situation
  constructor
  · intro survive od listed
    have read := survive.read
    rw [getExistOrder_nid valid, rowsEq] at read
    obtain ⟨row, -, described, text⟩ := exists_related (related_of_map_eq matched read) listed
    apply fits_of_survives columns (numerals od listed) described _ text
    intro selected clause
    obtain ⟨row', selected', described', clause', found⟩ := survive.found od listed
    obtain rfl : row = row' := Option.some.inj (described.symm.trans described')
    obtain rfl : selected = selected' := Option.some.inj (clause.symm.trans clause')
    have chosen : row ∈ stored.order.rows.filter selected := by simp [found]
    exact (List.mem_filter.mp chosen).2
  · intro fits
    have read : (getExistOrder server stored).map OrderData.nid = ods.map OrderData.nid := by
      rw [getExistOrder_nid valid, rowsEq]
      apply map_eq_of_related matched
      intro od listed row described
      obtain ⟨_, -, -, text, -⟩ := row_of_fits columns (fits od listed) described
      exact text
    refine ⟨?_, read⟩
    intro od listed
    obtain ⟨row, rowListed, described⟩ := exists_related matched listed
    obtain ⟨value, -, same, -, clause⟩ := row_of_fits columns (fits od listed) described
    refine ⟨row, _, described, clause, ?_⟩
    have distinctRows : (stored.order.rows.map OrderRow.nid).Nodup := by
      rw [← read, getExistOrder_nid valid] at distinct
      have mapped : stored.order.rows.map (fun row => server.floatText row.nid) =
          (stored.order.rows.map OrderRow.nid).map server.floatText := by
        rw [List.map_map]
        rfl
      exact (mapped ▸ distinct).of_map
    rw [← same]
    exact filter_eq_singleton distinctRows (rowsEq ▸ rowListed)

/-- A server that accepts decimal literals only and shows six digits of a `FLOAT`. -/
def MariaDB.sixDigits : MariaDB :=
  { MariaDB.literal with floatText := fun value => shortText 6 (roundHalfEven |value|).toNat }

theorem floatColumns_sixDigits : MariaDB.sixDigits.FloatColumns := by
  refine ⟨fun _ => rfl, ?_⟩
  intro value
  have whole := roundHalfEven_intCast value
  simp only [MariaDB.sixDigits, Nat.abs_cast, Int.cast_natCast] at whole ⊢
  rw [whole, Int.toNat_natCast]

/-- The order of the message format's documentation. -/
def documentedOrder : OrderData where
  nid := "3216549876135".toList
  orderPrice := .fin (121 / 2)
  symbol := "KKC".toList
  userID := "0324027".toList
  side := 1
  clientSerialnum := 4294967297

/-- Its number cannot be found again, and is read back as another one. -/
theorem documented_number_lost :
    ∃ stored, insertOrders .sixDigits [documentedOrder] .initial = some stored ∧
      (∃ selected, MariaDB.sixDigits.whereNid documentedOrder.nid = some selected ∧
        stored.order.rows.filter selected = []) ∧
      (getExistOrder .sixDigits stored).map OrderData.nid = ["3216550000000".toList] ∧
      ¬ OrderNumbersSurvive .sixDigits [documentedOrder] stored := by
  obtain ⟨stored, inserted, evaluated⟩ := (Option.any_eq_true (fun stored : Database =>
      (MariaDB.sixDigits.whereNid documentedOrder.nid).any
        (fun selected => decide (stored.order.rows.filter selected = [])) &&
      decide ((getExistOrder .sixDigits stored).map OrderData.nid = ["3216550000000".toList]))
    (insertOrders .sixDigits [documentedOrder] .initial)).mp (by decide +kernel)
  obtain ⟨clause, read⟩ := Bool.and_eq_true_iff.mp evaluated
  have read := of_decide_eq_true read
  obtain ⟨selected, clause, found⟩ := (Option.any_eq_true ..).mp clause
  refine ⟨stored, inserted, ⟨selected, clause, of_decide_eq_true found⟩, read, ?_⟩
  intro survive
  exact absurd (read.symm.trans survive.read) (by decide)

theorem order_numbers_survive_iff_documented :
    ∃ stored, insertOrders .sixDigits [documentedOrder] .initial = some stored ∧
      (OrderNumbersSurvive .sixDigits [documentedOrder] stored ↔
        ∀ od ∈ [documentedOrder], FitsFloatColumn od.nid) := by
  obtain ⟨stored, inserted⟩ := Option.isSome_iff_exists.mp
    (show (insertOrders .sixDigits [documentedOrder] .initial).isSome = true by decide +kernel)
  exact ⟨stored, inserted, order_numbers_survive_iff .sixDigits floatColumns_sixDigits
    [documentedOrder] (by decide) (by decide +kernel) stored inserted⟩

end InertiaTrader
