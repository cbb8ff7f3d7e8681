import InertiaTrader.Foundation.Agenda
import InertiaTrader.Reports.Reporting
import InertiaTrader.Matching.Unread

/-!
# What is going to be executed and reported

The books and the order received last fix the pairs that passes would execute if no order
were taken in.  While nothing is pushed, `reportList_` fixes the reports.
-/

namespace InertiaTrader

open Foundation

def priced (pair : OrderPtr × OrderPtr) : OrderPtr × OrderPtr :=
  (pair.1.withExecPrice pair.2.order.orderPrice, pair.2.withExecPrice pair.2.order.orderPrice)

/-- The pairs that passes are going to execute: buy orders by ascending address with
sell orders by descending address, up to the first sell order above the price of the
order received last. -/
def Books.agenda (books : Books) : List (OrderPtr × OrderPtr) :=
  match books.od with
  | none => []
  | some od =>
      ((books.rawBuyside.items.zip books.rawSellside.items.reverse).takeWhile
        fun pair => decide (pair.2.order.orderPrice ≤ od.orderPrice)).map priced

theorem Books.agenda_of_idle {books next : Books} (pass : books.Pass next none) :
    next = books ∧ books.agenda = [] := by
  cases pass with
  | idle nothing =>
      refine ⟨rfl, ?_⟩
      unfold agenda
      split
      next => rfl
      next od received =>
        rcases buys : books.rawBuyside.items with - | ⟨odb, rest⟩
        · rfl
        rcases sells : books.rawSellside.items.reverse with - | ⟨ods, rest'⟩
        · rfl
        have last : books.rawSellside.items.getLast? = some ods := by
          rw [← List.head?_reverse, sells, List.head?_cons]
        have below := nothing od odb ods received (by rw [buys, List.head?_cons]) last
        rw [List.zip_cons_cons, List.takeWhile_cons_of_neg (by simpa using below)]
        rfl

theorem Books.agenda_of_executes {books next : Books} {odb ods : OrderPtr}
    (pass : books.Pass next (some (odb, ods))) : books.agenda = (odb, ods) :: next.agenda := by
  cases pass with
  | executes od buy sell received first last crossed =>
      obtain ⟨buys, buysEq⟩ : ∃ rest, books.rawBuyside.items = buy :: rest :=
        List.head?_eq_some_iff.mp first
      obtain ⟨sells, sellsEq⟩ : ∃ rest, books.rawSellside.items = rest ++ [sell] :=
        List.getLast?_eq_some_iff.mp last
      have buysLeft : (books.rawBuyside.erase 0).items = buys := by
        change books.rawBuyside.items.eraseIdx 0 = buys
        rw [buysEq]
        rfl
      have sellsLeft : (books.rawSellside.erase (books.rawSellside.items.length - 1)).items =
          sells := by
        change books.rawSellside.items.eraseIdx (books.rawSellside.items.length - 1) = sells
        simp [sellsEq, List.eraseIdx_append_of_length_le]
      simp only [agenda, received]
      rw [buysLeft, sellsLeft, buysEq, sellsEq, List.reverse_append, List.reverse_singleton,
        List.singleton_append, List.zip_cons_cons, List.takeWhile_cons_of_pos (by simpa using crossed)]
      rfl

/-- Is it a report of the reporting thread? -/
def Event.isReport : Event → Bool
  | .sendReport .. => true
  | _ => false

section

variable {server : MariaDB} {state next : Threads} {event : Event}
    {observations : List Observation}

end

end InertiaTrader
