import InertiaTrader.Foundation.TwoRuns
import InertiaTrader.Matching.Simulation
import InertiaTrader.Matching.Unread

/-!
# Rejected orders

A rejected order enters no book, but it stays in the member `od` until the next
order is taken, and passes of `matchup` compare its price.  A run is compared
with the run from which the message of the rejected order was removed.
-/

namespace InertiaTrader

open Foundation

/-- A run takes an order message from the queue, and rejects it in the state
`taken`. -/
structure Rejects (server : MariaDB) (start : Threads) (earlier : List Event) (cn : ConnRef)
    (text : Text) (middle : List Event) (address : ℕ) (connected : Bool)
    (taken rejected : Threads) : Prop where
  /-- The message waits behind as many others as are taken before it. -/
  waits : ∃ before seen shown,
    (threads server).run start earlier = some (before, seen) ∧
    Server.codeNum (Server.addressed text (before.trader.sr.connections cn)) = some 87 ∧
    middle.countP Event.takesOrder = before.trader.sr.dq.length ∧
    (threads server).run before (.receive cn text :: middle) = some (taken, shown)
  rejects : ∃ replies,
    taken.step server (.getOrder address connected) = some (rejected, replies) ∧
    ∀ order, .inserted order ∉ replies

/-- However far the run goes on, it has executed the same pairs at the same
prices as without the message. -/
def LeavesNoTrace (server : MariaDB) (start : Threads) (earlier : List Event) (cn : ConnRef)
    (text : Text) (middle : List Event) (address : ℕ) (connected : Bool) (later : List Event) :
    Prop :=
  ∀ part, part <+: later → ∃ last observations last' observations',
    (threads server).run start
      (earlier ++ .receive cn text :: middle ++ [.getOrder address connected] ++ part) =
        some (last, observations) ∧
    (threads server).run start (earlier ++ middle ++ part) = some (last', observations') ∧
    observations.filterMap Observation.execution = observations'.filterMap Observation.execution

/-- While the order at an address is the one received last, a pass meets no sell
order that this order reaches and the one before it does not, or the other way
round. -/
def ReachesAlike (address : ℕ) (before : Option Order) (state : Threads) : Event → Prop
  | .matchup => state.allocated.head? = some address →
      ∀ previous od odb ods, before = some previous → state.trader.od = some od →
        state.trader.rawBuyside.items.head? = some odb →
        state.trader.rawSellside.items.getLast? = some ods →
        (ods.order.orderPrice ≤ od.orderPrice ↔ ods.order.orderPrice ≤ previous.orderPrice)
  | _ => True

section

variable {server : MariaDB} {state next : Threads} {event : Event}
    {observations : List Observation}

theorem noBuys_step (stepped : state.step server event = some (next, observations))
    (noBuys : state.trader.od = none → state.trader.rawBuyside.items = []) :
    next.trader.od = none → next.trader.rawBuyside.items = [] := by
  cases Threads.step_cases stepped with
  | handlesOrder address connected rest connId od cn trader _ fresh handling =>
      intro absent
      cases handling with
      | failed | insufficient => cases absent
      | accepted =>
          simp only [Trader.afterAccept, Books.orderDataInsert] at absent
          split at absent <;> cases absent
  | amends connected val rest trader _ popped amendment =>
      cases amendment with
      | cancelled chosen => cases chosen <;> exact noBuys
      | modified | refused => exact noBuys
  | executes toBooks odb ods sr waiting pass =>
      cases pass with
      | executes od buy sell present =>
          intro absent
          exact absurd (present.symm.trans absent) (Option.some_ne_none od)
  | communicates | rests | pushes | reads | sends | pops => exact noBuys

theorem noBuys_run {db : Database} {rc : RiskController} {nidSub1 : BitVec 32} {sr : Server}
    {events : List Event} {last : Threads}
    (finished : (threads server).run (.start (.construct server db rc nidSub1 sr)) events =
      some (last, observations)) :
    last.trader.od = none → last.trader.rawBuyside.items = [] := by
  apply (threads server).invariant_of_run
    (fun current _ => current.trader.od = none → current.trader.rawBuyside.items = [])
    _ _ finished
  · intro state _ event next shown noBuys stepped
    exact noBuys_step stepped noBuys
  · intro _
    change (Trader.construct server db rc nidSub1 sr).toBooks.rawBuyside.items = []
    rw [Trader.construct_toBooks]
    rfl

theorem matchup_with_own_od {books toBooks : Books} {pair : Option (OrderPtr × OrderPtr)}
    (finished : books.matchup = .ok (toBooks, pair)) :
    { books with od := books.od }.matchup = .ok ({ toBooks with od := books.od }, pair) := by
  cases Books.matchup_cases finished <;> exact finished

theorem execution_iff_nextPair
    (stepped : state.step server .matchup = some (next, observations)) :
    observations.filterMap Observation.execution ≠ [] ↔
      ∃ odb ods, state.trader.NextPair odb ods := by
  rcases Threads.matchup_step stepped with
    ⟨passed, -, rfl⟩ | ⟨toBooks, odb, ods, sr, passed, -, -, rfl⟩
  · apply iff_of_false (by simp)
    rintro ⟨odb, ods, isNext⟩
    exact (Books.matchup_cases passed).not_nextPair isNext
  · obtain ⟨buy, sell, isNext, -, -⟩ := (Books.matchup_cases passed).nextPair
    exact iff_of_true (by simp [Observation.execution]) ⟨buy, sell, isNext⟩

end

/-- The message waits behind these others in the first state; the second is the
same without it. -/
def Waits (msg : Text) (front : List Text) (first second : Threads) : Prop :=
  ∃ back, first.trader.sr.dq = front ++ msg :: back ∧
    second = first.veiled first.trader.od (front ++ back) first.allocated

section

variable {server : MariaDB} {first second next : Threads} {event : Event} {msg : Text}
    {front : List Text} {observations : List Observation}

theorem waits_step (waits : Waits msg front first second)
    (stepped : first.step server event = some (next, observations))
    (others : event.takesOrder = false) :
    ∃ next', second.step server event = some (next', observations) ∧
      Waits msg front next next' := by
  obtain ⟨back, queued, rfl⟩ := waits
  obtain ⟨arrived, sameDq, sameOd, sameAllocated, matched⟩ := Threads.step_veiled stepped others
    (fun _ _ _ passed => matchup_with_own_od passed) (front ++ back) first.allocated
  refine ⟨_, matched, back ++ arrived, ?_, ?_⟩
  · rw [sameDq, queued, List.append_assoc, List.cons_append]
  · rw [sameOd, sameAllocated, List.append_assoc]

theorem waits_getOrder {address : ℕ} {connected : Bool} {other : Text}
    (waits : Waits msg (other :: front) first second)
    (stepped : first.step server (.getOrder address connected) = some (next, observations)) :
    ∃ next', second.step server (.getOrder address connected) = some (next', observations) ∧
      Waits msg front next next' := by
  obtain ⟨back, queued, rfl⟩ := waits
  obtain ⟨sameDq, fresh, allocated, matched⟩ := Threads.getOrder_veiled stepped queued
  refine ⟨_, matched first.trader.od (front ++ back) first.allocated fresh, back, sameDq, ?_⟩
  rw [allocated]

theorem waits_run {middle : List Event} {last : Threads} (waits : Waits msg front first second)
    (turn : middle.countP Event.takesOrder = front.length)
    (finished : (threads server).run first middle = some (last, observations)) :
    ∃ last', (threads server).run second middle = some (last', observations) ∧
      Waits msg [] last last' := by
  induction middle generalizing first second front observations with
  | nil =>
      cases finished
      rw [List.length_eq_zero_iff.mp turn.symm] at waits
      exact ⟨second, rfl, waits⟩
  | cons event rest inductionHypothesis =>
      rcases ((threads server).run_cons_iff ..).mp finished with
        ⟨next, now, later, stepped, ran, rfl⟩
      rw [List.countP_cons] at turn
      obtain ⟨next', front', matched, waitsNext, turnNext⟩ :
          ∃ next' front', second.step server event = some (next', now) ∧
            Waits msg front' next next' ∧
            rest.countP Event.takesOrder = front'.length := by
        cases taking : event.takesOrder with
        | false =>
            obtain ⟨next', matched, waitsNext⟩ := waits_step waits stepped taking
            exact ⟨next', front, matched, waitsNext, by simpa [taking] using turn⟩
        | true =>
            cases event with
            | getOrder address connected =>
                cases front with
                | nil => simp [taking] at turn
                | cons other front =>
                    obtain ⟨next', matched, waitsNext⟩ := waits_getOrder waits stepped
                    exact ⟨next', front, matched, waitsNext, by simpa [taking] using turn⟩
            | _ => cases taking
      obtain ⟨last', ran', waitsLast⟩ := inductionHypothesis waitsNext turnNext ran
      exact ⟨last', ((threads server).run_cons_iff ..).mpr
        ⟨next', now, later, matched, ran', rfl⟩, waitsLast⟩

end

/-- The first state has handled the rejected order, the second never had it.  Until
another order is taken, the second still has the order received before. -/
structure Behind (address : ℕ) (before : Option Order) (first second : Threads) : Prop where
  veiled : ∃ od allocated, second = first.veiled od first.trader.sr.dq allocated ∧
    allocated ⊆ first.allocated ∧
    od = if first.allocated.head? = some address then before else first.trader.od
  taken : address ∈ first.allocated
  noBuys : second.trader.od = none → second.trader.rawBuyside.items = []

section

variable {server : MariaDB} {first second next next' : Threads} {event : Event}
    {address : ℕ} {before : Option Order} {observations observations' : List Observation}

theorem fresh_of_getOrder {connected : Bool}
    (stepped : first.step server (.getOrder address connected) = some (next, observations)) :
    address ∉ first.allocated := by
  intro taken
  simp only [Threads.step, if_pos taken] at stepped
  cases stepped

theorem getOrder_of_empty {connected : Bool} (empty : first.trader.sr.dq = [])
    (fresh : address ∉ first.allocated) :
    first.step server (.getOrder address connected) = some (first, []) := by
  simp only [Threads.step, if_neg fresh, Trader.getOrder, empty]
  rfl

theorem nextPair_alike {od : Option Order} {toBooks : Books} {pair : Option (OrderPtr × OrderPtr)}
    (received : od = if first.allocated.head? = some address then before else first.trader.od)
    (noBuys : od = none → first.trader.rawBuyside.items = [])
    (alike : ReachesAlike address before first .matchup)
    (passed : first.trader.toBooks.matchup = .ok (toBooks, pair)) (odb ods : OrderPtr) :
    first.trader.NextPair odb ods ↔ { first.trader.toBooks with od }.NextPair odb ods := by
  split at received
  next isLast =>
    subst received
    constructor
    · rintro ⟨received, present, head, last, crossed⟩
      cases previous : od with
      | none =>
          rw [noBuys previous] at head
          cases head
      | some order =>
          exact ⟨order, rfl, head, last,
            (alike isLast order received odb ods previous present head last).mp crossed⟩
    · rintro ⟨order, previous, head, last, crossed⟩
      obtain ⟨received, present⟩ := Books.received_of_matchup passed head last
      exact ⟨received, present, head, last,
        (alike isLast order received odb ods previous present head last).mpr crossed⟩
  next =>
    subst received
    rfl

theorem behind_getOrder {address' : ℕ} {connected : Bool}
    (behind : Behind address before first second)
    (stepped : first.step server (.getOrder address' connected) = some (next, observations)) :
    ∃ next', second.step server (.getOrder address' connected) = some (next', observations) ∧
      Behind address before next next' := by
  obtain ⟨⟨od, allocated, rfl, subset, received⟩, taken, noBuys⟩ := behind
  have fresh := fresh_of_getOrder stepped
  have freshAfter : address' ∉ allocated := fun isTaken => fresh (subset isTaken)
  rcases queued : first.trader.sr.dq with - | ⟨msg, rest⟩
  · have idle : first.step server (.getOrder address' connected) = some (first, []) :=
      getOrder_of_empty queued fresh
    rw [idle, Option.some.injEq, Prod.mk.injEq] at stepped
    obtain ⟨rfl, rfl⟩ := stepped
    rw [queued] at noBuys
    exact ⟨_, getOrder_of_empty rfl freshAfter,
      ⟨od, allocated, by rw [queued], subset, received⟩, taken, noBuys⟩
  · obtain ⟨sameDq, -, sameAllocated, matched⟩ := Threads.getOrder_veiled stepped queued
    have stepped' := matched od rest allocated freshAfter
    rw [queued] at noBuys
    refine ⟨_, stepped', ⟨next.trader.od, address' :: allocated, by rw [sameDq], ?_, ?_⟩, ?_,
      noBuys_step stepped' noBuys⟩
    · rw [sameAllocated]
      exact List.cons_subset_cons address' subset
    · have other : address' ≠ address := fun same => fresh (same ▸ taken)
      rw [sameAllocated, List.head?_cons, if_neg (by simpa using other)]
    · rw [sameAllocated]
      exact List.mem_cons_of_mem address' taken

theorem behind_step (behind : Behind address before first second)
    (stepped : first.step server event = some (next, observations))
    (alike : ReachesAlike address before first event) :
    ∃ next', second.step server event = some (next', observations) ∧
      Behind address before next next' := by
  cases taking : event.takesOrder with
  | true =>
      cases event with
      | getOrder address' connected => exact behind_getOrder behind stepped
      | _ => cases taking
  | false =>
      obtain ⟨⟨od, allocated, rfl, subset, received⟩, taken, noBuys⟩ := behind
      have pass : event = .matchup → ∀ toBooks pair,
          first.trader.toBooks.matchup = .ok (toBooks, pair) →
          { first.trader.toBooks with od }.matchup = .ok ({ toBooks with od }, pair) := by
        rintro rfl toBooks pair passed
        exact Books.matchup_with_od passed noBuys (nextPair_alike received noBuys alike passed)
      obtain ⟨arrived, sameDq, sameOd, sameAllocated, matched⟩ :=
        Threads.step_veiled stepped taking pass first.trader.sr.dq allocated
      refine ⟨_, matched, ⟨od, allocated, ?_, ?_, ?_⟩, ?_, noBuys_step matched noBuys⟩
      · rw [sameDq]
      · rwa [sameAllocated]
      · rwa [sameAllocated, sameOd]
      · rwa [sameAllocated]

theorem alike_of_shown (behind : Behind address before first second)
    (stepped : first.step server event = some (next, observations))
    (stepped' : second.step server event = some (next', observations'))
    (same : observations.filterMap Observation.execution =
      observations'.filterMap Observation.execution) :
    ReachesAlike address before first event := by
  obtain ⟨⟨od, allocated, rfl, -, received⟩, -, -⟩ := behind
  cases event with
  | matchup =>
      intro isLast previous order odb ods sameBefore present head last
      have executes := execution_iff_nextPair stepped
      rw [same] at executes
      have alike := executes.symm.trans (execution_iff_nextPair stepped')
      rw [if_pos isLast, sameBefore] at received
      subst received
      constructor
      · intro crossed
        obtain ⟨odb', ods', previous', present', -, last', crossed'⟩ :=
          alike.mp ⟨odb, ods, order, present, head, last, crossed⟩
        cases present'
        rw [Option.some.inj (last.symm.trans last')]
        exact crossed'
      · intro crossed
        obtain ⟨odb', ods', order', present', -, last', crossed'⟩ :=
          alike.mpr ⟨odb, ods, previous, rfl, head, last, crossed⟩
        rw [Option.some.inj (present.symm.trans present'), Option.some.inj (last.symm.trans last')]
        exact crossed'
  | _ => trivial

theorem waits_receive {cn : ConnRef} {text : Text}
    (order : Server.codeNum (Server.addressed text (first.trader.sr.connections cn)) = some 87)
    (stepped : first.step server (.receive cn text) = some (next, observations)) :
    observations = [] ∧ Waits (Server.addressed text (first.trader.sr.connections cn))
      first.trader.sr.dq next first := by
  simp only [Threads.step] at stepped
  split at stepped
  next =>
    simp only [Server.route, order] at stepped
    cases stepped
    refine ⟨rfl, [], rfl, ?_⟩
    rw [List.append_nil]
    rfl
  next => cases stepped

/-- What is rejected is the text with the id of its connection.  Up to then, the run
without the message shows the same. -/
theorem Rejects.reaches {start taken rejected : Threads} {earlier middle : List Event}
    {cn : ConnRef} {text : Text} {connected : Bool}
    (rejects : Rejects server start earlier cn text middle address connected taken rejected) :
    ∃ connection without seen,
      (threads server).run start (earlier ++ .receive cn text :: middle) = some (taken, seen) ∧
      (threads server).run start (earlier ++ middle) = some (without, seen) ∧
      Waits (Server.addressed text connection) [] taken without := by
  obtain ⟨before, seen, shown, reached, isOrder, turn, waited⟩ := rejects.waits
  obtain ⟨received, replies, later, arrival, between, rfl⟩ :=
    ((threads server).run_cons_iff ..).mp waited
  have arrives : before.step server (.receive cn text) = some (received, replies) := arrival
  obtain ⟨rfl, waits⟩ := waits_receive isOrder arrives
  obtain ⟨without, ran, waitsTaken⟩ := waits_run waits turn between
  exact ⟨before.trader.sr.connections cn, without, seen ++ later,
    ((threads server).run_append_of_run reached _ _ _).mpr ⟨_, waited, rfl⟩,
    ((threads server).run_append_of_run reached _ _ _).mpr ⟨_, ran, rfl⟩, waitsTaken⟩

theorem behind_of_rejects {connected : Bool} {msg : Text}
    (waits : Waits msg [] first second)
    (stepped : first.step server (.getOrder address connected) = some (next, observations))
    (rejects : ∀ order, .inserted order ∉ observations)
    (noBuys : first.trader.od = none → first.trader.rawBuyside.items = []) :
    observations.filterMap Observation.execution = [] ∧
      Behind address first.trader.od next second := by
  obtain ⟨back, queued, rfl⟩ := waits
  rcases Threads.getOrder_step stepped with
    ⟨empty, -, -⟩ | ⟨msg', rest, od, connId, cn, trader, -, popped, -, -, -, handling, rfl⟩
  · rw [queued] at empty
    cases empty
  · obtain ⟨rfl, rfl⟩ := List.cons.inj (popped.symm.trans queued)
    have isLast : (address :: first.allocated).head? = some address := rfl
    cases handling with
    | accepted => exact absurd (.tail _ (.head _)) (rejects _)
    | failed | insufficient =>
        exact ⟨rfl, ⟨_, _, rfl, List.subset_cons_self .., (if_pos isLast).symm⟩, .head _, noBuys⟩

end

/-- For every run and every order that it rejects: the executions are what they
would have been without its message exactly when, until the next order is
taken, the rejected order reaches the same sell orders as the one before it. -/
theorem leaves_no_trace_iff (server : MariaDB) (db : Database) (rc : RiskController)
    (nidSub1 : BitVec 32) (sr : Server) (earlier middle later : List Event) (cn : ConnRef)
    (text : Text) (address : ℕ) (connected : Bool) (taken rejected last : Threads)
    (observations : List Observation)
    (rejects : Rejects server (.start (.construct server db rc nidSub1 sr)) earlier cn text middle
      address connected taken rejected)
    (finished : (threads server).run rejected later = some (last, observations)) :
    LeavesNoTrace server (.start (.construct server db rc nidSub1 sr)) earlier cn text middle
        address connected later ↔
      (threads server).Along (ReachesAlike address taken.trader.od) rejected later := by
  obtain ⟨connection, without, seen, reachedTaken, reachedWithout, waits⟩ := rejects.reaches
  obtain ⟨replies, stepped, noInsert⟩ := rejects.rejects
  obtain ⟨silent, behind⟩ := behind_of_rejects waits stepped noInsert (noBuys_run reachedTaken)
  have handled := ((threads server).run_singleton taken (.getOrder address connected)).trans stepped
  have reachedRejected :=
    ((threads server).run_append_of_run reachedTaken _ _ _).mpr ⟨replies, handled, rfl⟩
  have same : (seen ++ replies).filterMap Observation.execution =
      seen.filterMap Observation.execution := by
    rw [List.filterMap_append, silent, List.append_nil]
  refine ((threads server).agrees_iff_of_runs Observation.execution reachedRejected reachedWithout
    same later).trans ?_
  apply (threads server).agrees_iff_along Observation.execution _ _ behind finished
  · intro first second event next shown behind stepped alike
    exact behind_step behind stepped alike
  · intro first second event next next' shown shown' behind stepped stepped' same
    exact alike_of_shown behind stepped stepped' same

theorem exists_rejects_of_any (server : MariaDB) (start : Threads) (earlier : List Event)
    (cn : ConnRef) (text : Text) (middle : List Event) (address : ℕ) (connected : Bool)
    (property : Threads → Bool)
    (evaluated : ((threads server).run start earlier).any (fun before =>
      decide (Server.codeNum (Server.addressed text (before.1.trader.sr.connections cn)) = some 87 ∧
        middle.countP Event.takesOrder = before.1.trader.sr.dq.length) &&
      ((threads server).run before.1 (.receive cn text :: middle)).any fun taken =>
        (taken.1.step server (.getOrder address connected)).any fun rejected =>
          (insertedIn rejected.2).isEmpty && property rejected.1) = true) :
    ∃ taken rejected,
      Rejects server start earlier cn text middle address connected taken rejected ∧
        property rejected = true := by
  obtain ⟨⟨before, seen⟩, reached, holds⟩ := (Option.any_eq_true ..).mp evaluated
  obtain ⟨waits, holds⟩ := Bool.and_eq_true_iff.mp holds
  obtain ⟨isOrder, turn⟩ := of_decide_eq_true waits
  obtain ⟨⟨taken, shown⟩, waited, holds⟩ := (Option.any_eq_true ..).mp holds
  obtain ⟨⟨rejected, replies⟩, stepped, holds⟩ := (Option.any_eq_true ..).mp holds
  obtain ⟨nothing, holds⟩ := Bool.and_eq_true_iff.mp holds
  refine ⟨taken, rejected, ⟨⟨before, seen, shown, reached, isOrder, turn, waited⟩, replies,
    stepped, ?_⟩, holds⟩
  intro order inserted
  have isInserted := mem_insertedIn.mpr inserted
  rw [List.isEmpty_iff.mp nothing] at isInserted
  cases isInserted

/-- A sell order at 60, then a buy order at 59 that does not reach it. -/
def apartRun : List Event :=
  [.firstLogin,
    .receive 0 "87|1|60|2|1|1|KKC".toList, .getOrder 10 true,
    .receive 0 "87|2|59|1|1|1|KKC".toList, .getOrder 20 true]

/-- A buy order at 70 is rejected, and the pass after it executes the two others,
which it does not do without that message. -/
theorem rejected_order_leaves_trace :
    ∃ taken rejected last observations last' observations',
      Rejects .literal .initial apartRun 0 "87|3|70|1|1|1|KKC".toList [] 30 true taken rejected ∧
        (threads .literal).run .initial (apartRun ++ [.receive 0 "87|3|70|1|1|1|KKC".toList] ++
          [.getOrder 30 true] ++ [.matchup]) = some (last, observations) ∧
        (threads .literal).run .initial (apartRun ++ [] ++ [.matchup]) =
          some (last', observations') ∧
        (observations.filterMap Observation.execution).length = 1 ∧
        observations'.filterMap Observation.execution = [] := by
  obtain ⟨taken, rejected, rejects, -⟩ := exists_rejects_of_any .literal .initial apartRun 0
    "87|3|70|1|1|1|KKC".toList [] 30 true (fun _ => true) (by decide +kernel)
  obtain ⟨last, observations, finished, executed⟩ :=
    Machine.exists_run_of_any (threads .literal) .initial
      (apartRun ++ [.receive 0 "87|3|70|1|1|1|KKC".toList] ++ [.getOrder 30 true] ++ [.matchup])
      (fun _ observations =>
        decide ((observations.filterMap Observation.execution).length = 1)) (by decide +kernel)
  obtain ⟨last', observations', finished', idle⟩ :=
    Machine.exists_run_of_any (threads .literal) .initial (apartRun ++ [] ++ [.matchup])
      (fun _ observations => decide (observations.filterMap Observation.execution = []))
      (by decide +kernel)
  exact ⟨taken, rejected, last, observations, last', observations', rejects, finished, finished',
    of_decide_eq_true executed, of_decide_eq_true idle⟩

/-- The message of the rejected order waits behind another one, and later a pair is
executed. -/
theorem leaves_no_trace_iff_rejectedBetween :
    ∃ taken rejected,
      Rejects .literal .initial [.firstLogin, .receive 0 "87|1|60|2|1|1|KKC".toList] 0
        "87|3|70|1|1|1|KKC".toList [.getOrder 10 true] 30 true taken rejected ∧
      (LeavesNoTrace .literal .initial [.firstLogin, .receive 0 "87|1|60|2|1|1|KKC".toList] 0
          "87|3|70|1|1|1|KKC".toList [.getOrder 10 true] 30 true
          [.matchup, .receive 0 "87|2|61|1|1|1|KKC".toList, .getOrder 20 true, .matchup] ↔
        (threads .literal).Along (ReachesAlike 30 taken.trader.od) rejected
          [.matchup, .receive 0 "87|2|61|1|1|1|KKC".toList, .getOrder 20 true, .matchup]) := by
  obtain ⟨taken, rejected, rejects, evaluated⟩ := exists_rejects_of_any .literal .initial
    [.firstLogin, .receive 0 "87|1|60|2|1|1|KKC".toList] 0 "87|3|70|1|1|1|KKC".toList
    [.getOrder 10 true] 30 true
    (fun rejected => ((threads .literal).run rejected
      [.matchup, .receive 0 "87|2|61|1|1|1|KKC".toList, .getOrder 20 true, .matchup]).any
        fun result => !(result.2.filterMap Observation.execution).isEmpty)
    (by decide +kernel)
  obtain ⟨⟨last, observations⟩, finished, -⟩ := (Option.any_eq_true ..).mp evaluated
  exact ⟨taken, rejected, rejects,
    leaves_no_trace_iff _ _ _ _ _ _ _ _ _ _ _ _ _ _ _ _ rejects finished⟩

end InertiaTrader
