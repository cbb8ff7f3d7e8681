import InertiaTrader.Foundation.Potential
import InertiaTrader.Matching.Agenda
import InertiaTrader.Matching.Defined
import InertiaTrader.Server.Dispatch

/-!
# What is left to do

A message makes a bounded amount of work: an iteration that takes it, at most one pair
more, two pushes and two reports.  When nothing arrives the threads are done after that
many steps.
-/

namespace InertiaTrader

open Foundation

def Books.unmatched (books : Books) : ℕ :=
  min books.rawBuyside.items.length books.rawSellside.items.length

def Threads.unreported (threads : Threads) : ℕ :=
  match threads.reporter with
  | .idle => 3 * threads.trader.reportList.length
  | .read _ => 3 * (threads.trader.reportList.length - 1) + 2
  | .sent => 3 * (threads.trader.reportList.length - 1) + 1

/-- The steps that are left to do, at most. -/
def Threads.backlog (threads : Threads) : ℕ :=
  10 * threads.trader.sr.dq.length + threads.trader.sr.dqOrderhandle.length +
    threads.asking.length + 9 * threads.trader.toBooks.unmatched + 4 * threads.pushing.length +
    threads.unreported

/-- Does the step get something done?  An iteration that finds its queue empty and a
pass that finds no pair do not. -/
def Threads.isBusy (threads : Threads) : Event → Bool
  | .connect .. | .receive .. => false
  | .getOrder .. => threads.trader.sr.dq ≠ []
  | .getCancelOrder .. => threads.trader.sr.dqOrderhandle ≠ []
  | .matchup => threads.trader.toBooks.agenda ≠ []
  | _ => true

def Threads.busyCount (threads : Threads) (event : Event) : ℕ :=
  if threads.isBusy event then 1 else 0

/-- What a message adds to the backlog, at most. -/
def Event.arrival : Event → ℕ
  | .receive .. => 10
  | _ => 0

/-- Is it a step of a thread that works off what has arrived?  The matching thread is not
among them, since it may be kept from its next step by `cv_m`. -/
def Event.isWork : Event → Bool
  | .connect .. | .receive .. | .matchup | .pushReport => false
  | _ => true

/-- Nothing is left to do but for the matching thread. -/
structure Threads.Drained (threads : Threads) : Prop where
  dq : threads.trader.sr.dq = []
  dqOrderhandle : threads.trader.sr.dqOrderhandle = []
  asking : threads.asking = []
  reportList : threads.trader.reportList = []
  reporter : threads.reporter = .idle

/-- A thread is about to leave the defined behaviour. -/
inductive Threads.Faulty (server : MariaDB) (threads : Threads) : Prop where
  | getOrder (address : ℕ) (connected : Bool) (fault : Fault) :
      threads.trader.getOrder server address connected = .error fault → Faulty server threads
  | getCancelOrder (connected : Bool) (fault : Fault) :
      threads.trader.getCancelOrder server connected = .error fault → Faulty server threads
  | priceAsking (msg : Text) (fault : Fault) :
      msg ∈ threads.asking → threads.trader.sr.priceAsking msg = .error fault →
      Faulty server threads
  | sendExecReport (order : OrderPtr) (inserts updates : Bool) (fault : Fault) :
      threads.reporter = .read order →
      threads.trader.sendExecReport server inserts updates order = .error fault →
      Faulty server threads

def Threads.Stuck (server : MariaDB) (threads : Threads) : Prop :=
  ∀ event, event.isWork = true → threads.isBusy event = true → threads.step server event = none

section

variable {server : MariaDB} {state next last : Threads} {event : Event} {events : List Event}
    {observations seen : List Observation}

theorem Books.unmatched_orderDataInsert (books : Books) (order : OrderPtr) :
    (books.orderDataInsert order).unmatched ≤ books.unmatched + 1 := by
  unfold orderDataInsert unmatched
  split
  next =>
    have longer := (books.rawBuyside.insert_items_perm order).length_eq
    rw [List.length_cons] at longer
    dsimp only
    omega
  next =>
    have longer := (books.rawSellside.insert_items_perm order).length_eq
    rw [List.length_cons] at longer
    dsimp only
    omega

theorem Books.unmatched_executes {books next : Books} {odb ods : OrderPtr}
    (pass : books.Pass next (some (odb, ods))) : books.unmatched = next.unmatched + 1 := by
  obtain ⟨buy, sell, -, -, buys, sells⟩ := pass.removes
  have buysLength := buys.length_eq
  have sellsLength := sells.length_eq
  rw [List.length_cons] at buysLength sellsLength
  unfold unmatched
  omega

theorem backlog_getOrder {address : ℕ} {connected : Bool}
    (stepped : state.step server (.getOrder address connected) = some (next, observations)) :
    state.busyCount (.getOrder address connected) + next.backlog ≤ state.backlog := by
  rcases Threads.getOrder_step stepped with
    ⟨empty, rfl, -⟩ | ⟨msg, rest, od, connId, cn, trader, -, queued, -, -, -, handling, rfl⟩
  · simp [Threads.busyCount, Threads.isBusy, empty]
  · have left : trader.sr.dq = rest ∧ trader.sr.dqOrderhandle = state.trader.sr.dqOrderhandle ∧
        trader.reportList = state.trader.reportList ∧
        trader.toBooks.unmatched ≤ state.trader.toBooks.unmatched + 1 := by
      cases handling with
      | failed | insufficient => exact ⟨rfl, rfl, rfl, Nat.le_succ _⟩
      | accepted => exact ⟨rfl, rfl, rfl, Books.unmatched_orderDataInsert _ _⟩
    obtain ⟨dq, dqOrderhandle, reportList, unmatched⟩ := left
    simp only [Threads.busyCount, Threads.isBusy, Threads.backlog, Threads.unreported, queued, dq,
      dqOrderhandle, reportList, List.length_cons, ne_eq, reduceCtorEq, not_false_eq_true,
      decide_true, if_true]
    omega

theorem backlog_getCancelOrder {connected : Bool}
    (stepped : state.step server (.getCancelOrder connected) = some (next, observations)) :
    state.busyCount (.getCancelOrder connected) + next.backlog ≤ state.backlog := by
  obtain ⟨trader, finished, rfl⟩ := Threads.lift_eq_some_iff.mp stepped
  rcases Trader.getCancelOrder_cases finished with ⟨empty, rfl, -⟩ | ⟨val, rest, queued, amendment⟩
  · simp [Threads.busyCount, Threads.isBusy, empty]
  · have left : trader.sr = { state.trader.sr with dqOrderhandle := rest } ∧
        trader.reportList = state.trader.reportList ∧ trader.toBooks = state.trader.toBooks := by
      cases amendment with
      | cancelled chosen => cases chosen <;> exact ⟨rfl, rfl, rfl⟩
      | modified | refused => exact ⟨rfl, rfl, rfl⟩
    obtain ⟨sr, reportList, toBooks⟩ := left
    simp only [Threads.busyCount, Threads.isBusy, Threads.backlog, Threads.unreported, queued, sr,
      reportList, toBooks, List.length_cons, ne_eq, reduceCtorEq, not_false_eq_true, decide_true,
      if_true]
    omega

theorem backlog_matchup (stepped : state.step server .matchup = some (next, observations)) :
    state.busyCount .matchup + next.backlog ≤ state.backlog := by
  have waiting : state.pushing = [] := by
    by_contra busy
    simp only [Threads.step, if_neg busy, reduceCtorEq] at stepped
  rcases Threads.matchup_step stepped with
    ⟨passed, rfl, -⟩ | ⟨toBooks, odb, ods, sr, passed, quoted, rfl, -⟩
  · obtain ⟨-, nothing⟩ := Books.agenda_of_idle (Books.matchup_cases passed)
    simp [Threads.busyCount, Threads.isBusy, nothing]
  · have fewer := Books.unmatched_executes (Books.matchup_cases passed)
    have queues : sr.dq = state.trader.sr.dq ∧
        sr.dqOrderhandle = state.trader.sr.dqOrderhandle := by
      unfold Server.quoteUpdate at quoted
      split at quoted <;> cases quoted
      exact ⟨rfl, rfl⟩
    have atMostOne : state.busyCount .matchup ≤ 1 := by
      unfold Threads.busyCount
      split <;> decide
    simp only [Threads.backlog, Threads.unreported, queues.1, queues.2, waiting, List.length_cons,
      List.length_nil]
    omega

theorem backlog_report (isReport : event = .readReport ∨ event = .popReport ∨
      ∃ inserts updates, event = .sendReport inserts updates)
    (stepped : state.step server event = some (next, observations)) :
    state.busyCount event + next.backlog ≤ state.backlog := by
  rcases isReport with rfl | rfl | ⟨inserts, updates, rfl⟩
  · simp only [Threads.step] at stepped
    split at stepped
    next order idle isLast =>
      cases stepped
      obtain ⟨before, listed⟩ := List.getLast?_eq_some_iff.mp isLast
      simp only [Threads.busyCount, Threads.isBusy, Threads.backlog, Threads.unreported, idle,
        listed, List.length_append, List.length_singleton, if_true]
      omega
    next => cases stepped
  · simp only [Threads.step] at stepped
    split at stepped
    next sent =>
      cases stepped
      simp only [Threads.busyCount, Threads.isBusy, Threads.backlog, Threads.unreported, sent,
        List.length_dropLast, if_true]
      omega
    next => cases stepped
  · simp only [Threads.step] at stepped
    split at stepped
    next order reading =>
      obtain ⟨trader, finished, rfl⟩ := Threads.lift_eq_some_iff.mp stepped
      obtain ⟨_, _, _, _, -, -, -, rfl, -⟩ := Trader.sendExecReport_cases finished
      simp only [Threads.busyCount, Threads.isBusy, Threads.backlog, Threads.unreported, reading,
        if_true]
      omega
    next => cases stepped

theorem backlog_receive {cn : ConnRef} {text : Text}
    (stepped : state.step server (.receive cn text) = some (next, observations)) :
    next.backlog ≤ state.backlog + 10 := by
  simp only [Threads.step] at stepped
  split at stepped
  next =>
    rcases Server.route_cases state.trader.sr
        (Server.addressed text (state.trader.sr.connections cn)) with
      ⟨-, routed⟩ | ⟨-, routed⟩ | ⟨-, routed⟩ | ⟨-, -, -, routed⟩ <;>
    · rw [routed] at stepped
      cases stepped
      simp only [Threads.backlog, Threads.unreported, List.length_append, List.length_singleton,
        if_true, Bool.false_eq_true, if_false]
      omega
  next => cases stepped

theorem backlog_step (stepped : state.step server event = some (next, observations)) :
    state.busyCount event + next.backlog ≤ state.backlog + event.arrival := by
  cases event with
  | getOrder => exact backlog_getOrder stepped
  | getCancelOrder => exact backlog_getCancelOrder stepped
  | matchup => exact backlog_matchup stepped
  | readReport => exact backlog_report (.inl rfl) stepped
  | popReport => exact backlog_report (.inr (.inl rfl)) stepped
  | sendReport inserts updates => exact backlog_report (.inr (.inr ⟨_, _, rfl⟩)) stepped
  | connect connStorage connections userList =>
      cases stepped
      exact le_of_eq (Nat.zero_add _)
  | pushReport =>
      simp only [Threads.step] at stepped
      split at stepped
      next => cases stepped
      next order pushing waiting =>
        cases stepped
        simp only [Threads.busyCount, Threads.isBusy, Threads.backlog, Threads.unreported,
          Trader.pushReport, waiting, List.length_append, List.length_cons, List.length_nil,
          Event.arrival, if_true]
        cases state.reporter <;> dsimp only <;> omega
  | priceAsking index =>
      simp only [Threads.step] at stepped
      split at stepped
      next => cases stepped
      next msg isAsking =>
        split at stepped
        next => cases stepped
        next =>
          cases stepped
          obtain ⟨inside, -⟩ := List.getElem?_eq_some_iff.mp isAsking
          simp only [Threads.busyCount, Threads.isBusy, Threads.backlog, Threads.unreported,
            List.length_eraseIdx_of_lt inside, Event.arrival, if_true]
          omega
  | receive cn text => exact (Nat.zero_add _).trans_le (backlog_receive stepped)

namespace Threads.Stuck

theorem reporter (stuck : state.Stuck server) (faultless : ¬ state.Faulty server) :
    state.reporter = .idle := by
  cases reporter : state.reporter with
  | idle => rfl
  | read order =>
      have stopped := stuck (.sendReport true true) rfl rfl
      cases result : state.trader.sendExecReport server true true order with
      | error fault =>
          exact absurd (.sendExecReport order true true fault reporter result) faultless
      | ok sent =>
          obtain ⟨next, observations, stepped⟩ :=
            (sendReport_defined_iff reporter).mpr ⟨sent, result⟩
          rw [stepped] at stopped
          cases stopped
  | sent =>
      have stopped := stuck .popReport rfl rfl
      simp only [Threads.step, reporter, reduceCtorEq] at stopped

theorem dq (stuck : state.Stuck server) (faultless : ¬ state.Faulty server) :
    state.trader.sr.dq = [] := by
  by_contra waiting
  obtain ⟨address, fresh⟩ := Infinite.exists_notMem_finset state.allocated.toFinset
  rw [List.mem_toFinset] at fresh
  have stopped := stuck (.getOrder address true) rfl (by simpa [Threads.isBusy])
  rcases result : state.trader.getOrder server address true with fault | ⟨trader, observations⟩
  · exact faultless (.getOrder address true fault result)
  · simp only [Threads.step, fresh, if_false, result, Threads.lift, reduceCtorEq] at stopped

theorem dqOrderhandle (stuck : state.Stuck server) (faultless : ¬ state.Faulty server) :
    state.trader.sr.dqOrderhandle = [] := by
  by_contra waiting
  have stopped := stuck (.getCancelOrder true) rfl (by simpa [Threads.isBusy])
  rcases result : state.trader.getCancelOrder server true with fault | ⟨trader, observations⟩
  · exact faultless (.getCancelOrder true fault result)
  · simp only [Threads.step, result, Threads.lift, reduceCtorEq] at stopped

theorem asking (stuck : state.Stuck server) (faultless : ¬ state.Faulty server) :
    state.asking = [] := by
  by_contra waiting
  obtain ⟨msg, rest, asking⟩ := List.exists_cons_of_ne_nil waiting
  have stopped := stuck (.priceAsking 0) rfl rfl
  cases result : state.trader.sr.priceAsking msg with
  | error fault => exact faultless (.priceAsking msg fault (by simp [asking]) result)
  | ok replies =>
      simp only [Threads.step, asking, List.getElem?_cons_zero, result, reduceCtorEq] at stopped

theorem reportList (stuck : state.Stuck server) (faultless : ¬ state.Faulty server) :
    state.trader.reportList = [] := by
  by_contra listed
  have stopped := stuck .readReport rfl rfl
  simp only [Threads.step, stuck.reporter faultless, List.getLast?_eq_some_getLast listed,
    reduceCtorEq] at stopped

/-- When every thread that could get something done is stopped, and none by a fault, then
nothing is left. -/
theorem drained (stuck : state.Stuck server) (faultless : ¬ state.Faulty server) :
    state.Drained where
  dq := stuck.dq faultless
  dqOrderhandle := stuck.dqOrderhandle faultless
  asking := stuck.asking faultless
  reportList := stuck.reportList faultless
  reporter := stuck.reporter faultless

end Threads.Stuck

/-- As long as something is left and no thread is at a fault, some thread gets something
done. -/
theorem progress (unfinished : ¬ (state.Drained ∨ state.Faulty server)) :
    ∃ event next observations, event.isWork = true ∧
      (threads server).step state event = some (next, observations) ∧
      next.backlog < state.backlog := by
  by_contra! stuck
  rw [not_or] at unfinished
  apply unfinished.1
  apply Threads.Stuck.drained _ unfinished.2
  intro event isWork isBusy
  rw [Option.eq_none_iff_forall_ne_some]
  rintro ⟨next, observations⟩ stepped
  have notLower := stuck event next observations isWork stepped
  have lower := backlog_step stepped
  have arrival : event.arrival = 0 := by
    cases event <;> first | rfl | cases isWork
  rw [Threads.busyCount, if_pos isBusy, arrival] at lower
  omega

end

/-- In every run the steps that get something done are paid for by what was left at its
beginning and by ten for each message, whatever the order of the steps. -/
theorem work_is_bounded (server : MariaDB) (state last : Threads) (events : List Event)
    (observations : List Observation)
    (finished : (threads server).run state events = some (last, observations)) :
    (threads server).tally Threads.busyCount state events + last.backlog ≤
      state.backlog + (events.map Event.arrival).sum := by
  apply Machine.tally_add_le _ _ Threads.backlog _ _ finished
  intro state event next observations stepped
  exact backlog_step stepped

def ordersReportedRun : List Event :=
  [.firstLogin, .getOrder 10 true, .receive 0 "87|1|60|1|1|1|KKC".toList, .getOrder 10 true,
    .matchup, .receive 0 "87|2|60|2|1|1|KKC".toList, .getOrder 20 true, .getCancelOrder true,
    .matchup, .pushReport, .pushReport, .readReport, .sendReport true true, .popReport, .matchup,
    .readReport, .sendReport true true, .popReport]

theorem work_is_bounded_ordersReportedRun :
    ∃ last observations,
      (threads .literal).run .initial ordersReportedRun = some (last, observations) ∧
        (threads .literal).tally Threads.busyCount .initial ordersReportedRun = 11 ∧
        11 + last.backlog ≤ 20 := by
  obtain ⟨last, observations, finished, -⟩ :=
    Machine.exists_run_of_any (threads .literal) .initial ordersReportedRun
      (fun _ _ => true) (by decide +kernel)
  have bounded := work_is_bounded _ _ _ _ _ finished
  have done : (threads .literal).tally Threads.busyCount .initial ordersReportedRun = 11 := by
    decide +kernel
  have left : Threads.backlog .initial + (ordersReportedRun.map Event.arrival).sum = 20 := by
    decide +kernel
  rw [done, left] at bounded
  exact ⟨last, observations, finished, done, bounded⟩

theorem Threads.exists_run_to_drained (server : MariaDB) (state : Threads) :
    ∃ further last observations, (∀ event ∈ further, event.isWork = true) ∧
      (threads server).run state further = some (last, observations) ∧
      (last.Drained ∨ last.Faulty server) ∧ further.length ≤ state.backlog := by
  apply (threads server).exists_run_to_rest (fun _ => True) _ _ _ _ _ trivial
  · intro _ _ _ _ _ _
    trivial
  · intro state _ unfinished
    exact progress unfinished

/-- From every state, whoever owns `cv_m` and wherever the matching thread stands, the
other threads can do all that is left for them without another message, unless one of
them comes to a fault. -/
theorem queues_get_drained (server : MariaDB) (state : LockedThreads) :
    ∃ (further : List Event) (threads : Threads) (owner : Option LockThread)
      (outputs : List LockedOutput), (∀ event ∈ further, event.isWork = true) ∧
      (lockedThreads server).run state (further.map .other) =
        some ({ state with threads, owner }, outputs) ∧
      (threads.Drained ∨ threads.Faulty server) ∧
      further.length ≤ state.threads.backlog := by
  obtain ⟨further, threads, observations, areWork, ran, atRest, short⟩ :=
    Threads.exists_run_to_drained server state.threads
  have others : ∀ event ∈ further, event ≠ .matchup ∧ event ≠ .pushReport := by
    intro event isNext
    have isWork := areWork event isNext
    constructor <;> rintro rfl <;> cases isWork
  obtain ⟨owner, outputs, ran'⟩ := LockedThreads.exists_run_other others ran
  exact ⟨further, threads, owner, outputs, areWork, ran', atRest, short⟩

end InertiaTrader
