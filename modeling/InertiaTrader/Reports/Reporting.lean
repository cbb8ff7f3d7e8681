import InertiaTrader.Matching.Simulation

/-!
# Reporting executions

`generateExecReport` reads the last entry of `reportList_`, sends the report and
only then removes the last entry.  An entry that is pushed in between is removed
instead of the one that was reported.
-/

namespace InertiaTrader

open Foundation

/-- The orders pushed to `reportList_`. -/
def pushedIn (observations : List Observation) : List OrderPtr :=
  observations.filterMap fun
    | .pushed order => some order
    | _ => none

/-- The orders for which `sendExecReport` was called. -/
def reportedIn (observations : List Observation) : List OrderPtr :=
  observations.filterMap fun
    | .reported order => some order
    | _ => none

theorem mem_reportedIn {observations : List Observation} {order : OrderPtr} :
    order ∈ reportedIn observations ↔ .reported order ∈ observations := by
  rw [reportedIn, List.mem_filterMap]
  constructor
  · rintro ⟨observation, isShown, shows⟩
    cases observation with
    | reported other =>
        cases shows
        exact isShown
    | _ => cases shows
  · intro isShown
    exact ⟨.reported order, isShown, rfl⟩

/-- Nothing is pushed while the reporting thread is inside an iteration. -/
def PushesBetweenReports (threads : Threads) : Event → Prop
  | .pushReport => threads.reporter = .idle
  | _ => True

/-- What holds of `reportList_` in every run, whatever the interleaving. -/
structure Tracked (threads : Threads) (seen : List Observation) : Prop where
  books : ∃ shadow : Matching, Accompanies threads shadow ∧ shadow.Conserved ∧
    shadow.pushed = pushedIn seen ++ threads.pushing
  listed : threads.trader.reportList.Sublist (pushedIn seen)
  reading : ∀ order, threads.reporter = .read order → order ∈ pushedIn seen
  reported : reportedIn seen ⊆ pushedIn seen

theorem Tracked.distinct {threads : Threads} {seen : List Observation}
    (tracked : Tracked threads seen) : (pushedIn seen ++ threads.pushing).Nodup := by
  obtain ⟨shadow, -, conserved, pushed⟩ := tracked.books
  have nodup := conserved.addresses_nodup
  rw [Matching.listed, List.map_append, pushed] at nodup
  exact (List.nodup_append.mp nodup).2.1.of_map

theorem tracked_start (server : MariaDB) (db : Database) (rc : RiskController)
    (nidSub1 : BitVec 32) (sr : Server) :
    Tracked (.start (.construct server db rc nidSub1 sr)) [] := by
  obtain ⟨buyside, sellside, equality⟩ := Trader.construct_eq server db rc nidSub1 sr
  rw [equality]
  exact ⟨⟨.empty, ⟨rfl, by simp [Matching.empty]⟩, Matching.conserved_empty, rfl⟩, .slnil,
    by simp [Threads.start], List.Subset.refl _⟩

/-- What a step does to `reportList_` and to the reporting thread, and which
orders it pushes and reports. -/
inductive ReportStep (state next : Threads) : Event → List OrderPtr → List OrderPtr → Prop where
  | other (event : Event) :
      event ≠ .pushReport → next.trader.reportList = state.trader.reportList →
      next.reporter = state.reporter → ReportStep state next event [] []
  | pushes (order : OrderPtr) :
      next.trader.reportList = state.trader.reportList ++ [order] →
      next.reporter = state.reporter → ReportStep state next .pushReport [order] []
  | reads (order : OrderPtr) :
      state.reporter = .idle → state.trader.reportList.getLast? = some order →
      next.trader.reportList = state.trader.reportList →
      next.reporter = .read order → ReportStep state next .readReport [] []
  | sends (inserts updates : Bool) (order : OrderPtr) :
      state.reporter = .read order →
      next.trader.reportList = state.trader.reportList →
      next.reporter = .sent → ReportStep state next (.sendReport inserts updates) [] [order]
  | pops :
      state.reporter = .sent →
      next.trader.reportList = state.trader.reportList.dropLast →
      next.reporter = .idle → ReportStep state next .popReport [] []

section

variable {server : MariaDB} {state next : Threads} {event : Event}
    {seen observations : List Observation}

theorem reportStep (stepped : state.step server event = some (next, observations)) :
    ReportStep state next event (pushedIn observations) (reportedIn observations) := by
  cases Threads.step_cases stepped with
  | communicates _ sr asking _ sends _ notPush =>
      have noPushes : pushedIn observations = [] := Threads.filterMap_sends (fun _ _ => rfl) sends
      have noReports : reportedIn observations = [] := Threads.filterMap_sends (fun _ _ => rfl) sends
      rw [noPushes, noReports]
      exact .other _ notPush rfl rfl
  | rests _ _ notPush => exact .other _ notPush rfl rfl
  | handlesOrder address connected rest connId od cn trader _ fresh handling =>
      cases handling <;> exact .other _ (by simp) rfl rfl
  | amends connected val rest trader _ popped amendment =>
      cases amendment with
      | cancelled chosen => cases chosen <;> exact .other _ (by simp) rfl rfl
      | modified | refused => exact .other _ (by simp) rfl rfl
  | executes => exact .other _ (by simp) rfl rfl
  | pushes order => exact .pushes order rfl rfl
  | reads order idle last => exact .reads order idle last rfl rfl
  | sends inserts updates order connId execPrice clientSerialNum cn reading =>
      exact .sends inserts updates order reading rfl rfl
  | pops sent => exact .pops sent rfl rfl

theorem pushing_step (stepped : state.step server event = some (next, observations)) :
    state.pushing ++ executedIn observations = pushedIn observations ++ next.pushing := by
  cases Threads.step_cases stepped with
  | communicates _ sr asking _ sends =>
      have noPushes : pushedIn observations = [] := Threads.filterMap_sends (fun _ _ => rfl) sends
      have nothing : observations.filterMap Observation.ofBooks = [] :=
        Threads.filterMap_sends (fun _ _ => rfl) sends
      simp [executedIn, executedOrders, noPushes, nothing]
  | handlesOrder address connected rest connId od cn trader _ fresh handling =>
      cases handling <;> exact List.append_nil _
  | amends connected val rest trader _ popped amendment =>
      cases amendment <;> exact List.append_nil _
  | executes toBooks odb ods sr finished =>
      rw [finished]
      rfl
  | pushes order pushing waiting =>
      rw [waiting]
      exact List.append_nil _
  | rests | reads | sends | pops => exact List.append_nil _

theorem ReportStep.listed {pushed pushes reports : List OrderPtr}
    (step : ReportStep state next event pushes reports)
    (listed : state.trader.reportList.Sublist pushed) :
    next.trader.reportList.Sublist (pushed ++ pushes) := by
  cases step with
  | other _ _ sameList => simpa [sameList] using listed
  | pushes order list =>
      rw [list]
      exact listed.append (.refl _)
  | reads order _ _ sameList => simpa [sameList] using listed
  | sends _ _ order _ sameList => simpa [sameList] using listed
  | pops _ list =>
      rw [list, List.append_nil]
      exact (List.dropLast_sublist _).trans listed

theorem ReportStep.reading {pushed pushes reports : List OrderPtr}
    (step : ReportStep state next event pushes reports)
    (listed : state.trader.reportList.Sublist pushed)
    (reading : ∀ order, state.reporter = .read order → order ∈ pushed)
    (order : OrderPtr) (reads : next.reporter = .read order) : order ∈ pushed ++ pushes := by
  cases step with
  | other _ _ _ sameReporter =>
      exact List.mem_append_left _ (reading order (sameReporter ▸ reads))
  | pushes _ _ sameReporter =>
      exact List.mem_append_left _ (reading order (sameReporter ▸ reads))
  | reads last _ isLast _ started =>
      obtain rfl : last = order := Reporter.read.inj (started.symm.trans reads)
      exact List.mem_append_left _ (listed.subset (List.mem_of_getLast? isLast))
  | sends _ _ _ _ _ finished => cases finished.symm.trans reads
  | pops _ _ finished => cases finished.symm.trans reads

theorem ReportStep.reported {pushed pushes reports : List OrderPtr}
    (step : ReportStep state next event pushes reports)
    (reading : ∀ order, state.reporter = .read order → order ∈ pushed) :
    reports ⊆ pushed ++ pushes := by
  cases step with
  | sends _ _ order isReading =>
      rw [List.append_nil, List.cons_subset]
      exact ⟨reading order isReading, List.nil_subset _⟩
  | other | pushes | reads | pops => exact List.nil_subset _

theorem tracked_step (tracked : Tracked state seen)
    (stepped : state.step server event = some (next, observations)) :
    Tracked next (seen ++ observations) := by
  have pushed : pushedIn (seen ++ observations) = pushedIn seen ++ pushedIn observations :=
    List.filterMap_append
  have reported : reportedIn (seen ++ observations) = reportedIn seen ++ reportedIn observations :=
    List.filterMap_append
  have step := reportStep stepped
  obtain ⟨shadow, accompanies, conserved, accounted⟩ := tracked.books
  obtain ⟨bookEvents, shadow', accompanies', ran⟩ := step_accompanied accompanies stepped
  refine ⟨⟨shadow', accompanies', Matching.conserved_run conserved ran, ?_⟩, ?_, ?_, ?_⟩
  · rw [(Matching.histories_run ran).2, accounted, List.append_assoc, pushed, List.append_assoc,
      ← pushing_step stepped]
    rfl
  · rw [pushed]
    exact step.listed tracked.listed
  · rw [pushed]
    exact step.reading tracked.listed tracked.reading
  · rw [pushed, reported]
    exact List.append_subset.mpr ⟨List.subset_append_of_subset_left _ tracked.reported,
      step.reported tracked.reading⟩

theorem tracked_run {last : Threads} {events : List Event} (tracked : Tracked state seen)
    (finished : (threads server).run state events = some (last, observations)) :
    Tracked last (seen ++ observations) :=
  (threads server).run_invariant Tracked (fun _ _ _ _ _ => tracked_step) tracked finished

end

/-- An order that was pushed, is not reported, and never will be: it was removed
already, or the current iteration is going to remove it instead of the order it
reports. -/
structure Lost (threads : Threads) (pushed reported : List OrderPtr) (order : OrderPtr) :
    Prop where
  pushed : order ∈ pushed
  unreported : order ∉ reported
  unread : threads.reporter ≠ .read order
  doomed : order ∉ threads.trader.reportList ∨
    threads.reporter ≠ .idle ∧ threads.trader.reportList.getLast? = some order

section

variable {state next : Threads} {event : Event} {pushed reported pushes reports : List OrderPtr}

theorem lost_of_push {order : OrderPtr} (fresh : order ∉ pushed) (reportedBefore : reported ⊆ pushed)
    (reading : ∀ other, state.reporter = .read other → other ∈ pushed)
    (busy : state.reporter ≠ .idle) (sameReporter : next.reporter = state.reporter)
    (list : next.trader.reportList = state.trader.reportList ++ [order]) :
    Lost next (pushed ++ [order]) reported order where
  pushed := List.mem_append_right _ (List.mem_singleton_self order)
  unreported membership := fresh (reportedBefore membership)
  unread reads := fresh (reading order (sameReporter ▸ reads))
  doomed := .inr ⟨sameReporter ▸ busy, by rw [list, List.getLast?_concat]⟩

theorem ReportStep.lost (step : ReportStep state next event pushes reports)
    (listed : state.trader.reportList.Sublist pushed) (reportedBefore : reported ⊆ pushed)
    (reading : ∀ other, state.reporter = .read other → other ∈ pushed)
    (distinct : (pushed ++ pushes).Nodup) (lost : ∃ order, Lost state pushed reported order) :
    ∃ order, Lost next (pushed ++ pushes) (reported ++ reports) order := by
  obtain ⟨order, isPushed, unreported, unread, doomed⟩ := lost
  cases step with
  | other _ _ sameList sameReporter =>
      refine ⟨order, by simpa using isPushed, by simpa using unreported, ?_, ?_⟩
      · rwa [sameReporter]
      · rwa [sameReporter, sameList]
  | pushes new list sameReporter =>
      have fresh : new ∉ pushed := fun membership =>
        (List.nodup_append.mp distinct).2.2 new membership new (by simp) rfl
      rw [List.append_nil]
      rcases doomed with gone | ⟨busy, -⟩
      · refine ⟨order, List.mem_append_left _ isPushed, unreported, by rwa [sameReporter], .inl ?_⟩
        rw [list, List.mem_append, List.mem_singleton]
        rintro (resting | rfl)
        · exact gone resting
        · exact fresh isPushed
      · exact ⟨new, lost_of_push fresh reportedBefore reading busy sameReporter list⟩
  | reads last idle isLast sameList started =>
      rcases doomed with gone | ⟨busy, -⟩
      · refine ⟨order, by simpa using isPushed, by simpa using unreported, ?_, .inl ?_⟩
        · rw [started]
          rintro reads
          obtain rfl : last = order := Reporter.read.inj reads
          exact gone (List.mem_of_getLast? isLast)
        · rwa [sameList]
      · exact absurd idle busy
  | sends inserts updates current isReading sameList finished =>
      have other : order ≠ current := fun same => unread (same ▸ isReading)
      refine ⟨order, by simpa using isPushed, by simpa using ⟨unreported, other⟩, ?_, ?_⟩
      · rw [finished]
        exact Reporter.noConfusion
      · rw [sameList, finished]
        exact doomed.imp_right fun last => ⟨Reporter.noConfusion, last.2⟩
  | pops sent list idle =>
      refine ⟨order, by simpa using isPushed, by simpa using unreported, ?_, .inl ?_⟩
      · rw [idle]
        exact Reporter.noConfusion
      · rw [list]
        rcases doomed with gone | ⟨-, last⟩
        · exact fun membership => gone (List.mem_of_mem_dropLast membership)
        · -- The last entry occurs only once in the list.
          have nodup := listed.nodup (List.nodup_append.mp distinct).1
          obtain ⟨front, equality⟩ := List.getLast?_eq_some_iff.mp last
          rw [equality, List.nodup_append] at nodup
          rw [equality, List.dropLast_concat]
          exact fun membership => nodup.2.2 order membership order (by simp) rfl

/-- Reported and listed orders are together the pushed ones, apart from the one
in the hands of the reporting thread. -/
def Balanced (threads : Threads) (pushed reported : List OrderPtr) : Prop :=
  match threads.reporter with
  | .idle => (reported ++ threads.trader.reportList).Perm pushed
  | .read order => threads.trader.reportList.getLast? = some order ∧
      (reported ++ threads.trader.reportList).Perm pushed
  | .sent => (reported ++ threads.trader.reportList.dropLast).Perm pushed

theorem ReportStep.balanced (step : ReportStep state next event pushes reports)
    (between : PushesBetweenReports state event) (balanced : Balanced state pushed reported) :
    Balanced next (pushed ++ pushes) (reported ++ reports) := by
  cases step with
  | other _ _ sameList sameReporter =>
      simpa only [Balanced, sameList, sameReporter, List.append_nil] using balanced
  | pushes new list sameReporter =>
      have idle : state.reporter = .idle := between
      simp only [Balanced, idle, sameReporter, list, List.append_nil] at balanced ⊢
      rw [← List.append_assoc]
      exact balanced.append_right [new]
  | reads last idle isLast sameList started =>
      simp only [Balanced, idle, started, sameList, List.append_nil] at balanced ⊢
      exact ⟨isLast, balanced⟩
  | sends inserts updates current isReading sameList finished =>
      simp only [Balanced, isReading, finished, sameList, List.append_nil] at balanced ⊢
      obtain ⟨last, perm⟩ := balanced
      obtain ⟨front, equality⟩ := List.getLast?_eq_some_iff.mp last
      rw [equality] at perm ⊢
      rw [List.dropLast_concat, List.append_assoc]
      exact (List.perm_append_comm.append_left _).trans perm
  | pops sent list idle =>
      simpa only [Balanced, sent, idle, list, List.append_nil] using balanced

end

section

variable {server : MariaDB} {state last : Threads} {events : List Event}
    {seen observations : List Observation}

theorem pushedIn_append (first second : List Observation) :
    pushedIn (first ++ second) = pushedIn first ++ pushedIn second := List.filterMap_append

theorem reportedIn_append (first second : List Observation) :
    reportedIn (first ++ second) = reportedIn first ++ reportedIn second := List.filterMap_append

theorem lost_run (tracked : Tracked state seen)
    (lost : ∃ order, Lost state (pushedIn seen) (reportedIn seen) order)
    (finished : (threads server).run state events = some (last, observations)) :
    ∃ order, Lost last (pushedIn (seen ++ observations)) (reportedIn (seen ++ observations))
      order := by
  refine ((threads server).run_invariant (fun current seen => Tracked current seen ∧
    ∃ order, Lost current (pushedIn seen) (reportedIn seen) order) ?_ ⟨tracked, lost⟩ finished).2
  rintro current seen event next observations ⟨tracked, lost⟩ stepped
  have trackedNext := tracked_step tracked stepped
  have distinct := (List.nodup_append.mp trackedNext.distinct).1
  rw [pushedIn_append] at distinct
  refine ⟨trackedNext, ?_⟩
  rw [pushedIn_append, reportedIn_append]
  exact (reportStep stepped).lost tracked.listed tracked.reported tracked.reading distinct lost

theorem balanced_start (server : MariaDB) (db : Database) (rc : RiskController)
    (nidSub1 : BitVec 32) (sr : Server) :
    Balanced (.start (.construct server db rc nidSub1 sr)) (pushedIn []) (reportedIn []) := by
  obtain ⟨buyside, sellside, equality⟩ := Trader.construct_eq server db rc nidSub1 sr
  rw [equality]
  exact .nil

theorem balanced_run (balanced : Balanced state (pushedIn seen) (reportedIn seen))
    (between : (threads server).Along PushesBetweenReports state events)
    (finished : (threads server).run state events = some (last, observations)) :
    Balanced last (pushedIn (seen ++ observations)) (reportedIn (seen ++ observations)) := by
  apply (threads server).run_invariant_along
    (fun current seen => Balanced current (pushedIn seen) (reportedIn seen))
    _ balanced between finished
  intro current seen event next observations balanced between stepped
  rw [pushedIn_append, reportedIn_append]
  exact (reportStep stepped).balanced between balanced

end

/-- Once the list is empty and the reporting thread between iterations: every
pushed order was reported exactly once exactly when nothing was ever pushed
inside an iteration of that thread. -/
theorem reported_once_iff (server : MariaDB) (db : Database) (rc : RiskController)
    (nidSub1 : BitVec 32) (sr : Server) (events : List Event) (last : Threads)
    (observations : List Observation)
    (finished : (threads server).run (.start (.construct server db rc nidSub1 sr)) events =
      some (last, observations))
    (drained : last.trader.reportList = []) (idle : last.reporter = .idle) :
    (∀ order ∈ pushedIn observations, (reportedIn observations).count order = 1) ↔
      (threads server).Along PushesBetweenReports (.start (.construct server db rc nidSub1 sr))
        events := by
  have started := tracked_start server db rc nidSub1 sr
  constructor
  · intro once
    by_contra violated
    obtain ⟨earlier, event, rest, middle, first, next, second, later, reached, violates, stepped,
      ran, rfl⟩ := (threads server).exists_violation finished violated
    have tracked := tracked_run started reached
    rw [List.nil_append] at tracked
    have trackedNext := tracked_step tracked stepped
    obtain ⟨order, lost⟩ : ∃ order,
        Lost next (pushedIn (first ++ second)) (reportedIn (first ++ second)) order := by
      have step := reportStep stepped
      have distinct := (List.nodup_append.mp trackedNext.distinct).1
      rw [pushedIn_append] at distinct ⊢
      rw [reportedIn_append]
      generalize pushedIn second = pushes at step distinct ⊢
      generalize reportedIn second = reports at step ⊢
      cases step with
      | pushes order list sameReporter =>
          have fresh : order ∉ pushedIn first := fun membership =>
            (List.nodup_append.mp distinct).2.2 order membership order (by simp) rfl
          rw [List.append_nil]
          exact ⟨order, lost_of_push fresh tracked.reported tracked.reading violates sameReporter
            list⟩
      | other _ notPush => exact absurd (by cases event <;> trivial) violates
      | reads | sends | pops => exact absurd trivial violates
    obtain ⟨lostOrder, lostAtEnd⟩ := lost_run trackedNext ⟨order, lost⟩ ran
    have never := List.count_eq_zero.mpr lostAtEnd.unreported
    rw [once lostOrder lostAtEnd.pushed] at never
    exact absurd never one_ne_zero
  · intro between order membership
    have balanced := balanced_run (balanced_start server db rc nidSub1 sr) between finished
    rw [List.nil_append] at balanced
    simp only [Balanced, idle, drained, List.append_nil] at balanced
    have tracked := tracked_run started finished
    rw [List.nil_append] at tracked
    rw [balanced.count_eq]
    exact List.count_eq_one_of_mem (List.nodup_append.mp tracked.distinct).1 membership

/-- The sell order of a pair is pushed after its buy order was read. -/
def overtakenReportRun : List Event :=
  [.firstLogin,
    .receive 0 "87|1|60|1|1|1|KKC".toList, .getOrder 10 true,
    .receive 0 "87|2|60|2|1|1|KKC".toList, .getOrder 20 true,
    .matchup, .pushReport, .readReport, .pushReport, .sendReport true true, .popReport,
    .readReport, .sendReport true true, .popReport]

theorem overtakenReportRun_evaluated :
    ∃ last observations,
      (threads .literal).run .initial overtakenReportRun = some (last, observations) ∧
        last.trader.reportList = [] ∧ last.reporter = .idle ∧
        ∃ order ∈ pushedIn observations, (reportedIn observations).count order ≠ 1 := by
  obtain ⟨last, observations, finished, evaluated⟩ :=
    Machine.exists_run_of_any (threads .literal) .initial overtakenReportRun
      (fun last observations => decide (last.trader.reportList = [] ∧
        last.reporter = .idle ∧
        ∃ order ∈ pushedIn observations, (reportedIn observations).count order ≠ 1))
      (by decide +kernel)
  exact ⟨last, observations, finished, of_decide_eq_true evaluated⟩

/-- The buy order is reported twice, the sell order not at all. -/
theorem report_lost :
    ∃ last observations,
      (threads .literal).run .initial overtakenReportRun = some (last, observations) ∧
        last.trader.reportList = [] ∧ last.reporter = .idle ∧
        ¬ ∀ order ∈ pushedIn observations, (reportedIn observations).count order = 1 := by
  obtain ⟨last, observations, finished, drained, idle, order, pushed, notOnce⟩ :=
    overtakenReportRun_evaluated
  exact ⟨last, observations, finished, drained, idle, fun once => notOnce (once order pushed)⟩

theorem reported_once_iff_overtakenReportRun :
    ∃ last observations,
      (threads .literal).run .initial overtakenReportRun = some (last, observations) ∧
        ((∀ order ∈ pushedIn observations, (reportedIn observations).count order = 1) ↔
          (threads .literal).Along PushesBetweenReports .initial overtakenReportRun) := by
  obtain ⟨last, observations, finished, drained, idle, -⟩ := overtakenReportRun_evaluated
  exact ⟨last, observations, finished,
    reported_once_iff _ _ _ _ _ _ _ _ finished drained idle⟩

end InertiaTrader
