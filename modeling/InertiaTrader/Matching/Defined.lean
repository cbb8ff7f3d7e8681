import InertiaTrader.Matching.LockReleases
import InertiaTrader.Matching.QuotedPrices
import InertiaTrader.Matching.Rejections

/-!
# Matching and reporting never run into an unset member

A pass reads the member `od`, the last sell order and the quote of `KKC`, a report reads three
members of an order that its constructor leaves unset.  All of them are there by then, so that
nothing but its own lock stops the matching thread.
-/

namespace InertiaTrader

open Foundation

def Order.Numbered (order : Order) : Prop :=
  (∃ connId, order.connId = some connId) ∧
    ∃ clientSerialNum, order.clientSerialNum = some clientSerialNum

namespace LockedThreads

/-- What `matchup` and `generateExecReport` take for granted. -/
structure Sound (state : LockedThreads) : Prop extends Standing state where
  received : state.threads.trader.od = none → state.threads.trader.rawBuyside.items = []
  quoted : ∃ stock, state.threads.trader.sr.quotesList.lookup "KKC".toList = some stock
  resting : ∀ order ∈ state.threads.trader.rawBuyside.items ++
    state.threads.trader.rawSellside.items, order.order.Numbered
  listed : ∀ order ∈ state.threads.listed,
    order.order.Numbered ∧ ∃ price, order.order.execPrice = some price

/-- `matchup` waits for the lock, which somebody owns. -/
def HeldUp (state : LockedThreads) : Prop :=
  state.matching.granted ≠ none ∧ state.owner ≠ none

end LockedThreads

section

variable {server : MariaDB} {state next last : LockedThreads} {event : LockedEvent}
    {events : List LockedEvent} {outputs : List LockedOutput}

theorem Trader.Accepts.numbered {trader : Trader} {order : Order}
    (accepts : trader.Accepts order) : order.Numbered := by
  obtain ⟨msg, rest, od, -, -, rfl⟩ := accepts.built
  obtain ⟨connId, cn, user, sender, -⟩ := accepts.sufficient
  exact ⟨⟨connId, sender⟩, _, rfl⟩

theorem Books.erasePair_subset (books : Books) (odb : OrderPtr) :
    (books.erasePair odb).rawBuyside.items ⊆ books.rawBuyside.items ∧
      (books.erasePair odb).rawSellside.items ⊆ books.rawSellside.items :=
  ⟨(List.eraseIdx_sublist ..).subset, (List.eraseIdx_sublist ..).subset⟩

namespace LockedThreads

theorem Sound.push (sound : state.Sound) {order : OrderPtr} {price : Price} {place : Place}
    (numbered : order.order.Numbered)
    (standing : (state.pushReport (order.withExecPrice price) place).1.Standing) :
    Sound (state.pushReport (order.withExecPrice price) place).1 := by
  refine ⟨standing, sound.received, sound.quoted, sound.resting, ?_⟩
  have listed := sound.listed
  simp only [Threads.listed, List.forall_mem_append] at listed ⊢
  refine ⟨List.forall_mem_append.mpr ⟨listed.1, ?_⟩, listed.2⟩
  rintro _ (_ | ⟨_, ⟨⟩⟩)
  exact ⟨numbered, price, rfl⟩

theorem sound_other {event : Event} (sound : state.Sound) (standing : next.Standing)
    (stepped : state.stepOther server event = some (next, outputs)) : next.Sound := by
  obtain ⟨threads, observations, owner, uses, notPass, notPush, stepped', rfl, -, -⟩ :=
    stepOther_cases stepped
  have step := otherStep stepped' notPass notPush
  refine ⟨standing, noBuys_step stepped' sound.received, ?_, ?_, ?_⟩
  · obtain ⟨stock, known⟩ := sound.quoted
    rw [lookup_step stepped', known]
    exact ⟨_, rfl⟩
  · intro order rests
    rcases step.origin rests with before | accepts
    · exact sound.resting order before
    · exact accepts.numbered
  · intro order listed
    exact sound.listed order (step.listed_subset listed)

theorem sound_matchup {status : Bool} (sound : state.Sound) (standing : next.Standing)
    (stepped : state.stepMatchup status = some (next, outputs)) : next.Sound := by
  cases stepMatchup_cases stepped with
  | waits => exact sound
  | takes | drops | goes =>
      exact ⟨standing, sound.received, sound.quoted, sound.resting, sound.listed⟩
  | prices odb ods sr _ quoted =>
      refine ⟨standing, sound.received, ?_, sound.resting, sound.listed⟩
      obtain ⟨stock, known⟩ := sound.quoted
      have after := lookup_quoteUpdate quoted "KKC".toList
      rw [known] at after
      exact ⟨_, after⟩
  | pushesBuy odb ods atPair =>
      have rests := (sound.buy odb (by rw [atPair]; rfl)).1
      exact sound.push (sound.resting odb (List.mem_append_left _ rests)) standing
  | pushesSell odb ods atPair =>
      have rests := sound.sell ods (by rw [atPair]; rfl)
      exact sound.push (sound.resting ods (List.mem_append_right _ rests)) standing
  | erases odb ods atPair =>
      obtain ⟨buys, sells⟩ := state.threads.trader.toBooks.erasePair_subset odb
      refine ⟨standing, ?_, sound.quoted, ?_, sound.listed⟩
      · intro absent
        exact List.subset_nil.mp (sound.received absent ▸ buys)
      · intro order rests
        refine sound.resting order ?_
        rcases List.mem_append.mp rests with isBuy | isSell
        · exact List.mem_append_left _ (buys isBuy)
        · exact List.mem_append_right _ (sells isSell)

theorem sound_step (sound : state.Sound)
    (stepped : state.step server event = some (next, outputs)) : next.Sound := by
  have standing := standing_step sound.toStanding stepped
  cases event with
  | startTransaction serverStatus =>
      cases stepTransaction_cases stepped <;>
        exact ⟨standing, sound.received, sound.quoted, sound.resting, sound.listed⟩
  | matchup status => exact sound_matchup sound standing stepped
  | other event => exact sound_other sound standing stepped

theorem sound_run {db : Database} {rc : RiskController} {nidSub1 : BitVec 32}
    {userList : List (Text × UserData)} {connections : ConnRef → Connection}
    (finished : (lockedThreads server).run
      (.start (.construct server db rc nidSub1 (.construct userList connections))) events =
        some (last, outputs)) : last.Sound := by
  apply (lockedThreads server).invariant_of_run (fun state _ => state.Sound) _ _ finished
  · intro state _ event next shown sound stepped
    exact sound_step sound stepped
  · obtain ⟨buyside, sellside, equality⟩ := Trader.construct_eq server db rc nidSub1
      (.construct userList connections)
    rw [equality]
    refine ⟨standing_start _, fun _ => rfl, ⟨_, rfl⟩, ?_, ?_⟩
    · intro order rests
      cases rests
    · intro order listed
      cases listed

theorem eq_iff_heldUp {status : Bool} (stepped : state.stepMatchup status = some (next, outputs)) :
    next = state ↔ state.HeldUp := by
  have moved (different : next.matching ≠ state.matching)
      (unlocked : state.matching.granted = none) : next = state ↔ state.HeldUp :=
    iff_of_false (fun same => different (congrArg matching same)) fun heldUp => heldUp.1 unlocked
  cases stepMatchup_cases stepped with
  | waits place granted owned => exact iff_of_true rfl ⟨by simp [granted], owned⟩
  | takes place granted unowned =>
      refine iff_of_false (fun same => ?_) fun heldUp => heldUp.2 unowned
      have owner := congrArg owner same
      rw [unowned] at owner
      cases owner
  | drops place released =>
      obtain ⟨different, unlocked⟩ := Place.released_moves released
      exact moved different unlocked
  | goes place uses touches moves => exact moved moves.different moves.unlocked
  | prices odb ods sr standing => exact moved (by simp [standing]) (by rw [standing]; rfl)
  | pushesBuy odb ods standing | pushesSell odb ods standing =>
      exact moved (by simp [standing, pushReport]) (by rw [standing]; rfl)
  | erases odb ods standing => exact moved (by simp [standing]) (by rw [standing]; rfl)

theorem exists_stepMatchup (sound : state.Sound) (notDone : state.matching ≠ .done)
    (status : Bool) : ∃ next outputs, state.stepMatchup status = some (next, outputs) := by
  cases standing : state.matching with
  | lock | waiting | loop | guard | chosen | pushBuy | pushSell | unlock | endPass | leave =>
      simp only [stepMatchup, standing]
      exact ⟨_, _, rfl⟩
  | predicate | sizes =>
      simp only [stepMatchup, standing]
      split <;> exact ⟨_, _, rfl⟩
  | scan it =>
      cases it with
      | none =>
          simp only [stepMatchup, standing]
          exact ⟨_, _, rfl⟩
      | some odb =>
          obtain ⟨rests, nonempty⟩ := sound.buy odb (by rw [standing]; rfl)
          have isLast := List.getLast?_eq_some_getLast nonempty
          have received : state.threads.trader.od ≠ none := by
            intro absent
            rw [sound.received absent] at rests
            cases rests
          obtain ⟨od, present⟩ := Option.ne_none_iff_exists'.mp received
          simp only [stepMatchup, standing, present, isLast]
          split <;> exact ⟨_, _, rfl⟩
  | price odb ods =>
      obtain ⟨stock, known⟩ := sound.quoted
      obtain ⟨quotesList, quoted⟩ := quoteUpdate_of_known known ods.order.orderPrice
      simp only [stepMatchup, standing, quoted]
      exact ⟨_, _, rfl⟩
  | erase odb ods =>
      obtain ⟨-, nonempty⟩ := sound.buy odb (by rw [standing]; rfl)
      simp only [stepMatchup, standing, if_neg nonempty]
      exact ⟨_, _, rfl⟩
  | done => exact absurd standing notDone

theorem stepOther_defined_iff {event : Event} (notPass : event ≠ .matchup)
    (notPush : event ≠ .pushReport) :
    (∃ next outputs, state.step server (.other event) = some (next, outputs)) ↔
      ∃ threads observations, state.threads.step server event = some (threads, observations) := by
  constructor
  · rintro ⟨next, outputs, stepped⟩
    obtain ⟨threads, observations, -, -, -, -, stepped', -⟩ := stepOther_cases stepped
    exact ⟨threads, observations, stepped'⟩
  · rintro ⟨threads, observations, stepped⟩
    obtain ⟨owner, outputs, stepped'⟩ := exists_stepOther notPass notPush stepped
    exact ⟨_, outputs, stepped'⟩

end LockedThreads

theorem Trader.sendExecReport_defined_iff {trader : Trader} {order : OrderPtr}
    {connId clientSerialNum : ℤ} {price : Price} (sender : order.order.connId = some connId)
    (executed : order.order.execPrice = some price)
    (numbered : order.order.clientSerialNum = some clientSerialNum) (inserts updates : Bool) :
    (∃ result, trader.sendExecReport server inserts updates order = .ok result) ↔
      ∃ cn, trader.sr.getConnObject connId = some cn := by
  simp only [Trader.sendExecReport, sender, executed, numbered]
  constructor
  · rintro ⟨result, finished⟩
    obtain ⟨notice, answered, -⟩ := bind_eq_ok_iff.mp finished
    obtain ⟨cn, found, -⟩ := Trader.reply_eq_ok_iff.mp answered
    exact ⟨cn, found⟩
  · rintro ⟨cn, found⟩
    exact ⟨_, bind_eq_ok_iff.mpr ⟨_, Trader.reply_eq_ok_iff.mpr ⟨cn, found, rfl⟩, rfl⟩⟩

theorem sendReport_defined_iff {state : Threads} {order : OrderPtr} {inserts updates : Bool}
    (reading : state.reporter = .read order) :
    (∃ next observations, state.step server (.sendReport inserts updates) =
        some (next, observations)) ↔
      ∃ result, state.trader.sendExecReport server inserts updates order = .ok result := by
  simp only [Threads.step, reading]
  constructor
  · rintro ⟨next, observations, stepped⟩
    obtain ⟨trader, finished, -⟩ := Threads.lift_eq_some_iff.mp stepped
    exact ⟨(trader, observations), finished⟩
  · rintro ⟨⟨trader, observations⟩, finished⟩
    exact ⟨_, observations, Threads.lift_eq_some_iff.mpr ⟨trader, finished, rfl⟩⟩

end

/-- After every run the matching thread can make its next step, which leaves it where it is
exactly when it waits for a lock that is owned, be it by itself.  The reporting thread can
send its report exactly when the id of the order is still that of a connection. -/
theorem matching_and_reporting_defined (server : MariaDB) (db : Database) (rc : RiskController)
    (nidSub1 : BitVec 32) (userList : List (Text × UserData))
    (connections : ConnRef → Connection) (events : List LockedEvent) (last : LockedThreads)
    (outputs : List LockedOutput)
    (finished : (lockedThreads server).run
      (.start (.construct server db rc nidSub1 (.construct userList connections))) events =
        some (last, outputs)) :
    (last.matching ≠ .done → ∀ status, ∃ next shown,
        last.step server (.matchup status) = some (next, shown) ∧
          (next = last ↔ last.HeldUp)) ∧
      ∀ order, last.threads.reporter = .read order →
        ∃ connId, order.order.connId = some connId ∧ ∀ inserts updates,
          (∃ next shown, last.step server (.other (.sendReport inserts updates)) =
              some (next, shown)) ↔
            ∃ cn, last.threads.trader.sr.getConnObject connId = some cn := by
  have sound := LockedThreads.sound_run finished
  constructor
  · intro notDone status
    obtain ⟨next, shown, stepped⟩ := LockedThreads.exists_stepMatchup sound notDone status
    exact ⟨next, shown, stepped, LockedThreads.eq_iff_heldUp stepped⟩
  · intro order reading
    have listed : order ∈ last.threads.listed := by
      simp [Threads.listed, reading, Reporter.orders]
    obtain ⟨⟨⟨connId, sender⟩, clientSerialNum, numbered⟩, price, isPriced⟩ :=
      sound.listed order listed
    refine ⟨connId, sender, fun inserts updates => ?_⟩
    rw [LockedThreads.stepOther_defined_iff, sendReport_defined_iff reading]
    · exact Trader.sendExecReport_defined_iff sender isPriced numbered inserts updates
    all_goals simp

/-- The first pair is executed, its report is begun, the client leaves, and `matchup` waits
for its own lock with the next pair. -/
def leavesBeforeReportRun : List LockedEvent :=
  thirdOrderRun ++ [.matchup true, .matchup true, .matchup true, .matchup true, .matchup true,
    .other .readReport, .other (.receive 0 "87|4|60|2|1|1|KKC".toList),
    .other (.getOrder 40 true), .matchup true, .matchup true, .matchup true, .matchup true,
    .other (.connect [] (fun _ => ⟨0, [], false⟩) Server.initialUsers)]

theorem matching_and_reporting_defined_leavesBeforeReportRun :
    ∃ last outputs, (lockedThreads .literal).run (.start Threads.initial.trader)
        leavesBeforeReportRun = some (last, outputs) ∧
      (∃ shown, last.step .literal (.matchup true) = some (last, shown)) ∧
      ¬ ∃ next shown, last.step .literal (.other (.sendReport true true)) =
        some (next, shown) := by
  obtain ⟨last, outputs, finished, evaluated⟩ :=
    Machine.exists_run_of_any (lockedThreads .literal) (.start Threads.initial.trader)
      leavesBeforeReportRun (fun last _ => decide (last.matching ≠ .done ∧
        last.matching.granted ≠ none ∧ last.owner ≠ none ∧ last.threads.reporter ≠ .idle ∧
        last.threads.reporter ≠ .sent ∧ last.threads.trader.sr.connStorage = []))
      (by decide +kernel)
  obtain ⟨notDone, waits, owned, notIdle, notSent, noClient⟩ := of_decide_eq_true evaluated
  obtain ⟨passes, reports⟩ := matching_and_reporting_defined _ _ _ _ _ _ _ _ _ finished
  refine ⟨last, outputs, finished, ?_, ?_⟩
  · obtain ⟨next, shown, stepped, stays⟩ := passes notDone true
    rw [stays.mpr ⟨waits, owned⟩] at stepped
    exact ⟨shown, stepped⟩
  · cases reading : last.threads.reporter with
    | idle => exact absurd reading notIdle
    | sent => exact absurd reading notSent
    | read order =>
        obtain ⟨connId, -, defined⟩ := reports order reading
        rw [defined]
        rintro ⟨cn, found⟩
        rw [Server.getConnObject, noClient] at found
        cases found

end InertiaTrader
