import InertiaTrader.Threads
import InertiaTrader.Trader.Unread

/-!
# Steps that cannot tell two states apart

Two states may differ in the order received last, in the orders that wait and in
the addresses that are taken.  A step then does the same in both, unless it is a
pass of `matchup` that takes another pair.
-/

namespace InertiaTrader

open Foundation

/-- The state with another order received last, other orders waiting and other
addresses taken. -/
def Threads.veiled (od : Option Order) (dq : List Text) (allocated : List ℕ)
    (threads : Threads) : Threads :=
  { threads with trader := threads.trader.veiled od dq, allocated }

def Event.takesOrder : Event → Bool
  | .getOrder .. => true
  | _ => false

theorem Server.route_dq (sr : Server) (msg : Text) :
    ∃ arrived, ∀ dq, { sr with dq }.route msg =
      ({ (sr.route msg).1 with dq := dq ++ arrived }, (sr.route msg).2) := by
  rcases code : codeNum msg with - | value
  · exact ⟨[], fun dq => by simp [route, code]⟩
  by_cases order : value = 87
  · exact ⟨[msg], fun dq => by simp [route, code, order]⟩
  · refine ⟨[], fun dq => ?_⟩
    simp only [route, code, List.append_nil]
    split <;> simp_all

theorem Server.quoteUpdate_dq {sr next : Server} {stockNum : Text} {execPrice : Price}
    (quoted : sr.quoteUpdate stockNum execPrice = .ok next) :
    next.dq = sr.dq ∧
      ∀ dq, { sr with dq }.quoteUpdate stockNum execPrice = .ok { next with dq } := by
  unfold quoteUpdate at quoted ⊢
  split at quoted
  next => cases quoted
  next stock found =>
    cases quoted
    refine ⟨rfl, fun dq => ?_⟩
    simp only [found]

theorem ok_of_map_eq {Value Result : Type} {change : Value → Result}
    {call : Except Fault Value} {veiledCall : Except Fault Result} {value : Value}
    (same : veiledCall = change <$> call) (finished : call = .ok value) :
    veiledCall = .ok (change value) := by
  rw [same, finished]
  rfl

namespace Threads

variable {server : MariaDB} {state next : Threads} {event : Event}
    {observations : List Observation}

theorem receive_veiled {cn : ConnRef} {text : Text}
    (stepped : state.step server (.receive cn text) = some (next, observations))
    (od : Option Order) (dq : List Text) (allocated : List ℕ) :
    ∃ arrived, next.trader.sr.dq = state.trader.sr.dq ++ arrived ∧
      next.trader.od = state.trader.od ∧ next.allocated = state.allocated ∧
      (state.veiled od dq allocated).step server (.receive cn text) =
        some (next.veiled od (dq ++ arrived) allocated, observations) := by
  simp only [step] at stepped
  split at stepped
  next loggedIn =>
    obtain ⟨arrived, routed⟩ := Server.route_dq state.trader.sr
      (Server.addressed text (state.trader.sr.connections cn))
    cases stepped
    refine ⟨arrived, ?_, rfl, rfl, ?_⟩
    · exact congrArg (fun result => result.1.dq) (routed state.trader.sr.dq)
    · have loggedInVeiled :
          ((state.veiled od dq allocated).trader.sr.connections cn).loginFlag = true := loggedIn
      have routedVeiled : (state.veiled od dq allocated).trader.sr.route
          (Server.addressed text ((state.veiled od dq allocated).trader.sr.connections cn)) = _ :=
        routed dq
      simp only [step, loggedInVeiled, if_true, routedVeiled]
      rfl
  next => cases stepped

/-- An iteration of `getOrder` takes the first order that waits, and overwrites the
order received last. -/
theorem getOrder_veiled {address : ℕ} {connected : Bool} {msg : Text} {rest : List Text}
    (stepped : state.step server (.getOrder address connected) = some (next, observations))
    (queued : state.trader.sr.dq = msg :: rest) :
    next.trader.sr.dq = rest ∧ address ∉ state.allocated ∧
      next.allocated = address :: state.allocated ∧
      ∀ od dq allocated, address ∉ allocated →
        (state.veiled od (msg :: dq) allocated).step server (.getOrder address connected) =
          some (next.veiled next.trader.od dq (address :: allocated), observations) := by
  simp only [step] at stepped
  split at stepped
  next => cases stepped
  next fresh =>
    obtain ⟨trader, finished, rfl⟩ := lift_eq_some_iff.mp stepped
    simp only [Trader.getOrder, queued] at finished
    obtain ⟨order, built, finished⟩ := bind_eq_ok_iff.mp finished
    obtain ⟨connText, connField, finished⟩ := bind_eq_ok_iff.mp finished
    obtain ⟨connId, converted, handled⟩ := bind_eq_ok_iff.mp finished
    have handledVeiled (od : Option Order) (dq : List Text) :=
      ok_of_map_eq (Trader.handleOrder_veiled server connected od dq
        { state.trader with sr := { state.trader.sr with dq := rest } } address connId order)
        handled
    have nonempty : state.trader.sr.dq ≠ [] := by simp [queued]
    refine ⟨?_, fresh, by rw [if_neg nonempty], ?_⟩
    · have same : trader = trader.queued rest := by
        have again := handled.symm.trans (handledVeiled state.trader.od rest)
        exact congrArg Prod.fst (Except.ok.inj again)
      rw [same]
      rfl
    · intro od dq allocated freshVeiled
      have notTaken : address ∉ (state.veiled od (msg :: dq) allocated).allocated := freshVeiled
      rw [step, if_neg notTaken]
      refine lift_eq_some_iff.mpr ⟨trader.queued dq, ?_, rfl⟩
      apply bind_eq_ok_iff.mpr ⟨order, built, ?_⟩
      apply bind_eq_ok_iff.mpr ⟨connText, connField, ?_⟩
      exact bind_eq_ok_iff.mpr ⟨connId, converted, handledVeiled od dq⟩

theorem lift_veiled {call : Trader → Except Fault (Trader × List Observation)}
    (unread : ∀ od dq trader,
      call (trader.veiled od dq) = Prod.map (Trader.veiled od dq) id <$> call trader)
    (lifted : state.lift (call state.trader) = some (next, observations))
    (od : Option Order) (dq : List Text) (allocated : List ℕ) :
    next.trader.sr.dq = state.trader.sr.dq ∧ next.trader.od = state.trader.od ∧
      next.allocated = state.allocated ∧
      (state.veiled od dq allocated).lift (call (state.trader.veiled od dq)) =
        some (next.veiled od dq allocated, observations) := by
  obtain ⟨trader, finished, rfl⟩ := lift_eq_some_iff.mp lifted
  have called (od : Option Order) (dq : List Text) :=
    ok_of_map_eq (unread od dq state.trader) finished
  have same : trader = trader.veiled state.trader.od state.trader.sr.dq := by
    have again := finished.symm.trans (called state.trader.od state.trader.sr.dq)
    exact congrArg Prod.fst (Except.ok.inj again)
  refine ⟨?_, ?_, rfl, ?_⟩
  · rw [same]
    rfl
  · rw [same]
    rfl
  · exact lift_eq_some_iff.mpr ⟨trader.veiled od dq, called od dq, rfl⟩

theorem matchup_veiled
    (stepped : state.step server .matchup = some (next, observations)) {od : Option Order}
    (pass : ∀ toBooks pair, state.trader.toBooks.matchup = .ok (toBooks, pair) →
      { state.trader.toBooks with od }.matchup = .ok ({ toBooks with od }, pair))
    (dq : List Text) (allocated : List ℕ) :
    next.trader.sr.dq = state.trader.sr.dq ∧ next.trader.od = state.trader.od ∧
      next.allocated = state.allocated ∧
      (state.veiled od dq allocated).step server .matchup =
        some (next.veiled od dq allocated, observations) := by
  have waiting : state.pushing = [] := by
    by_contra busy
    simp only [step, if_neg busy] at stepped
    cases stepped
  have waitingVeiled : (state.veiled od dq allocated).pushing = [] := waiting
  rcases matchup_step stepped with
    ⟨passed, same, rfl⟩ | ⟨toBooks, odb, ods, sr, passed, quoted, rfl, rfl⟩
  · rw [same]
    refine ⟨rfl, rfl, rfl, ?_⟩
    have passedVeiled : (state.veiled od dq allocated).trader.toBooks.matchup = _ :=
      pass _ _ passed
    rw [step, if_pos waitingVeiled, Trader.matchPair, passedVeiled]
    change some (({ state.veiled od dq allocated with pushing := [] } : Threads), _) = _
    rw [← waitingVeiled]
  · have same : toBooks.od = state.trader.od := by
      cases Books.matchup_cases passed with
      | executes => rfl
    obtain ⟨sameDq, quotedVeiled⟩ := Server.quoteUpdate_dq quoted
    refine ⟨sameDq, same, rfl, ?_⟩
    have passedVeiled : (state.veiled od dq allocated).trader.toBooks.matchup = _ :=
      pass _ _ passed
    have found : (state.veiled od dq allocated).trader.sr.quoteUpdate "KKC".toList
        ods.order.orderPrice = _ := quotedVeiled dq
    rw [step, if_pos waitingVeiled, Trader.matchPair, passedVeiled]
    simp only [bind, Except.bind, found]
    rfl

/-- A step that neither takes nor brings a message for `getOrder` does not touch what
is veiled. -/
theorem step_veiled_quiet (stepped : state.step server event = some (next, observations))
    (waits : event.takesOrder = false) (silent : ∀ cn text, event ≠ .receive cn text)
    {od : Option Order}
    (pass : event = .matchup → ∀ toBooks pair,
      state.trader.toBooks.matchup = .ok (toBooks, pair) →
      { state.trader.toBooks with od }.matchup = .ok ({ toBooks with od }, pair))
    (dq : List Text) (allocated : List ℕ) :
    next.trader.sr.dq = state.trader.sr.dq ∧ next.trader.od = state.trader.od ∧
      next.allocated = state.allocated ∧
      (state.veiled od dq allocated).step server event =
        some (next.veiled od dq allocated, observations) := by
  cases event with
  | getOrder => cases waits
  | receive cn text => exact absurd rfl (silent cn text)
  | connect connStorage connections userList =>
      cases stepped
      exact ⟨rfl, rfl, rfl, rfl⟩
  | priceAsking index =>
      simp only [step] at stepped
      split at stepped
      next => cases stepped
      next msg waiting =>
        split at stepped
        next => cases stepped
        next replies asked =>
          cases stepped
          have waitingVeiled : (state.veiled od dq allocated).asking[index]? = some msg := waiting
          have askedVeiled :
              (state.veiled od dq allocated).trader.sr.priceAsking msg = .ok replies := asked
          refine ⟨rfl, rfl, rfl, ?_⟩
          simp only [step, waitingVeiled, askedVeiled]
          rfl
  | getCancelOrder connected =>
      exact lift_veiled (Trader.getCancelOrder_veiled server connected) stepped od dq allocated
  | matchup => exact matchup_veiled stepped (pass rfl) dq allocated
  | pushReport =>
      simp only [step] at stepped
      split at stepped
      next => cases stepped
      next order pushing waiting =>
        cases stepped
        have waitingVeiled : (state.veiled od dq allocated).pushing = order :: pushing := waiting
        refine ⟨rfl, rfl, rfl, ?_⟩
        simp only [step, waitingVeiled]
        rfl
  | readReport =>
      simp only [step] at stepped
      split at stepped
      next order idle isLast =>
        cases stepped
        have idleVeiled : (state.veiled od dq allocated).reporter = .idle := idle
        have lastVeiled :
            (state.veiled od dq allocated).trader.reportList.getLast? = some order := isLast
        refine ⟨rfl, rfl, rfl, ?_⟩
        simp only [step, idleVeiled, lastVeiled]
        rfl
      next => cases stepped
  | sendReport inserts updates =>
      simp only [step] at stepped
      split at stepped
      next order reading =>
        have unread (od : Option Order) (dq : List Text) (trader : Trader) :=
          Trader.sendExecReport_veiled server od dq trader inserts updates order
        obtain ⟨sameDq, sameOd, sameAllocated, matched⟩ :=
          lift_veiled unread stepped od dq allocated
        have readingVeiled : (state.veiled od dq allocated).reporter = .read order := reading
        refine ⟨sameDq, sameOd, sameAllocated, ?_⟩
        simp only [step, readingVeiled]
        exact matched
      next => cases stepped
  | popReport =>
      simp only [step] at stepped
      split at stepped
      next sent =>
        cases stepped
        have sentVeiled : (state.veiled od dq allocated).reporter = .sent := sent
        refine ⟨rfl, rfl, rfl, ?_⟩
        simp only [step, sentVeiled]
        rfl
      next => cases stepped

theorem step_veiled (stepped : state.step server event = some (next, observations))
    (waits : event.takesOrder = false) {od : Option Order}
    (pass : event = .matchup → ∀ toBooks pair,
      state.trader.toBooks.matchup = .ok (toBooks, pair) →
      { state.trader.toBooks with od }.matchup = .ok ({ toBooks with od }, pair))
    (dq : List Text) (allocated : List ℕ) :
    ∃ arrived, next.trader.sr.dq = state.trader.sr.dq ++ arrived ∧
      next.trader.od = state.trader.od ∧ next.allocated = state.allocated ∧
      (state.veiled od dq allocated).step server event =
        some (next.veiled od (dq ++ arrived) allocated, observations) := by
  by_cases arrives : ∃ cn text, event = .receive cn text
  · obtain ⟨cn, text, rfl⟩ := arrives
    exact receive_veiled stepped od dq allocated
  · obtain ⟨sameDq, sameOd, sameAllocated, matched⟩ := step_veiled_quiet stepped waits
      (fun cn text same => arrives ⟨cn, text, same⟩) pass dq allocated
    refine ⟨[], ?_, sameOd, sameAllocated, ?_⟩
    · rw [sameDq, List.append_nil]
    · rw [List.append_nil]
      exact matched

end Threads

end InertiaTrader
