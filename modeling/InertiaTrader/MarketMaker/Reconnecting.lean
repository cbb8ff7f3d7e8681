import InertiaTrader.Foundation.Machine

/-!
# Connecting and reconnecting

The constructor of the market maker calls `allowConn` once, `recvMsg` calls it again after
each `recv` that fails.  Only these calls touch the members below.
-/

namespace InertiaTrader

open Foundation

/-- The members that `allowConn` works with. -/
structure Connecting where
  connCalculate : ℤ := 0
  exitFlag : Bool := false
  firstconnFlag : Bool := true
  connStatus : Bool := false
  deriving DecidableEq

/-- How `socketini` ends once it has read the settings. -/
inductive Attempt where
  | socketFailed
  | invalidAddress
  | connectionFailed
  | connected
  deriving DecidableEq

namespace Connecting

/-- `Client::socketini`; where `socket` fails the status is left as it was. -/
def socketini (connecting : Connecting) : Attempt → Connecting
  | .socketFailed => connecting
  | .invalidAddress => { connecting with connStatus := false }
  | .connectionFailed => { connecting with connStatus := false }
  | .connected => { connecting with connStatus := true }

/-- A `break` of the loop: no attempt is made behind it. -/
def breakWith (connecting : Connecting) (attempts : List Attempt) : Option Connecting :=
  if attempts = [] then some connecting else none

/-- `Client::allowConn` for the attempts that it makes; `none` if it would make further ones,
or not all of them. -/
def allowConn (connecting : Connecting) : List Attempt → Option Connecting
  | [] => none
  | attempt :: attempts =>
      let tried := connecting.socketini attempt
      if tried.connStatus then
        { tried with firstconnFlag := false, connCalculate := 0 }.breakWith attempts
      else if tried.firstconnFlag then
        { tried with exitFlag := true }.breakWith attempts
      else
        let counted : Connecting := { tried with connCalculate := tried.connCalculate + 1 }
        if counted.connCalculate > 3 then { counted with exitFlag := true }.breakWith attempts
        else counted.allowConn attempts

end Connecting

/-- The market maker: whether `allowConn` was called by the constructor, and the members. -/
structure ClientConnection where
  constructed : Bool := false
  connecting : Connecting := {}
  deriving DecidableEq

/-- The constructor with the attempts of its call, a `recv` that succeeds, and one that fails
with the attempts of the call that follows. -/
inductive ConnectionEvent where
  | construct (attempts : List Attempt)
  | received
  | disconnect (attempts : List Attempt)

/-- A call of `allowConn`: whether it is the first one, its attempts and what it leaves. -/
structure AllowConnCall where
  first : Bool
  attempts : List Attempt
  left : Connecting
  deriving DecidableEq

namespace ClientConnection

/-- `while(!exit_flag_)` of `recvMsg`, which starts behind the constructor. -/
def receives (state : ClientConnection) : Bool := state.constructed && !state.connecting.exitFlag

/-- The members with which the next call of `allowConn` starts. -/
def entry (state : ClientConnection) : Connecting :=
  if state.constructed then { state.connecting with connStatus := false } else state.connecting

/-- The attempts that the next call may make. -/
def limit (state : ClientConnection) : ℕ := if state.constructed then 4 else 1

/-- The state after a call of `allowConn` that returned, with the call made visible. -/
def reported (first : Bool) (attempts : List Attempt) (left : Connecting) :
    ClientConnection × List AllowConnCall :=
  ({ constructed := true, connecting := left }, [{ first, attempts, left }])

def step (state : ClientConnection) :
    ConnectionEvent → Option (ClientConnection × List AllowConnCall)
  | .construct attempts =>
      if state.constructed then none
      else (state.entry.allowConn attempts).map (reported true attempts)
  | .received => if state.receives then some (state, []) else none
  | .disconnect attempts =>
      if state.receives then (state.entry.allowConn attempts).map (reported false attempts)
      else none

end ClientConnection

def clientConnection : Machine ClientConnection ConnectionEvent AllowConnCall :=
  ⟨ClientConnection.step⟩

/-- A call that makes at most `limit` attempts, reports what the last one did, and made all
of them where it ends unconnected. -/
structure ReportsTruly (limit : ℕ) (attempts : List Attempt) (left : Connecting) : Prop where
  bounded : attempts.length ≤ limit
  status : left.connStatus = true ↔ attempts.getLast? = some .connected
  exits : left.exitFlag = true ↔ left.connStatus = false
  reset : left.connStatus = true → left.connCalculate = 0
  full : left.connStatus = false → attempts.length = limit

/-- The call ends whatever the attempts are: it makes a first part of them. -/
def CallEnds (connecting : Connecting) (limit : ℕ) : Prop :=
  ∀ outcomes : ℕ → Attempt, ∃ count ≤ limit,
    (connecting.allowConn ((List.range count).map outcomes)).isSome

namespace Connecting

structure Retrying (left : ℕ) (connecting : Connecting) : Prop where
  counted : connecting.connCalculate + left = 4
  running : connecting.exitFlag = false
  later : connecting.firstconnFlag = false
  unconnected : connecting.connStatus = false

structure Steady (connecting : Connecting) : Prop where
  counted : connecting.connCalculate = 0
  running : connecting.exitFlag = false
  later : connecting.firstconnFlag = false

variable {connecting left : Connecting}

theorem breakWith_eq_some_iff {attempts : List Attempt} :
    connecting.breakWith attempts = some left ↔ attempts = [] ∧ connecting = left := by
  unfold breakWith
  split
  next none => simp [none]
  next some => simp [some]

theorem socketini_of_ne (unconnected : connecting.connStatus = false) {attempt : Attempt}
    (failed : attempt ≠ .connected) : connecting.socketini attempt = connecting := by
  cases attempt with
  | socketFailed => rfl
  | invalidAddress => rw [socketini, ← unconnected]
  | connectionFailed => rw [socketini, ← unconnected]
  | connected => exact absurd rfl failed

theorem allowConn_connected (attempts : List Attempt) :
    connecting.allowConn (.connected :: attempts) =
      { connecting with
        connStatus := true, firstconnFlag := false, connCalculate := 0 }.breakWith attempts := by
  rw [allowConn, socketini]
  exact if_pos rfl

namespace Retrying

theorem allowConn_last (retrying : Retrying 1 connecting) {attempt : Attempt}
    (failed : attempt ≠ .connected) (attempts : List Attempt) :
    connecting.allowConn (attempt :: attempts) =
      { connecting with
        connCalculate := connecting.connCalculate + 1, exitFlag := true }.breakWith attempts := by
  have full : connecting.connCalculate + 1 > 3 := by
    have counted := retrying.counted
    omega
  simp only [allowConn, socketini_of_ne retrying.unconnected failed, retrying.unconnected,
    retrying.later, Bool.false_eq_true, if_false, full, if_true]

theorem allowConn_more {more : ℕ} (retrying : Retrying (more + 2) connecting) {attempt : Attempt}
    (failed : attempt ≠ .connected) :
    ∃ counted, Retrying (more + 1) counted ∧
      ∀ attempts, connecting.allowConn (attempt :: attempts) = counted.allowConn attempts := by
  have counted := retrying.counted
  have room : ¬ connecting.connCalculate + 1 > 3 := by omega
  refine ⟨{ connecting with connCalculate := connecting.connCalculate + 1 },
    ⟨?_, retrying.running, retrying.later, retrying.unconnected⟩, fun attempts => ?_⟩
  · push_cast at counted ⊢
    omega
  · simp only [allowConn, socketini_of_ne retrying.unconnected failed, retrying.unconnected,
      retrying.later, Bool.false_eq_true, if_false, room]

end Retrying

end Connecting

namespace ReportsTruly

variable {left : Connecting}

theorem of_connected {connecting : Connecting} (running : connecting.exitFlag = false) (more : ℕ) :
    ReportsTruly (more + 1) [.connected]
      { connecting with connStatus := true, firstconnFlag := false, connCalculate := 0 } where
  bounded := Nat.succ_le_succ (Nat.zero_le more)
  status := by simp
  exits := by simp [running]
  reset := fun _ => rfl
  full := by simp

theorem of_failed {attempt : Attempt} (failed : attempt ≠ .connected)
    (status : left.connStatus = false) (exits : left.exitFlag = true) :
    ReportsTruly 1 [attempt] left where
  bounded := le_refl 1
  status := by simp [status, failed]
  exits := by simp [status, exits]
  reset := by simp [status]
  full := fun _ => rfl

theorem cons {limit : ℕ} {attempts : List Attempt} (reports : ReportsTruly limit attempts left)
    (nonempty : attempts ≠ []) (attempt : Attempt) :
    ReportsTruly (limit + 1) (attempt :: attempts) left where
  bounded := Nat.succ_le_succ reports.bounded
  status := by
    obtain ⟨head, rest, rfl⟩ := List.exists_cons_of_ne_nil nonempty
    rw [List.getLast?_cons_cons]
    exact reports.status
  exits := reports.exits
  reset := reports.reset
  full := fun unconnected => congrArg Nat.succ (reports.full unconnected)

end ReportsTruly

namespace Connecting

variable {connecting left : Connecting} {attempts : List Attempt}

theorem ne_nil_of_allowConn (returned : connecting.allowConn attempts = some left) :
    attempts ≠ [] := by
  rintro rfl
  cases returned

theorem steady_of_connected (running : connecting.exitFlag = false) :
    Steady { connecting with connStatus := true, firstconnFlag := false, connCalculate := 0 } where
  counted := rfl
  running := running
  later := rfl

theorem Retrying.reports {more : ℕ} (retrying : Retrying (more + 1) connecting)
    (returned : connecting.allowConn attempts = some left) :
    ReportsTruly (more + 1) attempts left ∧ (left.exitFlag = true ∨ Steady left) := by
  induction attempts generalizing connecting more with
  | nil => cases returned
  | cons attempt attempts inductionHypothesis =>
      by_cases connected : attempt = .connected
      · rw [connected] at returned ⊢
        rw [allowConn_connected, breakWith_eq_some_iff] at returned
        obtain ⟨rfl, rfl⟩ := returned
        exact ⟨.of_connected retrying.running more, .inr (steady_of_connected retrying.running)⟩
      · cases more with
        | zero =>
            rw [retrying.allowConn_last connected, breakWith_eq_some_iff] at returned
            obtain ⟨rfl, rfl⟩ := returned
            exact ⟨.of_failed connected retrying.unconnected rfl, .inl rfl⟩
        | succ more =>
            obtain ⟨counted, still, continues⟩ := retrying.allowConn_more connected
            rw [continues] at returned
            obtain ⟨reports, after⟩ := inductionHypothesis still returned
            exact ⟨reports.cons (ne_nil_of_allowConn returned) attempt, after⟩

theorem isSome_allowConn_connected {outcomes : ℕ → Attempt} (connected : outcomes 0 = .connected) :
    (connecting.allowConn ((List.range 1).map outcomes)).isSome := by
  change (connecting.allowConn [outcomes 0]).isSome
  rw [connected, allowConn_connected]
  rfl

theorem Retrying.ends {more : ℕ} (retrying : Retrying (more + 1) connecting) :
    CallEnds connecting (more + 1) := by
  induction more generalizing connecting with
  | zero =>
      intro outcomes
      refine ⟨1, le_refl 1, ?_⟩
      by_cases connected : outcomes 0 = .connected
      · exact isSome_allowConn_connected connected
      · change (connecting.allowConn [outcomes 0]).isSome
        rw [retrying.allowConn_last connected]
        rfl
  | succ more inductionHypothesis =>
      intro outcomes
      by_cases connected : outcomes 0 = .connected
      · exact ⟨1, by omega, isSome_allowConn_connected connected⟩
      · obtain ⟨counted, still, continues⟩ := retrying.allowConn_more connected
        obtain ⟨count, within, returns⟩ :=
          inductionHypothesis still fun index => outcomes (index + 1)
        refine ⟨count + 1, by omega, ?_⟩
        rw [List.range_succ_eq_map, List.map_cons, List.map_map, continues]
        exact returns

theorem allowConn_first_failed {attempt : Attempt} (failed : attempt ≠ .connected)
    (attempts : List Attempt) :
    ({} : Connecting).allowConn (attempt :: attempts) =
      ({ exitFlag := true } : Connecting).breakWith attempts := by
  rw [allowConn, socketini_of_ne rfl failed]
  rfl

theorem allowConn_first_reports (returned : ({} : Connecting).allowConn attempts = some left) :
    ReportsTruly 1 attempts left ∧ (left.exitFlag = true ∨ Steady left) := by
  cases attempts with
  | nil => cases returned
  | cons attempt attempts =>
      by_cases connected : attempt = .connected
      · rw [connected] at returned ⊢
        rw [allowConn_connected, breakWith_eq_some_iff] at returned
        obtain ⟨rfl, rfl⟩ := returned
        exact ⟨.of_connected rfl 0, .inr (steady_of_connected rfl)⟩
      · rw [allowConn_first_failed connected, breakWith_eq_some_iff] at returned
        obtain ⟨rfl, rfl⟩ := returned
        exact ⟨.of_failed connected rfl rfl, .inl rfl⟩

theorem allowConn_first_ends : CallEnds {} 1 := by
  intro outcomes
  refine ⟨1, le_refl 1, ?_⟩
  by_cases connected : outcomes 0 = .connected
  · exact isSome_allowConn_connected connected
  · change (({} : Connecting).allowConn [outcomes 0]).isSome
    rw [allowConn_first_failed connected]
    rfl

end Connecting

namespace ClientConnection

/-- Before the constructor nothing was counted; behind it the client has given up, or stands
between two calls. -/
def Sound (state : ClientConnection) : Prop :=
  if state.constructed then state.connecting.exitFlag = true ∨ state.connecting.Steady
  else state.connecting = {}

variable {state next : ClientConnection}

theorem retrying_entry (sound : state.Sound) (constructed : state.constructed = true)
    (running : state.connecting.exitFlag = false) : Connecting.Retrying 4 state.entry := by
  rw [Sound, if_pos constructed, running] at sound
  have steady := sound.resolve_left Bool.false_ne_true
  rw [entry, if_pos constructed]
  refine ⟨?_, running, steady.later, rfl⟩
  rw [steady.counted]
  rfl

theorem entry_of_new (sound : state.Sound) (new : state.constructed = false) :
    state.entry = {} := by
  rw [Sound, new] at sound
  rw [entry, new]
  exact sound

theorem reported_reports (first : Bool) {attempts : List Attempt} {left : Connecting}
    {calls : List AllowConnCall} (reports : ReportsTruly (if first then 1 else 4) attempts left)
    (after : left.exitFlag = true ∨ left.Steady)
    (shown : reported first attempts left = (next, calls)) :
    next.Sound ∧ ∀ call ∈ calls,
      ReportsTruly (if call.first then 1 else 4) call.attempts call.left := by
  cases shown
  refine ⟨after, fun call listed => ?_⟩
  rw [List.mem_singleton.mp listed]
  exact reports

theorem step_reports {event : ConnectionEvent} {calls : List AllowConnCall} (sound : state.Sound)
    (stepped : state.step event = some (next, calls)) :
    next.Sound ∧ ∀ call ∈ calls,
      ReportsTruly (if call.first then 1 else 4) call.attempts call.left := by
  cases event with
  | construct attempts =>
      rw [step] at stepped
      split at stepped
      next => cases stepped
      next new =>
        obtain ⟨left, returned, shown⟩ := Option.map_eq_some_iff.mp stepped
        rw [entry_of_new sound (by simpa using new)] at returned
        obtain ⟨reports, after⟩ := Connecting.allowConn_first_reports returned
        exact reported_reports true reports after shown
  | received =>
      rw [step] at stepped
      split at stepped
      next =>
        cases stepped
        exact ⟨sound, fun call listed => absurd listed List.not_mem_nil⟩
      next => cases stepped
  | disconnect attempts =>
      rw [step] at stepped
      split at stepped
      next receives =>
        simp only [ClientConnection.receives, Bool.and_eq_true, Bool.not_eq_eq_eq_not,
          Bool.not_true] at receives
        obtain ⟨left, returned, shown⟩ := Option.map_eq_some_iff.mp stepped
        obtain ⟨reports, after⟩ := (retrying_entry sound receives.1 receives.2).reports returned
        exact reported_reports false reports after shown
      next => cases stepped

theorem next_call_ends (sound : state.Sound)
    (running : state.constructed = true → state.connecting.exitFlag = false) :
    CallEnds state.entry state.limit := by
  cases constructed : state.constructed with
  | false =>
      rw [entry_of_new sound constructed, limit, constructed]
      exact Connecting.allowConn_first_ends
  | true =>
      rw [limit, if_pos constructed]
      exact (retrying_entry sound constructed (running constructed)).ends

end ClientConnection

/-- In every run each call of `allowConn` reports truly, with one attempt in the constructor
and up to four later, and the call that comes next ends whatever its attempts are. -/
theorem reconnecting_ends (events : List ConnectionEvent) (last : ClientConnection)
    (calls : List AllowConnCall) (finished : clientConnection.run {} events = some (last, calls)) :
    (∀ call ∈ calls, ReportsTruly (if call.first then 1 else 4) call.attempts call.left) ∧
      ((last.constructed = true → last.connecting.exitFlag = false) →
        CallEnds last.entry last.limit) := by
  have initially : ({} : ClientConnection).Sound ∧ ∀ call ∈ ([] : List AllowConnCall),
      ReportsTruly (if call.first then 1 else 4) call.attempts call.left :=
    ⟨rfl, fun call listed => absurd listed List.not_mem_nil⟩
  have holds := clientConnection.invariant_of_run
    (fun state seen => state.Sound ∧
      ∀ call ∈ seen, ReportsTruly (if call.first then 1 else 4) call.attempts call.left)
    (fun state seen event next calls before stepped => ?_) initially finished
  · exact ⟨holds.2, ClientConnection.next_call_ends holds.1⟩
  · obtain ⟨sound, reports⟩ := ClientConnection.step_reports before.1 stepped
    refine ⟨sound, fun call listed => ?_⟩
    rcases List.mem_append.mp listed with earlier | now
    · exact before.2 call earlier
    · exact reports call now

def twoDisconnects : List ConnectionEvent :=
  [.construct [.connected], .received,
    .disconnect [.socketFailed, .connectionFailed, .connected],
    .disconnect [.connectionFailed, .socketFailed, .invalidAddress, .connectionFailed]]

theorem reconnecting_ends_twoDisconnects :
    ∃ last calls, clientConnection.run {} twoDisconnects = some (last, calls) ∧
      calls.length = 3 ∧ last.connecting.exitFlag = true ∧
        ∀ call ∈ calls, ReportsTruly (if call.first then 1 else 4) call.attempts call.left := by
  obtain ⟨last, calls, finished, facts⟩ :=
    clientConnection.exists_run_of_any {} twoDisconnects
      (fun last calls => decide (calls.length = 3 ∧ last.connecting.exitFlag = true))
      (by decide +kernel)
  obtain ⟨three, exits⟩ := of_decide_eq_true facts
  exact ⟨last, calls, finished, three, exits, (reconnecting_ends _ last calls finished).1⟩

end InertiaTrader
