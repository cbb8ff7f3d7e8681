import InertiaTrader.Foundation.TwoRuns
import InertiaTrader.Server.LoginDecision
import InertiaTrader.Server.Reassembly

/-!
# The login and the boundaries of the chunks

Before the login a chunk is one message, afterwards it is split.  A login that
shares its chunk with a heartbeat is not recognised, and a message that shares it
is lost.
-/

namespace InertiaTrader

open Foundation

/-- What a `recv` delivers, with the draws of a login and the answer of `addTrader`. -/
structure Reception where
  chunk : Text
  draws : ℕ × ℕ
  added : Bool

def Reception.event (reception : Reception) : SessionEvent :=
  .recv reception.chunk reception.draws reception.added

/-- A text in chunks that all end in `&`. -/
structure Cutting (text : Text) (receptions : List Reception) : Prop where
  whole : (receptions.map Reception.chunk).flatten = text
  closed : ∀ reception ∈ receptions, reception.chunk.getLast? = some '&'

/-- Heartbeats, a login, and what follows it. -/
def conversation (heartbeats : ℕ) (login : Text) (msgs : List Text) : List Text :=
  List.replicate heartbeats "<3".toList ++ login :: msgs

def SessionOutput.handledMsg : SessionOutput → Option Text
  | .handled msg => some msg
  | .login _ _ => none
  | .sent _ => none

def handledIn (outputs : List SessionOutput) : List Text :=
  outputs.filterMap SessionOutput.handledMsg

/-- What the stream asks for: the login has succeeded and everything behind it
was handled. -/
def Delivers (id : ℤ) (userList : Accounts) (msgs : List Text) (receptions : List Reception) :
    Prop :=
  ∃ last outputs,
    sessions.run (.fresh id false userList) (receptions.map Reception.event) =
        some (last, outputs) ∧
      last.cn.loginFlag = true ∧
      handledIn outputs = msgs.map fun text => Server.addressed text last.cn

/-- Both receptions end logged in, and the same messages are handled. -/
def SameOutcome (id : ℤ) (userList : Accounts) (first second : List Reception) : Prop :=
  ∃ last outputs last' outputs',
    sessions.run (.fresh id false userList) (first.map Reception.event) =
        some (last, outputs) ∧
      sessions.run (.fresh id false userList) (second.map Reception.event) =
        some (last', outputs') ∧
      last.cn.loginFlag = true ∧ last'.cn.loginFlag = true ∧
      handledIn outputs = handledIn outputs'

/-- The login arrives in a chunk of its own. -/
def LoginAlone (heartbeats : ℕ) (login : Text) (receptions : List Reception) : Prop :=
  ∃ earlier reception later, receptions = earlier ++ reception :: later ∧
    (earlier.map Reception.chunk).flatten = stream (List.replicate heartbeats "<3".toList) ∧
    reception.chunk = login ++ ['&']

section

variable {msgs : List Text} {reception : Reception} {rest : List Reception}

theorem nil_of_stream (empty : stream msgs = []) : msgs = [] := by
  by_contra nonempty
  obtain ⟨front, terminator⟩ : ∃ front, stream msgs = front ++ ['&'] :=
    exists_terminated_eq_concat nonempty
  simp [empty] at terminator

theorem cutting_cons (sendable : ∀ msg ∈ msgs, Sendable msg)
    (cutting : Cutting (stream msgs) (reception :: rest)) :
    ∃ group later, msgs = group ++ later ∧ group ≠ [] ∧ reception.chunk = stream group ∧
      Cutting (stream later) rest := by
  have whole := cutting.whole
  have last := cutting.closed reception List.mem_cons_self
  rw [List.map_cons, List.flatten_cons] at whole
  have isPrefix : reception.chunk <+: terminated '&' msgs := ⟨_, whole⟩
  obtain ⟨group, later, tail, rfl, received, absent⟩ :=
    exists_terminated_of_prefix (fun msg listed => (sendable msg listed).plain) isPrefix
  have closed : tail = [] := by
    rcases List.eq_nil_or_concat tail with empty | ⟨front, symbol, rfl⟩
    · exact empty
    · rw [received, List.concat_eq_append, ← List.append_assoc, List.getLast?_concat,
        Option.some.injEq] at last
      simp [last] at absent
  rw [closed, List.append_nil] at received
  refine ⟨group, later, rfl, ?_, received, ?_, ?_⟩
  · rintro rfl
    simp [received] at last
  · rw [received, stream, terminated_append, List.append_cancel_left_eq] at whole
    exact whole
  · intro other listed
    exact cutting.closed other (List.mem_cons_of_mem reception listed)

theorem Cutting.cons {group : List Text} (cutting : Cutting (stream msgs) rest)
    (received : reception.chunk = stream group)
    (closed : reception.chunk.getLast? = some '&') :
    Cutting (stream (group ++ msgs)) (reception :: rest) where
  whole := by
    rw [List.map_cons, List.flatten_cons, received, cutting.whole, stream, stream, stream,
      terminated_append]
  closed := List.forall_mem_cons.mpr ⟨closed, cutting.closed⟩

theorem cutting_reaches {before after : List Text} {msg : Text} {receptions : List Reception}
    (sendable : ∀ other ∈ before ++ msg :: after, Sendable other)
    (cutting : Cutting (stream (before ++ msg :: after)) receptions) :
    ∃ earlier reception later ahead joined behind remaining,
      receptions = earlier ++ reception :: later ∧ before = ahead ++ joined ∧
        after = behind ++ remaining ∧ Cutting (stream ahead) earlier ∧
        reception.chunk = stream (joined ++ msg :: behind) ∧
        Cutting (stream remaining) later := by
  induction receptions generalizing before with
  | nil =>
      have empty := nil_of_stream cutting.whole.symm
      simp at empty
  | cons reception receptions inductionHypothesis =>
      obtain ⟨group, later, parts, nonempty, received, cuttingLater⟩ :=
        cutting_cons sendable cutting
      -- The message comes in a later chunk if the first one ends before it.
      have comesLater (more : List Text) (split : before = group ++ more)
          (splitLater : later = more ++ msg :: after) :
          ∃ earlier other later ahead joined behind remaining,
            reception :: receptions = earlier ++ other :: later ∧ before = ahead ++ joined ∧
              after = behind ++ remaining ∧ Cutting (stream ahead) earlier ∧
              other.chunk = stream (joined ++ msg :: behind) ∧
              Cutting (stream remaining) later := by
        subst split splitLater
        rw [List.append_assoc] at sendable
        obtain ⟨earlier, other, later, ahead, joined, behind, remaining, rfl, rfl, rfl,
            cuttingEarlier, received', cuttingRemaining⟩ :=
          inductionHypothesis (List.forall_mem_append.mp sendable).2 cuttingLater
        exact ⟨reception :: earlier, other, later, group ++ ahead, joined, behind, remaining, rfl,
          by simp, rfl, cuttingEarlier.cons received
            (cutting.closed reception List.mem_cons_self), received', cuttingRemaining⟩
      rcases List.append_eq_append_iff.mp parts with ⟨more, inGroup, inLater⟩ |
        ⟨more, inBefore, inLater⟩
      · cases more with
        | nil =>
            rw [List.append_nil] at inGroup
            exact comesLater [] (by rw [inGroup, List.append_nil]) inLater.symm
        | cons head behind =>
            obtain ⟨rfl, rfl⟩ := List.cons.inj inLater
            exact ⟨[], reception, receptions, [], before, behind, later, rfl, rfl, rfl,
              ⟨rfl, by simp⟩, received.trans (by rw [inGroup]), cuttingLater⟩
      · exact comesLater more inBefore inLater

end

section

variable {session next last : Session} {msgs : List Text} {reception : Reception}
  {receptions : List Reception} {outputs : List SessionOutput}

theorem handledIn_append (first second : List SessionOutput) :
    handledIn (first ++ second) = handledIn first ++ handledIn second := List.filterMap_append

theorem handledIn_handled (texts : List Text) (cn : Connection) :
    handledIn (texts.map fun text => .handled (Server.addressed text cn)) =
      texts.map fun text => Server.addressed text cn := by
  induction texts with
  | nil => rfl
  | cons text texts inductionHypothesis =>
      rw [List.map_cons, List.map_cons, ← inductionHypothesis]
      rfl

theorem handledIn_login (msg : Text) (userList : Accounts) (sent : List Text) :
    handledIn (.login msg userList :: sent.map .sent) = [] := by
  apply List.filterMap_eq_nil_iff.mpr
  intro output shown
  rcases List.mem_cons.mp shown with rfl | isSent
  · rfl
  · obtain ⟨text, -, rfl⟩ := List.mem_map.mp isSent
    rfl

theorem reassemble_stream (sendable : ∀ msg ∈ msgs, Sendable msg) (nonempty : msgs ≠ []) :
    ∃ front, stream msgs = front ++ ['&'] ∧ reassemble [] (stream msgs) = (front, []) ∧
      split front "&".toList = msgs := by
  obtain ⟨front, terminator⟩ : ∃ front, stream msgs = front ++ ['&'] :=
    exists_terminated_eq_concat nonempty
  refine ⟨front, terminator, ?_, split_stream_dropLast sendable terminator⟩
  rw [terminator, reassemble_complete front List.not_mem_nil]

theorem step_loggedIn (sendable : ∀ msg ∈ msgs, Sendable msg) (nonempty : msgs ≠ [])
    (received : reception.chunk = stream msgs) (aligned : session.tempStr = [])
    (flag : session.cn.loginFlag = true) :
    sessions.step session reception.event = some (session,
      msgs.map fun text => .handled (Server.addressed text session.cn)) := by
  obtain ⟨front, -, joined, parts⟩ := reassemble_stream sendable nonempty
  have same : { session with tempStr := [] } = session := by rw [← aligned]
  simp only [sessions, Reception.event, Session.step, msgRecv, received, aligned, joined, flag,
    if_true, parts, handing_messages, same]

theorem step_loggedOut (sendable : ∀ msg ∈ msgs, Sendable msg) (nonempty : msgs ≠ [])
    (received : reception.chunk = stream msgs) (aligned : session.tempStr = [])
    (flag : session.cn.loginFlag = false) :
    ∃ front, stream msgs = front ++ ['&'] ∧
      sessions.step session reception.event =
        (handing reception.draws reception.added).step session (.login front) := by
  obtain ⟨front, terminator, joined, -⟩ := reassemble_stream sendable nonempty
  refine ⟨front, terminator, ?_⟩
  have same : { session with tempStr := [] } = session := by rw [← aligned]
  simp only [sessions, Reception.event, Session.step, msgRecv, received, aligned, joined, flag,
    Bool.false_eq_true, if_false, Machine.run_singleton, same]

/-- Chunks of whole messages leave no fragment, and nothing is handled in the one
that logs in. -/
theorem step_aligned (sendable : ∀ msg ∈ msgs, Sendable msg) (nonempty : msgs ≠ [])
    (received : reception.chunk = stream msgs) (aligned : session.tempStr = [])
    (flag : session.cn.loginFlag = false)
    (stepped : sessions.step session reception.event = some (next, outputs)) :
    next.tempStr = [] ∧ handledIn outputs = [] := by
  obtain ⟨front, -, called⟩ := step_loggedOut sendable nonempty received aligned flag
  rw [called] at stepped
  simp only [handing] at stepped
  split at stepped
  next => cases stepped
  next userList cn sent answered =>
    cases stepped
    exact ⟨aligned, handledIn_login _ _ _⟩

theorem run_loggedIn (sendable : ∀ msg ∈ msgs, Sendable msg)
    (cutting : Cutting (stream msgs) receptions) (aligned : session.tempStr = [])
    (flag : session.cn.loginFlag = true) :
    sessions.run session (receptions.map Reception.event) = some (session,
      msgs.map fun text => .handled (Server.addressed text session.cn)) := by
  induction receptions generalizing msgs with
  | nil =>
      rw [nil_of_stream cutting.whole.symm]
      rfl
  | cons reception receptions inductionHypothesis =>
      obtain ⟨group, later, rfl, nonempty, received, cuttingLater⟩ :=
        cutting_cons sendable cutting
      obtain ⟨sendableGroup, sendableLater⟩ := List.forall_mem_append.mp sendable
      have stepped := step_loggedIn sendableGroup nonempty received aligned flag
      have ran := inductionHypothesis sendableLater cuttingLater
      rw [List.map_cons, List.map_append]
      exact (sessions.run_cons_iff ..).mpr ⟨session, _, _, stepped, ran, rfl⟩

theorem length_handledIn_le (sendable : ∀ msg ∈ msgs, Sendable msg)
    (cutting : Cutting (stream msgs) receptions) (aligned : session.tempStr = [])
    (finished : sessions.run session (receptions.map Reception.event) = some (last, outputs)) :
    (handledIn outputs).length ≤ msgs.length := by
  induction receptions generalizing session msgs outputs with
  | nil =>
      cases finished
      exact Nat.zero_le _
  | cons reception receptions inductionHypothesis =>
      obtain ⟨group, later, rfl, nonempty, received, cuttingLater⟩ :=
        cutting_cons sendable cutting
      obtain ⟨next, first, more, stepped, ran, rfl⟩ := (sessions.run_cons_iff ..).mp finished
      obtain ⟨sendableGroup, sendableLater⟩ := List.forall_mem_append.mp sendable
      rw [handledIn_append, List.length_append, List.length_append]
      cases flag : session.cn.loginFlag with
      | true =>
          have handled := step_loggedIn sendableGroup nonempty received aligned flag
          rw [handled, Option.some.injEq, Prod.mk.injEq] at stepped
          obtain ⟨rfl, rfl⟩ := stepped
          rw [handledIn_handled, List.length_map]
          exact Nat.add_le_add_left (inductionHypothesis sendableLater cuttingLater aligned ran) _
      | false =>
          obtain ⟨alignedNext, nothing⟩ :=
            step_aligned sendableGroup nonempty received aligned flag stepped
          have bound := inductionHypothesis sendableLater cuttingLater alignedNext ran
          rw [nothing, List.length_nil, Nat.zero_add]
          exact bound.trans (Nat.le_add_left _ _)

theorem length_handledIn_lt (sendable : ∀ msg ∈ msgs, Sendable msg)
    (cutting : Cutting (stream msgs) receptions) (aligned : session.tempStr = [])
    (flag : session.cn.loginFlag = false)
    (finished : sessions.run session (receptions.map Reception.event) = some (last, outputs))
    (loggedIn : last.cn.loginFlag = true) : (handledIn outputs).length < msgs.length := by
  cases receptions with
  | nil =>
      cases finished
      cases flag.symm.trans loggedIn
  | cons reception receptions =>
      obtain ⟨group, later, rfl, nonempty, received, cuttingLater⟩ :=
        cutting_cons sendable cutting
      obtain ⟨next, first, more, stepped, ran, rfl⟩ := (sessions.run_cons_iff ..).mp finished
      obtain ⟨sendableGroup, sendableLater⟩ := List.forall_mem_append.mp sendable
      obtain ⟨alignedNext, nothing⟩ :=
        step_aligned sendableGroup nonempty received aligned flag stepped
      have bound := length_handledIn_le sendableLater cuttingLater alignedNext ran
      have positive := List.length_pos_iff.mpr nonempty
      rw [handledIn_append, nothing, List.nil_append, List.length_append]
      omega

theorem step_heartbeat (session : Session) {behind : List Text}
    (sendable : ∀ msg ∈ "<3".toList :: behind, Sendable msg)
    (received : reception.chunk = stream ("<3".toList :: behind)) (aligned : session.tempStr = [])
    (flag : session.cn.loginFlag = false) :
    ∃ outputs, sessions.step session reception.event = some (session, outputs) ∧
      handledIn outputs = [] := by
  obtain ⟨front, terminator, called⟩ :=
    step_loggedOut sendable (List.cons_ne_nil _ _) received aligned flag
  have starts : ∃ tail, front = '<' :: tail := by
    rw [stream, terminated_cons] at terminator
    cases front with
    | nil => simp at terminator
    | cons symbol tail =>
        exact ⟨tail, congrArg (· :: tail) (List.cons.inj terminator).1.symm⟩
  obtain ⟨tail, rfl⟩ := starts
  have noLogin : ('<' :: tail).take 4 ≠ "1234".toList := by simp
  have noUser : ('<' :: tail).take 4 ≠ "1238".toList := by simp
  refine ⟨[.login ('<' :: tail) session.userList], ?_, rfl⟩
  simp only [called, handing, loginMsgHandle, if_neg noLogin, if_neg noUser]
  rfl

theorem run_heartbeats (session : Session) {heartbeats : ℕ}
    (cutting : Cutting (stream (List.replicate heartbeats "<3".toList)) receptions)
    (aligned : session.tempStr = []) (flag : session.cn.loginFlag = false) :
    ∃ outputs, sessions.run session (receptions.map Reception.event) = some (session, outputs) ∧
      handledIn outputs = [] := by
  have sendable (count : ℕ) : ∀ msg ∈ List.replicate count "<3".toList, Sendable msg := by
    intro msg listed
    rw [List.eq_of_mem_replicate listed]
    exact ⟨by decide, by decide, by decide⟩
  induction receptions generalizing heartbeats with
  | nil => exact ⟨[], rfl, rfl⟩
  | cons reception receptions inductionHypothesis =>
      obtain ⟨group, later, parts, nonempty, received, cuttingLater⟩ :=
        cutting_cons (sendable heartbeats) cutting
      obtain ⟨-, isGroup, isLater⟩ := List.append_eq_replicate_iff.mp parts.symm
      rw [isLater] at cuttingLater
      obtain ⟨more, ran, nothingLater⟩ := inductionHypothesis cuttingLater
      obtain ⟨size, positive⟩ : ∃ size, group.length = size + 1 :=
        Nat.exists_eq_succ_of_ne_zero (List.length_pos_iff.mpr nonempty).ne'
      rw [positive, List.replicate_succ] at isGroup
      rw [isGroup] at received
      obtain ⟨first, stepped, nothing⟩ :=
        step_heartbeat session (sendable (size + 1)) received aligned flag
      refine ⟨first ++ more, ?_, ?_⟩
      · exact (sessions.run_cons_iff ..).mpr ⟨session, first, more, stepped, ran, rfl⟩
      · rw [handledIn_append, nothing, nothingLater, List.nil_append]

theorem step_login (session : Session) {login user : Text} (sendable : Sendable login)
    (received : reception.chunk = login ++ ['&']) (aligned : session.tempStr = [])
    (flag : session.cn.loginFlag = false) (logsIn : LogsIn session.userList login user) :
    ∃ next outputs, sessions.step session reception.event = some (next, outputs) ∧
      next.cn.loginFlag = true ∧ next.tempStr = [] ∧ handledIn outputs = [] := by
  have single : reception.chunk = stream [login] := by
    rw [received, stream, terminated_cons, terminated_nil]
  obtain ⟨front, terminator, called⟩ :=
    step_loggedOut (by simpa using sendable) (List.cons_ne_nil _ _) single aligned flag
  obtain rfl : login = front := by
    rw [← single, received] at terminator
    exact List.append_cancel_right terminator
  obtain ⟨account, known, passwordField⟩ := logsIn.password
  have nonempty : session.userList ≠ [] := by
    intro empty
    rw [empty] at known
    cases known
  have decided : DecidedByList reception.draws reception.added login session.userList
      session.cn := by
    apply (decidedByList_iff logsIn.code).mpr
    apply (loginUser_ok_iff nonempty).mpr
    exact ⟨user, account, account.password, logsIn.named, known, passwordField⟩
  obtain ⟨cn, sent, answered, outcome⟩ := decided
  have loggedIn : cn.loginFlag = true := by
    rcases outcome with ⟨_, -, rfl⟩ | ⟨nobody, -⟩
    · rfl
    · exact absurd logsIn (nobody user)
  have nothing := handledIn_login login session.userList sent
  refine ⟨{ session with cn }, _, ?_, loggedIn, aligned, nothing⟩
  simp only [called, handing, answered]

end

section

variable {id : ℤ} {userList : Accounts} {heartbeats : ℕ} {login user : Text} {msgs : List Text}
  {receptions : List Reception}

theorem sendable_conversation (sendableLogin : Sendable login)
    (sendable : ∀ msg ∈ msgs, Sendable msg) :
    ∀ msg ∈ conversation heartbeats login msgs, Sendable msg := by
  intro msg listed
  rcases List.mem_append.mp listed with heartbeat | later
  · rw [List.eq_of_mem_replicate heartbeat]
    exact ⟨by decide, by decide, by decide⟩
  · rcases List.mem_cons.mp later with rfl | behind
    · exact sendableLogin
    · exact sendable msg behind

theorem delivers_of_loginAlone (logsIn : LogsIn userList login user)
    (sendableLogin : Sendable login) (sendable : ∀ msg ∈ msgs, Sendable msg)
    (cutting : Cutting (stream (conversation heartbeats login msgs)) receptions)
    (alone : LoginAlone heartbeats login receptions) : Delivers id userList msgs receptions := by
  obtain ⟨earlier, reception, later, rfl, heartbeatsFirst, received⟩ := alone
  have cuttingEarlier : Cutting (stream (List.replicate heartbeats "<3".toList)) earlier :=
    ⟨heartbeatsFirst, fun other listed => cutting.closed other (List.mem_append_left _ listed)⟩
  have cuttingLater : Cutting (stream msgs) later := by
    constructor
    · have whole := cutting.whole
      rw [List.map_append, List.flatten_append, heartbeatsFirst, List.map_cons, List.flatten_cons,
        received, conversation, stream, stream, terminated_append, List.append_cancel_left_eq,
        terminated_cons, List.append_assoc, List.append_cancel_left_eq, List.singleton_append,
        List.cons.injEq] at whole
      exact whole.2
    · intro other listed
      exact cutting.closed other (List.mem_append_right _ (List.mem_cons_of_mem reception listed))
  obtain ⟨before, ranEarlier, nothingBefore⟩ :=
    run_heartbeats (.fresh id false userList) cuttingEarlier rfl rfl
  obtain ⟨next, now, stepped, flag, aligned, nothingNow⟩ :=
    step_login (.fresh id false userList) sendableLogin received rfl rfl logsIn
  have ranLater := run_loggedIn sendable cuttingLater aligned flag
  have ran : sessions.run (.fresh id false userList)
      (reception.event :: later.map Reception.event) =
        some (next, now ++ msgs.map fun text => .handled (Server.addressed text next.cn)) :=
    (sessions.run_cons_iff ..).mpr ⟨next, now, _, stepped, ranLater, rfl⟩
  have finished := (sessions.run_append_iff ..).mpr ⟨_, before, _, ranEarlier, ran, rfl⟩
  rw [← List.map_cons, ← List.map_append] at finished
  refine ⟨next, _, finished, flag, ?_⟩
  rw [handledIn_append, handledIn_append, nothingBefore, nothingNow, handledIn_handled]
  rfl

theorem loginAlone_of_handled (sendableLogin : Sendable login)
    (sendable : ∀ msg ∈ msgs, Sendable msg)
    (cutting : Cutting (stream (conversation heartbeats login msgs)) receptions)
    {last : Session} {outputs : List SessionOutput}
    (finished : sessions.run (.fresh id false userList) (receptions.map Reception.event) =
      some (last, outputs))
    (flag : last.cn.loginFlag = true) (complete : (handledIn outputs).length = msgs.length) :
    LoginAlone heartbeats login receptions := by
  have sendableAll : ∀ msg ∈ conversation heartbeats login msgs, Sendable msg :=
    sendable_conversation sendableLogin sendable
  obtain ⟨earlier, reception, later, ahead, joined, behind, remaining, rfl, heartbeatsApart, rfl,
      cuttingEarlier, received, cuttingLater⟩ := cutting_reaches sendableAll cutting
  obtain ⟨-, isAhead, isJoined⟩ := List.append_eq_replicate_iff.mp heartbeatsApart.symm
  obtain ⟨sendableBehind, sendableRemaining⟩ := List.forall_mem_append.mp sendable
  have sendableGroup : ∀ msg ∈ joined ++ login :: behind, Sendable msg := by
    rw [isJoined]
    exact sendable_conversation sendableLogin sendableBehind
  rw [isAhead] at cuttingEarlier
  obtain ⟨before, ranEarlier, nothingBefore⟩ :=
    run_heartbeats (.fresh id false userList) cuttingEarlier rfl rfl
  rw [List.map_append, List.map_cons] at finished
  obtain ⟨after, ran, rfl⟩ := (sessions.run_append_of_run ranEarlier _ _ _).mp finished
  obtain ⟨next, now, more, stepped, ranLater, rfl⟩ := (sessions.run_cons_iff ..).mp ran
  have groupNonempty : joined ++ login :: behind ≠ [] := by simp
  obtain ⟨aligned, nothingNow⟩ :=
    step_aligned sendableGroup groupNonempty received rfl rfl stepped
  have bound := length_handledIn_le sendableRemaining cuttingLater aligned ranLater
  rw [handledIn_append, nothingBefore, handledIn_append, nothingNow, List.nil_append,
    List.nil_append, List.length_append] at complete
  have nothingBehind : behind = [] := List.length_eq_zero_iff.mp (by omega)
  subst nothingBehind
  cases joined with
  | nil =>
      refine ⟨earlier, reception, later, rfl, ?_, ?_⟩
      · rw [cuttingEarlier.whole, ← isAhead, heartbeatsApart, List.append_nil]
      · rw [received, List.nil_append, stream, terminated_cons, terminated_nil]
  | cons head others =>
      exfalso
      -- The heartbeat hides the login, and a later one would be a message less.
      obtain rfl : head = "<3".toList :=
        List.eq_of_mem_replicate (isJoined ▸ List.mem_cons_self)
      obtain ⟨_, ignored, -⟩ :=
        step_heartbeat (.fresh id false userList) sendableGroup received rfl rfl
      rw [ignored, Option.some.injEq, Prod.mk.injEq] at stepped
      obtain ⟨rfl, -⟩ := stepped
      have missing := length_handledIn_lt sendableRemaining cuttingLater aligned rfl ranLater flag
      rw [List.length_nil, Nat.zero_add] at complete
      exact absurd complete missing.ne

end

/-- Every message in a chunk of its own. -/
def separately (msgs : List Text) : List Reception :=
  msgs.map fun msg => ⟨msg ++ ['&'], (0, 0), false⟩

theorem cutting_separately (msgs : List Text) : Cutting (stream msgs) (separately msgs) where
  whole := by simp [separately, stream, terminated, Function.comp_def]
  closed := by
    intro reception listed
    obtain ⟨msg, -, rfl⟩ := List.mem_map.mp listed
    exact List.getLast?_concat

theorem loginAlone_separately (heartbeats : ℕ) (login : Text) (msgs : List Text) :
    LoginAlone heartbeats login (separately (conversation heartbeats login msgs)) :=
  ⟨separately (List.replicate heartbeats "<3".toList), ⟨login ++ ['&'], (0, 0), false⟩,
    separately msgs, by simp [separately, conversation], (cutting_separately _).whole, rfl⟩

/-- All messages in one chunk. -/
def together (msgs : List Text) : List Reception := [⟨stream msgs, (0, 0), false⟩]

theorem cutting_together {msgs : List Text} (nonempty : msgs ≠ []) :
    Cutting (stream msgs) (together msgs) where
  whole := by simp [together]
  closed := by
    obtain ⟨front, terminator⟩ : ∃ front, stream msgs = front ++ ['&'] :=
      exists_terminated_eq_concat nonempty
    intro reception listed
    rw [List.mem_singleton.mp listed, terminator, List.getLast?_concat]

theorem loginAlone_together {heartbeats : ℕ} {login : Text} {msgs : List Text}
    (alone : LoginAlone heartbeats login (together (conversation heartbeats login msgs))) :
    heartbeats = 0 ∧ msgs = [] := by
  obtain ⟨earlier, reception, later, parts, before, received⟩ := alone
  rcases List.singleton_eq_append_iff.mp parts with ⟨rfl, single⟩ | ⟨-, empty⟩
  · obtain ⟨rfl, -⟩ := List.cons.inj single
    have none := nil_of_stream before.symm
    rw [List.replicate_eq_nil_iff] at none
    subst none
    rw [conversation, List.replicate_zero, List.nil_append, stream, terminated_cons,
      List.append_cancel_left_eq, List.cons.injEq] at received
    exact ⟨rfl, nil_of_stream received.2⟩
  · cases empty

theorem loginAlone_of_nothing_else {login : Text} (sendableLogin : Sendable login)
    {receptions : List Reception}
    (cutting : Cutting (stream (conversation 0 login [])) receptions) :
    LoginAlone 0 login receptions := by
  have sendable : ∀ msg ∈ conversation 0 login [], Sendable msg :=
    sendable_conversation sendableLogin fun _ listed => nomatch listed
  obtain ⟨earlier, reception, later, ahead, joined, behind, remaining, rfl, before, after,
      cuttingEarlier, received, -⟩ := cutting_reaches sendable cutting
  obtain ⟨rfl, rfl⟩ := List.append_eq_nil_iff.mp before.symm
  obtain ⟨rfl, rfl⟩ := List.append_eq_nil_iff.mp after.symm
  refine ⟨earlier, reception, later, rfl, cuttingEarlier.whole, ?_⟩
  rw [received, List.nil_append, stream, terminated_cons, terminated_nil]

/-- The login fails or the rest is lost unless the login is alone in its chunk; so
the boundaries do not matter exactly when there is nothing but the login. -/
theorem login_boundaries_iff (id : ℤ) (userList : Accounts) (heartbeats : ℕ) (login user : Text)
    (msgs : List Text) (logsIn : LogsIn userList login user) (sendableLogin : Sendable login)
    (sendable : ∀ msg ∈ msgs, Sendable msg) :
    (∀ receptions, Cutting (stream (conversation heartbeats login msgs)) receptions →
        (Delivers id userList msgs receptions ↔ LoginAlone heartbeats login receptions)) ∧
      ((∀ first second, Cutting (stream (conversation heartbeats login msgs)) first →
          Cutting (stream (conversation heartbeats login msgs)) second →
          SameOutcome id userList first second) ↔ heartbeats = 0 ∧ msgs = []) := by
  have delivers_iff (receptions : List Reception)
      (cutting : Cutting (stream (conversation heartbeats login msgs)) receptions) :
      Delivers id userList msgs receptions ↔ LoginAlone heartbeats login receptions := by
    constructor
    · rintro ⟨last, outputs, finished, flag, handled⟩
      apply loginAlone_of_handled sendableLogin sendable cutting finished flag
      rw [handled, List.length_map]
    · exact delivers_of_loginAlone logsIn sendableLogin sendable cutting
  refine ⟨delivers_iff, ?_⟩
  have nonempty : conversation heartbeats login msgs ≠ [] := by simp [conversation]
  constructor
  · intro independent
    have apart := cutting_separately (conversation heartbeats login msgs)
    have cutting := cutting_together nonempty
    obtain ⟨last, outputs, last', outputs', ran, finished, flag, flag', same⟩ :=
      independent _ _ apart cutting
    obtain ⟨final, delivered, ran', -, handled⟩ :=
      (delivers_iff _ apart).mpr (loginAlone_separately heartbeats login msgs)
    rw [ran, Option.some.injEq, Prod.mk.injEq] at ran'
    have complete : (handledIn outputs').length = msgs.length := by
      rw [← same, ran'.2, handled, List.length_map]
    exact loginAlone_together
      (loginAlone_of_handled sendableLogin sendable cutting finished flag' complete)
  · rintro ⟨rfl, rfl⟩ first second cutting cutting'
    obtain ⟨last, outputs, finished, flag, handled⟩ :=
      (delivers_iff first cutting).mpr (loginAlone_of_nothing_else sendableLogin cutting)
    obtain ⟨last', outputs', finished', flag', handled'⟩ :=
      (delivers_iff second cutting').mpr (loginAlone_of_nothing_else sendableLogin cutting')
    exact ⟨last, outputs, last', outputs', finished, finished', flag, flag',
      handled.trans handled'.symm⟩

/-- The login that the market maker sends after a heartbeat. -/
def makerLogin : Text := "1234|0324027|123|".toList

theorem logsIn_makerLogin : LogsIn .initial makerLogin "0324027".toList where
  code := by decide +kernel
  named := by decide +kernel
  password := ⟨_, rfl, by decide +kernel⟩

theorem makerLogin_sendable : Sendable makerLogin := ⟨by decide, by decide, by decide⟩

/-- In one chunk with the heartbeat the login fails. -/
theorem makerLogin_not_recognised :
    LogsIn .initial makerLogin "0324027".toList ∧
      Cutting (stream (conversation 1 makerLogin []))
        (separately (conversation 1 makerLogin [])) ∧
      Cutting (stream (conversation 1 makerLogin []))
        (together (conversation 1 makerLogin [])) ∧
      ¬ SameOutcome 0 .initial (separately (conversation 1 makerLogin []))
        (together (conversation 1 makerLogin [])) := by
  refine ⟨logsIn_makerLogin, cutting_separately _, cutting_together (by simp [conversation]), ?_⟩
  rintro ⟨-, -, last, outputs, -, finished, -, flag, -⟩
  obtain ⟨final, _, ran, loggedOut⟩ :=
    Machine.exists_run_of_any sessions (.fresh 0 false .initial)
      ((together (conversation 1 makerLogin [])).map Reception.event)
      (fun final _ => !final.cn.loginFlag) (by decide +kernel)
  rw [finished, Option.some.injEq, Prod.mk.injEq] at ran
  rw [← ran.1, flag] at loggedOut
  cases loggedOut

theorem login_boundaries_iff_makerLogin :
    (∀ receptions, Cutting (stream (conversation 1 makerLogin [loneOrder])) receptions →
        (Delivers 0 .initial [loneOrder] receptions ↔ LoginAlone 1 makerLogin receptions)) ∧
      ((∀ first second, Cutting (stream (conversation 1 makerLogin [loneOrder])) first →
          Cutting (stream (conversation 1 makerLogin [loneOrder])) second →
          SameOutcome 0 .initial first second) ↔ 1 = 0 ∧ [loneOrder] = []) :=
  login_boundaries_iff 0 .initial 1 makerLogin "0324027".toList [loneOrder] logsIn_makerLogin
    makerLogin_sendable loneOrder_sendable

end InertiaTrader
