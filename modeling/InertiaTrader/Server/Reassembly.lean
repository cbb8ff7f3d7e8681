import InertiaTrader.Server.Receive

/-!
# Reassembly of the byte stream

A chunk without `&` makes `find_last_of` return `npos`, and the fragment is
handed on although its message is not complete, and again with the next chunk.
Every other chunk hands on exactly the messages it completes.
-/

namespace InertiaTrader

open Foundation

/-- A message that is not empty and contains neither its terminator nor NUL. -/
structure Sendable (msg : Text) : Prop where
  nonempty : msg ≠ []
  plain : '&' ∉ msg
  noNul : '\x00' ∉ msg

/-- The bytes of the messages, each terminated by `&`. -/
def stream (msgs : List Text) : Text := terminated '&' msgs

/-- A chunk that is a heartbeat comes only when no message is incomplete. -/
def HeartbeatsApart : Text → List Text → Prop
  | _, [] => True
  | received, chunk :: chunks =>
      (chunk = "<3&".toList → received.getLast?.all (· = '&')) ∧
        HeartbeatsApart (received ++ chunk) chunks

/-- Exactly the completed messages were handed on, and `tempStr` is the
incomplete tail. -/
def Reassembled (msgs : List Text) (received : Text) (handed : List Handed) (tempStr : Text) :
    Prop :=
  ∃ done rest, msgs = done ++ rest ∧ received = stream done ++ tempStr ∧ '&' ∉ tempStr ∧
    handed = done.map .message

theorem noNul_stream {msgs : List Text} (sendable : ∀ msg ∈ msgs, Sendable msg) :
    '\x00' ∉ stream msgs := by
  simp only [stream, terminated, List.mem_flatten, List.mem_map, not_exists, not_and]
  rintro _ ⟨msg, membership, rfl⟩ inside
  have noNul := (sendable msg membership).noNul
  simp [noNul] at inside

theorem split_stream {msgs : List Text} (sendable : ∀ msg ∈ msgs, Sendable msg) :
    split (stream msgs) "&".toList = msgs := by
  have delimiter : "&".toList = ['&'] := rfl
  rw [delimiter, split_eq_tokens (noNul_stream sendable) (by decide)]
  refine tokens_terminated (by simp [isDelimiter])
    (fun msg membership => (sendable msg membership).nonempty) ?_
  intro msg membership symbol inside
  simp only [isDelimiter, decide_eq_false_iff_not]
  rintro rfl
  exact (sendable msg membership).plain inside

theorem split_stream_dropLast {msgs : List Text} {front : Text}
    (sendable : ∀ msg ∈ msgs, Sendable msg) (terminator : stream msgs = front ++ ['&']) :
    split front "&".toList = msgs := by
  have delimiter : "&".toList = ['&'] := rfl
  have noNul := noNul_stream sendable
  rw [terminator, List.mem_append, not_or] at noNul
  have separated : split (front ++ '&' :: []) ['&'] = split front ['&'] ++ split [] ['&'] := by
    apply split_append_delimiter noNul.1
    · simp
    · decide
  rw [← terminator, ← delimiter, split_stream sendable] at separated
  simpa [split] using separated.symm

theorem reassemble_joined {tempStr recvStr : Text}
    (heartbeat : tempStr ≠ [] → recvStr ≠ "<3&".toList) :
    reassemble tempStr recvStr = reassemble [] (tempStr ++ recvStr) := by
  by_cases pending : tempStr = []
  · rw [pending, List.nil_append]
  · have joined : tempStr ≠ [] ∧ recvStr ≠ "<3&".toList := ⟨pending, heartbeat pending⟩
    have fresh : ¬ (([] : Text) ≠ [] ∧ tempStr ++ recvStr ≠ "<3&".toList) := fun both => both.1 rfl
    simp only [reassemble, if_pos joined, if_neg fresh]

theorem reassemble_fragment {received : Text} (absent : '&' ∉ received) :
    reassemble [] received = (received, received) := by
  have open' : received.getLast? ≠ some '&' := fun last => absent (List.mem_of_getLast? last)
  have notFound := findLastOf_eq_none_iff.mpr absent
  simp [reassemble, open', notFound]

theorem reassemble_complete (front : Text) {tail : Text} (absent : '&' ∉ tail) :
    reassemble [] (front ++ '&' :: tail) = (front, tail) := by
  cases tail with
  | nil => simp [reassemble]
  | cons symbol rest =>
      have open' : (front ++ '&' :: symbol :: rest).getLast? ≠ some '&' := by
        intro last
        rw [List.getLast?_append, List.getLast?_cons_cons] at last
        cases inside : (symbol :: rest).getLast? with
        | none => simp at inside
        | some other =>
            rw [inside, Option.some_or, Option.some.injEq] at last
            exact absent (last ▸ List.mem_of_getLast? inside)
      have found := findLastOf_append '&' front absent
      have fresh : ¬ (([] : Text) ≠ [] ∧ front ++ '&' :: symbol :: rest ≠ "<3&".toList) :=
        fun both => both.1 rfl
      simp only [reassemble, if_neg fresh, if_pos open', found, List.take_left, Prod.mk.injEq,
        true_and]
      rw [List.append_cons, List.drop_left' (by simp)]

theorem msgRecv_step {msgs : List Text} {tail chunk : Text}
    (sendable : ∀ msg ∈ msgs, Sendable msg) (pending : '&' ∉ tail) (nonempty : chunk ≠ [])
    (heartbeat : tail ≠ [] → chunk ≠ "<3&".toList)
    (isPrefix : tail ++ chunk <+: stream msgs) :
    ∃ done rest tail' handed, msgs = done ++ rest ∧ tail ++ chunk = stream done ++ tail' ∧
      '&' ∉ tail' ∧ (msgRecv true).step tail chunk = some (tail', handed) ∧
      handed.length = done.length + (if '&' ∈ chunk then 0 else 1) ∧
      ('&' ∈ chunk → handed = done.map .message) := by
  have joined := reassemble_joined heartbeat
  by_cases complete : '&' ∈ chunk
  · obtain ⟨done, rest, tail', rfl, equality, absent⟩ := exists_terminated_of_prefix
      (fun msg membership => (sendable msg membership).plain) isPrefix
    have someDone : done ≠ [] := by
      rintro rfl
      rw [terminated_nil, List.nil_append] at equality
      exact absent (equality ▸ List.mem_append_right tail complete)
    obtain ⟨front, terminator⟩ : ∃ front, terminated '&' done = front ++ ['&'] :=
      exists_terminated_eq_concat someDone
    have parts := split_stream_dropLast
      (fun msg membership => sendable msg (List.mem_append_left rest membership)) terminator
    rw [equality, terminator, List.append_assoc, List.singleton_append,
      reassemble_complete front absent] at joined
    refine ⟨done, rest, tail', done.map .message, rfl, equality, absent, ?_, ?_, fun _ => rfl⟩
    · simp only [msgRecv, joined, parts, if_true]
    · simp [complete]
  · have absent : '&' ∉ tail ++ chunk := by simp [pending, complete]
    have noNul : '\x00' ∉ tail ++ chunk := fun inside =>
      noNul_stream sendable (isPrefix.subset inside)
    have part : split (tail ++ chunk) ['&'] = [tail ++ chunk] := by
      apply split_plain _ noNul (by decide) absent
      simp [nonempty]
    have delimiter : "&".toList = ['&'] := rfl
    rw [reassemble_fragment absent] at joined
    refine ⟨[], msgs, tail ++ chunk, [.message (tail ++ chunk)], rfl, rfl, absent, ?_, ?_,
      fun inside => absurd inside complete⟩
    · simp only [msgRecv, joined, if_true, delimiter, part, List.map_cons, List.map_nil]
    · simp [complete]

/-- A whole run, from a state in which `done` has been completed and `tail` is
pending. -/
theorem msgRecv_run {done rest chunks : List Text} {tail : Text}
    (sendable : ∀ msg ∈ rest, Sendable msg) (pending : '&' ∉ tail)
    (nonempty : ∀ chunk ∈ chunks, chunk ≠ [])
    (apart : HeartbeatsApart (stream done ++ tail) chunks)
    (isPrefix : tail ++ chunks.flatten <+: stream rest) :
    ∃ more rest' tail' handed, rest = more ++ rest' ∧
      tail ++ chunks.flatten = stream more ++ tail' ∧ '&' ∉ tail' ∧
      (msgRecv true).run tail chunks = some (tail', handed) ∧
      handed.length = more.length + chunks.countP (fun chunk => decide ('&' ∉ chunk)) ∧
      ((∀ chunk ∈ chunks, '&' ∈ chunk) → handed = more.map .message) := by
  induction chunks generalizing done rest tail with
  | nil =>
      exact ⟨[], rest, tail, [], rfl, by simp [stream], pending, rfl, rfl, fun _ => rfl⟩
  | cons chunk chunks inductionHypothesis =>
      obtain ⟨heartbeatHere, apartLater⟩ := apart
      have heartbeat : tail ≠ [] → chunk ≠ "<3&".toList := by
        intro isPending isHeartbeat
        have last := heartbeatHere isHeartbeat
        rw [List.getLast?_append, List.getLast?_eq_some_getLast isPending] at last
        simp only [Option.some_or, Option.all_some, decide_eq_true_eq] at last
        exact pending (last ▸ List.getLast_mem isPending)
      rw [List.flatten_cons, ← List.append_assoc] at isPrefix
      obtain ⟨first, rest, tail, firstHanded, rfl, equality, pending, stepped, firstLength,
          firstExact⟩ :=
        msgRecv_step sendable pending (nonempty chunk (by simp)) heartbeat
          ((List.prefix_append _ _).trans isPrefix)
      rw [List.append_assoc, equality, ← List.append_assoc, stream, stream,
        ← terminated_append] at apartLater
      rw [equality, List.append_assoc, stream, stream, terminated_append,
        List.prefix_append_right_inj] at isPrefix
      obtain ⟨more, rest, tail, laterHanded, rfl, laterEquality, pending, ran, laterLength,
          laterExact⟩ :=
        inductionHypothesis
          (fun msg membership => sendable msg (List.mem_append_right first membership)) pending
          (fun other membership => nonempty other (List.mem_cons_of_mem chunk membership))
          apartLater isPrefix
      refine ⟨first ++ more, rest, tail, firstHanded ++ laterHanded, by simp, ?_, pending, ?_,
        ?_, ?_⟩
      · rw [List.flatten_cons, ← List.append_assoc, equality, List.append_assoc, laterEquality]
        simp [stream]
      · exact ((msgRecv true).run_cons_iff ..).mpr
          ⟨_, _, _, stepped, ran, rfl⟩
      · rw [List.length_append, firstLength, laterLength, List.length_append, List.countP_cons]
        by_cases complete : '&' ∈ chunk <;> simp [complete] <;> omega
      · intro complete
        rw [firstExact (complete chunk (by simp)),
          laterExact fun other membership => complete other (List.mem_cons_of_mem chunk membership),
          List.map_append]

theorem msgRecv_run_start {msgs chunks : List Text} (sendable : ∀ msg ∈ msgs, Sendable msg)
    (nonempty : ∀ chunk ∈ chunks, chunk ≠ []) (apart : HeartbeatsApart [] chunks)
    (isPrefix : chunks.flatten <+: stream msgs) :
    ∃ done rest tempStr handed, msgs = done ++ rest ∧
      chunks.flatten = stream done ++ tempStr ∧ '&' ∉ tempStr ∧
      (msgRecv true).run [] chunks = some (tempStr, handed) ∧
      handed.length = done.length + chunks.countP (fun chunk => decide ('&' ∉ chunk)) ∧
      ((∀ chunk ∈ chunks, '&' ∈ chunk) → handed = done.map .message) := by
  have apartAtStart : HeartbeatsApart (stream [] ++ []) chunks := apart
  have prefixAtStart : [] ++ chunks.flatten <+: stream msgs := isPrefix
  exact msgRecv_run sendable (by simp) nonempty apartAtStart prefixAtStart

theorem HeartbeatsApart.of_append {received : Text} {earlier later : List Text}
    (apart : HeartbeatsApart received (earlier ++ later)) : HeartbeatsApart received earlier := by
  induction earlier generalizing received with
  | nil => trivial
  | cons chunk earlier inductionHypothesis =>
      exact ⟨apart.1, inductionHypothesis apart.2⟩

/-- Reassembly is exact at every moment exactly when every chunk contains a
terminator. -/
theorem reassembly_exact_iff (msgs chunks : List Text)
    (sendable : ∀ msg ∈ msgs, Sendable msg) (nonempty : ∀ chunk ∈ chunks, chunk ≠ [])
    (isPrefix : chunks.flatten <+: stream msgs) (apart : HeartbeatsApart [] chunks) :
    (∀ earlier later, chunks = earlier ++ later →
      ∃ tempStr handed, (msgRecv true).run [] earlier = some (tempStr, handed) ∧
        Reassembled msgs earlier.flatten handed tempStr) ↔
      ∀ chunk ∈ chunks, '&' ∈ chunk := by
  constructor
  · intro exact'
    obtain ⟨tempStr, handed, ran, done, rest, rfl, received, absent, rfl⟩ :=
      exact' chunks [] (by simp)
    obtain ⟨more, rest', tail, handed, equality, received', absent', ran', length, -⟩ :=
      msgRecv_run_start sendable nonempty apart isPrefix
    rw [ran, Option.some.injEq, Prod.mk.injEq] at ran'
    obtain ⟨rfl, rfl⟩ := ran'
    -- Both decompositions complete as many messages as there are terminators.
    have terminators := count_terminated_append
      (fun msg membership => (sendable msg (List.mem_append_left rest membership)).plain) absent
    have terminators' := count_terminated_append
      (fun msg membership => (sendable msg (equality ▸ List.mem_append_left rest' membership)).plain)
      absent'
    have sameStream : terminated '&' done ++ tempStr = terminated '&' more ++ tempStr :=
      received.symm.trans received'
    rw [sameStream, terminators'] at terminators
    rw [List.length_map, terminators] at length
    simpa using (Nat.left_eq_add.mp length : _ = 0)
  · rintro complete earlier later rfl
    have isPrefixEarlier : earlier.flatten <+: stream msgs := by
      rw [List.flatten_append] at isPrefix
      exact (List.prefix_append _ _).trans isPrefix
    obtain ⟨more, rest, tail, handed, equality, received, absent, ran, -, exactly⟩ :=
      msgRecv_run_start sendable
        (fun chunk membership => nonempty chunk (List.mem_append_left later membership))
        apart.of_append isPrefixEarlier
    exact ⟨tail, handed, ran, more, rest, equality, received, absent,
      exactly fun chunk membership => complete chunk (List.mem_append_left later membership)⟩

def loneOrder : Text := "87|1|60|1|1|1|KKC|".toList

theorem loneOrder_sendable : ∀ msg ∈ [loneOrder], Sendable msg := by
  simpa using ⟨by decide, by decide, by decide⟩

theorem order_handed_twice :
    ¬ ∀ msgs chunks : List Text, (∀ msg ∈ msgs, Sendable msg) → (∀ chunk ∈ chunks, chunk ≠ []) →
      chunks.flatten <+: stream msgs → HeartbeatsApart [] chunks →
      ∃ tempStr handed, (msgRecv true).run [] chunks = some (tempStr, handed) ∧
        Reassembled msgs chunks.flatten handed tempStr := by
  intro always
  obtain ⟨tempStr, handed, ran, done, rest, msgs, -, -, rfl⟩ :=
    always [loneOrder] [loneOrder, "&".toList] loneOrder_sendable (by decide) (by decide)
      ⟨by decide, by decide, trivial⟩
  have twice : (msgRecv true).run [] [loneOrder, "&".toList] =
      some ([], [.message loneOrder, .message loneOrder]) := by decide +kernel
  rw [twice, Option.some.injEq, Prod.mk.injEq] at ran
  have tooMany := congrArg List.length ran.2
  have atMost := congrArg List.length msgs
  simp only [List.length_append, List.length_map, List.length_cons, List.length_nil] at tooMany atMost
  omega

theorem reassembly_exact_iff_loneOrder :
    (∀ earlier later, [loneOrder, "&".toList] = earlier ++ later →
      ∃ tempStr handed, (msgRecv true).run [] earlier = some (tempStr, handed) ∧
        Reassembled [loneOrder] earlier.flatten handed tempStr) ↔
      ∀ chunk ∈ [loneOrder, "&".toList], '&' ∈ chunk :=
  reassembly_exact_iff [loneOrder] _ loneOrder_sendable (by decide) (by decide)
    ⟨by decide, by decide, trivial⟩

end InertiaTrader
