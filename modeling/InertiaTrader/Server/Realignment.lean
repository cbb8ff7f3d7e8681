import InertiaTrader.Server.CleanReceives

/-!
# Realignment of frames

The first receive that is not clean hands on what is no message, or loses a part
of one.  So the messages arrive exactly when every receive is clean.
-/

namespace InertiaTrader

open Foundation

section

variable {before bytes : List Byte}

/-- From here on exactly the rest of the messages is handed on, whatever stands
behind the texts. -/
def HandsRest (tempStr : List Byte) (chunks : List (List Byte)) : Prop :=
  ∀ memory, ∃ last, (recvBytes memory).run tempStr chunks =
    some (last, tokens Byte.terminates (tempStr ++ chunks.flatten.filter Byte.isText))

namespace Layout

variable {rest : List Byte}

theorem noNul_receive (layout : Layout (before ++ bytes ++ rest)) :
    ∀ byte ∈ bytes, byte.content ≠ .text '\x00' := fun byte membership =>
  layout.noNul byte (List.mem_append_left _ (List.mem_append_right _ membership))

theorem edges_receive (layout : Layout (before ++ bytes ++ rest)) :
    bytes.IsChain fun byte next => byte.content.Edge next.content :=
  layout.edges.left_of_append.right_of_append

theorem not_mem_before (layout : Layout (before ++ bytes ++ rest)) {byte : Byte}
    (membership : byte ∈ bytes) : byte ∉ before := fun inBefore =>
  List.disjoint_of_nodup_append (List.nodup_append.mp layout.distinct).1 inBefore membership

theorem not_mem_later (layout : Layout (before ++ bytes ++ rest)) {byte : Byte}
    (membership : byte ∈ bytes) : byte ∉ rest := fun inLater =>
  List.disjoint_of_nodup_append layout.distinct (List.mem_append_right before membership) inLater

end Layout

theorem text_of_mem_token {text token : List Byte} {byte : Byte}
    (isText : ∀ other ∈ text, other.isText = true)
    (listed : token ∈ tokens Byte.terminates text) (membership : byte ∈ token) :
    byte.isText = true :=
  isText byte (mem_of_mem_tokens listed membership)

/-- A receive that starts with something else than a terminator hands that on, or
keeps it. -/
theorem step_of_first {memory : ℕ → Char} {byte : Byte} {rest : List Byte}
    (noNul : byte.value memory ≠ '\x00') (plain : byte.value memory ≠ '&') :
    ∃ kept outputs, (recvBytes memory).step [] (byte :: rest) = some (kept, outputs) ∧
      ∃ token ∈ outputs, byte ∈ token := by
  have recvStr : (byte :: rest).takeWhile (fun other => other.value memory ≠ '\x00') =
      byte :: rest.takeWhile (fun other => other.value memory ≠ '\x00') :=
    List.takeWhile_cons_of_pos (by simpa using noNul)
  have joined : reassembleBytes (Byte.value memory) []
      (byte :: rest.takeWhile fun other => other.value memory ≠ '\x00') =
      cutBytes (Byte.value memory)
        ([] ++ byte :: rest.takeWhile fun other => other.value memory ≠ '\x00') [] :=
    reassembleBytes_joined fun pending => absurd rfl pending
  rw [List.nil_append] at joined
  simp only [recvBytes, recvStr, reduceCtorEq, and_false, if_false, joined]
  refine ⟨_, _, rfl, ?_⟩
  generalize rest.takeWhile (fun other => other.value memory ≠ '\x00') = received
  by_cases present : ∃ other ∈ byte :: received, decide (other.value memory = '&') = true
  · obtain ⟨front, terminator, tail, received, terminates, open'⟩ :=
      exists_last_separator present
    rw [received, cutBytes_complete front (by simpa using terminates)
      fun other membership => by simpa using open' other membership]
    apply exists_token_of_mem _ (by simpa using plain)
    cases front with
    | nil =>
        rw [List.nil_append, List.cons.injEq] at received
        rw [← received.1] at terminates
        exact absurd (by simpa using terminates) plain
    | cons head front =>
        rw [List.cons_append, List.cons.injEq] at received
        exact received.1 ▸ List.mem_cons_self
  · have absent : ∀ other ∈ byte :: received, other.value memory ≠ '&' := by
      intro other membership isTerminator
      exact present ⟨other, membership, by simpa using isTerminator⟩
    rw [cutBytes_fragment [] absent]
    exact exists_token_of_mem List.mem_cons_self (by simpa using plain)

theorem isText_of_rest {tempStr rest : List Byte} (isText : ∀ byte ∈ tempStr, byte.isText = true) :
    ∀ byte ∈ tempStr ++ rest.filter Byte.isText, byte.isText = true := by
  intro byte membership
  rcases List.mem_append.mp membership with pending | later
  · exact isText byte pending
  · exact (List.mem_filter.mp later).2

section

variable {tempStr : List Byte} {handed : List (List Byte)} {later : List (List Byte)}

theorem starts_in_text
    (edges : (before ++ bytes).IsChain fun byte next => byte.content.Edge next.content)
    (caught : Caught before tempStr handed) (nonempty : bytes ≠ [])
    (hands : HandsRest tempStr (bytes :: later)) : bytes.takeWhile Byte.isText ≠ [] := by
  cases bytes with
  | nil => exact absurd rfl nonempty
  | cons byte rest =>
      by_cases isText : byte.isText = true
      · rw [List.takeWhile_cons_of_pos isText]
        exact List.cons_ne_nil _ _
      exfalso
      have noText : byte.isText = false := by simpa using isText
      have nothing : tempStr = [] := by
        by_contra pending
        obtain ⟨last, isLast, lastText, openLast⟩ := caught.pending pending
        have ends := (List.isChain_append.mp edges).2.2 last isLast byte rfl lastText noText
        simp [Byte.terminates, ends.1] at openLast
      obtain ⟨last, ran⟩ := hands fun _ => 'x'
      obtain ⟨middle, first, more, stepped, -, outputs⟩ :=
        ((recvBytes fun _ => 'x').run_cons_iff ..).mp ran
      rw [nothing] at stepped
      cases content : byte.content with
      | text symbol => simp [Byte.isText, Content.isText, content] at noText
      | nul =>
          simp [recvBytes, Byte.value, content] at stepped
      | filler =>
          have value : byte.value (fun _ => 'x') = 'x' := by rw [Byte.value, content]
          have noNul : byte.value (fun _ => 'x') ≠ '\x00' := by rw [value]; decide
          have plain : byte.value (fun _ => 'x') ≠ '&' := by rw [value]; decide
          obtain ⟨kept, handedOn, step, token, listed, inside⟩ := step_of_first noNul plain
          rw [stepped, Option.some.injEq, Prod.mk.injEq] at step
          rw [← step.2] at listed
          have expected := outputs ▸ List.mem_append_left more listed
          rw [text_of_mem_token (isText_of_rest caught.isText) expected inside] at noText
          cases noText

theorem step_of_fragment (noNul : ∀ byte ∈ bytes, byte.content ≠ .text '\x00')
    (edges : bytes.IsChain fun byte next => byte.content.Edge next.content)
    (starts : bytes.takeWhile Byte.isText ≠ [])
    (plain : ∀ byte ∈ bytes.takeWhile Byte.isText, byte.terminates = false)
    (isText : ∀ byte ∈ tempStr, byte.isText = true)
    (open' : ∀ byte ∈ tempStr, byte.terminates = false) (memory : ℕ → Char) :
    (recvBytes memory).step tempStr bytes =
      some (tempStr ++ bytes.takeWhile Byte.isText,
        [tempStr ++ bytes.takeWhile Byte.isText]) := by
  have allText : ∀ byte ∈ tempStr ++ bytes.takeWhile Byte.isText, byte.isText = true :=
    List.forall_mem_append.mpr ⟨isText, fun _ => text_of_mem_takeWhile⟩
  have allOpen : ∀ byte ∈ tempStr ++ bytes.takeWhile Byte.isText, byte.terminates = false :=
    List.forall_mem_append.mpr ⟨open', plain⟩
  have noTerminator : ∀ byte ∈ tempStr ++ bytes.takeWhile Byte.isText,
      byte.value memory ≠ '&' := fun byte membership =>
    value_ne_of_open memory (allText byte membership) (allOpen byte membership)
  have otherValues : tempStr ≠ [] →
      (bytes.takeWhile Byte.isText).map (Byte.value memory) ≠ "<3&".toList := by
    intro _ heartbeat
    have present : '&' ∈ (bytes.takeWhile Byte.isText).map (Byte.value memory) := by
      rw [heartbeat]
      decide
    obtain ⟨byte, received, isTerminator⟩ := List.mem_map.mp present
    exact noTerminator byte (List.mem_append_right _ received) isTerminator
  have started : ¬ (tempStr = [] ∧ bytes.takeWhile Byte.isText = []) := fun both => starts both.2
  have token := tokens_plain (List.append_ne_nil_of_right_ne_nil tempStr starts) allOpen
  simp only [recvBytes, recvStr_of_text noNul edges starts memory, if_neg started,
    reassembleBytes_joined otherValues, cutBytes_fragment [] noTerminator,
    tokens_value memory allText, token]

/-- A token that is followed by a terminator is handed on again by the next
receive. -/
theorem step_of_leading_terminator (noNul : ∀ byte ∈ bytes, byte.content ≠ .text '\x00')
    (edges : bytes.IsChain fun byte next => byte.content.Edge next.content)
    {first : Byte} {rest : List Byte} (starts : bytes = first :: rest)
    (terminates : first.terminates = true) (nonempty : tempStr ≠ [])
    (isText : ∀ byte ∈ tempStr, byte.isText = true)
    (open' : ∀ byte ∈ tempStr, byte.terminates = false) (memory : ℕ → Char) :
    ∃ kept outputs, (recvBytes memory).step tempStr bytes = some (kept, outputs) ∧
      tempStr ∈ outputs := by
  have content : first.content = .text '&' := by simpa [Byte.terminates] using terminates
  have firstText : first.isText = true := Byte.isText_iff.mpr ⟨'&', content⟩
  have received : bytes.takeWhile Byte.isText = first :: rest.takeWhile Byte.isText := by
    rw [starts, List.takeWhile_cons_of_pos firstText]
  obtain ⟨front, terminator, tail, shape, isTerminator, plain⟩ :=
    exists_last_separator ⟨first, received ▸ List.mem_cons_self, terminates⟩
  have noHeartbeat : tempStr ≠ [] →
      (bytes.takeWhile Byte.isText).map Byte.content ≠ "<3&".toList.map Content.text := by
    intro _ heartbeat
    rw [received, List.map_cons, content] at heartbeat
    exact absurd (List.cons.inj heartbeat).1 (by decide)
  refine ⟨_, _, step_of_terminator noNul edges shape isTerminator plain isText noHeartbeat memory,
    ?_⟩
  have stops : front.takeWhile (fun byte => !byte.terminates) = [] := by
    cases front with
    | nil => rfl
    | cons head front =>
        rw [received, List.cons_append, List.cons.injEq] at shape
        rw [← shape.1]
        exact List.takeWhile_cons_of_neg (by simp [terminates])
  rw [tokens_append_plain nonempty open', stops, List.append_nil]
  exact List.mem_cons_self

theorem next_of_open (layout : Layout (before ++ bytes ++ later.flatten))
    (nonempty : ∀ chunk ∈ later, chunk ≠ []) {last : Byte} (isLast : bytes.getLast? = some last)
    (lastText : last.isText = true) (lastOpen : last.terminates = false) :
    ∃ first rest more, later = (first :: rest) :: more ∧ first.isText = true := by
  cases later with
  | nil =>
      have closed := layout.closed last (by simp [isLast])
      rw [lastText] at closed
      cases closed
  | cons next more =>
      obtain ⟨first, rest, rfl⟩ := List.exists_cons_of_ne_nil (nonempty next List.mem_cons_self)
      refine ⟨first, rest, more, rfl, ?_⟩
      by_contra noText
      have ends := (List.isChain_append.mp layout.edges).2.2 last (by simp [isLast]) first
        (by simp) lastText (eq_false_of_ne_true noText)
      simp [Byte.terminates, ends.1] at lastOpen

theorem terminates_of_tokens {text rest : List Byte} {outputs : List (List Byte)} {first : Byte}
    (nonempty : text ≠ []) (open' : ∀ byte ∈ text, byte.terminates = false)
    (message : tokens Byte.terminates (text ++ first :: rest) = text :: outputs) :
    first.terminates = true ∧ outputs = tokens Byte.terminates (first :: rest) := by
  have terminates : first.terminates = true := by
    by_contra openFirst
    rw [tokens_append_plain nonempty open', List.cons.injEq,
      List.takeWhile_cons_of_pos (by simpa using openFirst)] at message
    simp at message
  refine ⟨terminates, ?_⟩
  rw [tokens_append_plain nonempty open', List.cons.injEq,
    List.dropWhile_cons_of_neg (by simp [terminates])] at message
  exact message.2.symm

theorem completes_of_handsRest (layout : Layout (before ++ bytes ++ later.flatten))
    (caught : Caught before tempStr handed) (nonempty : ∀ chunk ∈ later, chunk ≠ [])
    (starts : bytes.takeWhile Byte.isText ≠ []) (hands : HandsRest tempStr (bytes :: later)) :
    ∃ byte ∈ bytes.takeWhile Byte.isText, byte.terminates = true := by
  by_contra incomplete
  have plain : ∀ byte ∈ bytes.takeWhile Byte.isText, byte.terminates = false := by
    intro byte membership
    by_contra terminates
    exact incomplete ⟨byte, membership, by simpa using terminates⟩
  have lastReceived := List.getLast?_eq_some_getLast starts
  generalize (bytes.takeWhile Byte.isText).getLast starts = last at lastReceived
  have lastListed := List.mem_of_getLast? lastReceived
  have lastText := text_of_mem_takeWhile lastListed
  have lastOpen := plain last lastListed
  -- Nothing but this text is in the receive.
  have whole : bytes.takeWhile Byte.isText = bytes := by
    have parts := List.takeWhile_append_dropWhile (p := Byte.isText) (l := bytes)
    rwa [nothing_behind_open layout.edges_receive lastReceived lastOpen, List.append_nil] at parts
  have step := step_of_fragment layout.noNul_receive layout.edges_receive starts plain
    caught.isText caught.open' fun _ => 'x'
  have textInBytes : ∀ byte ∈ bytes, byte.isText = true := fun byte membership =>
    text_of_mem_takeWhile (whole ▸ membership)
  rw [whole] at step lastReceived lastListed plain starts
  have allText := List.forall_mem_append.mpr ⟨caught.isText, textInBytes⟩
  have allOpen := List.forall_mem_append.mpr ⟨caught.open', plain⟩
  have token : tempStr ++ bytes ≠ [] := List.append_ne_nil_of_right_ne_nil tempStr starts
  obtain ⟨first, rest, more, rfl, firstText⟩ :=
    next_of_open layout nonempty lastReceived lastText lastOpen
  obtain ⟨final, ran⟩ := hands fun _ => 'x'
  obtain ⟨_, _, laterOutputs, stepped, ranLater, outputs⟩ :=
    ((recvBytes fun _ => 'x').run_cons_iff ..).mp ran
  rw [step, Option.some.injEq, Prod.mk.injEq] at stepped
  obtain ⟨rfl, rfl⟩ := stepped
  have nextText : ((first :: rest) :: more).flatten.filter Byte.isText =
      first :: (rest ++ more.flatten).filter Byte.isText :=
    List.filter_cons_of_pos firstText
  rw [List.flatten_cons, List.filter_append, List.filter_eq_self.mpr textInBytes,
    ← List.append_assoc, nextText, List.singleton_append] at outputs
  obtain ⟨terminates, laterTokens⟩ := terminates_of_tokens token allOpen outputs
  have nextLayout : Layout ((before ++ bytes) ++ (first :: rest) ++ more.flatten) := by
    rwa [List.flatten_cons, ← List.append_assoc] at layout
  obtain ⟨kept, out, nextStep, again⟩ := step_of_leading_terminator nextLayout.noNul_receive
    nextLayout.edges_receive rfl terminates token allText allOpen fun _ => 'x'
  obtain ⟨_, _, _, steppedNext, -, nextOutputs⟩ :=
    ((recvBytes fun _ => 'x').run_cons_iff ..).mp ranLater
  rw [nextStep, Option.some.injEq, Prod.mk.injEq] at steppedNext
  rw [nextOutputs, ← steppedNext.2] at laterTokens
  -- The token would consist of bytes that come later in the stream.
  have listed := laterTokens ▸ List.mem_append_left _ again
  have inRest := mem_of_mem_tokens listed (List.mem_append_right tempStr lastListed)
  rw [← nextText] at inRest
  exact layout.not_mem_later lastListed (List.mem_filter.mp inRest).1

theorem mem_of_step {memory : ℕ → Char} {kept : List Byte} {outputs : List (List Byte)}
    (stepped : (recvBytes memory).step tempStr bytes = some (kept, outputs)) {byte : Byte}
    (listed : byte ∈ kept ∨ ∃ token ∈ outputs, byte ∈ token) :
    byte ∈ tempStr ∨ byte ∈ bytes.takeWhile fun other => other.value memory ≠ '\x00' := by
  simp only [recvBytes] at stepped
  split at stepped
  next => cases stepped
  next =>
    cases stepped
    apply mem_reassembleBytes
    rcases listed with kept | ⟨token, handedOn, inside⟩
    · exact .inr kept
    · exact .inl (mem_of_mem_tokens handedOn inside)

theorem mem_of_run {memory : ℕ → Char} {chunks : List (List Byte)} {last : List Byte}
    {outputs : List (List Byte)}
    (ran : (recvBytes memory).run tempStr chunks = some (last, outputs)) {token : List Byte}
    (handedOn : token ∈ outputs) {byte : Byte} (inside : byte ∈ token) :
    byte ∈ tempStr ∨ byte ∈ chunks.flatten := by
  induction chunks generalizing tempStr outputs with
  | nil =>
      cases ran
      cases handedOn
  | cons bytes chunks inductionHypothesis =>
      obtain ⟨middle, first, later, stepped, finished, rfl⟩ :=
        ((recvBytes memory).run_cons_iff ..).mp ran
      have received : ∀ other ∈ bytes.takeWhile (fun other => other.value memory ≠ '\x00'),
          other ∈ (bytes :: chunks).flatten := fun other membership =>
        List.mem_append_left _ (List.takeWhile_subset _ membership)
      rcases List.mem_append.mp handedOn with here | afterwards
      · exact (mem_of_step stepped (.inr ⟨token, here, inside⟩)).imp id (received byte)
      · rcases inductionHypothesis finished afterwards with middleByte | laterByte
        · exact (mem_of_step stepped (.inl middleByte)).imp id (received byte)
        · exact .inr (List.mem_append_right bytes laterByte)

theorem keeps_of_handsRest (layout : Layout (before ++ bytes ++ later.flatten))
    (caught : Caught before tempStr handed) (starts : bytes.takeWhile Byte.isText ≠ [])
    (hands : HandsRest tempStr (bytes :: later)) :
    ∀ byte ∈ bytes.dropWhile Byte.isText, byte.isText = true → byte.terminates = true := by
  intro byte lost isText
  by_contra openByte
  have inBytes : byte ∈ bytes := (List.dropWhile_suffix _).subset lost
  have notReceived : ¬ (byte ∈ tempStr ∨ byte ∈ bytes.takeWhile Byte.isText) := by
    rintro (pending | received)
    · exact layout.not_mem_before inBytes (caught.behind.subset pending)
    · have parts := List.takeWhile_append_dropWhile (p := Byte.isText) (l := bytes)
      have distinct := (List.nodup_append.mp (List.nodup_append.mp layout.distinct).1).2.1
      rw [← parts] at distinct
      exact List.disjoint_of_nodup_append distinct received lost
  obtain ⟨final, ran⟩ := hands fun _ => 'x'
  obtain ⟨kept, first, more, stepped, ranLater, outputs⟩ :=
    ((recvBytes fun _ => 'x').run_cons_iff ..).mp ran
  have fromStep : byte ∈ kept ∨ (∃ token ∈ first, byte ∈ token) →
      byte ∈ tempStr ∨ byte ∈ bytes.takeWhile Byte.isText := by
    intro listed
    rw [← recvStr_of_text layout.noNul_receive layout.edges_receive starts fun _ => 'x']
    exact mem_of_step stepped listed
  have inRest : byte ∈ tempStr ++ (bytes :: later).flatten.filter Byte.isText := by
    apply List.mem_append_right
    exact List.mem_filter.mpr ⟨List.mem_append_left _ inBytes, isText⟩
  obtain ⟨token, listed, inside⟩ := exists_token_of_mem inRest (eq_false_of_ne_true openByte)
  rw [outputs] at listed
  rcases List.mem_append.mp listed with here | afterwards
  · exact notReceived (fromStep (.inr ⟨token, here, inside⟩))
  · rcases mem_of_run ranLater afterwards inside with keptByte | laterByte
    · exact notReceived (fromStep (.inl keptByte))
    · exact layout.not_mem_later inBytes laterByte

theorem step_of_heartbeat
    (noNul : ∀ byte ∈ bytes, byte.content ≠ .text '\x00')
    (edges : bytes.IsChain fun byte next => byte.content.Edge next.content)
    {first second third : Byte} (received : bytes.takeWhile Byte.isText = [first, second, third])
    (contents : [first, second, third].map Byte.content = "<3&".toList.map Content.text)
    (nonempty : tempStr ≠ []) (memory : ℕ → Char) :
    (recvBytes memory).step tempStr bytes =
      some (tempStr, tokens Byte.terminates [first, second]) := by
  simp only [List.map_cons, List.map_nil, String.reduceToList, List.cons.injEq, and_true]
    at contents
  obtain ⟨firstContent, secondContent, thirdContent⟩ := contents
  have values : [first, second, third].map (Byte.value memory) = "<3&".toList := by
    simp [Byte.value_of_content firstContent, Byte.value_of_content secondContent,
      Byte.value_of_content thirdContent]
  have allText : ∀ byte ∈ [first, second], byte.isText = true := by
    intro byte membership
    have inReceived : byte ∈ bytes.takeWhile Byte.isText := by
      rw [received]
      exact List.mem_append_left [third] membership
    exact text_of_mem_takeWhile inReceived
  have starts : bytes.takeWhile Byte.isText ≠ [] := by
    rw [received]
    exact List.cons_ne_nil _ _
  have notJoined : ¬ (tempStr ≠ [] ∧
      [first, second, third].map (Byte.value memory) ≠ "<3&".toList) := fun both => both.2 values
  have last : ¬ ([first, second, third].map (Byte.value memory)).getLast? ≠ some '&' := by
    rw [values]
    decide
  have started : ¬ (tempStr = [] ∧ [first, second, third] = []) := fun both => nonempty both.1
  have front : [first, second, third].dropLast = [first, second] := rfl
  simp only [recvBytes, recvStr_of_text noNul edges starts, received, if_neg started,
    reassembleBytes, if_neg notJoined, cutBytes, if_neg last]
  rw [front, tokens_value _ allText]

theorem noHeartbeat_of_handsRest (layout : Layout (before ++ bytes ++ later.flatten))
    (caught : Caught before tempStr handed) (hands : HandsRest tempStr (bytes :: later))
    (pending : Pending before) :
    (bytes.takeWhile Byte.isText).map Byte.content ≠ "<3&".toList.map Content.text := by
  intro heartbeat
  have nonempty := caught.nonempty_of_pending pending
  obtain ⟨first, second, third, received⟩ :
      ∃ first second third, bytes.takeWhile Byte.isText = [first, second, third] := by
    apply List.length_eq_three.mp
    have length := congrArg List.length heartbeat
    simpa using length
  rw [received] at heartbeat
  have firstOpen : first.terminates = false := by
    have content : first.content = .text '<' := (List.cons.inj heartbeat).1
    simp [Byte.terminates, content]
  have step := step_of_heartbeat layout.noNul_receive layout.edges_receive received heartbeat
    nonempty fun _ => 'x'
  obtain ⟨final, ran⟩ := hands fun _ => 'x'
  obtain ⟨_, _, more, stepped, -, outputs⟩ := ((recvBytes fun _ => 'x').run_cons_iff ..).mp ran
  rw [step, Option.some.injEq, Prod.mk.injEq] at stepped
  have shortToken : tokens Byte.terminates ([first] ++ [second]) = _ :=
    tokens_append_plain (List.cons_ne_nil first []) (by simpa using firstOpen) [second]
  rw [List.singleton_append] at shortToken
  rw [← stepped.2, shortToken, tokens_append_plain nonempty caught.open', List.cons_append,
    List.cons.injEq] at outputs
  -- The message that is pending starts with a byte received before.
  have head := List.head_mem nonempty
  have inShort : tempStr.head nonempty ∈ [first] ++ [second].takeWhile fun symbol =>
      !symbol.terminates := outputs.1 ▸ List.mem_append_left _ head
  have inReceived : tempStr.head nonempty ∈ bytes.takeWhile Byte.isText := by
    rw [received]
    rcases List.mem_append.mp inShort with isFirst | isSecond
    · exact List.mem_append_left [second, third] isFirst
    · exact List.mem_cons_of_mem first
        (List.mem_append_left [third] (List.takeWhile_subset _ isSecond))
  exact layout.not_mem_before (List.takeWhile_subset _ inReceived) (caught.behind.subset head)

end

end

/-- Texts that were sent, and the receives in which their frames arrive. -/
structure Delivery where
  texts : List Text
  outgoing : ∀ text ∈ texts, Outgoing text
  chunks : List (List Byte)
  received : ∀ bytes ∈ chunks, 1 ≤ bytes.length ∧ bytes.length ≤ recvbuflen
  whole : chunks.flatten = transmitted texts

namespace Delivery

variable (delivery : Delivery)

/-- Exactly the messages of the texts are handed on, whatever stands in memory
behind the texts. -/
def Realigned : Prop :=
  ∀ memory, ∃ tempStr, (recvBytes memory).run [] delivery.chunks =
    some (tempStr, messages (transmitted delivery.texts))

/-- Every receive is handled well. -/
def Clean : Prop :=
  ∀ earlier bytes later, delivery.chunks = earlier ++ bytes :: later →
    CleanReceive earlier.flatten bytes

variable {delivery}

theorem layout : Layout (transmitted delivery.texts) := layout_transmitted delivery.outgoing

theorem handsRest_of_realigned (realigned : delivery.Realigned) {earlier later : List (List Byte)}
    (shape : delivery.chunks = earlier ++ later) {tempStr : List Byte}
    {outputs : List (List Byte)}
    (run : ∀ memory, (recvBytes memory).run [] earlier = some (tempStr, outputs))
    (caught : Caught earlier.flatten tempStr outputs) : HandsRest tempStr later := by
  intro memory
  obtain ⟨last, ran⟩ := realigned memory
  rw [shape, (recvBytes memory).run_append_iff] at ran
  obtain ⟨middle, first, rest, ranEarlier, ranLater, total⟩ := ran
  rw [run memory, Option.some.injEq, Prod.mk.injEq] at ranEarlier
  obtain ⟨rfl, rfl⟩ := ranEarlier
  obtain ⟨done, texts, rfl, closed⟩ := caught.parts
  have stream : transmitted delivery.texts = earlier.flatten ++ later.flatten := by
    rw [← delivery.whole, shape, List.flatten_append]
  rw [messages, stream, List.filter_append, texts, List.append_assoc,
    tokens_append_of_closed closed, List.append_cancel_left_eq] at total
  exact ⟨last, total ▸ ranLater⟩

theorem clean_of_realigned (realigned : delivery.Realigned) : delivery.Clean := by
  intro earlier
  induction count : earlier.length using Nat.strong_induction_on generalizing earlier with
  | _ count inductionHypothesis =>
  intro bytes later shape
  have stream : transmitted delivery.texts =
      earlier.flatten ++ bytes ++ later.flatten := by
    rw [← delivery.whole, shape]
    simp
  have layout := stream ▸ delivery.layout
  obtain ⟨tempStr, outputs, run, caught⟩ := clean_run
    (fun byte membership => layout.noNul byte
      (List.mem_append_left _ (List.mem_append_left _ membership)))
    layout.edges.left_of_append.left_of_append Caught.start fun before other behind earlierShape => by
      apply inductionHypothesis before.length _ before rfl other (behind ++ bytes :: later)
      · rw [shape, earlierShape]
        simp
      · rw [← count, earlierShape]
        simp
  rw [List.nil_append, List.nil_append] at caught
  have hands := handsRest_of_realigned realigned shape run caught
  have nonempty : ∀ chunk ∈ delivery.chunks, chunk ≠ [] := by
    rintro chunk membership rfl
    exact absurd (delivery.received [] membership).1 (by simp)
  have starts := starts_in_text layout.edges.left_of_append caught
    (nonempty bytes (by simp [shape])) hands
  exact {
    completes := completes_of_handsRest layout caught
      (fun chunk membership => nonempty chunk (by simp [shape, membership])) starts hands
    keeps := keeps_of_handsRest layout caught starts hands
    noHeartbeat := noHeartbeat_of_handsRest layout caught hands }

theorem realigned_of_clean (clean : delivery.Clean) : delivery.Realigned := by
  have layout := delivery.layout
  rw [← delivery.whole] at layout
  obtain ⟨tempStr, outputs, run, caught⟩ := clean_run layout.noNul layout.edges Caught.start
    fun earlier bytes later shape => clean earlier bytes later shape
  rw [List.nil_append, List.nil_append] at caught
  rw [Realigned, ← delivery.whole, ← caught.handed_eq layout]
  exact fun memory => ⟨tempStr, run memory⟩

end Delivery

theorem text_filter_sendMsg {text : Text} (outgoing : Outgoing text) :
    (sendMsg text).filter Content.isText = text.map Content.text := by
  rw [sendMsg_of_short outgoing.short, List.filter_append, List.filter_eq_self.mpr,
    List.filter_eq_nil_iff.mpr, List.append_nil]
  · intro content membership
    rcases List.mem_cons.mp membership with rfl | filler
    · decide
    · rw [(List.mem_replicate.mp filler).2]
      decide
  · intro content membership
    obtain ⟨symbol, -, rfl⟩ := List.mem_map.mp membership
    rfl

/-- Without the places of their bytes the messages are those that `split` finds
in each text. -/
theorem messages_transmitted (memory : ℕ → Char) {texts : List Text}
    (outgoing : ∀ text ∈ texts, Outgoing text) :
    (messages (transmitted texts)).map (List.map (Byte.value memory)) =
      texts.flatMap fun text => split text "&".toList := by
  have allText : ∀ byte ∈ (transmitted texts).filter Byte.isText, byte.isText = true :=
    fun byte membership => (List.mem_filter.mp membership).2
  have contents : ((transmitted texts).filter Byte.isText).map Byte.content =
      texts.flatten.map Content.text := by
    have same : Byte.isText = Content.isText ∘ Byte.content := rfl
    rw [same, ← List.filter_map, content_transmitted, List.filter_flatMap, List.map_flatten]
    apply congrArg List.flatten
    apply List.map_congr_left
    intro text membership
    exact text_filter_sendMsg (outgoing text membership)
  have values : ((transmitted texts).filter Byte.isText).map (Byte.value memory) =
      texts.flatten := by
    have mapped := map_content_of_value allText (Eq.refl (List.map (Byte.value memory) _))
    rw [contents] at mapped
    exact (List.map_injective_iff.mpr (fun _ _ same => by cases same; rfl) mapped).symm
  have mapped : tokens (fun symbol => decide (symbol = '&')) (List.map (Byte.value memory) _) = _ :=
    tokens_map (Byte.value memory) ((transmitted texts).filter Byte.isText)
  rw [messages, ← tokens_value memory allText, ← mapped, values]
  clear mapped allText contents values
  induction texts with
  | nil => rfl
  | cons text texts inductionHypothesis =>
      have first := outgoing text List.mem_cons_self
      have delimiter : "&".toList = ['&'] := rfl
      rw [List.flatten_cons, List.flatMap_cons, tokens_append_of_closed,
        inductionHypothesis fun other membership =>
          outgoing other (List.mem_cons_of_mem text membership),
        delimiter, split_eq_tokens first.noNul (by decide)]
      · rfl
      · intro symbol last
        rw [first.terminated] at last
        cases last
        rfl

theorem Delivery.msgRecv_of_clean {delivery : Delivery} (clean : delivery.Clean)
    (memory : ℕ → Char) :
    ∃ tempStr, (msgRecv true).run []
        (delivery.chunks.map fun bytes => cString (bytes.map (Byte.value memory))) =
      some (tempStr, (delivery.texts.flatMap fun text => split text "&".toList).map .message) := by
  obtain ⟨tempStr, ran⟩ := realigned_of_clean clean memory
  have erased := msgRecv_run_of_recvBytes (by simp) ran
  refine ⟨tempStr.map (Byte.value memory), erased.trans ?_⟩
  rw [← messages_transmitted memory delivery.outgoing, List.map_map]
  rfl

/-- The messages arrive exactly when every receive is handled well. -/
theorem frames_realigned_iff (delivery : Delivery) : delivery.Realigned ↔ delivery.Clean :=
  ⟨Delivery.clean_of_realigned, Delivery.realigned_of_clean⟩

/-- The frame of a price query, cut after 700 bytes. -/
def cutFrame : Delivery where
  texts := ["1233|KKC|&".toList]
  outgoing := by
    intro text membership
    rw [List.mem_singleton.mp membership]
    exact ⟨rfl, by decide, by decide⟩
  chunks :=
    [(transmitted ["1233|KKC|&".toList]).take 700, (transmitted ["1233|KKC|&".toList]).drop 700]
  received := by decide +kernel
  whole := by simp

/-- The second receive starts behind the text, and what stands there is handed
on. -/
theorem filler_handed_on : ¬ cutFrame.Realigned := by
  intro realigned
  obtain ⟨tempStr, ran⟩ := realigned fun _ => 'x'
  have handed : ((recvBytes fun _ => 'x').run [] cutFrame.chunks).map
      (fun result => result.2.length) = some 2 := by decide +kernel
  have expected : (messages (transmitted cutFrame.texts)).length = 1 := by decide +kernel
  rw [ran, Option.map_some, expected] at handed
  cases handed

end InertiaTrader
