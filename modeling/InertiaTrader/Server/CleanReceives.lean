import InertiaTrader.Server.Frames

/-!
# Clean receives

A receive is handled well when it starts in a text, brings a terminator of it,
loses nothing of the next text, and is no heartbeat inside of a message.  From
such receives `msgRecv` puts the messages together again.
-/

namespace InertiaTrader

open Foundation

structure Outgoing (text : Text) : Prop where
  terminated : text.getLast? = some '&'
  short : text.length < recvbuflen
  noNul : '\x00' ∉ text

def Content.Edge (content next : Content) : Prop :=
  content.isText = true → next.isText = false → content = .text '&' ∧ next = .nul

structure Layout (stream : List Byte) : Prop where
  distinct : stream.Nodup
  noNul : ∀ byte ∈ stream, byte.content ≠ .text '\x00'
  edges : stream.IsChain fun byte next => byte.content.Edge next.content
  closed : ∀ byte, stream.getLast? = some byte → byte.isText = false

def messages (stream : List Byte) : List (List Byte) :=
  tokens Byte.terminates (stream.filter Byte.isText)

def Pending (before : List Byte) : Prop :=
  ∃ byte, before.getLast? = some byte ∧ byte.isText = true ∧ byte.terminates = false

/-- A receive that is handled well, after the bytes `before`. -/
structure CleanReceive (before bytes : List Byte) : Prop where
  completes : ∃ byte ∈ bytes.takeWhile Byte.isText, byte.terminates = true
  keeps : ∀ byte ∈ bytes.dropWhile Byte.isText, byte.isText = true → byte.terminates = true
  noHeartbeat : Pending before →
    (bytes.takeWhile Byte.isText).map Byte.content ≠ "<3&".toList.map Content.text

theorem sendMsg_of_short {str : Text} (short : str.length < recvbuflen) :
    sendMsg str = str.map Content.text ++ Content.nul ::
      List.replicate (recvbuflen - (str.length + 1)) Content.filler := by
  apply List.take_of_length_le
  simp only [List.length_append, List.length_map, List.length_cons, List.length_replicate]
  omega

theorem edges_sendMsg {str : Text} (outgoing : Outgoing str) :
    (sendMsg str).IsChain Content.Edge ∧
      ∀ content, (sendMsg str).getLast? = some content → content.isText = false := by
  have later : ∀ content ∈ Content.nul ::
      List.replicate (recvbuflen - (str.length + 1)) Content.filler, content.isText = false := by
    intro content membership
    rcases List.mem_cons.mp membership with rfl | filler
    · rfl
    · rw [(List.mem_replicate.mp filler).2]
      rfl
  rw [sendMsg_of_short outgoing.short]
  constructor
  · refine List.isChain_append.mpr ⟨?_, ?_, ?_⟩
    · apply List.Pairwise.isChain
      apply List.pairwise_of_forall_mem_list
      intro content _ next membership _ noText
      obtain ⟨symbol, -, rfl⟩ := List.mem_map.mp membership
      cases noText
    · apply List.Pairwise.isChain
      apply List.pairwise_of_forall_mem_list
      intro content membership next _ isText
      rw [later content membership] at isText
      cases isText
    · intro content last next first _ _
      rw [List.getLast?_map, outgoing.terminated] at last
      cases last
      cases first
      exact ⟨rfl, rfl⟩
  · intro content last
    rw [List.getLast?_append, List.getLast?_cons, Option.some_or] at last
    exact later content (List.mem_of_getLast? (by rw [List.getLast?_cons]; exact last))

theorem edges_frames {texts : List Text} (outgoing : ∀ text ∈ texts, Outgoing text) :
    (texts.flatMap sendMsg).IsChain Content.Edge ∧
      ∀ content, (texts.flatMap sendMsg).getLast? = some content → content.isText = false := by
  induction texts with
  | nil => exact ⟨.nil, fun _ last => by cases last⟩
  | cons text texts inductionHypothesis =>
      obtain ⟨frame, frameClosed⟩ := edges_sendMsg (outgoing text List.mem_cons_self)
      obtain ⟨frames, framesClosed⟩ := inductionHypothesis fun other membership =>
        outgoing other (List.mem_cons_of_mem text membership)
      rw [List.flatMap_cons]
      constructor
      · refine List.isChain_append.mpr ⟨frame, frames, ?_⟩
        intro content last next _ isText
        rw [frameClosed content last] at isText
        cases isText
      · intro content last
        rw [List.getLast?_append] at last
        cases later : (texts.flatMap sendMsg).getLast? with
        | none =>
            rw [later, Option.none_or] at last
            exact frameClosed content last
        | some other =>
            rw [later, Option.some_or, Option.some.injEq] at last
            exact framesClosed content (last ▸ later)

theorem content_transmitted (texts : List Text) :
    (transmitted texts).map Byte.content = texts.flatMap sendMsg := by
  rw [transmitted, List.map_map]
  exact List.zipIdx_map_fst 0 _

theorem layout_transmitted {texts : List Text} (outgoing : ∀ text ∈ texts, Outgoing text) :
    Layout (transmitted texts) where
  distinct := by
    apply List.Nodup.of_map Byte.place
    rw [transmitted, List.map_map]
    change ((texts.flatMap sendMsg).zipIdx.map Prod.snd).Nodup
    rw [List.zipIdx_map_snd]
    exact List.nodup_range'
  noNul := by
    intro byte membership isNul
    have listed : Content.text '\x00' ∈ texts.flatMap sendMsg := by
      rw [← content_transmitted, ← isNul]
      exact List.mem_map_of_mem membership
    obtain ⟨text, sent, inside⟩ := List.mem_flatMap.mp listed
    rw [sendMsg_of_short (outgoing text sent).short] at inside
    simp only [List.mem_append, List.mem_map, Content.text.injEq, exists_eq_right, List.mem_cons,
      reduceCtorEq, List.mem_replicate, and_false, or_false] at inside
    exact (outgoing text sent).noNul inside
  edges := by
    have chain := (edges_frames outgoing).1
    rwa [← content_transmitted, List.isChain_map] at chain
  closed := by
    intro byte last
    apply (edges_frames outgoing).2 byte.content
    rw [← content_transmitted, List.getLast?_map, last, Option.map_some]

/-- What `msgRecv` has done with the bytes received so far. -/
structure Caught (before tempStr : List Byte) (handed : List (List Byte)) : Prop where
  parts : ∃ done, before.filter Byte.isText = done ++ tempStr ∧
    handed = tokens Byte.terminates done ∧
    ∀ byte, done.getLast? = some byte → byte.terminates = true
  open' : ∀ byte ∈ tempStr, byte.terminates = false
  behind : tempStr <:+ before

namespace Caught

variable {before tempStr : List Byte} {handed : List (List Byte)}

theorem isText (caught : Caught before tempStr handed) :
    ∀ byte ∈ tempStr, byte.isText = true := by
  obtain ⟨done, texts, -, -⟩ := caught.parts
  intro byte membership
  have listed : byte ∈ before.filter Byte.isText := texts ▸ List.mem_append_right done membership
  exact (List.mem_filter.mp listed).2

theorem pending (caught : Caught before tempStr handed) (nonempty : tempStr ≠ []) :
    Pending before := by
  have listed := List.getLast_mem nonempty
  refine ⟨tempStr.getLast nonempty, ?_, caught.isText _ listed, caught.open' _ listed⟩
  obtain ⟨earlier, rfl⟩ := caught.behind
  rw [List.getLast?_append, List.getLast?_eq_some_getLast nonempty, Option.some_or]

theorem nonempty_of_pending (caught : Caught before tempStr handed) (pending : Pending before) :
    tempStr ≠ [] := by
  obtain ⟨byte, last, isText, openByte⟩ := pending
  obtain ⟨done, texts, -, closed⟩ := caught.parts
  rintro rfl
  obtain ⟨earlier, rfl⟩ := List.getLast?_eq_some_iff.mp last
  rw [List.filter_append, List.filter_cons_of_pos isText, List.filter_nil, List.append_nil]
    at texts
  have terminates := closed byte (by rw [← texts]; simp)
  rw [openByte] at terminates
  cases terminates

end Caught

theorem text_of_mem_takeWhile {bytes : List Byte} {byte : Byte}
    (membership : byte ∈ bytes.takeWhile Byte.isText) : byte.isText = true :=
  List.mem_takeWhile_imp membership

section

variable {before bytes : List Byte}

/-- Where a text ends inside of a receive, it ends with its terminator, and the
NUL follows. -/
theorem edge_of_received
    (edges : bytes.IsChain fun byte next => byte.content.Edge next.content)
    {last next : Byte} {rest : List Byte}
    (lastText : (bytes.takeWhile Byte.isText).getLast? = some last)
    (behind : bytes.dropWhile Byte.isText = next :: rest) :
    last.content = .text '&' ∧ next.content = .nul := by
  have parts := List.takeWhile_append_dropWhile (p := Byte.isText) (l := bytes)
  rw [← parts, behind] at edges
  have noText : next.isText = false := by
    have stopped := List.head?_dropWhile_not Byte.isText bytes
    simpa [behind] using stopped
  exact (List.isChain_append.mp edges).2.2 last lastText next rfl
    (text_of_mem_takeWhile (List.mem_of_getLast? lastText)) noText

theorem nothing_behind_open
    (edges : bytes.IsChain fun byte next => byte.content.Edge next.content) {last : Byte}
    (lastText : (bytes.takeWhile Byte.isText).getLast? = some last)
    (openLast : last.terminates = false) : bytes.dropWhile Byte.isText = [] := by
  cases behind : bytes.dropWhile Byte.isText with
  | nil => rfl
  | cons next rest =>
      have ends := (edge_of_received edges lastText behind).1
      simp [Byte.terminates, ends] at openLast

theorem recvStr_of_text (noNul : ∀ byte ∈ bytes, byte.content ≠ .text '\x00')
    (edges : bytes.IsChain fun byte next => byte.content.Edge next.content)
    (starts : bytes.takeWhile Byte.isText ≠ []) (memory : ℕ → Char) :
    (bytes.takeWhile fun byte => byte.value memory ≠ '\x00') = bytes.takeWhile Byte.isText := by
  have parts := List.takeWhile_append_dropWhile (p := Byte.isText) (l := bytes)
  have plain : ∀ byte ∈ bytes.takeWhile Byte.isText,
      decide (byte.value memory ≠ '\x00') = true := by
    intro byte membership
    obtain ⟨symbol, content⟩ := Byte.isText_iff.mp (text_of_mem_takeWhile membership)
    rw [Byte.value_of_content content, decide_eq_true_eq]
    rintro rfl
    exact noNul byte (List.takeWhile_subset _ membership) content
  have last := List.getLast?_eq_some_getLast starts
  cases behind : bytes.dropWhile Byte.isText with
  | nil =>
      rw [behind, List.append_nil] at parts
      rw [parts] at plain ⊢
      exact List.takeWhile_eq_self_iff.mpr plain
  | cons next rest =>
      have isNul : next.value memory = '\x00' := by
        rw [Byte.value, (edge_of_received edges last behind).2]
      rw [behind] at parts
      conv_lhs => rw [← parts]
      rw [List.takeWhile_append_of_pos plain, List.takeWhile_cons_of_neg (by simp [isNul]),
        List.append_nil]

theorem tokens_value (memory : ℕ → Char) {text : List Byte}
    (isText : ∀ byte ∈ text, byte.isText = true) :
    tokens (fun byte => decide (byte.value memory = '&')) text = tokens Byte.terminates text :=
  tokens_congr fun byte membership => Byte.value_eq_iff_terminates (isText byte membership)

theorem value_ne_of_open (memory : ℕ → Char) {byte : Byte} (isText : byte.isText = true)
    (openByte : byte.terminates = false) : byte.value memory ≠ '&' := by
  have same := @Byte.value_eq_iff_terminates memory _ isText
  rw [openByte] at same
  simpa using same

theorem value_of_terminates (memory : ℕ → Char) {byte : Byte} (terminates : byte.terminates = true) :
    byte.value memory = '&' :=
  Byte.value_of_content (by simpa [Byte.terminates] using terminates)

theorem map_content_of_value {memory : ℕ → Char} {text : List Byte} {word : Text}
    (isText : ∀ byte ∈ text, byte.isText = true) (values : text.map (Byte.value memory) = word) :
    text.map Byte.content = word.map Content.text := by
  rw [← values, List.map_map]
  apply List.map_congr_left
  intro byte membership
  obtain ⟨symbol, content⟩ := Byte.isText_iff.mp (isText byte membership)
  rw [Function.comp_apply, Byte.value_of_content content, content]

theorem step_of_terminator (noNul : ∀ byte ∈ bytes, byte.content ≠ .text '\x00')
    (edges : bytes.IsChain fun byte next => byte.content.Edge next.content)
    {tempStr front tail : List Byte} {terminator : Byte}
    (received : bytes.takeWhile Byte.isText = front ++ terminator :: tail)
    (terminates : terminator.terminates = true) (plain : ∀ byte ∈ tail, byte.terminates = false)
    (isText : ∀ byte ∈ tempStr, byte.isText = true)
    (noHeartbeat : tempStr ≠ [] →
      (bytes.takeWhile Byte.isText).map Byte.content ≠ "<3&".toList.map Content.text)
    (memory : ℕ → Char) :
    (recvBytes memory).step tempStr bytes =
      some (tail, tokens Byte.terminates (tempStr ++ front)) := by
  have textOfReceived : ∀ byte ∈ front ++ terminator :: tail, byte.isText = true := by
    intro byte membership
    rw [← received] at membership
    exact text_of_mem_takeWhile membership
  have recvStr := recvStr_of_text noNul edges (by simp [received]) memory
  have started : ¬ (tempStr = [] ∧ front ++ terminator :: tail = []) := fun both => by
    simp at both
  have otherValues : tempStr ≠ [] →
      (front ++ terminator :: tail).map (Byte.value memory) ≠ "<3&".toList := by
    intro pending heartbeat
    rw [received] at noHeartbeat
    exact noHeartbeat pending (map_content_of_value textOfReceived heartbeat)
  have joined := reassembleBytes_joined otherValues
  have cut := cutBytes_complete (tempStr ++ front) (value_of_terminates memory terminates)
    fun byte membership => value_ne_of_open memory
      (textOfReceived byte (List.mem_append_right front (List.mem_cons_of_mem _ membership)))
      (plain byte membership)
  have textBefore : ∀ byte ∈ tempStr ++ front, byte.isText = true := by
    intro byte membership
    rcases List.mem_append.mp membership with pending | inFront
    · exact isText byte pending
    · exact textOfReceived byte (List.mem_append_left _ inFront)
  rw [List.append_assoc] at cut
  simp only [recvBytes, recvStr, received, if_neg started, joined, cut,
    tokens_value memory textBefore]

/-- A clean receive keeps the messages together, whatever stands behind the
texts. -/
theorem clean_step {tempStr : List Byte} {handed : List (List Byte)}
    (noNul : ∀ byte ∈ bytes, byte.content ≠ .text '\x00')
    (edges : bytes.IsChain fun byte next => byte.content.Edge next.content)
    (caught : Caught before tempStr handed) (clean : CleanReceive before bytes) :
    ∃ kept outputs, (∀ memory, (recvBytes memory).step tempStr bytes = some (kept, outputs)) ∧
      Caught (before ++ bytes) kept (handed ++ outputs) := by
  obtain ⟨front, terminator, tail, received, terminates, plain⟩ :=
    exists_last_separator clean.completes
  have parts := List.takeWhile_append_dropWhile (p := Byte.isText) (l := bytes)
  have step := step_of_terminator noNul edges received terminates plain caught.isText
    fun nonempty => clean.noHeartbeat (caught.pending nonempty)
  obtain ⟨done, texts, handedEq, closed⟩ := caught.parts
  have textOfReceived : ∀ byte ∈ front ++ terminator :: tail, byte.isText = true := by
    intro byte membership
    rw [← received] at membership
    exact text_of_mem_takeWhile membership
  generalize extraEq : (bytes.dropWhile Byte.isText).filter Byte.isText = extra
  have extraTerminates : ∀ byte ∈ extra, byte.terminates = true := by
    intro byte membership
    rw [← extraEq, List.mem_filter] at membership
    exact clean.keeps byte membership.1 membership.2
  have filtered : (before ++ bytes).filter Byte.isText =
      done ++ (tempStr ++ front) ++ terminator :: (tail ++ extra) := by
    rw [List.filter_append, texts, ← parts, received, List.filter_append, extraEq,
      List.filter_eq_self.mpr textOfReceived]
    simp
  -- Either nothing is lost, or the receive contains the end of its text.
  have order : tail ++ extra = extra ++ tail ∧ tail <:+ before ++ bytes := by
    cases behind : bytes.dropWhile Byte.isText with
    | nil =>
        rw [behind, List.filter_nil] at extraEq
        rw [behind, List.append_nil] at parts
        refine ⟨by simp [← extraEq], before ++ front ++ [terminator], ?_⟩
        rw [← parts, received]
        simp
    | cons next rest =>
        have noTail : tail = [] := by
          by_contra nonempty
          have last : (bytes.takeWhile Byte.isText).getLast? = some (tail.getLast nonempty) := by
            rw [received, List.getLast?_append, List.getLast?_cons,
              List.getLast?_eq_some_getLast nonempty]
            rfl
          rw [nothing_behind_open edges last (plain _ (List.getLast_mem nonempty))] at behind
          cases behind
        rw [noTail]
        exact ⟨by simp, List.nil_suffix⟩
  refine ⟨tail, _, step, ⟨⟨done ++ (tempStr ++ front) ++ terminator :: extra, ?_, ?_, ?_⟩,
    plain, order.2⟩⟩
  · rw [filtered, order.1]
    simp
  · rw [handedEq, tokens_append_separator _ _ _ terminates, tokens_append_of_closed closed,
      tokens_separators extraTerminates, List.append_nil]
  · intro byte last
    rw [List.getLast?_append, List.getLast?_cons, Option.some_or] at last
    have membership : byte ∈ terminator :: extra :=
      List.mem_of_getLast? (by rw [List.getLast?_cons]; exact last)
    rcases List.mem_cons.mp membership with rfl | inExtra
    · exact terminates
    · exact extraTerminates byte inExtra

theorem clean_run {chunks : List (List Byte)} {tempStr : List Byte} {handed : List (List Byte)}
    (noNul : ∀ byte ∈ chunks.flatten, byte.content ≠ .text '\x00')
    (edges : chunks.flatten.IsChain fun byte next => byte.content.Edge next.content)
    (caught : Caught before tempStr handed)
    (clean : ∀ earlier bytes later, chunks = earlier ++ bytes :: later →
      CleanReceive (before ++ earlier.flatten) bytes) :
    ∃ kept outputs, (∀ memory, (recvBytes memory).run tempStr chunks = some (kept, outputs)) ∧
      Caught (before ++ chunks.flatten) kept (handed ++ outputs) := by
  induction chunks generalizing before tempStr handed with
  | nil => exact ⟨tempStr, [], fun _ => rfl, by simpa using caught⟩
  | cons bytes chunks inductionHypothesis =>
      rw [List.flatten_cons] at noNul edges
      have first := clean [] bytes chunks rfl
      rw [List.flatten_nil, List.append_nil] at first
      obtain ⟨middle, outputs, step, caughtNext⟩ := clean_step
        (fun byte membership => noNul byte (List.mem_append_left _ membership))
        edges.left_of_append caught first
      obtain ⟨kept, more, run, caughtLast⟩ := inductionHypothesis
        (fun byte membership => noNul byte (List.mem_append_right _ membership))
        edges.right_of_append caughtNext fun earlier other later shape => by
          have cleanLater := clean (bytes :: earlier) other later (by rw [shape, List.cons_append])
          rwa [List.flatten_cons, ← List.append_assoc] at cleanLater
      refine ⟨kept, outputs ++ more, ?_, ?_⟩
      · intro memory
        exact ((recvBytes memory).run_cons_iff ..).mpr ⟨_, _, _, step memory, run memory, rfl⟩
      · rw [List.flatten_cons, ← List.append_assoc, ← List.append_assoc]
        exact caughtLast

theorem Caught.handed_eq {stream tempStr : List Byte} {handed : List (List Byte)}
    (layout : Layout stream) (caught : Caught stream tempStr handed) :
    handed = messages stream := by
  have nothing : tempStr = [] := by
    by_contra nonempty
    obtain ⟨byte, last, isText, -⟩ := caught.pending nonempty
    rw [layout.closed byte last] at isText
    cases isText
  obtain ⟨done, texts, rfl, -⟩ := caught.parts
  rw [messages, texts, nothing, List.append_nil]

theorem Caught.start : Caught [] [] [] where
  parts := ⟨[], rfl, rfl, fun _ last => by cases last⟩
  open' := fun _ membership => absurd membership List.not_mem_nil
  behind := List.nil_suffix

end

end InertiaTrader
