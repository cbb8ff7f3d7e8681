import InertiaTrader.Server.Receive

/-!
# Frames

`Client::sendMsg` hands 1024 bytes to `send`, however long the text is, and
`Connection::recvfrom` cuts what a `recv` delivers at its first NUL.  The bytes
carry their place in the stream, so that a byte that is handed on can be told
from an equal one.
-/

namespace InertiaTrader

open Foundation

/-- What `send` finds: the text, the NUL behind it, and whatever stands in memory
behind that. -/
inductive Content where
  | text (symbol : Char)
  | nul
  | filler
  deriving DecidableEq

def Content.isText : Content → Bool
  | .text _ => true
  | .nul | .filler => false

structure Byte where
  content : Content
  place : ℕ
  deriving DecidableEq

def recvbuflen : ℕ := 1024

/-- The bytes that `Client::sendMsg` hands to `send`. -/
def sendMsg (str : Text) : List Content :=
  let memory := str.map Content.text ++ Content.nul ::
    List.replicate (recvbuflen - (str.length + 1)) Content.filler
  memory.take recvbuflen

def transmitted (texts : List Text) : List Byte :=
  (texts.flatMap sendMsg).zipIdx.map fun placed => ⟨placed.1, placed.2⟩

namespace Byte

def value (memory : ℕ → Char) (byte : Byte) : Char :=
  match byte.content with
  | .text symbol => symbol
  | .nul => '\x00'
  | .filler => memory byte.place

def isText (byte : Byte) : Bool := byte.content.isText

def terminates (byte : Byte) : Bool := byte.content = .text '&'

theorem value_of_content {memory : ℕ → Char} {byte : Byte} {symbol : Char}
    (content : byte.content = .text symbol) : byte.value memory = symbol := by
  rw [value, content]

theorem isText_iff {byte : Byte} : byte.isText = true ↔ ∃ symbol, byte.content = .text symbol := by
  unfold isText Content.isText
  split
  next symbol content => exact iff_of_true rfl ⟨symbol, content⟩
  next content => simp [content]
  next content => simp [content]

theorem value_eq_iff_terminates {memory : ℕ → Char} {byte : Byte} (isText : byte.isText = true) :
    decide (byte.value memory = '&') = byte.terminates := by
  obtain ⟨symbol, content⟩ := isText_iff.mp isText
  simp [value_of_content content, terminates, content]

end Byte

section

variable (value : Byte → Char)

def cutBytes (received kept : List Byte) : List Byte × List Byte :=
  if (received.map value).getLast? ≠ some '&' then
    match findLastOf '&' (received.map value) with
    | none => (received, received)
    | some found => (received.take found, received.drop (found + 1))
  else
    (received.dropLast, kept)

/-- `reassemble` on bytes. -/
def reassembleBytes (tempStr recvStr : List Byte) : List Byte × List Byte :=
  if tempStr ≠ [] ∧ recvStr.map value ≠ "<3&".toList then
    cutBytes value (tempStr ++ recvStr) []
  else
    cutBytes value recvStr tempStr

theorem map_reassembleBytes (tempStr recvStr : List Byte) :
    Prod.map (List.map value) (List.map value) (reassembleBytes value tempStr recvStr) =
      reassemble (tempStr.map value) (recvStr.map value) := by
  unfold reassembleBytes reassemble cutBytes
  dsimp only
  by_cases joined : tempStr ≠ [] ∧ recvStr.map value ≠ "<3&".toList
  · have joined' : tempStr.map value ≠ [] ∧ recvStr.map value ≠ "<3&".toList := by
      simpa using joined
    rw [if_pos joined, if_pos joined', if_pos joined', ← List.map_append]
    split
    next =>
      cases findLastOf '&' ((tempStr ++ recvStr).map value) with
      | none => rfl
      | some found => simp [List.map_take, List.map_drop]
    next => simp [List.map_dropLast]
  · have joined' : ¬ (tempStr.map value ≠ [] ∧ recvStr.map value ≠ "<3&".toList) := by
      simpa using joined
    rw [if_neg joined, if_neg joined', if_neg joined']
    split
    next =>
      cases findLastOf '&' (recvStr.map value) with
      | none => rfl
      | some found => simp [List.map_take, List.map_drop]
    next => simp [List.map_dropLast]

variable {value}

theorem not_mem_map_value {received : List Byte} {symbol : Char}
    (absent : ∀ byte ∈ received, value byte ≠ symbol) : symbol ∉ received.map value := by
  intro membership
  obtain ⟨byte, listed, isSymbol⟩ := List.mem_map.mp membership
  exact absent byte listed isSymbol

theorem cutBytes_fragment {received : List Byte} (kept : List Byte)
    (absent : ∀ byte ∈ received, value byte ≠ '&') :
    cutBytes value received kept = (received, received) := by
  have notThere := not_mem_map_value absent
  have notLast : (received.map value).getLast? ≠ some '&' :=
    fun last => notThere (List.mem_of_getLast? last)
  simp only [cutBytes, if_pos notLast, findLastOf_eq_none_iff.mpr notThere]

theorem cutBytes_complete (front : List Byte) {terminator : Byte} {tail : List Byte}
    (isTerminator : value terminator = '&') (absent : ∀ byte ∈ tail, value byte ≠ '&') :
    cutBytes value (front ++ terminator :: tail) [] = (front, tail) := by
  have mapped : (front ++ terminator :: tail).map value =
      front.map value ++ '&' :: tail.map value := by
    rw [List.map_append, List.map_cons, isTerminator]
  by_cases closed : tail = []
  · have last : ¬ ((front ++ [terminator]).map value).getLast? ≠ some '&' := by
      simp [isTerminator]
    rw [closed]
    simp only [cutBytes, if_neg last, List.dropLast_concat]
  · have notLast : ((front ++ terminator :: tail).map value).getLast? ≠ some '&' := by
      intro last
      rw [List.getLast?_map, List.getLast?_append, List.getLast?_cons,
        List.getLast?_eq_some_getLast closed, Option.getD_some, Option.some_or,
        Option.map_some, Option.some.injEq] at last
      exact absent _ (List.getLast_mem closed) last
    have found : findLastOf '&' ((front ++ terminator :: tail).map value) = some front.length := by
      rw [mapped, findLastOf_append '&' _ (not_mem_map_value absent), List.length_map]
    simp only [cutBytes, if_pos notLast, found, List.take_left, Prod.mk.injEq, true_and]
    rw [List.append_cons, List.drop_left' (by simp)]

/-- Outside of heartbeats only the pending bytes together with the new ones
count. -/
theorem reassembleBytes_joined {tempStr recvStr : List Byte}
    (heartbeat : tempStr ≠ [] → recvStr.map value ≠ "<3&".toList) :
    reassembleBytes value tempStr recvStr = cutBytes value (tempStr ++ recvStr) [] := by
  by_cases pending : tempStr = []
  · rw [reassembleBytes, pending, if_neg fun both => both.1 rfl, List.nil_append]
  · rw [reassembleBytes, if_pos ⟨pending, heartbeat pending⟩]

theorem mem_cutBytes {received kept : List Byte} {byte : Byte}
    (listed : byte ∈ (cutBytes value received kept).1 ∨
      byte ∈ (cutBytes value received kept).2) : byte ∈ received ∨ byte ∈ kept := by
  unfold cutBytes at listed
  split at listed
  next =>
    split at listed
    next => exact .inl (listed.elim id id)
    next =>
      rcases listed with before | behind
      · exact .inl (List.mem_of_mem_take before)
      · exact .inl (List.mem_of_mem_drop behind)
  next => exact listed.imp List.mem_of_mem_dropLast id

theorem mem_reassembleBytes {tempStr recvStr : List Byte} {byte : Byte}
    (listed : byte ∈ (reassembleBytes value tempStr recvStr).1 ∨
      byte ∈ (reassembleBytes value tempStr recvStr).2) : byte ∈ tempStr ∨ byte ∈ recvStr := by
  unfold reassembleBytes at listed
  split at listed
  next =>
    have received := (mem_cutBytes listed).resolve_right List.not_mem_nil
    exact List.mem_append.mp received
  next => exact (mem_cutBytes listed).symm

end

/-- `Connection::recvfrom` and the iteration of `msgRecv` behind it, on a
connection that is logged in.  The terminator of a receive of all 1024 bytes is
written behind `buffer_`, to the low byte of `recvbuflen_`, which is zero.  The
last character of an empty string is undefined. -/
def recvBytes (memory : ℕ → Char) : Machine (List Byte) (List Byte) (List Byte) where
  step tempStr bytes :=
    let recvStr := bytes.takeWhile fun byte => byte.value memory ≠ '\x00'
    if tempStr = [] ∧ recvStr = [] then none
    else
      let (subStr, kept) := reassembleBytes (Byte.value memory) tempStr recvStr
      some (kept, tokens (fun byte => decide (byte.value memory = '&')) subStr)

theorem msgRecv_of_recvBytes {memory : ℕ → Char} {tempStr bytes kept : List Byte}
    {handed : List (List Byte)}
    (noNul : ∀ byte ∈ tempStr, byte.value memory ≠ '\x00')
    (stepped : (recvBytes memory).step tempStr bytes = some (kept, handed)) :
    (msgRecv true).step (tempStr.map (Byte.value memory))
        (cString (bytes.map (Byte.value memory))) =
      some (kept.map (Byte.value memory),
        handed.map fun msg => .message (msg.map (Byte.value memory))) ∧
      ∀ byte ∈ kept, byte.value memory ≠ '\x00' := by
  simp only [recvBytes] at stepped
  split at stepped
  next => cases stepped
  next =>
    have mapped := map_reassembleBytes (Byte.value memory) tempStr
      (bytes.takeWhile fun byte => byte.value memory ≠ '\x00')
    have received : cString (bytes.map (Byte.value memory)) =
        (bytes.takeWhile fun byte => byte.value memory ≠ '\x00').map (Byte.value memory) := by
      rw [cString, List.takeWhile_map]
      rfl
    have clean : ∀ byte, byte ∈ (reassembleBytes (Byte.value memory) tempStr
        (bytes.takeWhile fun byte => byte.value memory ≠ '\x00')).1 ∨
        byte ∈ (reassembleBytes (Byte.value memory) tempStr
          (bytes.takeWhile fun byte => byte.value memory ≠ '\x00')).2 →
        byte.value memory ≠ '\x00' := by
      intro byte listed
      rcases mem_reassembleBytes listed with pending | received
      · exact noNul byte pending
      · simpa using List.mem_takeWhile_imp received
    cases stepped
    rw [← received] at mapped
    refine ⟨?_, fun byte membership => clean byte (.inr membership)⟩
    have delimiter : "&".toList = ['&'] := rfl
    have subStrNoNul : '\x00' ∉ (reassembleBytes (Byte.value memory) tempStr
        (bytes.takeWhile fun byte => byte.value memory ≠ '\x00')).1.map (Byte.value memory) :=
      not_mem_map_value fun byte listed => clean byte (.inl listed)
    simp only [msgRecv, ← mapped, Prod.map, if_true, delimiter,
      split_eq_tokens subStrNoNul (show '&' ≠ '\x00' by decide), tokens_map, List.map_map]
    rfl

theorem msgRecv_run_of_recvBytes {memory : ℕ → Char} {chunks : List (List Byte)}
    {tempStr kept : List Byte} {handed : List (List Byte)}
    (noNul : ∀ byte ∈ tempStr, byte.value memory ≠ '\x00')
    (ran : (recvBytes memory).run tempStr chunks = some (kept, handed)) :
    (msgRecv true).run (tempStr.map (Byte.value memory))
        (chunks.map fun bytes => cString (bytes.map (Byte.value memory))) =
      some (kept.map (Byte.value memory),
        handed.map fun msg => .message (msg.map (Byte.value memory))) := by
  induction chunks generalizing tempStr handed with
  | nil =>
      cases ran
      rfl
  | cons bytes chunks inductionHypothesis =>
      obtain ⟨middle, first, later, stepped, finished, rfl⟩ :=
        ((recvBytes memory).run_cons_iff ..).mp ran
      obtain ⟨msgStep, middleNoNul⟩ := msgRecv_of_recvBytes noNul stepped
      rw [List.map_cons, (msgRecv true).run_cons_iff]
      exact ⟨_, _, _, msgStep, inductionHypothesis middleNoNul finished, by simp⟩

end InertiaTrader
