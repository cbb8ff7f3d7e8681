import InertiaTrader.Server.Basic
import InertiaTrader.Foundation.Machine

/-!
# `Server::msgRecv`

The receive loop of one connection.  Its only state between two receives is the
fragment `tempStr`; one event is the chunk that a `recv` delivered.
-/

namespace InertiaTrader

open Foundation

/-- `std::string::find_last_of` for one character; `none` is `npos`. -/
def findLastOf (symbol : Char) : Text → Option ℕ
  | [] => none
  | head :: rest =>
      match findLastOf symbol rest with
      | some found => some (found + 1)
      | none => if head = symbol then some 0 else none

/-- The part of one iteration that puts `subStr` together; returns `subStr`
and the new `tempStr`. -/
def reassemble (tempStr recvStr : Text) : Text × Text :=
  let joined := tempStr ≠ [] ∧ recvStr ≠ "<3&".toList
  let received := if joined then tempStr ++ recvStr else recvStr
  let kept := if joined then [] else tempStr
  if received.getLast? ≠ some '&' then
    match findLastOf '&' received with
    -- `npos + 1` is 0, so both substrings are the whole text.
    | none => (received, received)
    | some found => (received.take found, received.drop (found + 1))
  else
    (received.dropLast, kept)

inductive Handed where
  /-- A text that `msgHandler` gets, before the connection id is appended. -/
  | message (text : Text)
  /-- The text that `loginMsgHandle` gets. -/
  | login (text : Text)
  deriving DecidableEq

/-- `Server::msgRecv` on a connection with the given login status. -/
def msgRecv (loginstatus : Bool) : Machine Text Text Handed where
  step tempStr recvStr :=
    let (subStr, kept) := reassemble tempStr recvStr
    if loginstatus then
      some (kept, (split subStr "&".toList).map .message)
    else
      some (kept, [.login subStr])

theorem findLastOf_eq_none_iff {symbol : Char} {text : Text} :
    findLastOf symbol text = none ↔ symbol ∉ text := by
  induction text with
  | nil => simp [findLastOf]
  | cons head rest inductionHypothesis =>
      rw [findLastOf]
      cases found : findLastOf symbol rest with
      | none =>
          have absent := inductionHypothesis.mp found
          simp [absent, eq_comm]
      | some position =>
          have present : symbol ∈ rest := by
            by_contra absent
            simp [inductionHypothesis.mpr absent] at found
          simp [present]

theorem findLastOf_append (symbol : Char) (first : Text) {rest : Text} (absent : symbol ∉ rest) :
    findLastOf symbol (first ++ symbol :: rest) = some first.length := by
  induction first with
  | nil =>
      rw [List.nil_append, findLastOf, findLastOf_eq_none_iff.mpr absent]
      simp
  | cons head first inductionHypothesis =>
      rw [List.cons_append, findLastOf, inductionHypothesis]
      simp

end InertiaTrader
