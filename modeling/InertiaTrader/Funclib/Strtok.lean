import InertiaTrader.Foundation.MaximalRuns
import InertiaTrader.Funclib.Split

/-!
# The `strtok` loop

`split` calls `strtok` on its copy of the text until no token is left; each call goes on
where the one before it cut.
-/

namespace InertiaTrader

open Foundation

/-- The characters `strtok` cuts at, as `split` copies them. -/
def isSeparator (delim : Text) (symbol : Char) : Bool := decide (symbol ∈ cString delim)

/-- One call of `strtok` on the text that the call before it left: separators in front are
skipped, the token ends at the next separator, and the next call starts behind that one. -/
def strtok (str d : Text) : Option (Text × Text) :=
  match str.dropWhile (isSeparator d) with
  | [] => none
  | symbol :: text =>
      some (symbol :: text.takeWhile fun other => !isSeparator d other,
        (text.dropWhile fun other => !isSeparator d other).tail)

theorem length_lt_of_strtok {str d token later : Text} (cut : strtok str d = some (token, later)) :
    later.length < str.length := by
  unfold strtok at cut
  have skipped := List.length_dropWhile_le (isSeparator d) str
  split at cut
  next => cases cut
  next symbol text left =>
    cases cut
    have shorter := List.length_dropWhile_le (fun other => !isSeparator d other) text
    rw [left, List.length_cons] at skipped
    rw [List.length_tail]
    omega

/-- The loop `while(p)` of `split`. -/
def splitLoop (d str : Text) (res : List Text) : List Text :=
  match _cut : strtok str d with
  | none => res
  | some (token, later) => splitLoop d later (res ++ [token])
termination_by str.length
decreasing_by exact length_lt_of_strtok (by assumption)

/-- `split` as it is written. -/
def splitByStrtok (str delim : Text) : List Text :=
  if str = [] then [] else splitLoop delim (cString str) []

section

variable {str d : Text}

theorem tokens_dropWhile_isSeparator (d str : Text) :
    tokens (isSeparator d) (str.dropWhile (isSeparator d)) = tokens (isSeparator d) str := by
  have parts := List.takeWhile_append_dropWhile (p := isSeparator d) (l := str)
  have separators : ∀ symbol ∈ str.takeWhile (isSeparator d), isSeparator d symbol = true :=
    fun symbol membership => List.mem_takeWhile_imp membership
  have skipped := tokens_append_separators separators (str.dropWhile (isSeparator d))
  rw [parts] at skipped
  exact skipped.symm

theorem tokens_of_strtok_none (cut : strtok str d = none) : tokens (isSeparator d) str = [] := by
  rw [← tokens_dropWhile_isSeparator]
  unfold strtok at cut
  split at cut
  next left => rw [left, tokens_nil]
  next => cases cut

theorem tokens_of_strtok_some {token later : Text} (cut : strtok str d = some (token, later)) :
    tokens (isSeparator d) str = token :: tokens (isSeparator d) later := by
  rw [← tokens_dropWhile_isSeparator]
  unfold strtok at cut
  split at cut
  next => cases cut
  next symbol text left =>
    cases cut
    have stopped := List.head?_dropWhile_not (isSeparator d) str
    rw [left, List.head?_cons] at stopped
    have plain : ∀ other ∈ [symbol], isSeparator d other = false :=
      fun other membership => List.mem_singleton.mp membership ▸ stopped
    have starts := tokens_append_plain (List.cons_ne_nil symbol []) plain text
    rw [left, ← List.singleton_append, starts, List.singleton_append]
    apply congrArg
    -- the separator that ended the token is overwritten
    cases ends : text.dropWhile fun other => !isSeparator d other with
    | nil => rfl
    | cons separator rest =>
        have separates := List.head?_dropWhile_not (fun other => !isSeparator d other) text
        rw [ends] at separates
        have skipped := tokens_append_separator [] rest separator (by simpa using separates)
        rwa [List.nil_append, tokens_nil, List.nil_append] at skipped

theorem splitLoop_eq_tokens (d str : Text) (res : List Text) :
    splitLoop d str res = res ++ tokens (isSeparator d) str := by
  induction str, res using splitLoop.induct d with
  | case1 str res cut =>
      rw [splitLoop, cut, tokens_of_strtok_none cut, List.append_nil]
  | case2 str res token later cut inductionHypothesis =>
      rw [splitLoop, cut, tokens_of_strtok_some cut]
      exact inductionHypothesis.trans (by rw [List.append_assoc, List.singleton_append])

theorem split_eq_splitByStrtok (str delim : Text) : split str delim = splitByStrtok str delim := by
  unfold split splitByStrtok
  split
  next => rfl
  next =>
    rw [splitLoop_eq_tokens, List.nil_append]
    rfl

theorem split_eq_tokens_isSeparator {text : Text} (delim : Text) (noNul : '\x00' ∉ text) :
    split text delim = tokens (isSeparator delim) text := by
  unfold split
  rw [cString_of_noNul noNul]
  split
  next empty => rw [empty, tokens_nil]
  next => rfl

end

/-- The loop of `split` returns the maximal runs of other characters, in order: the fields
that separators join, and nothing exactly where there is nothing else. -/
theorem split_exact (text delim : Text) (noNul : '\x00' ∉ text) :
    (∃ places, AreMaximalRuns (isSeparator delim) text places ∧
      splitByStrtok text delim = places.map Place.run) ∧
    (∀ lead fields body, text = lead ++ body → (∀ symbol ∈ lead, isSeparator delim symbol = true) →
      Joined (isSeparator delim) fields body → splitByStrtok text delim = fields) ∧
    (splitByStrtok text delim = [] ↔ ∀ symbol ∈ text, isSeparator delim symbol = true) ∧
    split text delim = splitByStrtok text delim := by
  have same := split_eq_splitByStrtok text delim
  rw [split_eq_tokens_isSeparator delim noNul] at same
  rw [← same]
  refine ⟨exists_areMaximalRuns _ _, ?_, tokens_eq_nil_iff,
    split_eq_tokens_isSeparator delim noNul⟩
  intro lead fields body whole separators joined
  rw [whole, tokens_append_separators separators, joined.tokens_eq]

theorem split_exact_doubled :
    splitByStrtok ['|', '8', '|', '|', '3', '|'] ['|'] = [['8'], ['3']] := by
  have separates : isSeparator ['|'] '|' = true := by decide
  have plain : isSeparator ['|'] '8' = false ∧ isSeparator ['|'] '3' = false := by decide
  apply (split_exact ['|', '8', '|', '|', '3', '|'] ['|'] (by decide)).2.1 ['|'] _
    (['8'] ++ ['|', '|'] ++ (['3'] ++ ['|'] ++ [])) rfl
  · simp [separates]
  · apply Joined.cons (by simp) (by simp [plain]) (by simp [separates]) (by simp)
    exact Joined.cons (by simp) (by simp [plain]) (by simp [separates]) (by simp) .nil

end InertiaTrader
