import Mathlib

/-!
# Tokenising by separators

`tokens` collects the maximal nonempty runs of non-separators, the way a
sequence of `strtok` calls does: separators are skipped, never counted, so
neighbouring, leading and trailing separators leave no trace.
-/

namespace Foundation

universe u

variable {Alpha : Type u}

/-- The token that ends where a separator or the end of the text is met; the
symbols read so far are held in reverse. -/
def closeToken : List Alpha → List (List Alpha)
  | [] => []
  | head :: tail => [(head :: tail).reverse]

def tokensFrom (separator : Alpha → Bool) : List Alpha → List Alpha → List (List Alpha)
  | current, [] => closeToken current
  | current, symbol :: rest =>
      if separator symbol then
        closeToken current ++ tokensFrom separator [] rest
      else
        tokensFrom separator (symbol :: current) rest

def tokens (separator : Alpha → Bool) (text : List Alpha) : List (List Alpha) :=
  tokensFrom separator [] text

section

variable {separator : Alpha → Bool}

@[simp]
theorem tokens_nil : tokens separator [] = [] := rfl

theorem closeToken_reverse {text : List Alpha} (nonempty : text ≠ []) :
    closeToken text.reverse = [text] := by
  cases reversed : text.reverse with
  | nil => simp [nonempty] at reversed
  | cons head tail => rw [closeToken, ← reversed, List.reverse_reverse]

theorem tokensFrom_plain (current : List Alpha) {text : List Alpha}
    (plain : ∀ symbol ∈ text, separator symbol = false) :
    tokensFrom separator current text = closeToken (text.reverse ++ current) := by
  induction text generalizing current with
  | nil => simp [tokensFrom]
  | cons symbol text inductionHypothesis =>
      have symbolPlain := plain symbol (by simp)
      have textPlain := fun other membership =>
        plain other (List.mem_cons_of_mem symbol membership)
      simp [tokensFrom, symbolPlain, inductionHypothesis (symbol :: current) textPlain]

/-- A separator ends whatever token is being read: the texts on its two sides
are tokenised independently. -/
theorem tokens_append_separator (first rest : List Alpha) (symbol : Alpha)
    (separates : separator symbol = true) :
    tokens separator (first ++ symbol :: rest) =
      tokens separator first ++ tokens separator rest := by
  suffices scanned : ∀ current, tokensFrom separator current (first ++ symbol :: rest) =
      tokensFrom separator current first ++ tokens separator rest from scanned []
  induction first with
  | nil => simp [tokensFrom, tokens, separates]
  | cons head tail inductionHypothesis =>
      intro current
      cases headSeparates : separator head <;>
        simp [tokensFrom, headSeparates, inductionHypothesis]

theorem tokens_plain {text : List Alpha} (nonempty : text ≠ [])
    (plain : ∀ symbol ∈ text, separator symbol = false) :
    tokens separator text = [text] := by
  rw [tokens, tokensFrom_plain [] plain, List.append_nil, closeToken_reverse nonempty]

theorem tokens_append_plain {first : List Alpha} (nonempty : first ≠ [])
    (plain : ∀ symbol ∈ first, separator symbol = false) (rest : List Alpha) :
    tokens separator (first ++ rest) =
      (first ++ rest.takeWhile fun symbol => !separator symbol) ::
        tokens separator (rest.dropWhile fun symbol => !separator symbol) := by
  have parts := List.takeWhile_append_dropWhile (p := fun symbol => !separator symbol) (l := rest)
  have wholePlain : ∀ symbol ∈ first ++ rest.takeWhile (fun symbol => !separator symbol),
      separator symbol = false := by
    intro symbol membership
    rcases List.mem_append.mp membership with inside | later
    · exact plain symbol inside
    · simpa using List.mem_takeWhile_imp later
  have token := tokens_plain (by simp [nonempty]) wholePlain
  cases remaining : rest.dropWhile (fun symbol => !separator symbol) with
  | nil =>
      rw [remaining, List.append_nil] at parts
      rw [tokens_nil]
      rwa [parts] at token ⊢
  | cons symbol later =>
      have separates : separator symbol = true := by
        have stopped := List.head?_dropWhile_not (fun symbol => !separator symbol) rest
        simpa [remaining] using stopped
      have skipped := tokens_append_separator [] later symbol separates
      rw [List.nil_append, tokens_nil, List.nil_append] at skipped
      rw [remaining] at parts
      rw [skipped, ← parts, ← List.append_assoc, tokens_append_separator _ _ _ separates, parts,
        token, List.singleton_append]

theorem tokens_append_of_closed {first : List Alpha}
    (closed : ∀ symbol, first.getLast? = some symbol → separator symbol = true)
    (rest : List Alpha) :
    tokens separator (first ++ rest) = tokens separator first ++ tokens separator rest := by
  rcases List.eq_nil_or_concat first with rfl | ⟨initial, last, rfl⟩
  · rfl
  · have separates : separator last = true := closed last (by simp)
    rw [List.concat_eq_append, List.append_assoc, List.singleton_append,
      tokens_append_separator _ _ _ separates, tokens_append_separator _ _ _ separates, tokens_nil,
      List.append_nil]

theorem tokens_separators {text : List Alpha}
    (separators : ∀ symbol ∈ text, separator symbol = true) : tokens separator text = [] := by
  induction text with
  | nil => rfl
  | cons symbol text inductionHypothesis =>
      have first := tokens_append_separator [] text symbol (separators symbol List.mem_cons_self)
      rw [List.nil_append] at first
      rw [first, tokens_nil, List.nil_append]
      exact inductionHypothesis fun other membership =>
        separators other (List.mem_cons_of_mem symbol membership)

theorem exists_last_separator {text : List Alpha}
    (present : ∃ symbol ∈ text, separator symbol = true) :
    ∃ front symbol tail, text = front ++ symbol :: tail ∧ separator symbol = true ∧
      ∀ other ∈ tail, separator other = false := by
  induction text with
  | nil => simp at present
  | cons head text inductionHypothesis =>
      by_cases later : ∃ symbol ∈ text, separator symbol = true
      · obtain ⟨front, symbol, tail, rfl, separates, plain⟩ := inductionHypothesis later
        exact ⟨head :: front, symbol, tail, rfl, separates, plain⟩
      · refine ⟨[], head, text, rfl, ?_, ?_⟩
        · obtain ⟨symbol, membership, separates⟩ := present
          rcases List.mem_cons.mp membership with rfl | inText
          · exact separates
          · exact absurd ⟨symbol, inText, separates⟩ later
        · intro other membership
          by_contra separates
          exact later ⟨other, membership, by simpa using separates⟩

theorem exists_token_of_mem {text : List Alpha} {symbol : Alpha} (membership : symbol ∈ text)
    (plain : separator symbol = false) : ∃ token ∈ tokens separator text, symbol ∈ token := by
  suffices scanned : ∀ current, symbol ∈ current ∨ symbol ∈ text →
      ∃ token ∈ tokensFrom separator current text, symbol ∈ token from
    scanned [] (.inr membership)
  have closed : ∀ current : List Alpha, symbol ∈ current →
      ∃ token ∈ closeToken current, symbol ∈ token := by
    intro current inside
    cases current with
    | nil => cases inside
    | cons head tail => exact ⟨_, List.mem_singleton_self _, List.mem_reverse.mpr inside⟩
  clear membership
  induction text with
  | nil => exact fun current inside => closed current (inside.resolve_right List.not_mem_nil)
  | cons head tail inductionHypothesis =>
      intro current inside
      rw [tokensFrom]
      split
      next separates =>
        rcases inside with inCurrent | inText
        · obtain ⟨token, listed, found⟩ := closed current inCurrent
          exact ⟨token, List.mem_append_left _ listed, found⟩
        · rcases List.mem_cons.mp inText with rfl | later
          · rw [plain] at separates
            cases separates
          · obtain ⟨token, listed, found⟩ := inductionHypothesis [] (.inr later)
            exact ⟨token, List.mem_append_right _ listed, found⟩
      next =>
        apply inductionHypothesis
        rcases inside with inCurrent | inText
        · exact .inl (List.mem_cons_of_mem head inCurrent)
        · rcases List.mem_cons.mp inText with rfl | later
          · exact .inl List.mem_cons_self
          · exact .inr later

theorem tokens_congr {other : Alpha → Bool} {text : List Alpha}
    (same : ∀ symbol ∈ text, separator symbol = other symbol) :
    tokens separator text = tokens other text := by
  suffices scanned : ∀ current, tokensFrom separator current text = tokensFrom other current text
    from scanned []
  induction text with
  | nil => exact fun _ => rfl
  | cons head tail inductionHypothesis =>
      intro current
      have later := inductionHypothesis fun symbol membership =>
        same symbol (List.mem_cons_of_mem head membership)
      simp only [tokensFrom, same head List.mem_cons_self, later]

theorem append_closed_inj {run run' after after' : List Alpha}
    (plain : ∀ symbol ∈ run, separator symbol = false)
    (plain' : ∀ symbol ∈ run', separator symbol = false)
    (closes : ∀ symbol, after.head? = some symbol → separator symbol = true)
    (closes' : ∀ symbol, after'.head? = some symbol → separator symbol = true)
    (same : run ++ after = run' ++ after') : run = run' ∧ after = after' := by
  induction run generalizing run' with
  | nil =>
      cases run' with
      | nil => exact ⟨rfl, same⟩
      | cons head tail =>
          have separates := closes head (by rw [← List.nil_append after, same]; rfl)
          rw [plain' head List.mem_cons_self] at separates
          cases separates
  | cons head tail inductionHypothesis =>
      cases run' with
      | nil =>
          have separates := closes' head (by rw [← List.nil_append after', ← same]; rfl)
          rw [plain head List.mem_cons_self] at separates
          cases separates
      | cons head' tail' =>
          obtain ⟨rfl, sameTail⟩ := List.cons.inj same
          obtain ⟨rfl, sameAfter⟩ := inductionHypothesis
            (fun symbol membership => plain symbol (List.mem_cons_of_mem _ membership))
            (fun symbol membership => plain' symbol (List.mem_cons_of_mem _ membership)) sameTail
          exact ⟨rfl, sameAfter⟩

theorem tokens_map {Beta : Type u} (image : Beta → Alpha) (text : List Beta) :
    tokens separator (text.map image) =
      (tokens (fun symbol => separator (image symbol)) text).map (List.map image) := by
  suffices scanned : ∀ current, tokensFrom separator (current.map image) (text.map image) =
      (tokensFrom (fun symbol => separator (image symbol)) current text).map (List.map image) from
    scanned []
  have closed : ∀ current : List Beta,
      closeToken (current.map image) = (closeToken current).map (List.map image) := by
    intro current
    cases current with
    | nil => rfl
    | cons head tail => simp [closeToken]
  induction text with
  | nil => exact closed
  | cons head tail inductionHypothesis =>
      intro current
      have fresh := inductionHypothesis []
      have longer := inductionHypothesis (head :: current)
      rw [List.map_nil] at fresh
      rw [List.map_cons] at longer
      simp only [List.map_cons, tokensFrom, closed, fresh, longer]
      split <;> simp

theorem mem_of_mem_tokens {text token : List Alpha} {symbol : Alpha}
    (listed : token ∈ tokens separator text) (membership : symbol ∈ token) : symbol ∈ text := by
  suffices scanned : ∀ current, token ∈ tokensFrom separator current text →
      symbol ∈ current ∨ symbol ∈ text by
    simpa using scanned [] listed
  have closed : ∀ current : List Alpha, token ∈ closeToken current → symbol ∈ current := by
    intro current inside
    cases current with
    | nil => simp [closeToken] at inside
    | cons head tail =>
        rw [closeToken, List.mem_singleton] at inside
        rwa [inside, List.mem_reverse] at membership
  clear listed
  induction text with
  | nil => exact fun current inside => .inl (closed current inside)
  | cons head tail inductionHypothesis =>
      intro current inside
      rw [tokensFrom] at inside
      split at inside
      next =>
        rcases List.mem_append.mp inside with here | later
        · exact .inl (closed current here)
        · rcases inductionHypothesis [] later with absent | found
          · simp at absent
          · exact .inr (List.mem_cons_of_mem head found)
      next =>
        rcases inductionHypothesis _ inside with current | found
        · rcases List.mem_cons.mp current with rfl | earlier
          · exact .inr (by simp)
          · exact .inl earlier
        · exact .inr (List.mem_cons_of_mem head found)

end

def terminated (terminator : Alpha) (pieces : List (List Alpha)) : List Alpha :=
  (pieces.map (· ++ [terminator])).flatten

section

variable {terminator : Alpha}

@[simp]
theorem terminated_nil : terminated terminator [] = [] := rfl

@[simp]
theorem terminated_cons (piece : List Alpha) (pieces : List (List Alpha)) :
    terminated terminator (piece :: pieces) = piece ++ terminator :: terminated terminator pieces := by
  simp [terminated]

@[simp]
theorem terminated_append (first second : List (List Alpha)) :
    terminated terminator (first ++ second) =
      terminated terminator first ++ terminated terminator second := by
  simp [terminated]

theorem exists_terminated_eq_concat {pieces : List (List Alpha)} (nonempty : pieces ≠ []) :
    ∃ front, terminated terminator pieces = front ++ [terminator] := by
  obtain ⟨initial, last, rfl⟩ := List.eq_nil_or_concat pieces |>.resolve_left nonempty
  exact ⟨terminated terminator initial ++ last, by simp⟩

theorem tokens_terminated {separator : Alpha → Bool} (separates : separator terminator = true)
    {pieces : List (List Alpha)} (nonempty : ∀ piece ∈ pieces, piece ≠ [])
    (plain : ∀ piece ∈ pieces, ∀ symbol ∈ piece, separator symbol = false) :
    tokens separator (terminated terminator pieces) = pieces := by
  induction pieces with
  | nil => rfl
  | cons piece pieces inductionHypothesis =>
      have pieceTokens := tokens_plain (nonempty piece (by simp)) (plain piece (by simp))
      have restTokens := inductionHypothesis
        (fun other membership => nonempty other (List.mem_cons_of_mem _ membership))
        (fun other membership => plain other (List.mem_cons_of_mem _ membership))
      rw [terminated_cons, tokens_append_separator _ _ _ separates, pieceTokens, restTokens,
        List.singleton_append]

/-- A prefix of terminated pieces consists of the first of them, whole, and a
part of the next one. -/
theorem exists_terminated_of_prefix {pieces : List (List Alpha)} {text : List Alpha}
    (plain : ∀ piece ∈ pieces, terminator ∉ piece)
    (isPrefix : text <+: terminated terminator pieces) :
    ∃ done rest tail, pieces = done ++ rest ∧ text = terminated terminator done ++ tail ∧
      terminator ∉ tail := by
  induction pieces generalizing text with
  | nil =>
      rw [terminated_nil, List.prefix_nil] at isPrefix
      exact ⟨[], [], [], rfl, isPrefix, by simp⟩
  | cons piece pieces inductionHypothesis =>
      rw [terminated_cons] at isPrefix
      rcases Nat.lt_or_ge piece.length text.length with longer | shorter
      · have whole : piece ++ [terminator] <+: text :=
          List.prefix_of_prefix_length_le
            ⟨terminated terminator pieces, by simp⟩ isPrefix (by simpa using longer)
        obtain ⟨more, rfl⟩ := whole
        rw [List.append_assoc, List.prefix_append_right_inj, List.singleton_append,
          List.prefix_cons_inj] at isPrefix
        obtain ⟨done, rest, tail, rfl, rfl, absent⟩ := inductionHypothesis
          (fun other membership => plain other (List.mem_cons_of_mem _ membership)) isPrefix
        exact ⟨piece :: done, rest, tail, rfl, by simp, absent⟩
      · have inside : text <+: piece :=
          List.prefix_of_prefix_length_le isPrefix (List.prefix_append _ _) shorter
        exact ⟨[], piece :: pieces, text, rfl, rfl,
          fun membership => plain piece (by simp) (inside.subset membership)⟩

theorem append_separator_inj {separator : Alpha} {first first' rest rest' : List Alpha}
    (plain : separator ∉ first) (plain' : separator ∉ first')
    (same : first ++ separator :: rest = first' ++ separator :: rest') :
    first = first' ∧ rest = rest' := by
  classical
  have isPlain {text : List Alpha} (absent : separator ∉ text) :
      ∀ symbol ∈ text, decide (symbol = separator) = false := by
    intro symbol membership
    apply decide_eq_false
    rintro rfl
    exact absent membership
  have closes (text : List Alpha) : ∀ symbol, (separator :: text).head? = some symbol →
      decide (symbol = separator) = true := by
    intro symbol isHead
    exact decide_eq_true (Option.some.inj isHead).symm
  obtain ⟨sameFirst, sameRest⟩ :=
    append_closed_inj (isPlain plain) (isPlain plain') (closes rest) (closes rest') same
  exact ⟨sameFirst, (List.cons.inj sameRest).2⟩

theorem count_terminated_append [DecidableEq Alpha] {pieces : List (List Alpha)}
    {tail : List Alpha} (plain : ∀ piece ∈ pieces, terminator ∉ piece)
    (absent : terminator ∉ tail) :
    (terminated terminator pieces ++ tail).count terminator = pieces.length := by
  induction pieces with
  | nil => simpa using List.count_eq_zero.mpr absent
  | cons piece pieces inductionHypothesis =>
      have pieceCount := List.count_eq_zero.mpr (plain piece (by simp))
      have restCount := inductionHypothesis
        fun other membership => plain other (List.mem_cons_of_mem _ membership)
      rw [terminated_cons, List.append_assoc, List.count_append, pieceCount, List.cons_append,
        List.count_cons_self, restCount, List.length_cons, Nat.zero_add]

end

end Foundation
