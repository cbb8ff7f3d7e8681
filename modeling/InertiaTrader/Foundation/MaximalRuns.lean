import InertiaTrader.Foundation.Tokens

/-!
# Maximal runs

Tokens are where a text has runs of symbols that are no separators and cannot be
extended to either side.
-/

namespace Foundation

universe u

variable {Alpha : Type u}

/-- A part of a text, with what stands before and behind it. -/
structure Place (Alpha : Type u) where
  before : List Alpha
  run : List Alpha
  after : List Alpha

namespace Place

/-- The part is a run of symbols that are no separators, and its neighbours are
separators or the ends of the text. -/
structure IsMaximalRun (separator : Alpha → Bool) (text : List Alpha) (place : Place Alpha) :
    Prop where
  whole : text = place.before ++ place.run ++ place.after
  nonempty : place.run ≠ []
  plain : ∀ symbol ∈ place.run, separator symbol = false
  opens : ∀ symbol, place.before.getLast? = some symbol → separator symbol = true
  closes : ∀ symbol, place.after.head? = some symbol → separator symbol = true

def Precedes (first second : Place Alpha) : Prop :=
  first.before.length + first.run.length ≤ second.before.length

def prepend (front : List Alpha) (place : Place Alpha) : Place Alpha :=
  { place with before := front ++ place.before }

end Place

/-- These are exactly the maximal runs of a text, from left to right. -/
structure AreMaximalRuns (separator : Alpha → Bool) (text : List Alpha)
    (places : List (Place Alpha)) : Prop where
  ordered : places.Pairwise Place.Precedes
  exactly : ∀ place, place ∈ places ↔ place.IsMaximalRun separator text

section

variable {separator : Alpha → Bool} {text : List Alpha}

theorem Place.IsMaximalRun.head_plain {place : Place Alpha}
    (maximal : place.IsMaximalRun separator text) (atStart : place.before = []) :
    ∃ symbol rest, text = symbol :: rest ∧ separator symbol = false := by
  cases run : place.run with
  | nil => exact absurd run maximal.nonempty
  | cons symbol run' =>
      refine ⟨symbol, run' ++ place.after, ?_, ?_⟩
      · rw [maximal.whole, atStart, run, List.nil_append, List.cons_append]
      · apply maximal.plain
        rw [run]
        exact List.mem_cons_self

theorem isMaximalRun_cons_iff {symbol : Alpha} (separates : separator symbol = true)
    (place : Place Alpha) :
    place.IsMaximalRun separator (symbol :: text) ↔
      ∃ later : Place Alpha, later.IsMaximalRun separator text ∧
        place = later.prepend [symbol] := by
  constructor
  · intro maximal
    obtain ⟨before, run, after⟩ := place
    cases before with
    | nil =>
        obtain ⟨head, rest, starts, plain⟩ := maximal.head_plain rfl
        rw [← (List.cons.inj starts).1, separates] at plain
        cases plain
    | cons head before =>
        obtain ⟨rfl, whole⟩ := List.cons.inj maximal.whole
        refine ⟨⟨before, run, after⟩, ⟨whole, maximal.nonempty, maximal.plain, ?_, maximal.closes⟩,
          rfl⟩
        intro last isLast
        apply maximal.opens
        rw [List.getLast?_cons, isLast, Option.getD_some]
  · rintro ⟨⟨before, run, after⟩, maximal, rfl⟩
    refine ⟨?_, maximal.nonempty, maximal.plain, ?_, maximal.closes⟩
    · rw [maximal.whole]
      rfl
    · intro last isLast
      cases before with
      | nil =>
          obtain rfl : symbol = last := Option.some.inj isLast
          exact separates
      | cons head before =>
          apply maximal.opens
          rwa [Place.prepend, List.singleton_append, List.getLast?_cons_cons] at isLast

theorem Place.IsMaximalRun.prepend {place : Place Alpha} {rest : List Alpha}
    (maximal : place.IsMaximalRun separator rest)
    (closes : ∀ symbol, rest.head? = some symbol → separator symbol = true) (front : List Alpha) :
    (place.prepend front).IsMaximalRun separator (front ++ rest) := by
  obtain ⟨before, run, after⟩ := place
  refine ⟨?_, maximal.nonempty, maximal.plain, ?_, maximal.closes⟩
  · rw [maximal.whole]
    simp only [Place.prepend, List.append_assoc]
  · intro last isLast
    cases before using List.reverseRecOn with
    | nil =>
        -- a run cannot open the rest, which a separator opens
        obtain ⟨symbol, rest', starts, symbolPlain⟩ := maximal.head_plain rfl
        rw [closes symbol (by rw [starts]; rfl)] at symbolPlain
        cases symbolPlain
    | append_singleton before symbol =>
        apply maximal.opens
        rw [Place.prepend, List.getLast?_append, List.getLast?_concat] at isLast
        rwa [List.getLast?_concat]

theorem isMaximalRun_append_iff {first rest : List Alpha} (nonempty : first ≠ [])
    (plain : ∀ symbol ∈ first, separator symbol = false)
    (closes : ∀ symbol, rest.head? = some symbol → separator symbol = true)
    (place : Place Alpha) :
    place.IsMaximalRun separator (first ++ rest) ↔
      place = ⟨[], first, rest⟩ ∨
        ∃ later : Place Alpha, later.IsMaximalRun separator rest ∧ place = later.prepend first := by
  constructor
  · intro maximal
    obtain ⟨before, run, after⟩ := place
    have whole : first ++ rest = before ++ (run ++ after) := by
      rw [maximal.whole, List.append_assoc]
    rcases List.append_eq_append_iff.mp whole with ⟨more, rfl, rfl⟩ | ⟨more, rfl, runStarts⟩
    · refine .inr ⟨⟨more, run, after⟩, ⟨?_, maximal.nonempty, maximal.plain, ?_, maximal.closes⟩,
        rfl⟩
      · exact (List.append_assoc more run after).symm
      · intro last isLast
        apply maximal.opens
        rw [List.getLast?_append, isLast, Option.some_or]
    · cases before using List.reverseRecOn with
      | nil =>
          rw [List.nil_append] at plain ⊢
          obtain ⟨rfl, rfl⟩ :=
            append_closed_inj maximal.plain plain maximal.closes closes runStarts
          exact .inl rfl
      | append_singleton before last =>
          -- a symbol of the first run cannot stand where a separator has to
          have separates := maximal.opens last List.getLast?_concat
          rw [plain last (by simp)] at separates
          cases separates
  · intro placed
    rcases placed with rfl | ⟨later, maximal, rfl⟩
    · refine ⟨rfl, nonempty, plain, ?_, closes⟩
      intro last isLast
      cases isLast
    · exact maximal.prepend closes first

theorem Place.Precedes.prepend {first second : Place Alpha} (precedes : first.Precedes second)
    (front : List Alpha) : (first.prepend front).Precedes (second.prepend front) := by
  unfold Place.Precedes Place.prepend at *
  rw [List.length_append, List.length_append, Nat.add_assoc]
  exact Nat.add_le_add_left precedes front.length

theorem pairwise_prepend {places : List (Place Alpha)} (ordered : places.Pairwise Place.Precedes)
    (front : List Alpha) : (places.map (Place.prepend front)).Pairwise Place.Precedes :=
  ordered.map _ fun _ _ precedes => precedes.prepend front

theorem map_run_prepend (places : List (Place Alpha)) (front : List Alpha) :
    (places.map (Place.prepend front)).map Place.run = places.map Place.run := by
  rw [List.map_map]
  rfl

namespace AreMaximalRuns

theorem nil : AreMaximalRuns separator [] [] where
  ordered := List.Pairwise.nil
  exactly := by
    intro place
    refine ⟨fun listed => absurd listed List.not_mem_nil, fun maximal => ?_⟩
    have empty := maximal.whole
    rw [eq_comm, List.append_eq_nil_iff, List.append_eq_nil_iff] at empty
    exact absurd empty.1.2 maximal.nonempty

theorem cons {places : List (Place Alpha)} (runs : AreMaximalRuns separator text places)
    {symbol : Alpha} (separates : separator symbol = true) :
    AreMaximalRuns separator (symbol :: text) (places.map (Place.prepend [symbol])) where
  ordered := pairwise_prepend runs.ordered [symbol]
  exactly := by
    intro place
    rw [isMaximalRun_cons_iff separates, List.mem_map]
    constructor
    · rintro ⟨later, listed, rfl⟩
      exact ⟨later, (runs.exactly later).mp listed, rfl⟩
    · rintro ⟨later, maximal, rfl⟩
      exact ⟨later, (runs.exactly later).mpr maximal, rfl⟩

theorem append {places : List (Place Alpha)} (runs : AreMaximalRuns separator text places)
    {first : List Alpha} (nonempty : first ≠ [])
    (plain : ∀ symbol ∈ first, separator symbol = false)
    (closes : ∀ symbol, text.head? = some symbol → separator symbol = true) :
    AreMaximalRuns separator (first ++ text)
      (⟨[], first, text⟩ :: places.map (Place.prepend first)) where
  ordered := by
    refine List.pairwise_cons.mpr ⟨?_, pairwise_prepend runs.ordered first⟩
    intro place listed
    obtain ⟨later, _, rfl⟩ := List.mem_map.mp listed
    rw [Place.Precedes, Place.prepend, List.length_nil, Nat.zero_add, List.length_append]
    exact Nat.le_add_right _ _
  exactly := by
    intro place
    rw [isMaximalRun_append_iff nonempty plain closes, List.mem_cons, List.mem_map]
    apply or_congr_right
    constructor
    · rintro ⟨later, listed, rfl⟩
      exact ⟨later, (runs.exactly later).mp listed, rfl⟩
    · rintro ⟨later, maximal, rfl⟩
      exact ⟨later, (runs.exactly later).mpr maximal, rfl⟩

end AreMaximalRuns

theorem exists_first_run {symbol : Alpha} (isPlain : separator symbol = false)
    (text : List Alpha) :
    ∃ first rest, symbol :: text = first ++ rest ∧ first ≠ [] ∧
      (∀ other ∈ first, separator other = false) ∧
      ∀ other, rest.head? = some other → separator other = true := by
  refine ⟨symbol :: text.takeWhile fun other => !separator other,
    text.dropWhile fun other => !separator other, ?_, List.cons_ne_nil _ _, ?_, ?_⟩
  · rw [List.cons_append, List.takeWhile_append_dropWhile]
  · intro other membership
    rcases List.mem_cons.mp membership with rfl | inside
    · exact isPlain
    · simpa using List.mem_takeWhile_imp inside
  · intro other isHead
    have stopped := List.head?_dropWhile_not (fun other => !separator other) text
    rw [isHead] at stopped
    simpa using stopped

theorem tokens_append_run {first rest : List Alpha} (nonempty : first ≠ [])
    (plain : ∀ symbol ∈ first, separator symbol = false)
    (closes : ∀ symbol, rest.head? = some symbol → separator symbol = true) :
    tokens separator (first ++ rest) = first :: tokens separator rest := by
  rw [tokens_append_plain nonempty plain]
  cases rest with
  | nil => rw [List.takeWhile_nil, List.dropWhile_nil, List.append_nil]
  | cons symbol rest =>
      have separates := closes symbol rfl
      simp [separates]

theorem exists_areMaximalRuns (separator : Alpha → Bool) (text : List Alpha) :
    ∃ places, AreMaximalRuns separator text places ∧
      tokens separator text = places.map Place.run := by
  -- the runs behind the first separator, or behind the first run, are found first
  induction size : text.length using Nat.strong_induction_on generalizing text with
  | h length inductionHypothesis =>
      cases text with
      | nil => exact ⟨[], .nil, rfl⟩
      | cons symbol text =>
          cases separates : separator symbol with
          | true =>
              rw [List.length_cons] at size
              obtain ⟨places, runs, same⟩ := inductionHypothesis text.length (by omega) text rfl
              refine ⟨places.map (Place.prepend [symbol]), runs.cons separates, ?_⟩
              have skipped := tokens_append_separator [] text symbol separates
              rw [List.nil_append, tokens_nil, List.nil_append] at skipped
              rw [skipped, map_run_prepend, same]
          | false =>
              obtain ⟨first, rest, whole, nonempty, plain, closes⟩ :=
                exists_first_run separates text
              rw [whole, List.length_append] at size
              have positive := List.length_pos_of_ne_nil nonempty
              obtain ⟨places, runs, same⟩ := inductionHypothesis rest.length (by omega) rest rfl
              rw [whole]
              refine ⟨_, runs.append nonempty plain closes, ?_⟩
              rw [tokens_append_run nonempty plain closes, List.map_cons, map_run_prepend, same]

theorem tokens_eq_nil_iff :
    tokens separator text = [] ↔ ∀ symbol ∈ text, separator symbol = true := by
  refine ⟨fun empty symbol membership => ?_, tokens_separators⟩
  by_contra isPlain
  obtain ⟨token, listed, _⟩ := exists_token_of_mem membership (by simpa using isPlain)
  rw [empty] at listed
  cases listed

end

/-- Fields one after the other, each with the separators behind it, of which there is one
at least where another field follows. -/
inductive Joined (separator : Alpha → Bool) : List (List Alpha) → List Alpha → Prop
  | nil : Joined separator [] []
  | cons {field gap fields text} :
      field ≠ [] → (∀ symbol ∈ field, separator symbol = false) →
      (∀ symbol ∈ gap, separator symbol = true) → (fields ≠ [] → gap ≠ []) →
      Joined separator fields text → Joined separator (field :: fields) (field ++ gap ++ text)

section

variable {separator : Alpha → Bool}

theorem tokens_append_separators {gap : List Alpha}
    (separators : ∀ symbol ∈ gap, separator symbol = true) (rest : List Alpha) :
    tokens separator (gap ++ rest) = tokens separator rest := by
  rw [tokens_append_of_closed _ rest, tokens_separators separators, List.nil_append]
  intro symbol isLast
  exact separators symbol (List.mem_of_getLast? isLast)

theorem Joined.tokens_eq {fields : List (List Alpha)} {text : List Alpha}
    (joined : Joined separator fields text) : tokens separator text = fields := by
  induction joined with
  | nil => rfl
  | @cons field gap fields text nonempty plain separators parted joined inductionHypothesis =>
      have fieldTokens := tokens_plain nonempty plain
      cases gap with
      | nil =>
          cases joined with
          | nil => rwa [List.append_nil, List.append_nil]
          | cons => exact absurd rfl (parted (List.cons_ne_nil _ _))
      | cons symbol gap =>
          have gapTokens := tokens_append_separators
            (fun other membership => separators other (List.mem_cons_of_mem _ membership)) text
          rw [List.append_assoc, List.cons_append,
            tokens_append_separator _ _ _ (separators symbol List.mem_cons_self), fieldTokens,
            gapTokens, inductionHypothesis, List.singleton_append]

end

end Foundation
