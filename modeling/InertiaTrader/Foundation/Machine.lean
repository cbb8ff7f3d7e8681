import Mathlib

/-!
# Deterministic machines with outputs

A machine consumes one event at a time.  A step either yields the next state
together with the outputs it makes visible, or `none` when the event is not
possible in that state.  Every choice the environment makes is carried by the
event, so one list of events is one run.
-/

namespace Foundation

universe u v w

structure Machine (State : Type u) (Event : Type v) (Output : Type w) where
  step : State → Event → Option (State × List Output)

namespace Machine

variable {State : Type u} {Event : Type v} {Output : Type w}

/-- Consume a list of events and collect the outputs in order. -/
def run (machine : Machine State Event Output) :
    State → List Event → Option (State × List Output)
  | state, [] => some (state, [])
  | state, event :: rest =>
      match machine.step state event with
      | none => none
      | some (next, outputs) =>
          match machine.run next rest with
          | none => none
          | some (last, later) => some (last, outputs ++ later)

@[simp]
theorem run_nil (machine : Machine State Event Output) (state : State) :
    machine.run state [] = some (state, []) := rfl

theorem run_cons_iff
    (machine : Machine State Event Output) (state last : State)
    (event : Event) (rest : List Event) (outputs : List Output) :
    machine.run state (event :: rest) = some (last, outputs) ↔
      ∃ next first later,
        machine.step state event = some (next, first) ∧
        machine.run next rest = some (last, later) ∧
        outputs = first ++ later := by
  constructor
  · intro finished
    simp only [run] at finished
    split at finished
    next => simp at finished
    next next first stepped =>
      split at finished
      next => simp at finished
      next later _ ran =>
        simp only [Option.some.injEq, Prod.mk.injEq] at finished
        obtain ⟨rfl, rfl⟩ := finished
        exact ⟨next, first, _, stepped, ran, rfl⟩
  · rintro ⟨next, first, later, stepped, ran, rfl⟩
    simp [run, stepped, ran]

@[simp]
theorem run_singleton (machine : Machine State Event Output) (state : State) (event : Event) :
    machine.run state [event] = machine.step state event := by
  rcases stepped : machine.step state event with - | ⟨next, outputs⟩ <;> simp [run, stepped]

theorem run_append_iff
    (machine : Machine State Event Output) (state last : State)
    (earlier rest : List Event) (outputs : List Output) :
    machine.run state (earlier ++ rest) = some (last, outputs) ↔
      ∃ middle first later,
        machine.run state earlier = some (middle, first) ∧
        machine.run middle rest = some (last, later) ∧
        outputs = first ++ later := by
  induction earlier generalizing state outputs with
  | nil => simp
  | cons event events inductionHypothesis =>
      simp only [List.cons_append, run_cons_iff, inductionHypothesis]
      constructor
      · rintro ⟨next, first, _, stepped, ⟨middle, second, later, ran, finished, rfl⟩, rfl⟩
        exact ⟨middle, first ++ second, later,
          ⟨next, first, second, stepped, ran, rfl⟩, finished, by simp⟩
      · rintro ⟨middle, _, later, ⟨next, first, second, stepped, ran, rfl⟩, finished, rfl⟩
        exact ⟨next, first, second ++ later, stepped,
          ⟨middle, second, later, ran, finished, rfl⟩, by simp⟩

theorem exists_run_of_any
    (machine : Machine State Event Output) (state : State) (events : List Event)
    (property : State → List Output → Bool)
    (evaluated : (machine.run state events).any
      (fun result => property result.1 result.2) = true) :
    ∃ last outputs, machine.run state events = some (last, outputs) ∧
      property last outputs = true := by
  obtain ⟨⟨last, outputs⟩, finished, holds⟩ := (Option.any_eq_true ..).mp evaluated
  exact ⟨last, outputs, finished, holds⟩

/-- Every step of a run meets a condition on the state it starts from and the
event it consumes. -/
def Along (machine : Machine State Event Output)
    (condition : State → Event → Prop) : State → List Event → Prop
  | _, [] => True
  | state, event :: rest =>
      condition state event ∧
        ∀ next outputs, machine.step state event = some (next, outputs) →
          machine.Along condition next rest

instance decidableAlong
    (machine : Machine State Event Output) (condition : State → Event → Prop)
    [∀ state event, Decidable (condition state event)] :
    ∀ state events, Decidable (machine.Along condition state events)
  | _, [] => inferInstanceAs (Decidable True)
  | state, event :: rest =>
      match stepped : machine.step state event with
      | none =>
          decidable_of_iff (condition state event) (by simp [Along, stepped])
      | some (next, _) =>
          have := decidableAlong machine condition next rest
          decidable_of_iff (condition state event ∧ machine.Along condition next rest)
            (by simp [Along, stepped])

/-- One condition implies another along a run when it does so wherever the
invariant holds.  Only steps that meet the first have to keep the invariant. -/
theorem along_of_invariant
    (machine : Machine State Event Output) (invariant : State → Prop)
    {first second : State → Event → Prop}
    (preserved : ∀ state event next outputs, invariant state → first state event →
      machine.step state event = some (next, outputs) → invariant next)
    (implies : ∀ state event, invariant state → first state event → second state event)
    {state : State} (initially : invariant state) {events : List Event}
    (along : machine.Along first state events) : machine.Along second state events := by
  induction events generalizing state with
  | nil => trivial
  | cons event rest inductionHypothesis =>
      constructor
      · exact implies state event initially along.1
      · intro next outputs stepped
        have holds := preserved state event next outputs initially along.1 stepped
        exact inductionHypothesis holds (along.2 next outputs stepped)

theorem along_mono
    (machine : Machine State Event Output) {first second : State → Event → Prop}
    (implies : ∀ state event, first state event → second state event)
    {state : State} {events : List Event} (along : machine.Along first state events) :
    machine.Along second state events :=
  machine.along_of_invariant (fun _ => True) (fun _ _ _ _ _ _ _ => trivial)
    (fun state event _ => implies state event) trivial along

theorem along_congr
    (machine : Machine State Event Output) {first second : State → Event → Prop}
    (same : ∀ state event, first state event ↔ second state event)
    (state : State) (events : List Event) :
    machine.Along first state events ↔ machine.Along second state events :=
  ⟨machine.along_mono fun state event => (same state event).mp,
    machine.along_mono fun state event => (same state event).mpr⟩

theorem along_congr_of_invariant
    (machine : Machine State Event Output) (invariant : State → Prop)
    {first second : State → Event → Prop}
    (preserved : ∀ state event next outputs, invariant state → first state event →
      machine.step state event = some (next, outputs) → invariant next)
    (same : ∀ state event, invariant state → (first state event ↔ second state event))
    {state : State} (initially : invariant state) (events : List Event) :
    machine.Along first state events ↔ machine.Along second state events := by
  constructor
  · apply machine.along_of_invariant invariant preserved _ initially
    intro state event holds
    exact (same state event holds).mp
  · apply machine.along_of_invariant invariant _ _ initially
    · intro state event next outputs holds here
      exact preserved state event next outputs holds ((same state event holds).mpr here)
    · intro state event holds
      exact (same state event holds).mpr

theorem along_of_append
    (machine : Machine State Event Output) {condition : State → Event → Prop}
    {state middle : State} {earlier rest : List Event} {outputs : List Output}
    (along : machine.Along condition state (earlier ++ rest))
    (reached : machine.run state earlier = some (middle, outputs)) :
    machine.Along condition middle rest := by
  induction earlier generalizing state outputs with
  | nil =>
      simp only [run_nil, Option.some.injEq, Prod.mk.injEq] at reached
      rw [← reached.1]
      exact along
  | cons event earlier inductionHypothesis =>
      rcases (machine.run_cons_iff ..).mp reached with
        ⟨next, first, later, stepped, ran, -⟩
      exact inductionHypothesis (along.2 next first stepped) ran

/-- An invariant linking the state with the outputs so far.  It has to survive
only the steps that meet the condition the run is known to satisfy. -/
theorem run_invariant_along
    (machine : Machine State Event Output)
    (invariant : State → List Output → Prop) {condition : State → Event → Prop}
    (preserved : ∀ state seen event next outputs,
      invariant state seen → condition state event →
      machine.step state event = some (next, outputs) →
      invariant next (seen ++ outputs))
    {state last : State} {seen outputs : List Output} {events : List Event}
    (initially : invariant state seen)
    (along : machine.Along condition state events)
    (finished : machine.run state events = some (last, outputs)) :
    invariant last (seen ++ outputs) := by
  induction events generalizing state seen outputs with
  | nil =>
      simp only [run_nil, Option.some.injEq, Prod.mk.injEq] at finished
      obtain ⟨rfl, rfl⟩ := finished
      simpa using initially
  | cons event rest inductionHypothesis =>
      rcases (machine.run_cons_iff ..).mp finished with
        ⟨next, first, later, stepped, ran, rfl⟩
      rw [← List.append_assoc]
      exact inductionHypothesis
        (preserved _ _ _ _ _ initially along.1 stepped)
        (along.2 _ _ stepped) ran

theorem invariant_of_run_along
    (machine : Machine State Event Output)
    (invariant : State → List Output → Prop) {condition : State → Event → Prop}
    (preserved : ∀ state seen event next outputs,
      invariant state seen → condition state event →
      machine.step state event = some (next, outputs) →
      invariant next (seen ++ outputs))
    {state last : State} {outputs : List Output} {events : List Event}
    (initially : invariant state [])
    (along : machine.Along condition state events)
    (finished : machine.run state events = some (last, outputs)) :
    invariant last outputs := by
  have holds := machine.run_invariant_along invariant preserved initially along finished
  rwa [List.nil_append] at holds

theorem along_of_forall
    (machine : Machine State Event Output) {condition : State → Event → Prop}
    (always : ∀ state event, condition state event)
    (state : State) (events : List Event) :
    machine.Along condition state events := by
  induction events generalizing state with
  | nil => trivial
  | cons event rest inductionHypothesis =>
      exact ⟨always state event, fun next _ _ => inductionHypothesis next⟩

theorem run_invariant
    (machine : Machine State Event Output)
    (invariant : State → List Output → Prop)
    (preserved : ∀ state seen event next outputs,
      invariant state seen →
      machine.step state event = some (next, outputs) →
      invariant next (seen ++ outputs))
    {state last : State} {seen outputs : List Output} {events : List Event}
    (initially : invariant state seen)
    (finished : machine.run state events = some (last, outputs)) :
    invariant last (seen ++ outputs) := by
  have always : machine.Along (fun _ _ => True) state events :=
    machine.along_of_forall (fun _ _ => trivial) state events
  apply machine.run_invariant_along invariant _ initially always finished
  intro state seen event next outputs holds _ stepped
  exact preserved state seen event next outputs holds stepped

theorem invariant_of_run
    (machine : Machine State Event Output)
    (invariant : State → List Output → Prop)
    (preserved : ∀ state seen event next outputs,
      invariant state seen →
      machine.step state event = some (next, outputs) →
      invariant next (seen ++ outputs))
    {state last : State} {outputs : List Output} {events : List Event}
    (initially : invariant state [])
    (finished : machine.run state events = some (last, outputs)) :
    invariant last outputs := by
  have holds := machine.run_invariant invariant preserved initially finished
  rwa [List.nil_append] at holds

theorem exists_violation
    (machine : Machine State Event Output) {condition : State → Event → Prop}
    {state last : State} {outputs : List Output} {events : List Event}
    (finished : machine.run state events = some (last, outputs))
    (violated : ¬ machine.Along condition state events) :
    ∃ earlier event rest middle first next second later,
      machine.run state earlier = some (middle, first) ∧ ¬ condition middle event ∧
        machine.step middle event = some (next, second) ∧
        machine.run next rest = some (last, later) ∧ outputs = first ++ second ++ later := by
  induction events generalizing state outputs with
  | nil => exact absurd trivial violated
  | cons event rest inductionHypothesis =>
      rcases (machine.run_cons_iff ..).mp finished with
        ⟨next, first, later, stepped, ran, rfl⟩
      by_cases here : condition state event
      · have violatedLater : ¬ machine.Along condition next rest := by
          intro along
          refine violated ⟨here, fun next' outputs stepped' => ?_⟩
          rw [stepped, Option.some.injEq, Prod.mk.injEq] at stepped'
          exact stepped'.1 ▸ along
        rcases inductionHypothesis ran violatedLater with
          ⟨earlier, event', rest', middle, before, next', second, after, reached, violates,
            stepped', ran', rfl⟩
        refine ⟨event :: earlier, event', rest', middle, first ++ before, next', second, after,
          (machine.run_cons_iff ..).mpr ⟨next, first, before, stepped, reached, rfl⟩, violates,
          stepped', ran', by simp⟩
      · exact ⟨[], event, rest, state, [], next, first, later, rfl, here, stepped, ran, by simp⟩

theorem exists_step_of_mem
    (machine : Machine State Event Output)
    {state last : State} {outputs : List Output} {events : List Event}
    (finished : machine.run state events = some (last, outputs))
    {output : Output} (shown : output ∈ outputs) :
    ∃ earlier event rest middle first next second, events = earlier ++ event :: rest ∧
      machine.run state earlier = some (middle, first) ∧
      machine.step middle event = some (next, second) ∧ output ∈ second := by
  induction events generalizing state outputs with
  | nil =>
      simp only [run_nil, Option.some.injEq, Prod.mk.injEq] at finished
      obtain ⟨rfl, rfl⟩ := finished
      cases shown
  | cons event rest inductionHypothesis =>
      rcases (machine.run_cons_iff ..).mp finished with
        ⟨next, first, later, stepped, ran, rfl⟩
      rcases List.mem_append.mp shown with now | afterwards
      · exact ⟨[], event, rest, state, [], next, first, rfl, rfl, stepped, now⟩
      · rcases inductionHypothesis ran afterwards with
          ⟨earlier, event', rest', middle, before, next', second, rfl, reached, stepped', there⟩
        exact ⟨event :: earlier, event', rest', middle, first ++ before, next', second, rfl,
          (machine.run_cons_iff ..).mpr ⟨next, first, before, stepped, reached, rfl⟩, stepped',
          there⟩

theorem along_of_outputs
    (machine : Machine State Event Output)
    {condition : State → Event → Prop} {property : Output → Prop}
    (shows : ∀ state event next outputs,
      machine.step state event = some (next, outputs) →
      (∀ output ∈ outputs, property output) → condition state event)
    {state last : State} {outputs : List Output} {events : List Event}
    (finished : machine.run state events = some (last, outputs))
    (holds : ∀ output ∈ outputs, property output) :
    machine.Along condition state events := by
  induction events generalizing state outputs with
  | nil => trivial
  | cons event rest inductionHypothesis =>
      rcases (machine.run_cons_iff ..).mp finished with
        ⟨next, first, later, stepped, ran, rfl⟩
      simp only [List.mem_append, or_imp, forall_and] at holds
      refine ⟨shows state event next first stepped holds.1, ?_⟩
      intro next' outputs' stepped'
      rw [stepped, Option.some.injEq, Prod.mk.injEq] at stepped'
      rw [← stepped'.1]
      exact inductionHypothesis ran holds.2

/-- When a condition on the step decides a property of its outputs, the same
condition along the run decides the property of all outputs of the run. -/
theorem outputs_iff_along
    (machine : Machine State Event Output)
    {condition : State → Event → Prop} {property : Output → Prop}
    (decided : ∀ state event next outputs,
      machine.step state event = some (next, outputs) →
      ((∀ output ∈ outputs, property output) ↔ condition state event))
    {state last : State} {outputs : List Output} {events : List Event}
    (finished : machine.run state events = some (last, outputs)) :
    (∀ output ∈ outputs, property output) ↔
      machine.Along condition state events := by
  constructor
  · apply machine.along_of_outputs _ finished
    intro state event next outputs stepped
    exact (decided state event next outputs stepped).mp
  · intro along
    apply machine.invariant_of_run_along
      (fun _ seen => ∀ output ∈ seen, property output) _ (by simp) along finished
    intro state seen event next outputs earlier here stepped
    rw [List.forall_mem_append]
    exact ⟨earlier, (decided state event next outputs stepped).mpr here⟩

/-- Forward simulation: a concrete run is matched by an abstract run whose
outputs are the visible part of the concrete outputs. -/
theorem run_simulated
    {AbstractState AbstractEvent AbstractOutput : Type*}
    (concrete : Machine State Event Output)
    (abstract : Machine AbstractState AbstractEvent AbstractOutput)
    {related : State → AbstractState → Prop}
    (view : Output → Option AbstractOutput)
    (matched : ∀ state shadow event next outputs,
      related state shadow →
      concrete.step state event = some (next, outputs) →
      ∃ events shadow', related next shadow' ∧
        abstract.run shadow events = some (shadow', outputs.filterMap view))
    {state last : State} {shadow : AbstractState}
    {events : List Event} {outputs : List Output}
    (initially : related state shadow)
    (finished : concrete.run state events = some (last, outputs)) :
    ∃ events' shadow', related last shadow' ∧
      abstract.run shadow events' = some (shadow', outputs.filterMap view) := by
  induction events generalizing state shadow outputs with
  | nil =>
      simp only [run_nil, Option.some.injEq, Prod.mk.injEq] at finished
      obtain ⟨rfl, rfl⟩ := finished
      exact ⟨[], shadow, initially, rfl⟩
  | cons event rest inductionHypothesis =>
      rcases (concrete.run_cons_iff ..).mp finished with
        ⟨next, first, later, stepped, ran, rfl⟩
      rcases matched _ _ _ _ _ initially stepped with
        ⟨firstEvents, middle, relatedMiddle, firstRun⟩
      rcases inductionHypothesis relatedMiddle ran with
        ⟨laterEvents, shadow', relatedLast, laterRun⟩
      refine ⟨firstEvents ++ laterEvents, shadow', relatedLast, ?_⟩
      exact (abstract.run_append_iff ..).mpr
        ⟨middle, _, _, firstRun, laterRun, by simp⟩

/-- Every step that a run takes has a property. -/
def EachStep (machine : Machine State Event Output)
    (property : State → Event → State → List Output → Prop) :
    State → List Event → Prop :=
  machine.Along fun state event => ∀ next outputs,
    machine.step state event = some (next, outputs) → property state event next outputs

/-- Steps have the property exactly when they meet the condition that decides it
wherever the invariant holds.  Only steps with the property have to keep it. -/
theorem eachStep_iff_along_of_invariant
    (machine : Machine State Event Output) (invariant : State → Prop)
    {property : State → Event → State → List Output → Prop} {condition : State → Event → Prop}
    (preserved : ∀ state event next outputs, invariant state →
      machine.step state event = some (next, outputs) →
      property state event next outputs → invariant next)
    (decided : ∀ state event next outputs, invariant state →
      machine.step state event = some (next, outputs) →
      (property state event next outputs ↔ condition state event))
    {state last : State} {outputs : List Output} {events : List Event}
    (initially : invariant state)
    (finished : machine.run state events = some (last, outputs)) :
    machine.EachStep property state events ↔ machine.Along condition state events := by
  induction events generalizing state outputs with
  | nil => rfl
  | cons event rest inductionHypothesis =>
      rcases (machine.run_cons_iff ..).mp finished with
        ⟨next, first, later, stepped, ran, -⟩
      have here := decided state event next first initially stepped
      simp only [EachStep, Along, stepped, Option.some.injEq, Prod.mk.injEq, and_imp,
        forall_eq', forall_apply_eq_imp_iff]
      rw [here]
      apply and_congr_right
      intro holds
      exact inductionHypothesis
        (preserved state event next first initially stepped (here.mpr holds)) ran

theorem eachStep_iff_along
    (machine : Machine State Event Output)
    {property : State → Event → State → List Output → Prop} {condition : State → Event → Prop}
    (decided : ∀ state event next outputs,
      machine.step state event = some (next, outputs) →
      (property state event next outputs ↔ condition state event))
    {state last : State} {outputs : List Output} {events : List Event}
    (finished : machine.run state events = some (last, outputs)) :
    machine.EachStep property state events ↔ machine.Along condition state events := by
  apply machine.eachStep_iff_along_of_invariant (fun _ => True) _ _ trivial finished
  · intro _ _ _ _ _ _ _
    trivial
  · intro state event next outputs _ stepped
    exact decided state event next outputs stepped

theorem eachStep_of_invariant
    (machine : Machine State Event Output) (invariant : State → Prop)
    {property : State → Event → State → List Output → Prop}
    (preserved : ∀ state event next outputs, invariant state →
      machine.step state event = some (next, outputs) →
      invariant next ∧ property state event next outputs)
    {state : State} (initially : invariant state) (events : List Event) :
    machine.EachStep property state events := by
  induction events generalizing state with
  | nil => trivial
  | cons event rest inductionHypothesis =>
      constructor
      · intro next outputs stepped
        exact (preserved state event next outputs initially stepped).2
      · intro next outputs stepped
        exact inductionHypothesis (preserved state event next outputs initially stepped).1

def grouped {Group : Type*} (machine : Machine State Event Output)
    (expand : Group → List Event) : Machine State Group Output where
  step state group := machine.run state (expand group)

theorem outputs_eq_of_bisimilar
    (machine : Machine State Event Output) {related : State → State → Prop}
    (matched : ∀ first second event, related first second →
      (machine.step first event = none ∧ machine.step second event = none) ∨
        ∃ first' second' outputs, machine.step first event = some (first', outputs) ∧
          machine.step second event = some (second', outputs) ∧ related first' second')
    {first second : State} (initially : related first second) (events : List Event) :
    (machine.run first events).map Prod.snd = (machine.run second events).map Prod.snd := by
  induction events generalizing first second with
  | nil => rfl
  | cons event rest inductionHypothesis =>
      rcases matched first second event initially with
        ⟨stuck, stuck'⟩ | ⟨first', second', outputs, stepped, stepped', relatedAfter⟩
      · simp [run, stuck, stuck']
      · have later := inductionHypothesis relatedAfter
        simp only [run, stepped, stepped']
        cases ran : machine.run first' rest <;> cases ran' : machine.run second' rest <;>
          simp_all

end Machine

end Foundation
