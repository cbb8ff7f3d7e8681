import InertiaTrader.Foundation.Machine

/-!
# Two runs of a machine

What an observer sees of two runs over the same events, from two states.
-/

namespace Foundation

namespace Machine

universe u v w x

variable {State : Type u} {Event : Type v} {Output : Type w} {Shown : Type x}

theorem run_append_of_run
    (machine : Machine State Event Output) {state middle : State} {earlier : List Event}
    {first : List Output} (reached : machine.run state earlier = some (middle, first))
    (rest : List Event) (last : State) (outputs : List Output) :
    machine.run state (earlier ++ rest) = some (last, outputs) ↔
      ∃ later, machine.run middle rest = some (last, later) ∧ outputs = first ++ later := by
  rw [run_append_iff]
  constructor
  · rintro ⟨middle', first', later, reached', ran, split⟩
    rw [reached, Option.some.injEq, Prod.mk.injEq] at reached'
    obtain ⟨rfl, rfl⟩ := reached'
    exact ⟨later, ran, split⟩
  · rintro ⟨later, ran, split⟩
    exact ⟨middle, first, later, reached, ran, split⟩

/-- Both states have a run over these events, and at every moment of it the same
was shown. -/
def Agrees (machine : Machine State Event Output) (shown : Output → Option Shown)
    (first second : State) (events : List Event) : Prop :=
  ∀ part, part <+: events → ∃ last outputs last' outputs',
    machine.run first part = some (last, outputs) ∧
    machine.run second part = some (last', outputs') ∧
    outputs.filterMap shown = outputs'.filterMap shown

theorem agrees_iff_of_runs
    (machine : Machine State Event Output) (shown : Output → Option Shown)
    {start start' first second : State} {earlier earlier' : List Event}
    {seen seen' : List Output} (reached : machine.run start earlier = some (first, seen))
    (reached' : machine.run start' earlier' = some (second, seen'))
    (same : seen.filterMap shown = seen'.filterMap shown) (events : List Event) :
    (∀ part, part <+: events → ∃ last outputs last' outputs',
        machine.run start (earlier ++ part) = some (last, outputs) ∧
        machine.run start' (earlier' ++ part) = some (last', outputs') ∧
        outputs.filterMap shown = outputs'.filterMap shown) ↔
      machine.Agrees shown first second events := by
  apply forall_congr'
  intro part
  apply imp_congr_right
  intro _
  constructor
  · rintro ⟨last, outputs, last', outputs', ran, ran', shownSame⟩
    obtain ⟨later, finished, rfl⟩ := (machine.run_append_of_run reached part last outputs).mp ran
    obtain ⟨later', finished', rfl⟩ :=
      (machine.run_append_of_run reached' part last' outputs').mp ran'
    rw [List.filterMap_append, List.filterMap_append, same] at shownSame
    exact ⟨last, later, last', later', finished, finished', List.append_cancel_left shownSame⟩
  · rintro ⟨last, later, last', later', finished, finished', shownSame⟩
    refine ⟨last, seen ++ later, last', seen' ++ later',
      (machine.run_append_of_run reached part last _).mpr ⟨later, finished, rfl⟩,
      (machine.run_append_of_run reached' part last' _).mpr ⟨later', finished', rfl⟩, ?_⟩
    rw [List.filterMap_append, List.filterMap_append, same, shownSame]

section

variable (machine : Machine State Event Output) (shown : Output → Option Shown)
    {first second next next' : State} {event : Event} {rest : List Event}
    {outputs outputs' : List Output}

theorem agrees_nil : machine.Agrees shown first second [] := by
  intro part isPrefix
  rw [List.prefix_nil.mp isPrefix]
  exact ⟨first, [], second, [], rfl, rfl, rfl⟩

theorem shown_of_agrees (stepped : machine.step first event = some (next, outputs))
    (agrees : machine.Agrees shown first second (event :: rest)) :
    ∃ next' outputs', machine.step second event = some (next', outputs') ∧
      outputs.filterMap shown = outputs'.filterMap shown := by
  obtain ⟨last, seen, last', seen', ran, ran', same⟩ := agrees [event] ⟨rest, rfl⟩
  rw [run_singleton, stepped, Option.some.injEq, Prod.mk.injEq] at ran
  obtain ⟨rfl, rfl⟩ := ran
  rw [run_singleton] at ran'
  exact ⟨last', seen', ran', same⟩

theorem agrees_cons_iff (stepped : machine.step first event = some (next, outputs))
    (stepped' : machine.step second event = some (next', outputs)) :
    machine.Agrees shown first second (event :: rest) ↔
      machine.Agrees shown next next' rest := by
  constructor
  · intro agrees part isPrefix
    obtain ⟨last, seen, last', seen', ran, ran', same⟩ :=
      agrees (event :: part) ((List.prefix_cons_inj event).mpr isPrefix)
    have single := (machine.run_singleton first event).trans stepped
    have single' := (machine.run_singleton second event).trans stepped'
    obtain ⟨later, finished, rfl⟩ := (machine.run_append_of_run single part last seen).mp ran
    obtain ⟨later', finished', rfl⟩ :=
      (machine.run_append_of_run single' part last' seen').mp ran'
    rw [List.filterMap_append, List.filterMap_append] at same
    exact ⟨last, later, last', later', finished, finished', List.append_cancel_left same⟩
  · intro agrees part isPrefix
    rcases part with - | ⟨event', part⟩
    · exact ⟨first, [], second, [], rfl, rfl, rfl⟩
    · obtain ⟨rfl, shorter⟩ := List.cons_prefix_cons.mp isPrefix
      obtain ⟨last, later, last', later', ran, ran', same⟩ := agrees part shorter
      refine ⟨last, outputs ++ later, last', outputs ++ later',
        (machine.run_cons_iff ..).mpr ⟨next, outputs, later, stepped, ran, rfl⟩,
        (machine.run_cons_iff ..).mpr ⟨next', outputs, later', stepped', ran', rfl⟩, ?_⟩
      rw [List.filterMap_append, List.filterMap_append, same]

end

/-- A relation that steps keep while a condition holds, and a condition without
which a step can be told apart: together they decide whether two runs agree. -/
theorem agrees_iff_along
    (machine : Machine State Event Output) (shown : Output → Option Shown)
    {related : State → State → Prop} {condition : State → Event → Prop}
    (lockstep : ∀ first second event next outputs, related first second →
      machine.step first event = some (next, outputs) → condition first event →
      ∃ next', machine.step second event = some (next', outputs) ∧ related next next')
    (told : ∀ first second event next next' outputs outputs', related first second →
      machine.step first event = some (next, outputs) →
      machine.step second event = some (next', outputs') →
      outputs.filterMap shown = outputs'.filterMap shown → condition first event)
    {first second last : State} {outputs : List Output} {events : List Event}
    (initially : related first second)
    (finished : machine.run first events = some (last, outputs)) :
    machine.Agrees shown first second events ↔ machine.Along condition first events := by
  induction events generalizing first second outputs with
  | nil => exact iff_of_true (machine.agrees_nil shown) trivial
  | cons event rest inductionHypothesis =>
      rcases (machine.run_cons_iff ..).mp finished with
        ⟨next, now, later, stepped, ran, -⟩
      constructor
      · intro agrees
        obtain ⟨other, seen, stepped', same⟩ := machine.shown_of_agrees shown stepped agrees
        have holds := told first second event next other now seen initially stepped stepped' same
        obtain ⟨next', matched, relatedNext⟩ :=
          lockstep first second event next now initially stepped holds
        refine ⟨holds, ?_⟩
        intro next'' outputs'' stepped''
        rw [stepped, Option.some.injEq, Prod.mk.injEq] at stepped''
        rw [← stepped''.1]
        exact (inductionHypothesis relatedNext ran).mp
          ((machine.agrees_cons_iff shown stepped matched).mp agrees)
      · rintro ⟨holds, along⟩
        obtain ⟨next', matched, relatedNext⟩ :=
          lockstep first second event next now initially stepped holds
        apply (machine.agrees_cons_iff shown stepped matched).mpr
        exact (inductionHypothesis relatedNext ran).mpr (along next now stepped)

end Machine

end Foundation
