import InertiaTrader.Foundation.Machine

/-!
# Detours

What a step does to something outside may depend on what it hands over.  As long as
that is tame, the step is the one of the machine; otherwise the outside may put the
machine into other states as well.
-/

namespace Foundation

namespace Machine

variable {State Event Output Detour : Type*}

/-- The machine with detours: a step that shows something that is not tame may also end
where a detour leads. -/
def withDetours (machine : Machine State Event Output) (tame : Output → Prop)
    [DecidablePred tame] (lead : Detour → State → State) :
    Machine State (Event × Option Detour) Output where
  step state
    | (event, none) => machine.step state event
    | (event, some detour) =>
        match machine.step state event with
        | none => none
        | some (next, outputs) =>
            if ∀ output ∈ outputs, tame output then none
            else some (lead detour next, outputs)

variable {machine : Machine State Event Output} {tame : Output → Prop} [DecidablePred tame]
    {lead : Detour → State → State} {state next last : State} {outputs : List Output}

theorem step_of_tame {event : Event × Option Detour}
    (allTame : ∀ output ∈ outputs, tame output)
    (stepped : (machine.withDetours tame lead).step state event = some (next, outputs)) :
    machine.step state event.1 = some (next, outputs) := by
  obtain ⟨event, - | detour⟩ := event
  · exact stepped
  · simp only [withDetours] at stepped
    split at stepped
    next => cases stepped
    next reached shown moved =>
      split at stepped
      next => cases stepped
      next wild =>
        cases stepped
        exact absurd allTame wild

theorem run_of_tame {events : List (Event × Option Detour)}
    (allTame : ∀ output ∈ outputs, tame output)
    (finished : (machine.withDetours tame lead).run state events = some (last, outputs)) :
    machine.run state (events.map Prod.fst) = some (last, outputs) := by
  induction events generalizing state outputs with
  | nil => exact finished
  | cons event rest inductionHypothesis =>
      obtain ⟨next, first, later, stepped, ran, rfl⟩ := (run_cons_iff ..).mp finished
      rw [List.forall_mem_append] at allTame
      rw [List.map_cons, run_cons_iff]
      exact ⟨next, first, later, step_of_tame allTame.1 stepped,
        inductionHypothesis allTame.2 ran, rfl⟩

end Machine

end Foundation
