import InertiaTrader.Foundation.Machine

/-!
# Thinned runs

A run of one machine is followed by another that leaves some of its events out
and answers each of the others with one like it.
-/

namespace Foundation

namespace Machine

variable {State Event Output State' Event' Output' Shown : Type*}

/-- When the events that are left out show nothing and keep the two states related,
and the others are answered in kind, then the thinned run exists and shows the same. -/
theorem run_thinned
    (machine : Machine State Event Output) (follower : Machine State' Event' Output')
    (related : State → State' → Prop) (leftOut : Event → Bool) (alike : Event → Event' → Prop)
    (shown : Output → Option Shown) (shown' : Output' → Option Shown)
    (dropped : ∀ state state' event next outputs, related state state' → leftOut event = true →
      machine.step state event = some (next, outputs) →
      related next state' ∧ outputs.filterMap shown = [])
    (kept : ∀ state state' event event' next outputs, related state state' →
      leftOut event = false → alike event event' →
      machine.step state event = some (next, outputs) →
      ∃ next' outputs', follower.step state' event' = some (next', outputs') ∧
        related next next' ∧ outputs.filterMap shown = outputs'.filterMap shown')
    {state last : State} {state' : State'} {events : List Event} {events' : List Event'}
    {outputs : List Output} (initially : related state state')
    (thinned : List.Forall₂ alike (events.filter fun event => !leftOut event) events')
    (finished : machine.run state events = some (last, outputs)) :
    ∃ last' outputs', follower.run state' events' = some (last', outputs') ∧
      related last last' ∧ outputs.filterMap shown = outputs'.filterMap shown' := by
  induction events generalizing state state' events' outputs with
  | nil =>
      simp only [run_nil, Option.some.injEq, Prod.mk.injEq] at finished
      rw [← finished.1, ← finished.2]
      cases thinned
      exact ⟨state', [], rfl, initially, rfl⟩
  | cons event rest inductionHypothesis =>
      rcases (machine.run_cons_iff ..).mp finished with ⟨next, first, later, stepped, ran, rfl⟩
      cases out : leftOut event with
      | true =>
          rw [List.filter_cons_of_neg (by simp [out])] at thinned
          obtain ⟨relatedNext, silent⟩ := dropped _ _ _ _ _ initially out stepped
          rcases inductionHypothesis relatedNext thinned ran with
            ⟨last', outputs', ran', relatedLast, same⟩
          refine ⟨last', outputs', ran', relatedLast, ?_⟩
          rw [List.filterMap_append, silent, List.nil_append, same]
      | false =>
          rw [List.filter_cons_of_pos (by simp [out])] at thinned
          cases thinned with
          | cons like thinnedRest =>
              rcases kept _ _ _ _ _ _ initially out like stepped with
                ⟨next', first', stepped', relatedNext, same⟩
              rcases inductionHypothesis relatedNext thinnedRest ran with
                ⟨last', later', ran', relatedLast, sameLater⟩
              refine ⟨last', first' ++ later', ?_, relatedLast, ?_⟩
              · exact (follower.run_cons_iff ..).mpr
                  ⟨next', first', later', stepped', ran', rfl⟩
              · rw [List.filterMap_append, List.filterMap_append, same, sameLater]

end Machine

end Foundation
