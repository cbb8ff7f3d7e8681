import InertiaTrader.Foundation.Machine

/-!
# Agendas

A machine may carry a list of what it is still going to show.  Some events take the
first item off the list, the others leave it alone; what a run shows is then known
in advance.
-/

namespace Foundation

namespace Machine

variable {State Event Output Item : Type*}

structure Works (machine : Machine State Event Output) (agenda : State → List Item)
    (takes : Event → Bool) (shown : Output → Option Item) (condition : State → Event → Prop) :
    Prop where
  taken : ∀ state event next outputs, condition state event → takes event = true →
    machine.step state event = some (next, outputs) →
    outputs.filterMap shown = (agenda state).take 1 ∧ agenda next = (agenda state).drop 1
  kept : ∀ state event next outputs, condition state event → takes event = false →
    machine.step state event = some (next, outputs) →
    outputs.filterMap shown = [] ∧ agenda next = agenda state

/-- A run shows the first items of the agenda it starts with, as many as it has events
that take one, and leaves the others. -/
theorem Works.run {machine : Machine State Event Output} {agenda : State → List Item}
    {takes : Event → Bool} {shown : Output → Option Item} {condition : State → Event → Prop}
    (works : machine.Works agenda takes shown condition) {state last : State}
    {events : List Event} {outputs : List Output}
    (along : machine.Along condition state events)
    (finished : machine.run state events = some (last, outputs)) :
    outputs.filterMap shown = (agenda state).take (events.countP takes) ∧
      agenda last = (agenda state).drop (events.countP takes) := by
  induction events generalizing state outputs with
  | nil =>
      simp only [run_nil, Option.some.injEq, Prod.mk.injEq] at finished
      rw [← finished.1, ← finished.2]
      simp
  | cons event rest inductionHypothesis =>
      rcases (machine.run_cons_iff ..).mp finished with ⟨next, first, later, stepped, ran, rfl⟩
      obtain ⟨shownLater, left⟩ := inductionHypothesis (along.2 next first stepped) ran
      cases isTaken : takes event with
      | true =>
          obtain ⟨shownNow, rest'⟩ := works.taken _ _ _ _ along.1 isTaken stepped
          rw [List.countP_cons_of_pos isTaken, Nat.add_comm]
          constructor
          · rw [List.filterMap_append, shownNow, shownLater, rest', List.take_add]
          · rw [left, rest', List.drop_drop]
      | false =>
          obtain ⟨silent, same⟩ := works.kept _ _ _ _ along.1 isTaken stepped
          rw [List.countP_cons_of_neg (by simp [isTaken]), List.filterMap_append, silent,
            List.nil_append, ← same]
          exact ⟨shownLater, left⟩

end Machine

end Foundation
