import InertiaTrader.Foundation.Machine

/-!
# Inserted events

Events that leave the state alone and show nothing can be inserted into a run
anywhere.
-/

namespace Foundation

universe u v w x

/-- The second list is the first one with extra elements inserted. -/
inductive Inserted {Alpha : Type u} (extra : Alpha → Prop) : List Alpha → List Alpha → Prop where
  | nil : Inserted extra [] []
  | keep {first second : List Alpha} (head : Alpha) :
      Inserted extra first second → Inserted extra (head :: first) (head :: second)
  | insert {first second : List Alpha} {head : Alpha} :
      extra head → Inserted extra first second → Inserted extra first (head :: second)

theorem Inserted.refl {Alpha : Type u} {extra : Alpha → Prop} (list : List Alpha) :
    Inserted extra list list := by
  induction list with
  | nil => exact .nil
  | cons head tail inductionHypothesis => exact .keep head inductionHypothesis

namespace Machine

variable {State : Type u} {Event : Type v} {Output : Type w} {Shown : Type x}

/-- The end of a run and what was shown on the way. -/
def observe (machine : Machine State Event Output) (shown : Output → Option Shown)
    (state : State) (events : List Event) : Option (State × List Shown) :=
  (machine.run state events).map fun result => (result.1, result.2.filterMap shown)

section

variable (machine : Machine State Event Output) (shown : Output → Option Shown)
  {state next : State} {event : Event} {rest : List Event} {outputs : List Output}

theorem observe_cons_of_none (stepped : machine.step state event = none) :
    machine.observe shown state (event :: rest) = none := by
  rw [observe, run, stepped]
  rfl

theorem observe_cons_of_some (stepped : machine.step state event = some (next, outputs)) :
    machine.observe shown state (event :: rest) =
      (machine.observe shown next rest).map fun result =>
        (result.1, outputs.filterMap shown ++ result.2) := by
  unfold observe
  rw [run, stepped]
  cases ran : machine.run next rest with
  | none => simp [ran]
  | some result => simp [ran]

end

theorem observe_inserted (machine : Machine State Event Output) (shown : Output → Option Shown)
    {extra : Event → Prop} (invariant : State → Prop)
    (preserved : ∀ state event next outputs, invariant state →
      machine.step state event = some (next, outputs) → invariant next)
    (idle : ∀ state event, invariant state → extra event →
      ∃ outputs, machine.step state event = some (state, outputs) ∧ outputs.filterMap shown = [])
    {state : State} (initially : invariant state) {events events' : List Event}
    (inserted : Inserted extra events events') :
    machine.observe shown state events' = machine.observe shown state events := by
  induction inserted generalizing state with
  | nil => rfl
  | keep event _ inductionHypothesis =>
      cases stepped : machine.step state event with
      | none =>
          rw [machine.observe_cons_of_none shown stepped,
            machine.observe_cons_of_none shown stepped]
      | some result =>
          obtain ⟨next, outputs⟩ := result
          have holds := preserved state event next outputs initially stepped
          rw [machine.observe_cons_of_some shown stepped,
            machine.observe_cons_of_some shown stepped, inductionHypothesis holds]
  | insert isExtra _ inductionHypothesis =>
      obtain ⟨outputs, stepped, unseen⟩ := idle state _ initially isExtra
      rw [machine.observe_cons_of_some shown stepped, unseen, inductionHypothesis initially]
      exact Option.map_id_apply

end Machine

end Foundation
