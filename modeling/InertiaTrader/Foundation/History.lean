import InertiaTrader.Foundation.TwoRuns

/-!
# Histories

Rules for what a state has to do with all the events that have led to it.
-/

namespace Foundation

namespace Machine

variable {State Event Output : Type*}

theorem run_concat (machine : Machine State Event Output) {state middle next : State}
    {earlier : List Event} {event : Event} {first outputs : List Output}
    (reached : machine.run state earlier = some (middle, first))
    (stepped : machine.step middle event = some (next, outputs)) :
    machine.run state (earlier ++ [event]) = some (next, first ++ outputs) := by
  apply (machine.run_append_of_run reached ..).mpr
  exact ⟨outputs, (machine.run_singleton ..).trans stepped, rfl⟩

/-- What the steps of a run are noted with, in their order. -/
def trace {Note : Type*} (machine : Machine State Event Output)
    (notes : State → Event → List Note) : State → List Event → List Note
  | _, [] => []
  | state, event :: rest =>
      match machine.step state event with
      | none => []
      | some (next, _) => notes state event ++ machine.trace notes next rest

theorem trace_concat {Note : Type*} (machine : Machine State Event Output)
    (notes : State → Event → List Note) {state middle next : State} {earlier : List Event}
    {event : Event} {first outputs : List Output}
    (reached : machine.run state earlier = some (middle, first))
    (stepped : machine.step middle event = some (next, outputs)) :
    machine.trace notes state (earlier ++ [event]) =
      machine.trace notes state earlier ++ notes middle event := by
  induction earlier generalizing state first with
  | nil =>
      simp only [run_nil, Option.some.injEq, Prod.mk.injEq] at reached
      rw [reached.1]
      simp [trace, stepped]
  | cons head earlier inductionHypothesis =>
      rcases (machine.run_cons_iff ..).mp reached with ⟨next', _, _, stepped', ran, -⟩
      simp only [List.cons_append, trace, stepped', inductionHypothesis ran, List.append_assoc]

theorem invariant_of_history (machine : Machine State Event Output)
    (invariant : List Event → State → List Output → Prop)
    (preserved : ∀ past state seen event next outputs, invariant past state seen →
      machine.step state event = some (next, outputs) →
      invariant (past ++ [event]) next (seen ++ outputs))
    {state last : State} {outputs : List Output} {events : List Event}
    (initially : invariant [] state [])
    (finished : machine.run state events = some (last, outputs)) :
    invariant events last outputs := by
  suffices continued : ∀ (rest past : List Event) (current : State) (seen later : List Output),
      invariant past current seen → machine.run current rest = some (last, later) →
      invariant (past ++ rest) last (seen ++ later) by
    have holds := continued events [] state [] outputs initially finished
    rwa [List.nil_append, List.nil_append] at holds
  intro rest
  induction rest with
  | nil =>
      intro past current seen later holds ran
      simp only [run_nil, Option.some.injEq, Prod.mk.injEq] at ran
      rw [← ran.1, ← ran.2, List.append_nil, List.append_nil]
      exact holds
  | cons event rest inductionHypothesis =>
      intro past current seen later holds ran
      rcases (machine.run_cons_iff ..).mp ran with ⟨next, first, later, stepped, ran', rfl⟩
      have continues := inductionHypothesis (past ++ [event]) next (seen ++ first) later
        (preserved _ _ _ _ _ _ holds stepped) ran'
      rwa [List.append_assoc, List.append_assoc, List.singleton_append] at continues

theorem invariant_of_reached (machine : Machine State Event Output)
    (invariant : List Event → State → List Output → Prop) {state last : State}
    {outputs : List Output} {events : List Event}
    (preserved : ∀ past current seen event next shown,
      machine.run state past = some (current, seen) → invariant past current seen →
      machine.step current event = some (next, shown) →
      invariant (past ++ [event]) next (seen ++ shown))
    (initially : invariant [] state [])
    (finished : machine.run state events = some (last, outputs)) :
    invariant events last outputs := by
  have holds := machine.invariant_of_history (fun past current seen =>
    machine.run state past = some (current, seen) ∧ invariant past current seen)
    (fun past current seen event next shown before stepped =>
      ⟨machine.run_concat before.1 stepped,
        preserved past current seen event next shown before.1 before.2 stepped⟩)
    ⟨machine.run_nil state, initially⟩ finished
  exact holds.2

end Machine

end Foundation
