import InertiaTrader.Foundation.Machine

/-!
# Potentials

A number that every piece of work lowers bounds how much work a run can do.  When work
is possible as long as there is something left, some run gets all of it done.
-/

namespace Foundation

namespace Machine

variable {State Event Output : Type*}

/-- The weights of the steps of a run, added up. -/
def tally (machine : Machine State Event Output) (weight : State → Event → ℕ) :
    State → List Event → ℕ
  | _, [] => 0
  | state, event :: rest =>
      match machine.step state event with
      | none => 0
      | some (next, _) => weight state event + machine.tally weight next rest

theorem tally_add_le (machine : Machine State Event Output) (weight : State → Event → ℕ)
    (potential : State → ℕ) (gain : Event → ℕ)
    (paid : ∀ state event next outputs, machine.step state event = some (next, outputs) →
      weight state event + potential next ≤ potential state + gain event)
    {state last : State} {events : List Event} {outputs : List Output}
    (finished : machine.run state events = some (last, outputs)) :
    machine.tally weight state events + potential last ≤
      potential state + (events.map gain).sum := by
  induction events generalizing state outputs with
  | nil =>
      simp only [run_nil, Option.some.injEq, Prod.mk.injEq] at finished
      rw [← finished.1]
      simp [tally]
  | cons event rest inductionHypothesis =>
      rcases (machine.run_cons_iff ..).mp finished with ⟨next, first, later, stepped, ran, -⟩
      have now := paid state event next first stepped
      have afterwards := inductionHypothesis ran
      simp only [tally, stepped, List.map_cons, List.sum_cons]
      omega

/-- A run of allowed events to a state where nothing is left, by induction on the
potential. -/
theorem exists_run_to_rest (machine : Machine State Event Output) (invariant : State → Prop)
    (rests : State → Prop) (allowed : Event → Prop) (potential : State → ℕ)
    (preserved : ∀ state event next outputs, invariant state →
      machine.step state event = some (next, outputs) → invariant next)
    (progress : ∀ state, invariant state → ¬ rests state → ∃ event next outputs, allowed event ∧
      machine.step state event = some (next, outputs) ∧ potential next < potential state)
    {state : State} (initially : invariant state) :
    ∃ events last outputs, (∀ event ∈ events, allowed event) ∧
      machine.run state events = some (last, outputs) ∧ rests last ∧
      events.length ≤ potential state := by
  induction bound : potential state using Nat.strong_induction_on generalizing state with
  | _ value inductionHypothesis =>
      subst bound
      by_cases done : rests state
      · exact ⟨[], state, [], nofun, rfl, done, Nat.zero_le _⟩
      · obtain ⟨event, next, first, isAllowed, stepped, lower⟩ := progress state initially done
        obtain ⟨events, last, later, areAllowed, ran, atRest, short⟩ :=
          inductionHypothesis (potential next) lower (preserved _ _ _ _ initially stepped) rfl
        refine ⟨event :: events, last, first ++ later, ?_, ?_, atRest, ?_⟩
        · exact List.forall_mem_cons.mpr ⟨isAllowed, areAllowed⟩
        · exact (machine.run_cons_iff ..).mpr ⟨next, first, later, stepped, ran, rfl⟩
        · rw [List.length_cons]
          omega

end Machine

end Foundation
