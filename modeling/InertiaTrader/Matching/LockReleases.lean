import InertiaTrader.Matching.LockedThreads

/-!
# Who lets a pass go on

`matchup` locks `cv_m` a second time before it executes a pair, so it executes
none unless another thread frees the lock in between: `getOrder` does so with
every order that it accepts, and `startTransaction` when it waits.
-/

namespace InertiaTrader

open Foundation

/-- How many pairs were executed. -/
def executionsIn (outputs : List LockedOutput) : ℕ :=
  ((shownIn outputs).filterMap Observation.execution).length

def LockUse.isRelease (thread : LockThread) : LockUse → Bool
  | .releases other _ => thread = other
  | _ => false

/-- How often a thread has freed the lock. -/
def releasesBy (thread : LockThread) (outputs : List LockedOutput) : ℕ :=
  outputs.countP fun
    | .uses use => use.isRelease thread
    | .shows _ => false

namespace LockedThreads

def Freed (state : LockedThreads) : Prop :=
  state.matching.searching = true ∧ state.owner ≠ some .matchup ∨ state.matching.pricing = true

instance (state : LockedThreads) : Decidable state.Freed := inferInstanceAs (Decidable (_ ∨ _))

/-- The execution that the pass can still make without the lock being freed again. -/
def credit (state : LockedThreads) : ℕ := if state.Freed then 1 else 0

section

variable {server : MariaDB} {state next : LockedThreads} {event : LockedEvent}
    {outputs : List LockedOutput}

theorem credit_le_one (state : LockedThreads) : state.credit ≤ 1 := by
  unfold credit
  split <;> simp

theorem credit_mono (freed : next.Freed → state.Freed) : next.credit ≤ state.credit := by
  unfold credit
  split
  next isFreed => rw [if_pos (freed isFreed)]
  next => exact Nat.zero_le _

/-- Another thread frees the lock, or nothing is executed and the lock is not freed for the
pass. -/
theorem credit_silent (executes : executionsIn outputs = 0)
    (freed : (insertedIn (shownIn outputs)).length + releasesBy .startTransaction outputs = 0 →
      next.Freed → state.Freed) :
    executionsIn outputs + next.credit ≤
      state.credit + (insertedIn (shownIn outputs)).length +
        releasesBy .startTransaction outputs := by
  by_cases none : (insertedIn (shownIn outputs)).length + releasesBy .startTransaction outputs = 0
  · have kept := credit_mono (freed none)
    omega
  · have bounded := next.credit_le_one
    omega

theorem executions_eq_nil {server : MariaDB} {threads threads' : Threads} {event : Event}
    {observations : List Observation}
    (stepped : threads.step server event = some (threads', observations))
    (notPass : event ≠ .matchup) : observations.filterMap Observation.execution = [] := by
  rw [List.filterMap_eq_nil_iff]
  intro observation shown
  cases observation with
  | executed => exact absurd (Threads.executed_of_step stepped shown) notPass
  | _ => rfl

theorem credit_step (stepped : state.step server event = some (next, outputs)) :
    executionsIn outputs + next.credit ≤
      state.credit + (insertedIn (shownIn outputs)).length +
        releasesBy .startTransaction outputs := by
  cases event with
  | startTransaction serverStatus =>
      cases stepTransaction_cases stepped with
      | waits | goes => exact credit_silent rfl fun _ freed => freed
      | takes place unowned =>
          refine credit_silent rfl fun _ freed => freed.imp_left fun searching => ?_
          exact ⟨searching.1, by simp [unowned]⟩
      | drops => exact credit_silent rfl nofun
  | matchup status =>
      cases stepMatchup_cases stepped with
      | waits => exact credit_silent rfl fun _ freed => freed
      | takes place granted unowned =>
          refine credit_silent rfl fun _ freed => ?_
          rcases freed with ⟨-, notOwner⟩ | isPricing
          · exact absurd rfl notOwner
          · exact .inl ⟨Place.searching_of_granted granted isPricing, by simp [unowned]⟩
      | drops place released =>
          obtain ⟨-, -, -, -, -, -, notSearching, notPricing⟩ := Place.released_keeps released
          refine credit_silent rfl fun _ freed => ?_
          simp [Freed, notSearching, notPricing] at freed
      | goes place uses touches moves =>
          refine credit_silent (by simp [executionsIn]) fun _ freed => ?_
          rcases freed with ⟨searching, notOwner⟩ | isPricing
          · exact .inl ⟨moves.searching searching, notOwner⟩
          · rw [moves.pricing] at isPricing
            cases isPricing
      | prices odb ods sr standing =>
          have before : state.credit = 1 := if_pos (.inr (by rw [standing]; rfl))
          rw [before]
          exact Nat.le_add_right 1 _
      | pushesBuy | pushesSell | erases =>
          refine credit_silent rfl fun _ freed => ?_
          rcases freed with ⟨searching, -⟩ | isPricing
          · cases searching
          · cases isPricing
  | other event =>
      obtain ⟨threads, observations, owner, uses, notPass, -, stepped', rfl, rfl, sameOwner⟩ :=
        stepOther_cases stepped
      have shown : shownIn (observations.map .shows ++ uses.map .uses) = observations := by simp
      refine credit_silent ?_ fun nothing => ?_
      · rw [executionsIn, shown, executions_eq_nil stepped' notPass]
        rfl
      · rw [shown] at nothing
        rw [sameOwner (List.length_eq_zero_iff.mp (Nat.eq_zero_of_add_eq_zero_right nothing))]
        exact id

end

end LockedThreads

/-- Whatever the state, no more pairs are executed than orders are put into the books and
`startTransaction` frees the lock, except for one that the lock was freed for before. -/
theorem executions_need_releases (server : MariaDB) (state : LockedThreads)
    (events : List LockedEvent) (last : LockedThreads) (outputs : List LockedOutput)
    (finished : (lockedThreads server).run state events = some (last, outputs)) :
    executionsIn outputs + last.credit ≤
      state.credit + (insertedIn (shownIn outputs)).length +
        releasesBy .startTransaction outputs := by
  apply (lockedThreads server).invariant_of_run
    (fun current seen => executionsIn seen + current.credit ≤
      state.credit + (insertedIn (shownIn seen)).length + releasesBy .startTransaction seen)
    _ _ finished
  · intro current seen event next now before stepped
    have paid := LockedThreads.credit_step stepped
    simp only [executionsIn, shownIn_append, List.filterMap_append, List.length_append,
      insertedIn_append, releasesBy, List.countP_append] at before paid ⊢
    omega
  · exact (Nat.zero_add state.credit).le

/-- `matchup` has found a pair, waits for its own lock and is let go on by the third order. -/
def thirdOrderRun : List LockedEvent := [
  .other .firstLogin, .matchup true, .matchup true, .matchup true,
  .other (.receive 0 "87|1|60|1|1|1|KKC".toList), .other (.getOrder 10 true),
  .other (.receive 0 "87|2|60|2|1|1|KKC".toList), .other (.getOrder 20 true),
  .matchup true, .matchup true, .matchup true, .matchup true,
  .other (.receive 0 "87|3|60|1|1|1|KKC".toList), .other (.getOrder 30 true),
  .matchup true, .matchup true]

theorem executions_need_releases_thirdOrderRun :
    ∃ last outputs, (lockedThreads .literal).run (.start Threads.initial.trader) thirdOrderRun =
        some (last, outputs) ∧ executionsIn outputs = 1 ∧
      1 + last.credit ≤ 0 + (insertedIn (shownIn outputs)).length +
        releasesBy .startTransaction outputs := by
  obtain ⟨last, outputs, finished, evaluated⟩ :=
    Machine.exists_run_of_any (lockedThreads .literal) (.start Threads.initial.trader)
      thirdOrderRun (fun _ outputs => decide (executionsIn outputs = 1)) (by decide +kernel)
  have executed : executionsIn outputs = 1 := of_decide_eq_true evaluated
  have bounded := executions_need_releases _ _ _ _ _ finished
  rw [executed] at bounded
  exact ⟨last, outputs, finished, executed, bounded⟩

end InertiaTrader
