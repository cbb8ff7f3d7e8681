import InertiaTrader.Server.Accept

/-!
# Freeing the dead connections

`erase` returns the entry after the erased one, and the loop then goes one further.
So the entry after a dead one is never examined, and after a dead last entry the
iterator leaves the map.
-/

namespace InertiaTrader

/-- The connections whose socket is alive stay under their ids, and no others. -/
def Server.FreesDead (recvStatus : ConnRef → Bool) (sr : Server) : Prop :=
  sr.freeEmptysocket recvStatus =
    .ok { sr with connStorage := sr.connStorage.filter fun entry => recvStatus entry.2 }

/-- After a dead entry comes one that is alive. -/
def LiveFollowsDead (recvStatus : ConnRef → Bool) (entries : List (ℤ × ConnRef)) : Prop :=
  ∀ before entry after, entries = before ++ entry :: after → recvStatus entry.2 = false →
    ∃ next later, after = next :: later ∧ recvStatus next.2 = true

section

variable {recvStatus : ConnRef → Bool} {entry : ℤ × ConnRef} {entries : List (ℤ × ConnRef)}

theorem liveFollowsDead_cons_iff :
    LiveFollowsDead recvStatus (entry :: entries) ↔
      (recvStatus entry.2 = false →
        ∃ next later, entries = next :: later ∧ recvStatus next.2 = true) ∧
      LiveFollowsDead recvStatus entries := by
  constructor
  · intro follows
    refine ⟨follows [] entry entries rfl, ?_⟩
    intro before other after parts
    apply follows (entry :: before) other after
    rw [parts, List.cons_append]
  · rintro ⟨here, follows⟩ before other after parts dead
    cases before with
    | nil =>
        obtain ⟨rfl, rfl⟩ := List.cons.inj parts
        exact here dead
    | cons head before =>
        obtain ⟨rfl, rfl⟩ := List.cons.inj parts
        exact follows before other after rfl dead

theorem kept_eq_ok_iff {freed : Except Fault (List (ℤ × ConnRef))} :
    (do return entry :: (← freed)) = (.ok (entry :: entries) : Except Fault _) ↔
      freed = .ok entries := by
  constructor
  · intro finished
    obtain ⟨kept, ran, returned⟩ := bind_eq_ok_iff.mp finished
    cases returned
    exact ran
  · rintro rfl
    rfl

theorem freeFrom_eq_filter_iff :
    freeFrom recvStatus entries = .ok (entries.filter fun entry => recvStatus entry.2) ↔
      LiveFollowsDead recvStatus entries := by
  fun_induction freeFrom recvStatus entries with
  | case1 =>
      refine iff_of_true rfl ?_
      intro before entry after parts
      simp at parts
  | case2 entry rest alive inductionHypothesis =>
      have kept : (entry :: rest).filter (fun entry => recvStatus entry.2) = entry :: _ :=
        List.filter_cons_of_pos alive
      rw [liveFollowsDead_cons_iff, ← inductionHypothesis, kept, kept_eq_ok_iff]
      refine (and_iff_right ?_).symm
      intro dead
      rw [dead] at alive
      cases alive
  | case3 entry dead =>
      refine iff_of_false ?_ ?_
      · intro finished
        cases finished
      · intro follows
        obtain ⟨next, later, absent, -⟩ := follows [] entry [] rfl (by simpa using dead)
        cases absent
  | case4 entry dead skipped rest inductionHypothesis =>
      have erased : (entry :: skipped :: rest).filter (fun entry => recvStatus entry.2) = _ :=
        List.filter_cons_of_neg dead
      rw [liveFollowsDead_cons_iff, erased]
      by_cases alive : recvStatus skipped.2 = true
      · have kept : (skipped :: rest).filter (fun entry => recvStatus entry.2) = skipped :: _ :=
          List.filter_cons_of_pos alive
        rw [liveFollowsDead_cons_iff, ← inductionHypothesis, kept, kept_eq_ok_iff]
        simp [alive]
      · -- The skipped entry stays although it is dead.
        refine iff_of_false ?_ ?_
        · intro finished
          obtain ⟨kept, -, returned⟩ := bind_eq_ok_iff.mp finished
          have listed : skipped ∈ (skipped :: rest).filter fun entry => recvStatus entry.2 := by
            rw [← Except.ok.inj returned]
            exact List.mem_cons_self
          exact alive (List.mem_filter.mp listed).2
        · rintro ⟨here, -⟩
          obtain ⟨next, later, parts, nextAlive⟩ := here (by simpa using dead)
          obtain ⟨rfl, -⟩ := List.cons.inj parts
          exact alive nextAlive

end

/-- Exactly the dead connections are freed, without leaving the map, exactly when
each is followed by one that is alive. -/
theorem Server.freesDead_iff (recvStatus : ConnRef → Bool) (sr : Server) :
    sr.FreesDead recvStatus ↔ LiveFollowsDead recvStatus sr.connStorage := by
  rw [← freeFrom_eq_filter_iff, FreesDead, freeEmptysocket]
  constructor
  · intro finished
    obtain ⟨connStorage, ran, returned⟩ := bind_eq_ok_iff.mp finished
    cases returned
    exact ran
  · intro ran
    rw [ran]
    rfl

/-- A server on which these connections are stored. -/
def serving (connStorage : List (ℤ × ConnRef)) : Server where
  connStorage
  connections _ := ⟨0, [], false⟩
  userList := Server.initialUsers
  quotesList := Server.initialQuotes

/-- A client alone that disconnects, and two whose entries are neighbours. -/
theorem dead_connections_not_freed :
    (serving [(5, 0)]).freeEmptysocket (fun _ => false) = .error .endIterator ∧
      (serving [(5, 0), (7, 1)]).freeEmptysocket (fun _ => false) = .ok (serving [(7, 1)]) ∧
      ¬ (serving [(5, 0)]).FreesDead (fun _ => false) ∧
      ¬ (serving [(5, 0), (7, 1)]).FreesDead fun _ => false := by
  refine ⟨rfl, rfl, ?_, ?_⟩
  · intro finished
    cases finished
  · intro finished
    have stored := congrArg Server.connStorage (Except.ok.inj finished)
    cases stored

end InertiaTrader
