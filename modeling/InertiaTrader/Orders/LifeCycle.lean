import InertiaTrader.Matching.LockReleases

/-!
# The life of an order

What the threads do with an order that was accepted follows one after the other: it rests
in a book, is executed, is pushed and is reported, and everything but the report happens
once.  This is so for every buy order.  A pass erases the sell order that is the last one
when it ends, so for a sell order it depends on what is accepted during the pass.
-/

namespace InertiaTrader

open Foundation

inductive OrderStage where
  | absent
  | resting
  | executed
  | pushed
  deriving DecidableEq

/-- The life of a single order. -/
def orderLife : Machine OrderStage StageEvent StageEvent where
  step
    | .absent, .inserted => some (.resting, [.inserted])
    | .resting, .executed => some (.executed, [.executed])
    | .executed, .pushed => some (.pushed, [.pushed])
    | .pushed, .reported => some (.pushed, [.reported])
    | _, _ => none

def Books.resting (books : Books) : List ℕ :=
  (books.rawBuyside.items ++ books.rawSellside.items).map OrderPtr.address

namespace LockedThreads

def resting (state : LockedThreads) : List ℕ :=
  state.threads.trader.toBooks.resting

/-- The state of the threads shows the stage of the order at this address.  The pair of a
pass stays in the books until it is erased. -/
structure Shows (state : LockedThreads) (address : ℕ) (stage : OrderStage) : Prop where
  resting : stage = .resting ↔
    address ∈ state.resting ∧ address ∉ state.matching.taken.map OrderPtr.address
  executed : stage = .executed ↔ address ∈ state.matching.pending.map OrderPtr.address
  pushed : ∀ order ∈ state.threads.listed, order.address = address → stage = .pushed
  absent : address ∉ state.threads.allocated → stage = .absent

structure Apart (state : LockedThreads) : Prop extends Standing state where
  nodup : state.resting.Nodup
  known : ∀ address ∈ state.resting, address ∈ state.threads.allocated

def Spares (state : LockedThreads) (address : ℕ) : Prop :=
  ∀ odb ods, state.matching = .erase odb ods →
    (address ∈ (state.threads.trader.toBooks.erasePair odb).resting ↔
      address ∈ state.resting ∧ address ∉ [odb, ods].map OrderPtr.address)

/-- While a pass has a pair, no sell order comes behind the one of the pair. -/
def KeepsLast (state : LockedThreads) : LockedEvent → Prop
  | .other (.getOrder address _) => ∀ ods, state.matching.sell = some ods →
      address < ods.address ∨
        ∀ order, state.threads.trader.Accepts order → order.side_ = some .buy
  | _ => True

end LockedThreads

/-- The observations belong to the life of the order, which goes from one stage to the
other. -/
def Leads (address : ℕ) (stage : OrderStage) (observations : List Observation)
    (stage' : OrderStage) : Prop :=
  ∃ events, orderLife.run stage events =
    some (stage', observations.filterMap (Observation.stageEvent address))

section

variable {server : MariaDB} {state next : LockedThreads} {event : LockedEvent}
    {outputs : List LockedOutput} {observations later : List Observation} {address : ℕ}
    {stage stage' stage'' : OrderStage}

theorem Leads.stays
    (silent : observations.filterMap (Observation.stageEvent address) = []) :
    Leads address stage observations stage :=
  ⟨[], by rw [silent]; rfl⟩

theorem Leads.moves (label : StageEvent)
    (shown : observations.filterMap (Observation.stageEvent address) = [label])
    (moved : orderLife.step stage label = some (stage', [label])) :
    Leads address stage observations stage' :=
  ⟨[label], by rw [shown, Machine.run_singleton, moved]⟩

theorem Leads.trans (first : Leads address stage observations stage')
    (second : Leads address stage' later stage'') :
    Leads address stage (observations ++ later) stage'' := by
  obtain ⟨events, ran⟩ := first
  obtain ⟨events', ran'⟩ := second
  refine ⟨events ++ events', (orderLife.run_append_iff ..).mpr ⟨_, _, _, ran, ran', ?_⟩⟩
  exact List.filterMap_append

theorem Books.resting_erasePair {books : Books} {odb last : OrderPtr}
    (rests : odb ∈ books.rawBuyside.items)
    (isLast : books.rawSellside.items.getLast? = some last) :
    books.resting.Perm (odb.address :: last.address :: (books.erasePair odb).resting) := by
  have buys : (odb :: (books.erasePair odb).rawBuyside.items).Perm books.rawBuyside.items :=
    OrderedBag.cons_erase_items_perm (List.getElem?_idxOf rests)
  have sells : (last :: (books.erasePair odb).rawSellside.items).Perm books.rawSellside.items :=
    OrderedBag.cons_erase_items_perm (by rw [← List.getLast?_eq_getElem?, isLast])
  have removed := (buys.append sells).symm.map OrderPtr.address
  refine removed.trans ?_
  simp only [List.cons_append, List.map_cons, List.map_append, resting]
  exact List.perm_middle.cons _

theorem LockedThreads.Apart.pair (apart : state.Apart) (odb ods : OrderPtr)
    (atBuy : state.matching.buy = some odb) (atSell : state.matching.sell = some ods) :
    odb.address ∈ state.resting ∧ ods.address ∈ state.resting ∧ odb.address ≠ ods.address := by
  have buy := (apart.buy odb atBuy).1
  have sell := apart.sell ods atSell
  refine ⟨List.mem_map_of_mem (List.mem_append_left _ buy),
    List.mem_map_of_mem (List.mem_append_right _ sell), ?_⟩
  have nodup := apart.nodup
  rw [resting, Books.resting, List.map_append, List.nodup_append] at nodup
  exact nodup.2.2 _ (List.mem_map_of_mem buy) _ (List.mem_map_of_mem sell)

theorem LockedThreads.Apart.taken_subset (apart : state.Apart) :
    state.matching.taken.map OrderPtr.address ⊆ state.resting := by
  cases standing : state.matching with
  | pushBuy odb ods | pushSell odb ods | erase odb ods =>
      obtain ⟨buy, sell, -⟩ := apart.pair odb ods (by rw [standing]; rfl) (by rw [standing]; rfl)
      simp [Place.taken, buy, sell]
  | _ => exact List.nil_subset _

theorem resting_of_inserts {threads next : Threads} {order : OrderPtr}
    (buys : next.trader.rawBuyside = (threads.trader.toBooks.orderDataInsert order).rawBuyside)
    (sells : next.trader.rawSellside =
      (threads.trader.toBooks.orderDataInsert order).rawSellside) :
    next.trader.toBooks.resting.Perm (order.address :: threads.trader.toBooks.resting) := by
  rw [Books.resting, buys, sells]
  exact (Books.orderDataInsert_perm _ order).map OrderPtr.address

theorem resting_of_same {threads next : Threads}
    (buys : next.trader.rawBuyside = threads.trader.rawBuyside)
    (sells : next.trader.rawSellside = threads.trader.rawSellside) :
    next.trader.toBooks.resting = threads.trader.toBooks.resting := by
  rw [Books.resting, buys, sells, Books.resting]

namespace LockedThreads

theorem apart_step (apart : state.Apart)
    (stepped : state.step server event = some (next, outputs)) : next.Apart := by
  have standing := standing_step apart.toStanding stepped
  cases event with
  | startTransaction serverStatus =>
      cases stepTransaction_cases stepped <;> exact ⟨standing, apart.nodup, apart.known⟩
  | matchup status =>
      cases stepMatchup_cases stepped with
      | waits => exact apart
      | takes | drops | goes | prices | pushesBuy | pushesSell =>
          exact ⟨standing, apart.nodup, apart.known⟩
      | erases odb ods atPair nonempty =>
          have buy := (apart.buy odb (by rw [atPair]; rfl)).1
          have removed := Books.resting_erasePair buy (List.getLast?_eq_some_getLast nonempty)
          refine ⟨standing, ?_, fun address rests => ?_⟩
          · exact (removed.nodup_iff.mp apart.nodup).of_cons.of_cons
          · refine apart.known address (removed.mem_iff.mpr ?_)
            exact List.mem_cons_of_mem _ (List.mem_cons_of_mem _ rests)
  | other event =>
      obtain ⟨threads, observations, owner, uses, notPass, notPush, stepped', rfl, -, -⟩ :=
        stepOther_cases stepped
      cases otherStep stepped' notPass notPush with
      | quiet buys sells _ allocated =>
          have same := resting_of_same buys sells
          refine ⟨standing, ?_, ?_⟩
          · rw [resting, same]
            exact apart.nodup
          · rw [resting, same]
            exact fun address rests => allocated (apart.known address rests)
      | reports _ buys sells _ _ allocated =>
          have same := resting_of_same buys sells
          refine ⟨standing, ?_, ?_⟩
          · rw [resting, same]
            exact apart.nodup
          · rw [resting, same, allocated]
            exact apart.known
      | inserts order fresh allocated buys sells =>
          have inserted := resting_of_inserts buys sells
          refine ⟨standing, ?_, fun address rests => ?_⟩
          · refine inserted.nodup_iff.mpr (List.nodup_cons.mpr ⟨?_, apart.nodup⟩)
            exact fun rests => fresh (apart.known _ rests)
          · rw [allocated]
            rcases List.mem_cons.mp (inserted.mem_iff.mp rests) with rfl | before
            · exact List.mem_cons_self
            · exact List.mem_cons_of_mem _ (apart.known _ before)

theorem Shows.quiet (shows : state.Shows address stage) (resting : next.resting = state.resting)
    (taken : next.matching.taken = state.matching.taken)
    (pending : next.matching.pending = state.matching.pending)
    (listed : next.threads.listed ⊆ state.threads.listed)
    (allocated : state.threads.allocated ⊆ next.threads.allocated) :
    next.Shows address stage where
  resting := by
    rw [resting, taken]
    exact shows.resting
  executed := by
    rw [pending]
    exact shows.executed
  pushed order isListed := shows.pushed order (listed isListed)
  absent fresh := shows.absent fun earlier => fresh (allocated earlier)

theorem Shows.executes (shows : state.Shows address stage) (apart : state.Apart)
    {odb ods : OrderPtr} {sr : Server} (price : Price)
    (atPair : state.matching = .price odb ods)
    (isNext : next = { state with
      threads := { state.threads with trader := { state.threads.trader with sr } }
      matching := .pushBuy odb ods }) :
    ∃ stage', next.Shows address stage' ∧
      Leads address stage [.executed (odb.withExecPrice price) (ods.withExecPrice price)]
        stage' := by
  subst isNext
  obtain ⟨buy, sell, -⟩ := apart.pair odb ods (by rw [atPair]; rfl) (by rw [atPair]; rfl)
  have notTaken : address ∉ state.matching.taken.map OrderPtr.address := by
    rw [atPair]
    exact List.not_mem_nil
  by_cases isPair : odb.address = address ∨ ods.address = address
  · have rests : address ∈ state.resting := by rcases isPair with rfl | rfl <;> assumption
    have isResting := shows.resting.mpr ⟨rests, notTaken⟩
    subst isResting
    have listed : address ∈ [odb, ods].map OrderPtr.address := by
      simpa [eq_comm] using isPair
    refine ⟨.executed, ⟨?_, iff_of_true rfl listed, ?_, ?_⟩, .moves .executed ?_ rfl⟩
    · exact iff_of_false (by simp) fun both => both.2 listed
    · intro order isListed same
      cases shows.pushed order isListed same
    · exact fun fresh => absurd (apart.known _ rests) fresh
    · simp [Observation.stageEvent, isPair]
  · have notListed : address ∉ [odb, ods].map OrderPtr.address := by
      simpa [eq_comm] using isPair
    refine ⟨stage, ⟨?_, iff_of_false ?_ notListed, shows.pushed, shows.absent⟩, .stays ?_⟩
    · rw [shows.resting]
      exact and_congr_right fun _ => iff_of_true notTaken notListed
    · rw [shows.executed, atPair]
      exact List.not_mem_nil
    · simp [Observation.stageEvent, isPair]

theorem Shows.pushes (shows : state.Shows address stage) {order : OrderPtr} {price : Price}
    {place : Place} (taken : place.taken = state.matching.taken)
    (pending : state.matching.pending = order :: place.pending)
    (different : order.address ∉ place.pending.map OrderPtr.address)
    (known : order.address ∈ state.threads.allocated) :
    ∃ stage', (state.pushReport (order.withExecPrice price) place).1.Shows address stage' ∧
      Leads address stage [.pushed (order.withExecPrice price)] stage' := by
  have executed := shows.executed
  rw [pending, List.map_cons, List.mem_cons] at executed
  have listed {other : OrderPtr}
      (isListed : other ∈ (state.pushReport (order.withExecPrice price) place).1.threads.listed) :
      other ∈ state.threads.listed ∨ other = order.withExecPrice price := by
    simp only [Threads.listed, pushReport, Trader.pushReport, List.mem_append,
      List.mem_singleton] at isListed ⊢
    tauto
  by_cases here : order.address = address
  · subst here
    have isExecuted := executed.mpr (.inl rfl)
    subst isExecuted
    have notResting := shows.resting
    refine ⟨.pushed, ⟨?_, iff_of_false (by simp) different, fun _ _ _ => rfl, ?_⟩,
      .moves .pushed ?_ rfl⟩
    · change _ ↔ _ ∈ state.resting ∧ _ ∉ place.taken.map OrderPtr.address
      rw [taken, ← shows.resting]
      simp
    · exact fun fresh => absurd known fresh
    · simp [Observation.stageEvent]
  · refine ⟨stage, ⟨?_, ?_, ?_, shows.absent⟩, .stays ?_⟩
    · change _ ↔ _ ∈ state.resting ∧ _ ∉ place.taken.map OrderPtr.address
      rw [taken, ← shows.resting]
    · rw [executed]
      exact ⟨fun isPending => isPending.resolve_left (Ne.symm here), .inr⟩
    · intro other isListed same
      rcases listed isListed with before | rfl
      · exact shows.pushed other before same
      · exact absurd same here
    · simp [Observation.stageEvent, here]

theorem Shows.erases (shows : state.Shows address stage) (spared : state.Spares address)
    {odb ods : OrderPtr} (atPair : state.matching = .erase odb ods)
    (isNext : next = { state with
      threads := { state.threads with
        trader := { state.threads.trader with
          toBooks := state.threads.trader.toBooks.erasePair odb } }
      matching := .unlock }) : next.Shows address stage := by
  subst isNext
  refine ⟨?_, ?_, shows.pushed, shows.absent⟩
  · have erased := spared odb ods atPair
    rw [shows.resting, atPair]
    exact erased.symm.trans ⟨fun rests => ⟨rests, List.not_mem_nil⟩, And.left⟩
  · rw [shows.executed, atPair]
    rfl

theorem Shows.inserts (shows : state.Shows address stage) (apart : state.Apart)
    {threads : Threads} {owner : Option LockThread} {order : OrderPtr}
    (fresh : order.address ∉ state.threads.allocated)
    (allocated : threads.allocated = order.address :: state.threads.allocated)
    (inserted : threads.trader.toBooks.resting.Perm
      (order.address :: state.threads.trader.toBooks.resting))
    (listed : threads.listed = state.threads.listed)
    (shown : observations.filterMap (Observation.stageEvent address) =
      if order.address = address then [.inserted] else []) :
    ∃ stage', Shows { state with threads, owner } address stage' ∧
      Leads address stage observations stage' := by
  by_cases here : order.address = address
  · subst here
    rw [if_pos rfl] at shown
    have isAbsent := shows.absent fresh
    subst isAbsent
    have notTaken := fun taken => fresh (apart.known _ (apart.taken_subset taken))
    refine ⟨.resting, ⟨?_, ?_, ?_, ?_⟩, .moves .inserted shown rfl⟩
    · exact iff_of_true rfl ⟨inserted.mem_iff.mpr List.mem_cons_self, notTaken⟩
    · refine iff_of_false (by simp) ?_
      rw [← shows.executed]
      simp
    · rw [listed]
      intro other isListed same
      cases shows.pushed other isListed same
    · rw [allocated]
      exact fun unknown => absurd List.mem_cons_self unknown
  · rw [if_neg here] at shown
    refine ⟨stage, ⟨?_, shows.executed, ?_, ?_⟩, .stays shown⟩
    · change _ ↔ address ∈ threads.trader.toBooks.resting ∧ _
      rw [inserted.mem_iff, List.mem_cons, or_iff_right (Ne.symm here)]
      exact shows.resting
    · rw [listed]
      exact shows.pushed
    · rw [allocated]
      exact fun unknown => shows.absent fun earlier => unknown (List.mem_cons_of_mem _ earlier)

theorem life_other {event : Event} (apart : state.Apart) (shows : state.Shows address stage)
    (stepped : state.stepOther server event = some (next, outputs)) :
    ∃ stage', next.Shows address stage' ∧ Leads address stage (shownIn outputs) stage' := by
  obtain ⟨threads, observations, owner, uses, notPass, notPush, stepped', rfl, rfl, -⟩ :=
    stepOther_cases stepped
  have shown : shownIn (observations.map .shows ++ uses.map .uses) = observations := by simp
  rw [shown]
  cases otherStep stepped' notPass notPush with
  | quiet buys sells listed allocated silent =>
      exact ⟨stage, shows.quiet (resting_of_same buys sells) rfl rfl listed allocated,
        .stays (silent address)⟩
  | inserts order fresh allocated buys sells listed _ _ shown =>
      exact shows.inserts apart fresh allocated (resting_of_inserts buys sells) listed
        (shown address)
  | reports order buys sells isListed listed allocated _ shown =>
      have shows' : Shows { state with threads, owner } address stage :=
        shows.quiet (resting_of_same buys sells) rfl rfl listed (by rw [allocated]; simp)
      have now := shown address
      by_cases here : order.address = address
      · rw [if_pos here] at now
        have isPushed := shows.pushed order isListed here
        subst isPushed
        exact ⟨.pushed, shows', .moves .reported now rfl⟩
      · rw [if_neg here] at now
        exact ⟨stage, shows', .stays now⟩

theorem life_matchup {status : Bool} (apart : state.Apart) (spared : state.Spares address)
    (shows : state.Shows address stage)
    (stepped : state.stepMatchup status = some (next, outputs)) :
    ∃ stage', next.Shows address stage' ∧ Leads address stage (shownIn outputs) stage' := by
  have same (orders : List OrderPtr) : orders ⊆ orders := List.Subset.refl orders
  have moved {place : Place} (owner : Option LockThread)
      (taken : place.taken = [] ∧ state.matching.taken = [])
      (pending : place.pending = [] ∧ state.matching.pending = []) :
      Shows { state with owner, matching := place } address stage :=
    shows.quiet rfl (taken.1.trans taken.2.symm) (pending.1.trans pending.2.symm) (same _)
      (List.Subset.refl _)
  cases stepMatchup_cases stepped with
  | waits => exact ⟨stage, shows, .stays rfl⟩
  | takes place granted =>
      obtain ⟨-, -, taken, taken', pending, pending'⟩ := Place.granted_keeps granted
      exact ⟨stage, moved _ ⟨taken, taken'⟩ ⟨pending, pending'⟩, .stays rfl⟩
  | drops place released =>
      obtain ⟨-, -, taken, taken', pending, pending', -⟩ := Place.released_keeps released
      exact ⟨stage, moved _ ⟨taken, taken'⟩ ⟨pending, pending'⟩, .stays rfl⟩
  | goes place uses touches moves =>
      refine ⟨stage, moved state.owner moves.taken moves.pending, .stays ?_⟩
      rw [shownIn_uses]
      rfl
  | prices odb ods sr atPair => exact shows.executes apart _ atPair rfl
  | pushesBuy odb ods atPair =>
      obtain ⟨buy, -, different⟩ :=
        apart.pair odb ods (by rw [atPair]; rfl) (by rw [atPair]; rfl)
      refine shows.pushes ?_ ?_ ?_ (apart.known _ buy)
      · rw [atPair]
        rfl
      · rw [atPair]
        rfl
      · simpa [Place.pending] using different
  | pushesSell odb ods atPair =>
      obtain ⟨-, sell, -⟩ := apart.pair odb ods (by rw [atPair]; rfl) (by rw [atPair]; rfl)
      refine shows.pushes ?_ ?_ ?_ (apart.known _ sell)
      · rw [atPair]
        rfl
      · rw [atPair]
        rfl
      · exact List.not_mem_nil
  | erases odb ods atPair => exact ⟨stage, shows.erases spared atPair rfl, .stays rfl⟩

theorem life_step (apart : state.Apart) (spared : state.Spares address)
    (shows : state.Shows address stage)
    (stepped : state.step server event = some (next, outputs)) :
    ∃ stage', next.Shows address stage' ∧ Leads address stage (shownIn outputs) stage' := by
  cases event with
  | startTransaction serverStatus =>
      have same (orders : List OrderPtr) : orders ⊆ orders := List.Subset.refl orders
      cases stepTransaction_cases stepped <;>
        exact ⟨stage, shows.quiet rfl rfl rfl (same _) (List.Subset.refl _), .stays rfl⟩
  | matchup status => exact life_matchup apart spared shows stepped
  | other event => exact life_other apart shows stepped

theorem mem_resting_erasePair (apart : state.Apart) {odb ods last : OrderPtr}
    (atPair : state.matching = .erase odb ods)
    (isLast : state.threads.trader.rawSellside.items.getLast? = some last) :
    address ∈ (state.threads.trader.toBooks.erasePair odb).resting ↔
      address ∈ state.resting ∧ address ∉ [odb, last].map OrderPtr.address := by
  have removed := Books.resting_erasePair (apart.buy odb (by rw [atPair]; rfl)).1 isLast
  have nodup := removed.nodup_iff.mp apart.nodup
  rw [resting, removed.mem_iff]
  simp only [List.nodup_cons, List.mem_cons, not_or, List.map_cons, List.map_nil,
    List.not_mem_nil, not_false_eq_true, and_true] at nodup ⊢
  constructor
  · intro rests
    refine ⟨.inr (.inr rests), ?_, ?_⟩
    · rintro rfl
      exact nodup.1.2 rests
    · rintro rfl
      exact nodup.2.1 rests
  · rintro ⟨rfl | rfl | rests, notBuy, notSell⟩
    · exact absurd rfl notBuy
    · exact absurd rfl notSell
    · exact rests

def LastKept (state : LockedThreads) : Prop :=
  ∀ ods, state.matching.sell = some ods →
    state.threads.trader.rawSellside.items.getLast? = some ods

theorem LastKept.spares (kept : state.LastKept) (apart : state.Apart) :
    state.Spares address := by
  intro odb ods atPair
  exact mem_resting_erasePair apart atPair (kept ods (by rw [atPair]; rfl))

def NoSell (address : ℕ) (state : LockedThreads) : Prop :=
  ∀ sell ∈ state.threads.trader.rawSellside.items, sell.address ≠ address

theorem NoSell.spares (noSell : state.NoSell address) (apart : state.Apart) :
    state.Spares address := by
  intro odb ods atPair
  have sell := apart.sell ods (by rw [atPair]; rfl)
  have isLast := List.getLast?_eq_some_getLast (List.ne_nil_of_mem sell)
  rw [mem_resting_erasePair apart atPair isLast]
  have notLast := noSell _ (List.getLast_mem (List.ne_nil_of_mem sell))
  have notSell := noSell ods sell
  simp [Ne.symm notLast, Ne.symm notSell]

theorem lastKept_step (kept : state.LastKept)
    (keeps : state.KeepsLast event)
    (stepped : state.step server event = some (next, outputs)) : next.LastKept := by
  cases event with
  | startTransaction serverStatus =>
      cases stepTransaction_cases stepped <;> exact kept
  | matchup status =>
      cases stepMatchup_cases stepped with
      | waits => exact kept
      | takes place granted =>
          obtain ⟨-, sell, -⟩ := Place.granted_keeps granted
          exact fun ods atSell => kept ods (sell ▸ atSell)
      | drops place released =>
          obtain ⟨-, sell, -⟩ := Place.released_keeps released
          intro ods atSell
          exact absurd (sell.symm.trans atSell) (by simp)
      | goes place uses touches moves buy sell => exact sell
      | prices odb ods sr atPair | pushesBuy odb ods atPair | pushesSell odb ods atPair =>
          exact fun ods atSell => kept ods (by rw [atPair]; exact atSell)
      | erases => simp [LastKept, Place.sell]
  | other event =>
      obtain ⟨threads, observations, owner, uses, notPass, notPush, stepped', rfl, -, -⟩ :=
        stepOther_cases stepped
      intro ods atSell
      have isLast := kept ods atSell
      cases otherStep stepped' notPass notPush with
      | quiet _ sells | reports _ _ sells =>
          rw [sells]
          exact isLast
      | inserts order fresh _ _ sells _ accepts inserted =>
          rw [sells, Books.orderDataInsert]
          split
          next => exact isLast
          next notBuy =>
            refine OrderedBag.getLast?_insert_items isLast ?_
            have shown : .inserted order ∈ observations := mem_insertedIn.mp (by simp [inserted])
            obtain ⟨⟨connected, rfl⟩, -⟩ := accepts_of_inserted stepped' shown
            exact (keeps ods atSell).resolve_right fun buys => notBuy (buys _ accepts)

theorem noSell_step (noSell : state.NoSell address)
    (bought : ∀ order ∈ insertedIn (shownIn outputs), order.address = address →
      order.order.side_ = some .buy)
    (stepped : state.step server event = some (next, outputs)) : next.NoSell address := by
  cases event with
  | startTransaction serverStatus => cases stepTransaction_cases stepped <;> exact noSell
  | matchup status =>
      cases stepMatchup_cases stepped with
      | erases => exact fun sell rests => noSell sell ((List.eraseIdx_sublist ..).subset rests)
      | _ => exact noSell
  | other event =>
      obtain ⟨threads, observations, owner, uses, notPass, notPush, stepped', rfl, rfl, -⟩ :=
        stepOther_cases stepped
      rw [shownIn_append, shownIn_shows, shownIn_uses, List.append_nil] at bought
      intro sell rests
      cases otherStep stepped' notPass notPush with
      | quiet _ sells | reports _ _ sells =>
          rw [sells] at rests
          exact noSell sell rests
      | inserts order fresh _ _ sells _ accepts inserted =>
          rw [sells, Books.orderDataInsert] at rests
          split at rests
          next => exact noSell sell rests
          next notBuy =>
            rcases OrderedBag.mem_insert_items.mp rests with rfl | before
            · exact fun same => notBuy (bought sell (by simp [inserted]) same)
            · exact noSell sell before

theorem along_of_bought
    (bought : ∀ order ∈ insertedIn (shownIn outputs), order.address = address →
      order.order.side_ = some .buy) {last : LockedThreads} {events : List LockedEvent}
    (finished : (lockedThreads server).run state events = some (last, outputs)) :
    (lockedThreads server).Along (fun state event => ∀ next now,
      state.step server event = some (next, now) → ∀ order ∈ insertedIn (shownIn now),
        order.address = address → order.order.side_ = some .buy) state events := by
  have shown : ∀ output ∈ outputs, ∀ order, output = .shows (.inserted order) →
      order.address = address → order.order.side_ = some .buy := by
    rintro _ isOutput order rfl
    exact bought order (mem_insertedIn.mpr (mem_shownIn.mpr isOutput))
  refine (lockedThreads server).along_of_outputs ?_ finished shown
  intro state event next now stepped holds next' now' stepped' order inserted
  cases stepped.symm.trans stepped'
  exact holds _ (mem_shownIn.mp (mem_insertedIn.mp inserted)) order rfl

theorem life_run {trader : Trader} {last : LockedThreads} {events : List LockedEvent}
    (kept : LockedThreads → Prop) {condition : LockedThreads → LockedEvent → Prop}
    (keeps : ∀ state event next outputs, kept state → condition state event →
      state.step server event = some (next, outputs) → kept next)
    (spares : ∀ state, state.Apart → kept state → state.Spares address)
    (toBooks : trader.toBooks = .empty) (reportList : trader.reportList = [])
    (initially : kept (.start trader))
    (along : (lockedThreads server).Along condition (.start trader) events)
    (finished : (lockedThreads server).run (.start trader) events = some (last, outputs)) :
    ∃ stage, Leads address .absent (shownIn outputs) stage ∧ last.Shows address stage := by
  have nothingRests : (start trader).resting = [] := by
    change trader.toBooks.resting = []
    rw [toBooks]
    rfl
  have holds := (lockedThreads server).invariant_of_run_along
    (fun state seen => state.Apart ∧ kept state ∧
      ∃ stage, Leads address .absent (shownIn seen) stage ∧ state.Shows address stage)
    ?_ ?_ along finished
  · exact holds.2.2
  · rintro state seen event next outputs ⟨apart, isKept, stage, led, shows⟩ holds stepped
    obtain ⟨stage', shows', leads⟩ := life_step apart (spares state apart isKept) shows stepped
    refine ⟨apart_step apart stepped, keeps state event next outputs isKept holds stepped,
      stage', ?_, shows'⟩
    rw [shownIn_append]
    exact led.trans leads
  · refine ⟨⟨standing_start trader, ?_, ?_⟩, initially, .absent, .stays rfl, ⟨?_, ?_, ?_, ?_⟩⟩
    · rw [nothingRests]
      exact List.nodup_nil
    · rw [nothingRests]
      simp
    · rw [nothingRests]
      simp
    · simp [start, Place.pending]
    · intro order listed
      have nothingListed : (start trader).threads.listed = [] := by
        change trader.reportList ++ _ = _
        rw [reportList]
        rfl
      rw [nothingListed] at listed
      cases listed
    · exact fun _ => rfl

end LockedThreads

end

/-- In every run of a process, the orders live one stage after the other and the state shows
how far each of them has got: every buy order, and every order if no sell order ever comes
behind that of a pass. -/
theorem orders_live_in_order (server : MariaDB) (db : Database) (rc : RiskController)
    (nidSub1 : BitVec 32) (sr : Server) (events : List LockedEvent) (last : LockedThreads)
    (outputs : List LockedOutput)
    (finished : (lockedThreads server).run (.start (.construct server db rc nidSub1 sr)) events =
      some (last, outputs)) (address : ℕ)
    (spared : (∀ order ∈ insertedIn (shownIn outputs), order.address = address →
        order.order.side_ = some .buy) ∨
      (lockedThreads server).Along LockedThreads.KeepsLast
        (.start (.construct server db rc nidSub1 sr)) events) :
    ∃ labels stage,
      orderLife.run .absent labels =
          some (stage, (shownIn outputs).filterMap (Observation.stageEvent address)) ∧
        last.Shows address stage := by
  have toBooks := Trader.construct_toBooks server db rc nidSub1 sr
  have reportList : (Trader.construct server db rc nidSub1 sr).reportList = [] := by
    obtain ⟨buyside, sellside, equality⟩ := Trader.construct_eq server db rc nidSub1 sr
    rw [equality]
  suffices lived : ∃ stage, Leads address .absent (shownIn outputs) stage ∧
      last.Shows address stage by
    obtain ⟨stage, ⟨labels, ran⟩, shows⟩ := lived
    exact ⟨labels, stage, ran, shows⟩
  rcases spared with bought | keepsLast
  · refine LockedThreads.life_run (LockedThreads.NoSell address) ?_
      (fun state apart noSell => noSell.spares apart) toBooks reportList ?_
      (LockedThreads.along_of_bought bought finished) finished
    · intro state event next now noSell boughtNow stepped
      exact LockedThreads.noSell_step noSell (boughtNow next now stepped) stepped
    · intro sell rests
      change sell ∈ (Trader.construct server db rc nidSub1 sr).toBooks.rawSellside.items at rests
      rw [toBooks] at rests
      cases rests
  · refine LockedThreads.life_run LockedThreads.LastKept ?_
      (fun state apart kept => kept.spares apart) toBooks reportList ?_ keepsLast finished
    · intro state event next now kept keeps stepped
      exact LockedThreads.lastKept_step kept keeps stepped
    · simp [LockedThreads.LastKept, LockedThreads.start, Place.sell]

def reportedTwiceRun : List LockedEvent :=
  thirdOrderRun ++ [.matchup true, .other .readReport, .other (.sendReport true true),
    .matchup true, .other .popReport, .other .readReport, .other (.sendReport true true)]

theorem orders_live_in_order_reportedTwiceRun :
    ∃ last outputs, (lockedThreads .literal).run (.start Threads.initial.trader)
        reportedTwiceRun = some (last, outputs) ∧
      (shownIn outputs).filterMap (Observation.stageEvent 10) =
        [.inserted, .executed, .pushed, .reported, .reported] ∧
      ∃ labels stage, orderLife.run .absent labels =
          some (stage, [.inserted, .executed, .pushed, .reported, .reported]) ∧
        last.Shows 10 stage := by
  obtain ⟨last, outputs, finished, evaluated⟩ :=
    Machine.exists_run_of_any (lockedThreads .literal) (.start Threads.initial.trader)
      reportedTwiceRun (fun _ outputs => decide (
        (shownIn outputs).filterMap (Observation.stageEvent 10) =
          [.inserted, .executed, .pushed, .reported, .reported] ∧
        ∀ order ∈ insertedIn (shownIn outputs), order.address = 10 →
          order.order.side_ = some .buy)) (by decide +kernel)
  obtain ⟨shown, bought⟩ := of_decide_eq_true evaluated
  have lived := orders_live_in_order _ _ _ _ _ _ _ _ finished 10 (.inl bought)
  rw [shown] at lived
  exact ⟨last, outputs, finished, shown, lived⟩

def wrongSellRun : List LockedEvent := [
  .other .firstLogin, .matchup true, .matchup true, .matchup true,
  .other (.receive 0 "87|1|60|1|1|1|KKC".toList), .other (.getOrder 10 true),
  .other (.receive 0 "87|2|60|2|1|1|KKC".toList), .other (.getOrder 20 true),
  .matchup true, .matchup true, .matchup true,
  .other (.receive 0 "87|3|60|2|1|1|KKC".toList), .other (.getOrder 30 true),
  .matchup true, .matchup true, .matchup true, .matchup true, .matchup true, .matchup true,
  .matchup true,
  .other (.receive 0 "87|4|60|1|1|1|KKC".toList), .other (.getOrder 40 true),
  .matchup true, .matchup true, .matchup true, .matchup true,
  .other (.receive 0 "87|5|60|1|1|1|KKC".toList), .other (.getOrder 50 true),
  .matchup true, .matchup true]

theorem sell_order_executed_twice :
    ∃ last outputs, (lockedThreads .literal).run (.start Threads.initial.trader) wrongSellRun =
        some (last, outputs) ∧
      (shownIn outputs).filterMap (Observation.stageEvent 20) =
        [.inserted, .executed, .pushed, .executed] ∧
      (shownIn outputs).filterMap (Observation.stageEvent 30) = [.inserted] ∧
      30 ∉ last.resting := by
  obtain ⟨last, outputs, finished, evaluated⟩ :=
    Machine.exists_run_of_any (lockedThreads .literal) (.start Threads.initial.trader)
      wrongSellRun (fun last outputs => decide (
        (shownIn outputs).filterMap (Observation.stageEvent 20) =
          [.inserted, .executed, .pushed, .executed] ∧
        (shownIn outputs).filterMap (Observation.stageEvent 30) = [.inserted] ∧
        30 ∉ last.resting)) (by decide +kernel)
  exact ⟨last, outputs, finished, of_decide_eq_true evaluated⟩

end InertiaTrader
