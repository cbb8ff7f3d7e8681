import InertiaTrader.Foundation.Tokens
import InertiaTrader.Funclib.IniSections

/-!
# Values of an INI file

`readLine` goes on behind the first equals sign of a line, so that a value with another one
makes keys of its own.
-/

namespace InertiaTrader

open Foundation

def OwnEntry (line key value : Text) : Prop :=
  line = key ++ '=' :: value ∧ '=' ∉ key

def FurtherEntry (line key value : Text) : Prop :=
  ∃ front, line = front ++ '=' :: (key ++ '=' :: value) ∧ '=' ∉ key

/-- What the inner loop writes under a key. -/
def Entry (line key value : Text) : Prop := OwnEntry line key value ∨ FurtherEntry line key value

def LastOwn (content : List Text) (key value : Text) : Prop :=
  ∃ earlier line later, content = earlier ++ line :: later ∧ OwnEntry line key value ∧
    ∀ other ∈ later, ∀ replaced, ¬ OwnEntry other key replaced

/-- The container has the key of every line, with the whole value of its last line, and no
other key. -/
def KeptWhole (content : List Text) (container : List (Text × Text)) : Prop :=
  ∀ key value, container.lookup key = some value ↔ LastOwn content key value

/-- A key that a value makes is written again, by the rest of the value or by a later line,
or it is the key of a line, with the same value. -/
def FurtherHarmless (content : List Text) : Prop :=
  ∀ earlier line later key value, content = earlier ++ line :: later →
    FurtherEntry line key value → (∀ replaced, ¬ Entry value key replaced) →
    (∀ other ∈ later, ∀ replaced, ¬ Entry other key replaced) → LastOwn content key value

/-- The entries of the inner loop in the order in which it writes them. -/
def entriesFrom (token1 : Text) : Text → List (Text × Text)
  | [] => []
  | symbol :: token2 =>
      if symbol = '=' then (token1, token2) :: entriesFrom [] token2
      else entriesFrom (token1 ++ [symbol]) token2

def entries (line : Text) : List (Text × Text) := entriesFrom [] line

section

theorem readEntries_eq (token1 line : Text) (container : List (Text × Text)) :
    InitParser.readEntries token1 line container =
      assignAll (entriesFrom token1 line) container := by
  induction line generalizing token1 container with
  | nil => rfl
  | cons symbol line inductionHypothesis =>
      rw [InitParser.readEntries, entriesFrom]
      split
      next => exact inductionHypothesis [] _
      next => exact inductionHypothesis _ container

theorem readSection_eq (content : List Text) (container : List (Text × Text)) :
    InitParser.readSection content container =
      assignAll (content.flatMap entries) container := by
  induction content generalizing container with
  | nil => rfl
  | cons line content inductionHypothesis =>
      rw [List.flatMap_cons, assignAll_append, ← inductionHypothesis]
      exact congrArg (InitParser.readSection content) (readEntries_eq [] line container)

theorem entriesFrom_plain {token1 line : Text} (plain : '=' ∉ line) :
    entriesFrom token1 line = [] := by
  induction line generalizing token1 with
  | nil => rfl
  | cons symbol line inductionHypothesis =>
      rw [List.mem_cons, not_or] at plain
      rw [entriesFrom, if_neg fun same => plain.1 same.symm]
      exact inductionHypothesis plain.2

theorem entriesFrom_append {token1 key : Text} (plain : '=' ∉ key) (value : Text) :
    entriesFrom token1 (key ++ '=' :: value) = (token1 ++ key, value) :: entries value := by
  induction key generalizing token1 with
  | nil =>
      rw [List.nil_append, entriesFrom, if_pos rfl, List.append_nil]
      rfl
  | cons symbol key inductionHypothesis =>
      rw [List.mem_cons, not_or] at plain
      rw [List.cons_append, entriesFrom, if_neg fun same => plain.1 same.symm,
        inductionHypothesis plain.2, List.append_assoc, List.singleton_append]

theorem entries_append {key : Text} (plain : '=' ∉ key) (value : Text) :
    entries (key ++ '=' :: value) = (key, value) :: entries value :=
  entriesFrom_append plain value

theorem exists_entriesFrom_append (token1 front tail : Text) :
    ∃ earlier, entriesFrom token1 (front ++ '=' :: tail) = earlier ++ entries tail := by
  induction front generalizing token1 with
  | nil => exact ⟨[(token1, tail)], by rw [List.nil_append, entriesFrom, if_pos rfl]; rfl⟩
  | cons symbol front inductionHypothesis =>
      rw [List.cons_append, entriesFrom]
      split
      next =>
        obtain ⟨earlier, split⟩ := inductionHypothesis []
        exact ⟨_ :: earlier, by rw [split]; rfl⟩
      next => exact inductionHypothesis _

theorem plain_or_ownEntry (line : Text) : '=' ∉ line ∨ ∃ key value, OwnEntry line key value := by
  induction line with
  | nil => exact .inl List.not_mem_nil
  | cons symbol line inductionHypothesis =>
      by_cases equals : symbol = '='
      · exact .inr ⟨[], line, by rw [equals]; rfl, List.not_mem_nil⟩
      · rcases inductionHypothesis with plain | ⟨key, value, rfl, plain⟩
        · exact .inl (by simp [plain, Ne.symm equals])
        · exact .inr ⟨symbol :: key, value, rfl, by simp [plain, Ne.symm equals]⟩

theorem OwnEntry.entry {line key value : Text} (own : OwnEntry line key value) :
    Entry line key value := .inl own

theorem Entry.further {line key value other written : Text} (own : OwnEntry line key value)
    (entry : Entry value other written) : FurtherEntry line other written := by
  rcases entry with ⟨rfl, plain⟩ | ⟨front, rfl, plain⟩
  · exact ⟨key, own.1, plain⟩
  · refine ⟨key ++ '=' :: front, ?_, plain⟩
    rw [own.1, List.append_assoc, List.cons_append]

theorem Entry.exists_entries {line key value : Text} (entry : Entry line key value) :
    ∃ earlier, entries line = earlier ++ (key, value) :: entries value := by
  rcases entry with ⟨rfl, plain⟩ | ⟨front, rfl, plain⟩
  · exact ⟨[], entries_append plain value⟩
  · obtain ⟨earlier, split⟩ := exists_entriesFrom_append [] front (key ++ '=' :: value)
    rw [entries_append plain] at split
    exact ⟨earlier, split⟩

theorem entry_of_entries {line key value : Text} {earlier later : List (Text × Text)}
    (split : entries line = earlier ++ (key, value) :: later) :
    Entry line key value ∧ later = entries value := by
  induction earlier generalizing line with
  | nil =>
      rcases plain_or_ownEntry line with plain | ⟨key', value', own⟩
      · rw [entries, entriesFrom_plain plain] at split
        cases split
      · rw [own.1, entries_append own.2] at split
        obtain ⟨same, rest⟩ := List.cons.inj split
        cases same
        exact ⟨.inl own, rest.symm⟩
  | cons first earlier inductionHypothesis =>
      rcases plain_or_ownEntry line with plain | ⟨key', value', own⟩
      · rw [entries, entriesFrom_plain plain] at split
        cases split
      · rw [own.1, entries_append own.2] at split
        obtain ⟨entry, rest⟩ := inductionHypothesis (List.cons.inj split).2
        exact ⟨.inr (entry.further own), rest⟩

theorem not_mem_keys_entries_iff {line key : Text} :
    key ∉ (entries line).map Prod.fst ↔ ∀ value, ¬ Entry line key value := by
  rw [← not_exists, not_iff_not]
  constructor
  · intro listed
    obtain ⟨⟨_, value⟩, written, rfl⟩ := List.mem_map.mp listed
    obtain ⟨earlier, later, split⟩ := List.append_of_mem written
    exact ⟨value, (entry_of_entries split).1⟩
  · rintro ⟨value, entry⟩
    obtain ⟨earlier, split⟩ := entry.exists_entries
    rw [split, List.map_append, List.map_cons]
    exact List.mem_append_right _ List.mem_cons_self

theorem lastAssigned_entries_iff {line key value : Text} :
    LastAssigned (entries line) key value ↔
      Entry line key value ∧ ∀ replaced, ¬ Entry value key replaced := by
  rw [← not_mem_keys_entries_iff]
  constructor
  · rintro ⟨earlier, later, split, fresh⟩
    obtain ⟨entry, rfl⟩ := entry_of_entries split
    exact ⟨entry, fresh⟩
  · rintro ⟨entry, fresh⟩
    obtain ⟨earlier, split⟩ := entry.exists_entries
    exact ⟨earlier, entries value, split, fresh⟩

def LastEntry (content : List Text) (key value : Text) : Prop :=
  ∃ earlier line later, content = earlier ++ line :: later ∧
    (Entry line key value ∧ ∀ replaced, ¬ Entry value key replaced) ∧
    ∀ other ∈ later, ∀ replaced, ¬ Entry other key replaced

theorem lastAssigned_section_iff {content : List Text} {key value : Text} :
    LastAssigned (content.flatMap entries) key value ↔ LastEntry content key value := by
  rw [lastAssigned_flatMap_iff]
  simp only [lastAssigned_entries_iff, not_mem_keys_entries_iff, LastEntry]

theorem lookup_readSection_iff {content : List Text} {container : List (Text × Text)}
    {key value : Text} :
    (InitParser.readSection content container).lookup key = some value ↔
      LastEntry content key value ∨
        (key ∉ (content.flatMap entries).map Prod.fst ∧ container.lookup key = some value) := by
  rw [readSection_eq, lookup_assignAll_iff, lastAssigned_section_iff]

def ownEntries (line : Text) : List (Text × Text) := (entries line).take 1

theorem lastAssigned_ownEntries_iff {line key value : Text} :
    LastAssigned (ownEntries line) key value ↔ OwnEntry line key value := by
  rcases plain_or_ownEntry line with plain | ⟨key', value', own⟩
  · rw [ownEntries, entries, entriesFrom_plain plain, List.take_nil]
    constructor
    · exact fun last => absurd last.mem List.not_mem_nil
    · intro own
      exact absurd (own.1 ▸ List.mem_append_right key List.mem_cons_self) plain
  · rw [ownEntries, own.1, entries_append own.2, List.take_succ_cons, List.take_zero]
    constructor
    · intro last
      rcases lastAssigned_cons_iff.mp last with later | ⟨same, _⟩
      · exact absurd later.mem List.not_mem_nil
      · cases same
        exact ⟨rfl, own.2⟩
    · rintro ⟨same, plain⟩
      obtain ⟨rfl, rfl⟩ := append_separator_inj own.2 plain same
      exact lastAssigned_cons_iff.mpr (.inr ⟨rfl, List.not_mem_nil⟩)

theorem not_mem_keys_ownEntries_iff {line key : Text} :
    key ∉ (ownEntries line).map Prod.fst ↔ ∀ value, ¬ OwnEntry line key value := by
  simp only [← lastAssigned_ownEntries_iff]
  refine ⟨fun absent value last => absent last.mem, fun never listed => ?_⟩
  obtain ⟨value, last⟩ := exists_lastAssigned listed
  exact never value last

theorem lastAssigned_own_iff {content : List Text} {key value : Text} :
    LastAssigned (content.flatMap ownEntries) key value ↔ LastOwn content key value := by
  rw [lastAssigned_flatMap_iff]
  simp only [lastAssigned_ownEntries_iff, not_mem_keys_ownEntries_iff, LastOwn]

theorem LastOwn.unique {content : List Text} {key value other : Text}
    (last : LastOwn content key value) (last' : LastOwn content key other) : value = other :=
  (lastAssigned_own_iff.mpr last).unique (lastAssigned_own_iff.mpr last')

theorem LastOwn.exists_lastEntry {content : List Text} {key value : Text}
    (last : LastOwn content key value) : ∃ written, LastEntry content key written := by
  obtain ⟨earlier, line, later, rfl, own, _⟩ := last
  have listed : key ∈ ((earlier ++ line :: later).flatMap entries).map Prod.fst := by
    obtain ⟨front, split⟩ := own.entry.exists_entries
    rw [List.flatMap_append, List.flatMap_cons, split]
    simp
  obtain ⟨written, assigned⟩ := exists_lastAssigned listed
  exact ⟨written, lastAssigned_section_iff.mp assigned⟩

theorem FurtherHarmless.lastOwn {content : List Text} (harmless : FurtherHarmless content)
    {key value : Text} (last : LastEntry content key value) : LastOwn content key value := by
  obtain ⟨earlier, line, later, split, ⟨entry, fresh⟩, absent⟩ := last
  rcases entry with own | further
  · exact ⟨earlier, line, later, split, own, fun other membership replaced own' =>
      absent other membership replaced own'.entry⟩
  · exact harmless earlier line later key value split further fresh absent

/-- A container of last entries keeps the values whole exactly where further keys are
harmless. -/
theorem keptWhole_iff_furtherHarmless {content : List Text} {container : List (Text × Text)}
    (stored : ∀ key value, container.lookup key = some value ↔ LastEntry content key value) :
    KeptWhole content container ↔ FurtherHarmless content := by
  constructor
  · intro kept earlier line later key value split further fresh absent
    apply (kept key value).mp
    exact (stored key value).mpr
      ⟨earlier, line, later, split, ⟨.inr further, fresh⟩, absent⟩
  · intro harmless key value
    rw [stored]
    refine ⟨harmless.lastOwn, fun last => ?_⟩
    obtain ⟨written, lastWritten⟩ := last.exists_lastEntry
    rwa [last.unique (harmless.lastOwn lastWritten)]

theorem furtherHarmless_of_count_le_one {content : List Text}
    (single : ∀ line ∈ content, line.count '=' ≤ 1) : FurtherHarmless content := by
  rintro earlier line later key value rfl ⟨front, rfl, _⟩ _ _
  have once := single _ (List.mem_append_right earlier List.mem_cons_self)
  rw [List.count_append, List.count_cons_self, List.count_append, List.count_cons_self] at once
  omega

theorem Rescannable.readLine_stored {target : Text} {lines : List Text} {parser : InitParser}
    (ready : Rescannable target lines parser) {startPos endPos : ℕ}
    (finds : Finds target lines startPos endPos)
    (stored : ∀ key value, parser.iniContainer.lookup key = some value →
      LastEntry ((lines.take (endPos - 1)).drop startPos) key value) :
    ∃ read, parser.readLine (some lines) = .ok read ∧ Rescannable target lines read ∧
      read.selected lines = (lines.take (endPos - 1)).drop startPos ∧
      ∀ key value, read.iniContainer.lookup key = some value ↔
        LastEntry ((lines.take (endPos - 1)).drop startPos) key value := by
  obtain ⟨read, succeeds, readReady, rfl, rfl, container⟩ := ready.readLine finds
  refine ⟨read, succeeds, readReady, rfl, fun key value => ?_⟩
  rw [container, lookup_readSection_iff]
  refine ⟨fun either => either.elim id fun absent => ?_, .inl⟩
  exact stored key value absent.2

theorem Rescannable.reread_stored {target : Text} {lines : List Text} {parser later : InitParser}
    (ready : Rescannable target lines parser) {startPos endPos : ℕ}
    (finds : Finds target lines startPos endPos)
    (stored : ∀ key value, parser.iniContainer.lookup key = some value →
      LastEntry ((lines.take (endPos - 1)).drop startPos) key value)
    {calls : ℕ} (rereads : InitParser.reread lines (calls + 1) parser = .ok later) :
    ∀ key value, later.iniContainer.lookup key = some value ↔
      LastEntry (later.selected lines) key value := by
  induction calls generalizing parser with
  | zero =>
      obtain ⟨read, succeeds, _, content, readStored⟩ := ready.readLine_stored finds stored
      rw [InitParser.reread, succeeds] at rereads
      cases rereads
      rwa [content]
  | succ calls inductionHypothesis =>
      obtain ⟨read, succeeds, readReady, _, readStored⟩ := ready.readLine_stored finds stored
      rw [InitParser.reread, succeeds] at rereads
      exact inductionHypothesis readReady (fun key value => (readStored key value).mp) rereads

end

/-- After any positive number of calls that return, the container has the keys and the whole
values of the lines that were selected exactly when the keys that values make are harmless. -/
theorem keptWhole_iff (target : Text) (lines : List Text) (calls : ℕ) (parser : InitParser)
    (rereads : InitParser.reread lines (calls + 1) (.construct target) = .ok parser) :
    KeptWhole (parser.selected lines) parser.iniContainer ↔
      FurtherHarmless (parser.selected lines) := by
  obtain ⟨read, succeeds, _⟩ := bind_eq_ok_iff.mp rereads
  have ready := rescannable_construct target lines
  apply keptWhole_iff_furtherHarmless
  exact ready.reread_stored (finds_of_readLine succeeds) (fun key value absent => nomatch absent)
    rereads

theorem settings_keptWhole :
    ∃ parser, InitParser.reread settings 1 (.construct "database".toList) = .ok parser ∧
      KeptWhole (parser.selected settings) parser.iniContainer := by
  obtain ⟨parser, rereads, single⟩ :=
    exists_ok_of_any (InitParser.reread settings 1 (.construct "database".toList))
      (fun parser => decide (∀ line ∈ parser.selected settings, line.count '=' ≤ 1))
      (by decide +kernel)
  refine ⟨parser, rereads, (keptWhole_iff _ settings 0 parser rereads).mpr ?_⟩
  exact furtherHarmless_of_count_le_one (of_decide_eq_true single)

/-- A password with an equals sign makes a key of its first part. -/
theorem password_makes_key :
    ∃ parser,
      InitParser.reread ["[database]".toList, "password=Aa1=2".toList, "[Testdatabase]".toList] 1
          (.construct "database".toList) = .ok parser ∧
        ¬ KeptWhole (parser.selected
            ["[database]".toList, "password=Aa1=2".toList, "[Testdatabase]".toList])
          parser.iniContainer := by
  obtain ⟨parser, rereads, facts⟩ :=
    exists_ok_of_any (InitParser.reread
        ["[database]".toList, "password=Aa1=2".toList, "[Testdatabase]".toList] 1
        (.construct "database".toList))
      (fun parser => decide (parser.selected
          ["[database]".toList, "password=Aa1=2".toList, "[Testdatabase]".toList] =
            ["password=Aa1=2".toList] ∧
        parser.iniContainer.lookup "Aa1".toList = some "2".toList))
      (by decide +kernel)
  obtain ⟨content, found⟩ := of_decide_eq_true facts
  refine ⟨parser, rereads, fun kept => ?_⟩
  rw [content] at kept
  obtain ⟨earlier, line, later, split, own, _⟩ := (kept "Aa1".toList "2".toList).mp found
  have isLine : line = "password=Aa1=2".toList := by
    apply List.mem_singleton.mp
    rw [split]
    exact List.mem_append_right _ List.mem_cons_self
  rw [isLine] at own
  exact absurd own.1 (by decide)

end InertiaTrader
