import InertiaTrader.Funclib.InitParser

/-!
# Sections of an INI file

`readLine` reads a section exactly when a tag line follows behind it and no later line
shows its header; otherwise it indexes its tag lines past their end or takes another line
for the header.
-/

namespace InertiaTrader

open Foundation

structure IsSection (target : Text) (lines before content rest : List Text) : Prop where
  whole : lines = before ++ header target :: (content ++ rest)
  inner : ∀ line ∈ content, isTagLine line = false
  ends : ∀ line, rest.head? = some line → isTagLine line = true

/-- One call of `readLine` reads the lines of the section: it starts at the header and ends
at the next tag line, or one past the last line. -/
def ReadsSection (target : Text) (lines : List Text) (earlier later : InitParser) : Prop :=
  ∃ before content rest, IsSection target lines before content rest ∧
    later.startPos = before.length + 1 ∧
    later.endPos = before.length + content.length + 2 ∧
    later.iniContainer = InitParser.readSection content earlier.iniContainer

/-- A header with a tag line somewhere behind it and no line behind it that shows it. -/
def Selectable (target : Text) (lines : List Text) : Prop :=
  ∃ before after, lines = before ++ header target :: after ∧
    (∀ line ∈ after, showsHeader target line = false) ∧
    ∃ line ∈ after, isTagLine line = true

def tagNumbers (linenum : ℕ) : List Text → List ℕ
  | [] => []
  | line :: lines =>
      if isTagLine line then (linenum + 1) :: tagNumbers (linenum + 1) lines
      else tagNumbers (linenum + 1) lines

def lastMatch (target : Text) (linenum : ℕ) : List Text → ℕ → ℕ
  | [], found => found
  | line :: lines, found =>
      lastMatch target (linenum + 1) lines (if showsHeader target line then linenum + 1 else found)

section

variable {target : Text} {lines : List Text}

theorem tagNumbers_append (linenum : ℕ) (first second : List Text) :
    tagNumbers linenum (first ++ second) =
      tagNumbers linenum first ++ tagNumbers (linenum + first.length) second := by
  induction first generalizing linenum with
  | nil => rfl
  | cons line first inductionHypothesis =>
      have later : linenum + 1 + first.length = linenum + (line :: first).length := by
        rw [List.length_cons]
        omega
      rw [List.cons_append, tagNumbers, tagNumbers, inductionHypothesis, later]
      split
      next => rfl
      next => rfl

theorem bounds_of_mem_tagNumbers {linenum number : ℕ}
    (listed : number ∈ tagNumbers linenum lines) :
    linenum < number ∧ number ≤ linenum + lines.length := by
  induction lines generalizing linenum with
  | nil => cases listed
  | cons line lines inductionHypothesis =>
      rw [tagNumbers] at listed
      rw [List.length_cons]
      split at listed
      next =>
        rcases List.mem_cons.mp listed with rfl | later
        · omega
        · have bounds := inductionHypothesis later
          omega
      next =>
        have bounds := inductionHypothesis listed
        omega

theorem tagNumbers_of_inner {linenum : ℕ} (inner : ∀ line ∈ lines, isTagLine line = false) :
    tagNumbers linenum lines = [] := by
  induction lines generalizing linenum with
  | nil => rfl
  | cons line lines inductionHypothesis =>
      rw [tagNumbers, inner line List.mem_cons_self, if_neg Bool.false_ne_true]
      exact inductionHypothesis fun other membership =>
        inner other (List.mem_cons_of_mem line membership)

theorem tagNumbers_cons_of_tag {linenum : ℕ} {line : Text} (tag : isTagLine line = true) :
    tagNumbers linenum (line :: lines) = (linenum + 1) :: tagNumbers (linenum + 1) lines := by
  rw [tagNumbers, if_pos tag]

theorem isTagLine_header (target : Text) : isTagLine (header target) = true := rfl

theorem showsHeader_header (target : Text) : showsHeader target (header target) = true := by
  rw [showsHeader, decide_eq_true_eq]

theorem lastMatch_append (linenum : ℕ) (first second : List Text) (found : ℕ) :
    lastMatch target linenum (first ++ second) found =
      lastMatch target (linenum + first.length) second (lastMatch target linenum first found) := by
  induction first generalizing linenum found with
  | nil => rfl
  | cons line first inductionHypothesis =>
      have later : linenum + 1 + first.length = linenum + (line :: first).length := by
        rw [List.length_cons]
        omega
      rw [List.cons_append, lastMatch, lastMatch, inductionHypothesis, later]

theorem lastMatch_of_absent {linenum found : ℕ}
    (absent : ∀ line ∈ lines, showsHeader target line = false) :
    lastMatch target linenum lines found = found := by
  induction lines generalizing linenum with
  | nil => rfl
  | cons line lines inductionHypothesis =>
      rw [lastMatch, absent line List.mem_cons_self, if_neg Bool.false_ne_true]
      exact inductionHypothesis fun other membership =>
        absent other (List.mem_cons_of_mem line membership)

theorem lastMatch_of_present (present : ∃ line ∈ lines, showsHeader target line = true)
    (linenum found : ℕ) :
    linenum < lastMatch target linenum lines found ∧
      ∀ other, lastMatch target linenum lines other = lastMatch target linenum lines found := by
  induction lines generalizing linenum found with
  | nil => simp at present
  | cons line lines inductionHypothesis =>
      rw [lastMatch]
      by_cases later : ∃ line ∈ lines, showsHeader target line = true
      · obtain ⟨behind, same⟩ := inductionHypothesis later (linenum + 1)
          (if showsHeader target line then linenum + 1 else found)
        refine ⟨by omega, fun other => ?_⟩
        rw [lastMatch]
        exact same _
      · have absent : ∀ line ∈ lines, showsHeader target line = false := by simpa using later
        obtain ⟨first, membership, shows⟩ := present
        rcases List.mem_cons.mp membership with rfl | behind
        · rw [shows, if_pos rfl, lastMatch_of_absent absent]
          refine ⟨by omega, fun other => ?_⟩
          rw [lastMatch, shows, if_pos rfl, lastMatch_of_absent absent]
        · exact absurd ⟨first, behind, shows⟩ later

theorem lastMatch_again (linenum found : ℕ) :
    lastMatch target linenum lines (lastMatch target linenum lines found) =
      lastMatch target linenum lines found := by
  by_cases present : ∃ line ∈ lines, showsHeader target line = true
  · exact (lastMatch_of_present present linenum found).2 _
  · have absent : ∀ line ∈ lines, showsHeader target line = false := by simpa using present
    exact lastMatch_of_absent absent

theorem scan_eq (parser : InitParser) (linenum : ℕ) (lines : List Text) :
    parser.scan linenum lines =
      { parser with
        tagLineNum := parser.tagLineNum ++ tagNumbers linenum lines
        startPos := lastMatch parser.target linenum lines parser.startPos } := by
  induction lines generalizing parser linenum with
  | nil => rw [InitParser.scan, tagNumbers, List.append_nil, lastMatch]
  | cons line lines inductionHypothesis =>
      rw [InitParser.scan, inductionHypothesis, InitParser.scanLine, tagNumbers, lastMatch]
      cases isTagLine line <;> cases showsHeader parser.target line <;> simp

end

/-- What the first call finds: the last line that shows the header and, where there is one,
the tag line next to it. -/
def Finds (target : Text) (lines : List Text) (startPos endPos : ℕ) : Prop :=
  startPos = lastMatch target 0 lines 0 ∧
    if startPos = 0 then endPos = 0
    else (tagNumbers 0 lines)[(tagNumbers 0 lines).idxOf startPos + 1]? = some endPos

/-- The parser has scanned the file some number of times, or not at all: its tag lines are
those of the file over and over. -/
structure Rescannable (target : Text) (lines : List Text) (parser : InitParser) : Prop where
  aim : parser.target = target
  tags : ∃ tail, parser.tagLineNum ++ tagNumbers 0 lines = tagNumbers 0 lines ++ tail
  start : lastMatch target 0 lines parser.startPos = lastMatch target 0 lines 0
  finish : lastMatch target 0 lines 0 = 0 → parser.endPos = 0

section

variable {target : Text} {lines : List Text}

theorem rescannable_construct (target : Text) (lines : List Text) :
    Rescannable target lines (.construct target) where
  aim := rfl
  tags := ⟨[], by rw [List.append_nil]; rfl⟩
  start := rfl
  finish := fun _ => rfl

theorem getElem?_idxOf_append {numbers : List ℕ} {number next : ℕ}
    (found : numbers[numbers.idxOf number + 1]? = some next) (tail : List ℕ) :
    (numbers ++ tail)[(numbers ++ tail).idxOf number + 1]? = some next := by
  obtain ⟨inside, _⟩ := List.getElem?_eq_some_iff.mp found
  have listed : number ∈ numbers := List.idxOf_lt_length_iff.mp (by omega)
  rw [List.idxOf_append_of_mem listed, List.getElem?_append_left inside, found]

namespace Rescannable

variable {parser : InitParser}

theorem scan_eq (ready : Rescannable target lines parser) :
    parser.scan 0 lines =
      { parser with
        tagLineNum := parser.tagLineNum ++ tagNumbers 0 lines
        startPos := lastMatch target 0 lines 0 } := by
  rw [InertiaTrader.scan_eq, ready.aim, ready.start]

theorem rescan (ready : Rescannable target lines parser) {endPos : ℕ}
    (finish : lastMatch target 0 lines 0 = 0 → endPos = 0) (container : List (Text × Text)) :
    Rescannable target lines
      { parser with
        tagLineNum := parser.tagLineNum ++ tagNumbers 0 lines
        startPos := lastMatch target 0 lines 0
        endPos := endPos
        iniContainer := container } where
  aim := ready.aim
  tags := by
    obtain ⟨tail, repeats⟩ := ready.tags
    refine ⟨tail ++ tagNumbers 0 lines, ?_⟩
    rw [repeats, List.append_assoc]
  start := lastMatch_again 0 0
  finish := finish

theorem findLine_eq (ready : Rescannable target lines parser) {startPos endPos : ℕ}
    (finds : Finds target lines startPos endPos) :
    parser.findLine (some lines) =
      .ok { parser with
        tagLineNum := parser.tagLineNum ++ tagNumbers 0 lines
        startPos := startPos
        endPos := endPos } := by
  obtain ⟨starts, ends⟩ := finds
  rw [InitParser.findLine, ready.scan_eq, ← starts]
  split at ends
  next none =>
    have kept := ready.finish (starts.symm.trans none)
    simp only [none, if_true, ends, ← kept]
  next some =>
    obtain ⟨tail, repeats⟩ := ready.tags
    have further := getElem?_idxOf_append ends tail
    have positive : endPos ≠ 0 := by
      have bounds := bounds_of_mem_tagNumbers (List.mem_of_getElem? ends)
      omega
    simp only [some, if_false, repeats, further, positive]

theorem readLine_eq (ready : Rescannable target lines parser) {startPos endPos : ℕ}
    (finds : Finds target lines startPos endPos) :
    parser.readLine (some lines) =
      .ok { parser with
        tagLineNum := parser.tagLineNum ++ tagNumbers 0 lines
        startPos := startPos
        endPos := endPos
        iniContainer := InitParser.readSection ((lines.take (endPos - 1)).drop startPos)
          parser.iniContainer } := by
  rw [InitParser.readLine, ready.findLine_eq finds]
  exact congrArg Except.ok (InitParser.readLines_eq _ lines)

theorem readLine (ready : Rescannable target lines parser) {startPos endPos : ℕ}
    (finds : Finds target lines startPos endPos) :
    ∃ later, parser.readLine (some lines) = .ok later ∧ Rescannable target lines later ∧
      later.startPos = startPos ∧ later.endPos = endPos ∧
      later.iniContainer =
        InitParser.readSection (later.selected lines) parser.iniContainer := by
  refine ⟨_, ready.readLine_eq finds, ?_, rfl, rfl, rfl⟩
  obtain ⟨starts, ends⟩ := finds
  rw [starts]
  apply ready.rescan
  intro none
  rwa [starts, if_pos none] at ends

theorem reread (ready : Rescannable target lines parser) {startPos endPos : ℕ}
    (finds : Finds target lines startPos endPos) (calls : ℕ) :
    ∃ later, InitParser.reread lines calls parser = .ok later ∧
      Rescannable target lines later := by
  induction calls generalizing parser with
  | zero => exact ⟨parser, rfl, ready⟩
  | succ calls inductionHypothesis =>
      obtain ⟨read, succeeds, readReady, _⟩ := ready.readLine finds
      obtain ⟨later, rereads, laterReady⟩ := inductionHypothesis readReady
      refine ⟨later, ?_, laterReady⟩
      rw [InitParser.reread, succeeds]
      exact rereads

end Rescannable

theorem finds_of_readLine {read : InitParser}
    (succeeds : (InitParser.construct target).readLine (some lines) = .ok read) :
    Finds target lines read.startPos read.endPos := by
  rw [InitParser.readLine, bind_eq_ok_iff] at succeeds
  obtain ⟨found, finds, reads⟩ := succeeds
  have read_eq : found.readLines 0 lines = read := Except.ok.inj reads
  rw [InitParser.readLines_eq] at read_eq
  rw [InitParser.findLine, (rescannable_construct target lines).scan_eq] at finds
  rw [← read_eq]
  split at finds
  next none =>
    cases finds
    refine ⟨rfl, ?_⟩
    rw [if_pos none]
    rfl
  next some =>
    split at finds
    next => cases finds
    next endPos next_eq =>
      cases finds
      refine ⟨rfl, ?_⟩
      have positive : endPos ≠ 0 := by
        have bounds := bounds_of_mem_tagNumbers (List.mem_of_getElem? next_eq)
        omega
      rw [if_neg some, if_neg positive]
      exact next_eq

theorem selected_of_isSection {before content rest : List Text}
    (sectioned : IsSection target lines before content rest) {parser : InitParser}
    (starts : parser.startPos = before.length + 1)
    (ends : parser.endPos = before.length + content.length + 2) :
    parser.selected lines = content := by
  have upTo : parser.endPos - 1 = (before ++ header target :: content).length := by
    rw [ends, List.length_append, List.length_cons]
    omega
  have whole : lines = (before ++ header target :: content) ++ rest := by
    rw [sectioned.whole, List.append_assoc, List.cons_append]
  have opened : parser.startPos = (before ++ [header target]).length := by
    rw [starts, List.length_append, List.length_singleton]
  have front : before ++ header target :: content = (before ++ [header target]) ++ content := by
    rw [List.append_assoc, List.singleton_append]
  rw [InitParser.selected, upTo, whole, List.take_left, opened, front, List.drop_left]

theorem lastMatch_header {before after : List Text}
    (absent : ∀ line ∈ after, showsHeader target line = false) (found : ℕ) :
    lastMatch target 0 (before ++ header target :: after) found = before.length + 1 := by
  rw [lastMatch_append, lastMatch, showsHeader_header, if_pos rfl, lastMatch_of_absent absent]
  omega

theorem finds_of_isSection {before content rest : List Text}
    (sectioned : IsSection target lines before content rest) (followed : rest ≠ [])
    (absent : ∀ line ∈ content ++ rest, showsHeader target line = false) :
    Finds target lines (before.length + 1) (before.length + content.length + 2) := by
  rw [Finds, if_neg (Nat.succ_ne_zero _)]
  rw [sectioned.whole]
  refine ⟨(lastMatch_header absent 0).symm, ?_⟩
  cases rest with
  | nil => exact absurd rfl followed
  | cons tag rest =>
      have free : before.length + 1 ∉ tagNumbers 0 before := by
        intro listed
        have bounds := bounds_of_mem_tagNumbers listed
        omega
      have numbers : tagNumbers 0 (before ++ header target :: (content ++ tag :: rest)) =
          tagNumbers 0 before ++ (before.length + 1) :: (before.length + content.length + 2) ::
            tagNumbers (before.length + content.length + 2) rest := by
        have shift : 0 + before.length + 1 + content.length + 1 =
            before.length + content.length + 2 := by omega
        rw [tagNumbers_append, tagNumbers_cons_of_tag (isTagLine_header target),
          tagNumbers_append, tagNumbers_of_inner sectioned.inner, List.nil_append,
          tagNumbers_cons_of_tag (sectioned.ends tag rfl), shift, Nat.zero_add]
      have next : (tagNumbers 0 before).length + 0 + 1 - (tagNumbers 0 before).length = 1 := by
        omega
      rw [numbers, List.idxOf_append_of_notMem free, List.idxOf_cons_self,
        List.getElem?_append_right (by omega), next]
      rfl

theorem isSection_takeWhile {before after : List Text}
    (whole : lines = before ++ header target :: after) :
    IsSection target lines before (after.takeWhile fun line => !isTagLine line)
      (after.dropWhile fun line => !isTagLine line) where
  whole := by rw [List.takeWhile_append_dropWhile, whole]
  inner := by
    intro line membership
    simpa using List.mem_takeWhile_imp membership
  ends := by
    intro line isHead
    have stopped := List.head?_dropWhile_not (fun line => !isTagLine line) after
    rw [isHead] at stopped
    simpa using stopped

theorem selectable_of_readsSection {read : InitParser}
    (finds : Finds target lines read.startPos read.endPos)
    (reads : ReadsSection target lines (.construct target) read) : Selectable target lines := by
  obtain ⟨before, content, rest, sectioned, starts, ends, _⟩ := reads
  obtain ⟨isLast, next⟩ := finds
  rw [if_neg (by omega)] at next
  have bounds := bounds_of_mem_tagNumbers (List.mem_of_getElem? next)
  have size := congrArg List.length sectioned.whole
  rw [List.length_append, List.length_cons, List.length_append] at size
  refine ⟨before, content ++ rest, sectioned.whole, ?_, ?_⟩
  · intro line membership
    by_contra shows
    have later := lastMatch_of_present ⟨line, membership, by simpa using shows⟩
      (0 + before.length + 1) (0 + before.length + 1)
    rw [sectioned.whole, lastMatch_append, lastMatch, showsHeader_header, if_pos rfl] at isLast
    omega
  · cases rest with
    | nil =>
        rw [List.length_nil] at size
        omega
    | cons tag rest => exact ⟨tag, by simp, sectioned.ends tag rfl⟩

end

/-- `readLine` reads the section of the header in every call, without an access out of
range, exactly when no line behind the header shows it again and a tag line follows. -/
theorem readsSection_iff_selectable (target : Text) (lines : List Text) :
    (∀ calls, ∃ earlier later,
      InitParser.reread lines calls (.construct target) = .ok earlier ∧
        earlier.readLine (some lines) = .ok later ∧ ReadsSection target lines earlier later) ↔
      Selectable target lines := by
  constructor
  · intro always
    obtain ⟨earlier, later, none, succeeds, reads⟩ := always 0
    cases none
    exact selectable_of_readsSection (finds_of_readLine succeeds) reads
  · rintro ⟨before, after, whole, absent, tag, membership, isTag⟩ calls
    have sectioned := isSection_takeWhile whole
    have followed : (after.dropWhile fun line => !isTagLine line) ≠ [] := by
      intro none
      rw [List.dropWhile_eq_nil_iff] at none
      simpa [isTag] using none tag membership
    have finds := finds_of_isSection sectioned followed
      (by rwa [List.takeWhile_append_dropWhile])
    obtain ⟨earlier, rereads, ready⟩ := (rescannable_construct target lines).reread finds calls
    obtain ⟨later, succeeds, _, starts, ends, container⟩ := ready.readLine finds
    refine ⟨earlier, later, rereads, succeeds, before, _, _, sectioned, starts, ends, ?_⟩
    rw [container, selected_of_isSection sectioned starts ends]

/-- The last section of the settings has no tag line behind it, and a tag line that shows a
header is taken for it. -/
theorem findLine_misses_section :
    settings.count (header "Testdatabase".toList) = 1 ∧
      (InitParser.construct "Testdatabase".toList).findLine (some settings) =
        .error .outOfRange ∧
      ((InitParser.construct ['a']).findLine
        (some [['[', 'a', ']'], ['k', '=', 'v'], ['[', 'b', '[', 'a', ']'], ['[', 'c', ']']])).map
          InitParser.startPos = .ok 3 := by
  decide +kernel

end InertiaTrader
