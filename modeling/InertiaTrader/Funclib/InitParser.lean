import InertiaTrader.Foundation.AssociationList
import InertiaTrader.Funclib.Faults

/-!
# `InitParser`

Reads the entries of one section of an INI file.  The file is the list of its lines, or
`none` where it does not open; lines are numbered from 1.
-/

namespace InertiaTrader

open Foundation

structure InitParser where
  target : Text
  tagLineNum : List ℕ := []
  startPos : ℕ := 0
  endPos : ℕ := 0
  iniContainer : List (Text × Text) := []
  deriving DecidableEq

/-- The text that `findLine` searches for. -/
def header (target : Text) : Text := '[' :: (target ++ [']'])

/-- `line[0]=='['`; an empty line has a NUL there. -/
def isTagLine (line : Text) : Bool := line.head? = some '['

/-- `line.find('[' + target_ + ']') != npos`. -/
def showsHeader (target line : Text) : Bool := header target <:+: line

/-- The file as it comes with the program. -/
def settings : List Text :=
  ["[socket]".toList, "addr=127.0.0.1".toList, "port=1203".toList, [],
    "[TraderServer]".toList, "addr=192.168.56.104".toList, "port=1203".toList, [],
    "[database]".toList, "addr=192.168.56.105".toList, "user=root".toList, "port=3306".toList,
    "password=Aa1234".toList, "database=stock".toList, [],
    "[Testdatabase]".toList, "addr=172.28.0.3".toList, "user=root".toList, "port=3306".toList,
    "password=Aa1234".toList, "database=stock".toList]

namespace InitParser

def construct (target : Text) : InitParser := { target }

def scanLine (parser : InitParser) (linenum : ℕ) (line : Text) : InitParser :=
  let tagged :=
    if isTagLine line then { parser with tagLineNum := parser.tagLineNum ++ [linenum] } else parser
  if showsHeader parser.target line then { tagged with startPos := linenum } else tagged

/-- The loop of `findLine` over the lines behind line `linenum`. -/
def scan (parser : InitParser) (linenum : ℕ) : List Text → InitParser
  | [] => parser
  | line :: lines => (parser.scanLine (linenum + 1) line).scan (linenum + 1) lines

def findLine (parser : InitParser) : Option (List Text) → Except Fault InitParser
  | none => .ok parser
  | some lines =>
      let scanned := parser.scan 0 lines
      if scanned.startPos = 0 then .ok scanned
      else
        match scanned.tagLineNum[scanned.tagLineNum.idxOf scanned.startPos + 1]? with
        | none => .error .outOfRange
        | some endPos =>
            .ok { scanned with endPos := if endPos = 0 then lines.length + 1 else endPos }

/-- The inner loop of `readLine`: `token1` is what `find` has passed since `pos_start`, the
text behind an equals sign is the value. -/
def readEntries (token1 : Text) : Text → List (Text × Text) → List (Text × Text)
  | [], container => container
  | symbol :: token2, container =>
      if symbol = '=' then readEntries [] token2 (insertOrAssign token1 token2 container)
      else readEntries (token1 ++ [symbol]) token2 container

/-- The loop of `readLine` over the lines behind line `linenum`. -/
def readLines (parser : InitParser) (linenum : ℕ) : List Text → InitParser
  | [] => parser
  | line :: lines =>
      if parser.startPos < linenum + 1 ∧ linenum + 1 < parser.endPos then
        readLines { parser with iniContainer := readEntries [] line parser.iniContainer }
          (linenum + 1) lines
      else readLines parser (linenum + 1) lines

def readLine (parser : InitParser) (file : Option (List Text)) : Except Fault InitParser := do
  let found ← parser.findLine file
  match file with
  | none => return found
  | some lines => return found.readLines 0 lines

/-- Repeated calls of `readLine` on a file that stays the same. -/
def reread (lines : List Text) : ℕ → InitParser → Except Fault InitParser
  | 0, parser => .ok parser
  | calls + 1, parser => do
      let read ← parser.readLine (some lines)
      reread lines calls read

/-- The lines between the two positions. -/
def selected (parser : InitParser) (lines : List Text) : List Text :=
  (lines.take (parser.endPos - 1)).drop parser.startPos

def readSection (content : List Text) (container : List (Text × Text)) : List (Text × Text) :=
  content.foldl (fun result line => readEntries [] line result) container

theorem readLines_eq (parser : InitParser) (lines : List Text) :
    parser.readLines 0 lines =
      { parser with iniContainer := readSection (parser.selected lines) parser.iniContainer } := by
  suffices behind : ∀ linenum, parser.readLines linenum lines =
      { parser with
        iniContainer := readSection
          ((lines.take (parser.endPos - 1 - linenum)).drop (parser.startPos - linenum))
          parser.iniContainer } from behind 0
  induction lines generalizing parser with
  | nil =>
      intro linenum
      rw [readLines, List.take_nil, List.drop_nil]
      rfl
  | cons line lines inductionHypothesis =>
      intro linenum
      rw [readLines]
      split
      next inside =>
        have opened : parser.startPos - linenum = 0 := by omega
        have left : parser.endPos - 1 - linenum = parser.endPos - 1 - (linenum + 1) + 1 := by omega
        have still : parser.startPos - (linenum + 1) = 0 := by omega
        rw [inductionHypothesis, opened, left, List.take_succ_cons, List.drop_zero]
        simp only [still, List.drop_zero]
        rfl
      next outside =>
        rw [inductionHypothesis]
        by_cases room : linenum + 1 < parser.endPos
        · have closed : parser.startPos - linenum = parser.startPos - (linenum + 1) + 1 := by omega
          have left : parser.endPos - 1 - linenum = parser.endPos - 1 - (linenum + 1) + 1 := by
            omega
          rw [closed, left, List.take_succ_cons, List.drop_succ_cons]
        · have left : parser.endPos - 1 - linenum = 0 := by omega
          have left' : parser.endPos - 1 - (linenum + 1) = 0 := by omega
          rw [left, left', List.take_zero, List.take_zero, List.drop_nil, List.drop_nil]

end InitParser

end InertiaTrader
