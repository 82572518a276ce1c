/-!
# Tables of characters

Properties of characters are data: sorted runs of code points, written down as compact text
(`41-5A` is a run, `100-12E/2` every second code point of one, `B5>3BC` a character with its image).
This file reads that text and looks code points up.  A `Table` answers "is it in the set", a
`ShiftTable` also moves a code point by the distance that its run is moved.
-/

namespace Highlight.Unicode

/-- The code points `first`, `first + step`, … up to `last`. -/
structure Run where
  first : Nat
  last : Nat
  step : Nat
  deriving Repr, DecidableEq, Inhabited

/-- Whether a code point is one of the run's. -/
def Run.contains (run : Run) (code : Nat) : Bool :=
  run.first ≤ code && code ≤ run.last && (code - run.first) % run.step == 0

/-! ## Reading the text of a table -/

/-- The value of a hexadecimal digit. -/
def hexDigit? (c : Char) : Option Nat :=
  if '0' ≤ c && c ≤ '9' then some (c.toNat - '0'.toNat)
  else if 'A' ≤ c && c ≤ 'F' then some (c.toNat - 'A'.toNat + 10)
  else if 'a' ≤ c && c ≤ 'f' then some (c.toNat - 'a'.toNat + 10)
  else none

/-- The number that the leading hexadecimal digits write, added to `value` shifted, and what
follows them. -/
def readHex (value : Nat) : List Char → Nat × List Char
  | [] => (value, [])
  | c :: rest =>
    match hexDigit? c with
    | some digit => readHex (value * 16 + digit) rest
    | none => (value, c :: rest)

/-- A run written `first`, `first-last` or `first-last/step`, and the text after it. -/
def Run.read (text : List Char) : Run × List Char :=
  match readHex 0 text with
  | (first, '-' :: rest) =>
    match readHex 0 rest with
    | (last, '/' :: rest) =>
      let (step, rest) := readHex 0 rest
      (⟨first, last, step⟩, rest)
    | (last, rest) => (⟨first, last, 1⟩, rest)
  | (first, rest) => (⟨first, first, 1⟩, rest)

/-- The words of a text, between which blanks and newlines stand; `current` is the word that is
being read, backwards. -/
def splitAtBlanks (current : List Char) : List Char → List (List Char)
  | [] => if current.isEmpty then [] else [current.reverse]
  | c :: rest =>
    if c == ' ' || c == '\n' then
      if current.isEmpty then splitAtBlanks [] rest else current.reverse :: splitAtBlanks [] rest
    else splitAtBlanks (c :: current) rest

/-! ## Sets -/

/-- A set of code points as runs in increasing order that do not overlap. -/
structure Table where
  runs : Array Run
  deriving Repr, DecidableEq, Inhabited

/-- The table that a text of runs separated by blanks describes. -/
def Table.ofText (text : String) : Table :=
  ⟨((splitAtBlanks [] text.toList).map fun entry => (Run.read entry).1).toArray⟩

/-- How many runs of `runs` between the positions `low` and `high` start at `code` or before,
counted from the array's beginning; the runs before `low` do and those from `high` on do not. -/
def startedBy (firstOf : Nat → Option Nat) (code low high : Nat) : Nat :=
  if _ : low < high then
    let middle := (low + high) / 2
    match firstOf middle with
    | some first =>
      if first ≤ code then startedBy firstOf code (middle + 1) high
      else startedBy firstOf code low middle
    | none => low
  else low
termination_by high - low

/-- Whether a code point is in the set: only the last run that starts at it or before can hold
it. -/
def Table.contains (table : Table) (code : Nat) : Bool :=
  match startedBy (fun i => table.runs[i]?.map Run.first) code 0 table.runs.size with
  | 0 => false
  | i + 1 =>
    match table.runs[i]? with
    | some run => run.contains code
    | none => false

/-! ## Maps -/

/-- A run of code points that are all moved by one distance: `first` goes to `target`. -/
structure Shift extends Run where
  target : Nat
  deriving Repr, DecidableEq, Inhabited

/-- A map on code points that moves the runs it names and nothing else. -/
structure ShiftTable where
  shifts : Array Shift
  deriving Inhabited

/-- The map that a text of `run>target` entries separated by blanks describes. -/
def ShiftTable.ofText (text : String) : ShiftTable :=
  ⟨((splitAtBlanks [] text.toList).map fun entry =>
      match Run.read entry with
      | (run, '>' :: rest) => { run with target := (readHex 0 rest).1 }
      | (run, _) => { run with target := run.first }).toArray⟩

/-- Where a code point goes, if its run is moved. -/
def ShiftTable.map? (table : ShiftTable) (code : Nat) : Option Nat :=
  match startedBy (fun i => table.shifts[i]?.map fun s => s.first) code 0 table.shifts.size with
  | 0 => none
  | i + 1 =>
    match table.shifts[i]? with
    | some shift =>
      if shift.toRun.contains code then some (shift.target + (code - shift.first)) else none
    | none => none

/-- The code points that go to `target`. -/
def ShiftTable.sources (table : ShiftTable) (target : Nat) : List Nat :=
  table.shifts.toList.filterMap fun shift =>
    let source := shift.first + (target - shift.target)
    if shift.target ≤ target && shift.toRun.contains source then some source else none

end Highlight.Unicode
