import Highlight.Regex.Pattern
import Highlight.Text

/-!
# Searching with a pattern

The text is read one character at a time.  What can still happen is an ordered list of threads, the
preferred one first; each thread is a list of tasks that are left, headed by a set of characters.
`explore` works off the tasks that take no text, and keeps only the first of two threads with the
same tasks, so that the number of threads does not grow with the text.  The first thread that has
no task left is the match, unless one that is preferred to it finds a longer way.
-/

namespace Highlight.Regex

/-- What a thread has left to do. -/
inductive Task where
  | run (pattern : Pattern)
  /-- The end of a group. -/
  | close (group : Nat)
  /-- The end of a round of an unlimited repetition.  A stale one has been here since the last
  character was read. -/
  | again (body : Pattern) (greedy : Bool) (fresh : Bool)
  deriving Repr, DecidableEq, Inhabited

/-- A task as it counts for telling threads apart. -/
def Task.erased : Task → Task
  | again body greedy _ => again body greedy false
  | task => task

/-- A task once a character was read. -/
def Task.refreshed : Task → Task
  | again body greedy _ => again body greedy true
  | task => task

/-- Where groups begin and end, counted in characters from the start of the text. -/
structure Marks where
  opened : List (Nat × Nat) := []
  closed : List (Nat × Nat × Nat) := []
  deriving Repr, DecidableEq, Inhabited

namespace Marks

/-- Notes the start of a group. -/
def openGroup (marks : Marks) (group position : Nat) : Marks :=
  { marks with opened := (group, position) :: marks.opened.filter fun entry => entry.1 != group }

/-- Notes the end of a group; the last match of a group counts. -/
def closeGroup (marks : Marks) (group position : Nat) : Marks :=
  match marks.opened.lookup group with
  | none => marks
  | some start =>
    { marks with
      closed := (group, start, position) :: marks.closed.filter fun entry => entry.1 != group }

/-- The start and the end of a group. -/
def range? (marks : Marks) (group : Nat) : Option (Nat × Nat) :=
  marks.closed.lookup group

end Marks

/-- One way in which a match can go on. -/
structure Thread where
  todo : List Task
  marks : Marks
  deriving Repr, DecidableEq, Inhabited

/-- A place in the text. -/
structure Place where
  before : Option Char
  rest : List Char
  position : Nat
  deriving Repr, DecidableEq, Inhabited

/-- What exploring a place has found so far. -/
structure Frontier where
  /-- The lists of tasks that were met, without freshness. -/
  seen : List (List Task) := []
  /-- The threads that wait for a character, the preferred one last. -/
  threads : List Thread := []
  /-- The marks of the first thread that has nothing left to do. -/
  found : Option Marks := none
  deriving Repr, Inhabited

/-! ## Work left in a list of tasks -/

/-- Bounds the steps that a pattern takes without reading a character. -/
def Pattern.work : Pattern → Nat
  | .empty => 1
  | .char .. => 1
  | .look _ => 1
  | .group _ body => body.work + 2
  | .seq first second => first.work + second.work + 1
  | .alt first second => first.work + second.work + 1
  | .times body least most _ => (least + most.getD 0 + 2) * (body.work + 1) + 4

/-- Bounds the steps that a task takes without reading a character. -/
def Task.work : Task → Nat
  | run pattern => pattern.work
  | close _ => 1
  | again body _ true => body.work + 3
  | again _ _ false => 1

/-- Bounds the steps that a list of tasks takes without reading a character. -/
def workOf : List Task → Nat
  | [] => 1
  | task :: rest => task.work + workOf rest

/-- Follows a list of tasks up to the next characters, adding to what was found before.  Nothing is
added behind a thread that is done, and nothing that was met before. -/
def explore (place : Place) (todo : List Task) (marks : Marks) (found : Frontier) : Frontier :=
  let key := todo.map Task.erased
  if found.found.isSome || found.seen.contains key then found
  else
    let found := { found with seen := key :: found.seen }
    match todo with
    | [] => { found with found := some marks }
    | .close group :: rest => explore place rest (marks.closeGroup group place.position) found
    | .again _ _ false :: _ => found
    | .again body greedy true :: rest =>
      let round := .run body :: .again body greedy false :: rest
      if greedy then explore place rest marks (explore place round marks found)
      else explore place round marks (explore place rest marks found)
    | .run pattern :: rest =>
      match pattern with
      | .empty => explore place rest marks found
      | .char .. => { found with threads := ⟨todo, marks⟩ :: found.threads }
      | .look condition =>
        if condition.holds place.before place.rest then explore place rest marks found else found
      | .group index body =>
        explore place (.run body :: .close index :: rest)
          (marks.openGroup index place.position) found
      | .seq first second => explore place (.run first :: .run second :: rest) marks found
      | .alt first second =>
        explore place (.run second :: rest) marks
          (explore place (.run first :: rest) marks found)
      | .times body (least + 2) none greedy =>
        explore place (.run body :: .run (.times body (least + 1) none greedy) :: rest)
          marks found
      | .times body 1 none greedy =>
        explore place (.run body :: .again body greedy true :: rest) marks found
      | .times body 0 none greedy =>
        let round := .run body :: .again body greedy true :: rest
        if greedy then explore place rest marks (explore place round marks found)
        else explore place round marks (explore place rest marks found)
      | .times body (least + 1) (some most) greedy =>
        explore place
          (.run body :: .run (.times body least (some (most - 1)) greedy) :: rest) marks found
      | .times _ 0 (some 0) _ => explore place rest marks found
      | .times body 0 (some (most + 1)) greedy =>
        let round := .run body :: .run (.times body 0 (some most) greedy) :: rest
        if greedy then explore place rest marks (explore place round marks found)
        else explore place round marks (explore place rest marks found)
termination_by workOf todo
decreasing_by
  all_goals simp only [workOf, Task.work, Pattern.work, Nat.succ_eq_add_one, Nat.add_mul,
    Nat.sub_mul, Nat.mul_add, Option.getD_some, Option.getD_none]
  all_goals omega

/-! ## Reading the text -/

/-- The threads that are left once a character is read, at the place behind it. -/
def advance (c : Char) (place : Place) (threads : List Thread) : Frontier :=
  threads.foldl (fun found thread =>
    match thread.todo with
    | .run (.char mode set) :: rest =>
      if mode.any (set.contains mode) c then
        explore place (rest.map Task.refreshed) thread.marks found
      else found
    | _ => found) {}

/-- A match: where it starts and stops, counted in characters, and its groups. -/
structure Match where
  start : Nat
  stop : Nat
  marks : Marks
  deriving Repr, DecidableEq, Inhabited

/-- Reads the text until no thread is left, and answers the last match that was found. -/
def runThreads (start position : Nat) (threads : List Thread) (best : Option Match) :
    List Char → Option Match
  | [] => best
  | c :: rest =>
    if threads.isEmpty then best
    else
      let place := ⟨some c, rest, position + 1⟩
      let found := advance c place threads
      runThreads start (position + 1) found.threads.reverse
        (match found.found with
          | some marks => some ⟨start, position + 1, marks⟩
          | none => best) rest

/-- The match of a pattern that starts at a place. -/
def Pattern.matchAt (pattern : Pattern) (place : Place) : Option Match :=
  let found := explore place [.run pattern] {} {}
  runThreads place.position place.position found.threads.reverse
    (found.found.map fun marks => ⟨place.position, place.position, marks⟩) place.rest

/-- The first match of a pattern in a text, that is, one that starts as early as possible. -/
def Pattern.searchFrom (pattern : Pattern) (before : Option Char) (position : Nat) :
    List Char → Option Match
  | [] => pattern.matchAt ⟨before, [], position⟩
  | c :: rest =>
    match pattern.matchAt ⟨before, c :: rest, position⟩ with
    | some found => some found
    | none => pattern.searchFrom (some c) (position + 1) rest

/-- The first match of a pattern in a text. -/
def Pattern.search (pattern : Pattern) (text : List Char) : Option Match :=
  if pattern.anchored then pattern.matchAt ⟨none, text, 0⟩ else pattern.searchFrom none 0 text

namespace Match

/-- The text up to the end of a match. -/
def reach (found : Match) (text : List Char) : List Char :=
  text.take found.stop

/-- The text of a group, empty if the group took no part in the match. -/
def group (found : Match) (text : List Char) (index : Nat) : List Char :=
  let range := if index == 0 then some (found.start, found.stop) else found.marks.range? index
  match range with
  | some (start, stop) => (text.take stop).drop start
  | none => []

/-- The texts of the first `count` groups; the first of them is the whole match. -/
def groups (found : Match) (text : List Char) (count : Nat) : List (List Char) :=
  (List.range count).map (found.group text)

end Match

end Highlight.Regex
