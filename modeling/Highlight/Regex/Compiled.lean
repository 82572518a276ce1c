import Highlight.Regex.Reader
import Highlight.Regex.Search

/-!
# Compiled patterns

A pattern as rules use it: read from its text under a wrapper that ties it to the start of the text,
and refused when it would take too much room.
-/

namespace Highlight

namespace Regex

/-! ## Room -/

/-- About how many bytes the states of a set of characters take. -/
def CharSet.room : CharSet → Nat
  | .none => 0
  | .range first last => if first == last then 32 * first.utf8Size else 64
  | .letter .word _ => 45000
  | .letter .digit _ => 2500
  | .letter .space _ => 700
  | .named .. => 100
  | .property .. => 20000
  | .union first second => first.room + second.room
  | .bracket negated body => body.room + (if negated then 200 else 0)
  | .combined _ first second => first.room + second.room

/-- About how many bytes the states of a pattern take; what is repeated is there once for each
round. -/
def Pattern.room : Pattern → Nat
  | .empty => 32
  | .char _ set => set.room
  | .look _ => 32
  | .group _ body => body.room + 64
  | .seq first second => first.room + second.room
  | .alt first second => first.room + second.room + 48
  | .times body least none _ => max least 1 * body.room + 48
  | .times body least (some most) _ => most * body.room + (most - least) * 48

/-- The bytes of the four states around every pattern: its start, the two ends of the whole match and
the match itself. -/
def roomAround : Nat :=
  4 * 32

/-- The most bytes that the states of a pattern may take. -/
def roomLimit : Nat :=
  10 * 1024 * 1024

end Regex

/-- A compiled pattern. -/
structure Regex where
  pattern : Regex.Pattern
  /-- The number of groups that a match reports, the whole match included. -/
  groupCount : Nat
  deriving Repr, DecidableEq, Inhabited

namespace Regex

/-- The pattern that is read for a rule: what the rule writes, in a group tied to the start of the
text, with the flags that ignore case or prefer short matches. -/
def wrap (text : List Char) (caseless minimal : Bool) : List Char :=
  let letters := (if caseless then ['i'] else []) ++ (if minimal then ['U'] else [])
  let flags := if letters.isEmpty then [] else ['(', '?'] ++ letters ++ [')']
  flags ++ ['^', '(', '?', ':'] ++ text ++ [')']

/-- Compiles what a rule writes. -/
def compile (text : List Char) (caseless minimal : Bool) : Except PatternError Regex := do
  let pattern ← Pattern.ofText (wrap text caseless minimal)
  if roomLimit < pattern.room + roomAround then .error .tooBig
  else .ok { pattern, groupCount := pattern.groupCount }

/-- The first match of a compiled pattern in a text. -/
def search (regex : Regex) (text : List Char) : Option Match :=
  regex.pattern.search text

/-- The characters that are written behind a backslash to stand for themselves. -/
def escape (text : List Char) : List Char :=
  text.flatMap fun c => if isMeta c then ['\\', c] else [c]

end Regex

end Highlight
