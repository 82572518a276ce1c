import Highlight.Regex.CharSet

/-!
# Patterns

The structure of a regular expression, its flags already worked into its parts.
-/

namespace Highlight.Regex

/-- Conditions on the words around a place. -/
inductive WordLook where
  | boundary
  | noBoundary
  | start
  | stop
  | startHalf
  | stopHalf
  deriving Repr, DecidableEq, Inhabited

/-- Conditions on a place that take up no text. -/
inductive Look where
  | textStart
  | textEnd
  | lineStart (crlf : Bool)
  | lineEnd (crlf : Bool)
  | word (kind : WordLook) (unicode : Bool)
  deriving Repr, DecidableEq, Inhabited

/-- A regular expression. -/
inductive Pattern where
  | empty
  /-- One character of a set. -/
  | char (mode : CharMode) (set : CharSet)
  | look (condition : Look)
  /-- A numbered group. -/
  | group (index : Nat) (body : Pattern)
  | seq (first second : Pattern)
  /-- The first alternative is preferred. -/
  | alt (first second : Pattern)
  /-- At least `least` and, if there is a limit, at most `most` times; more of them are preferred
  if `greedy`, fewer if not. -/
  | times (body : Pattern) (least : Nat) (most : Option Nat) (greedy : Bool)
  deriving Repr, DecidableEq, Inhabited

/-! ## Conditions -/

/-- Whether there is a character and it is part of a word. -/
def isWordAt (unicode : Bool) (c : Option Char) : Bool :=
  c.any (LetterClass.word.contains unicode)

/-- Whether a condition holds between the character before a place and the text behind it. -/
def Look.holds (condition : Look) (before : Option Char) (rest : List Char) : Bool :=
  match condition with
  | textStart => before.isNone
  | textEnd => rest.isEmpty
  | lineStart crlf =>
    before.isNone || before == some '\n' ||
      (crlf && before == some '\r' && rest.head? != some '\n')
  | lineEnd crlf =>
    rest.isEmpty ||
      (if crlf then
        rest.head? == some '\r' || (rest.head? == some '\n' && before != some '\r')
      else rest.head? == some '\n')
  | word kind unicode =>
    let first := isWordAt unicode before
    let second := isWordAt unicode rest.head?
    match kind with
    | .boundary => first != second
    | .noBoundary => first == second
    | .start => !first && second
    | .stop => first && !second
    | .startHalf => !first
    | .stopHalf => !second

/-! ## Measures of a pattern -/

namespace Pattern

/-- Patterns one after another. -/
def sequence : List Pattern → Pattern
  | [] => empty
  | [pattern] => pattern
  | pattern :: rest => seq pattern (sequence rest)

/-- Alternatives, the first one preferred. -/
def choice : List Pattern → Pattern
  | [] => empty
  | [pattern] => pattern
  | pattern :: rest => alt pattern (choice rest)

/-- Whether the pattern can only match no text at all. -/
def onlyEmpty : Pattern → Bool
  | empty => true
  | char .. => false
  | look _ => true
  | group _ body => body.onlyEmpty
  | seq first second => first.onlyEmpty && second.onlyEmpty
  | alt first second => first.onlyEmpty && second.onlyEmpty
  | times body _ _ _ => body.onlyEmpty

/-- Whether a match can only begin at the start of the text. -/
def anchored : Pattern → Bool
  | look .textStart => true
  | group _ body => body.anchored
  | seq first _ => first.anchored
  | alt first second => first.anchored && second.anchored
  | _ => false

/-- One more than the highest number of a group; the whole match is group zero. -/
def groupCount : Pattern → Nat
  | group index body => max (index + 1) body.groupCount
  | seq first second => max first.groupCount second.groupCount
  | alt first second => max first.groupCount second.groupCount
  | times body _ _ _ => body.groupCount
  | _ => 1

end Pattern

end Highlight.Regex
