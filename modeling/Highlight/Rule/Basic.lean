import Highlight.Cursor
import Highlight.Regex.Compiled
import Highlight.Rule.Literal
import Highlight.Style
import Highlight.Switch
import Highlight.Unicode.Lowercase

/-!
# Rules

A rule says what it matches at a cursor, how the match is styled and which switch it takes.  This
file holds the kinds of rules and the text each of them takes; inclusions and the rules that follow
a number need the grammar and are matched in `Highlight.Grammar.Matching`.
-/

namespace Highlight

/-! ## Kinds -/

/-- The character that a rule looks for. -/
inductive CharValue where
  | literal (c : Char)
  /-- The first character of a captured group. -/
  | capture (index : Nat)
  deriving Repr, DecidableEq, Inhabited

/-- A pattern to match. -/
structure RegexRule where
  /-- The pattern without the anchors it starts with. -/
  text : List Char
  /-- The compiled pattern; a dynamic one is only compiled when its placeholders are filled in. -/
  compiled : Option Regex
  caseless : Bool
  minimal : Bool
  wordStart : Bool
  lineStart : Bool
  deriving Repr, DecidableEq, Inhabited

/-- A list of keywords. -/
structure KeywordRule where
  list : String
  /-- The words of the list, in lower case if case does not count. -/
  words : List (List Char)
  caseSensitive : Bool
  deriving Repr, DecidableEq, Inhabited

/-- The rules of another context. -/
structure Inclusion where
  name : String
  target : Nat
  /-- Whether the other context's style is used where its rules have none. -/
  withStyle : Bool
  deriving Repr, DecidableEq, Inhabited

/-- What a rule looks for. -/
inductive RuleKind where
  | char (value : CharValue)
  | twoChars (first second : Char)
  | anyChar (set : List Char)
  | text (value : List Char) (caseless : Bool)
  | word (value : List Char) (caseless : Bool)
  | regex (rule : RegexRule)
  | keyword (rule : KeywordRule)
  | int
  | float
  | octal
  | hex
  | stringEscape
  | charLiteral
  | range (first last : Char)
  | lineContinue (marker : Char)
  | spaces
  | identifier
  | inclusion (inclusion : Inclusion)
  deriving Repr, DecidableEq, Inhabited

/-- A rule with its references resolved. -/
structure Rule where
  kind : RuleKind
  /-- The attribute as it was written. -/
  attributeName : Option String
  /-- The style of the matched text; without one the context's is used. -/
  style : Option Style
  switch : Switch
  /-- The match takes no text and only switches. -/
  lookAhead : Bool
  /-- Match only where nothing but white space comes before. -/
  firstNonSpace : Bool
  /-- Match only at this column. -/
  column : Option Nat
  /-- The value has placeholders for captured groups. -/
  dynamic : Bool
  /-- The rules that may extend a number, the first match counts. -/
  children : List Rule
  deriving Repr, Inhabited

/-- What a rule found. -/
structure RuleMatch where
  /-- The bytes taken, none for a rule that looks ahead. -/
  length : Nat
  style : Option Style
  /-- The switch to take, unless it is one that stays. -/
  switch : Option Switch
  /-- The match is the marker that continues a line. -/
  lineContinue : Bool
  /-- The groups for a dynamic context. -/
  captures : Option Captures
  deriving Repr, DecidableEq, Inhabited

/-! ## Placeholders -/

/-- The text of a value with a percent sign and a digit replaced by the captured group of that
number, in one pass from left to right. -/
def fillIn (group : Nat → List Char) : List Char → List Char
  | '%' :: d :: rest =>
    if d.isDigit then group (d.toNat - '0'.toNat) ++ fillIn group rest
    else '%' :: fillIn group (d :: rest)
  | c :: rest => c :: fillIn group rest
  | [] => []

/-! ## Texts -/

/-- The bytes of the characters of `text` that are, one by one, those of `value` apart from case. -/
def caselessPrefixLength? : List Char → List Char → Option Nat
  | _, [] => some 0
  | [], _ :: _ => none
  | c :: text, d :: value =>
    if Unicode.lowercaseChar c == Unicode.lowercaseChar d then
      (caselessPrefixLength? text value).map (c.utf8Size + ·)
    else none

/-- The bytes of the text that a value takes at the start of a text; no value takes nothing. -/
def textLength? (text value : List Char) (caseless : Bool) : Option Nat :=
  if value.isEmpty then none
  else if caseless then caselessPrefixLength? text value
  else if value.isPrefixOf text then some (byteLength value) else none

/-- The bytes up to and with the first `last` behind a `first` that the text starts with. -/
def rangeLength? (text : List Char) (first last : Char) : Option Nat :=
  match text with
  | c :: body =>
    if c == first && body.contains last then
      some (first.utf8Size + byteLength (body.takeWhile fun d => d != last) + last.utf8Size)
    else none
  | [] => none

/-- The bytes of an identifier of the basic alphabet. -/
def identifierLength? (text : List Char) : Option Nat :=
  match text with
  | c :: _ =>
    if c.isAlpha || c == '_' then
      some (Literal.countWhile (fun d => d.isAlphanum || d == '_') text)
    else none
  | [] => none

/-! ## Patterns -/

namespace RegexRule

/-- A pattern without the anchors it starts with, and which ones those are: the start of a word and
the start of the line. -/
def splitAnchors (wordStart lineStart : Bool) : List Char → List Char × Bool × Bool
  | '^' :: rest => splitAnchors wordStart true rest
  | '\\' :: 'b' :: rest => splitAnchors true lineStart rest
  | rest => (rest, wordStart, lineStart)

/-- The compiled pattern at a cursor, or the pattern that could not be compiled. -/
def regexAt (rule : RegexRule) (cursor : Cursor) : Except (List Char) Regex :=
  match rule.compiled with
  | some regex => .ok regex
  | none =>
    let text := fillIn (fun index => Regex.escape (cursor.capture index)) rule.text
    match Regex.compile text rule.caseless rule.minimal with
    | .ok regex => .ok regex
    | .error _ => .error text

/-- Whether the anchors that were split off hold at a cursor. -/
def anchorsHold (rule : RegexRule) (cursor : Cursor) : Bool :=
  (!rule.wordStart || cursor.wordStart) && (!rule.lineStart || cursor.lineStart)

end RegexRule

/-! ## Matching without the grammar -/

/-- What looking at a cursor gave: the patterns that could not be compiled, and what was found. -/
structure Attempt (α : Type) where
  broken : List (List Char) := []
  found : Option α := none
  deriving Repr, DecidableEq, Inhabited

/-- Why matching cannot go on.  Neither happens with a grammar that was built from a description. -/
inductive Fault where
  /-- A context that the grammar does not have. -/
  | noContext (context : Nat)
  /-- A number of bytes that ends inside a character or behind the end of the line. -/
  | splitsCharacter (length : Nat)
  deriving Repr, DecidableEq, Inhabited

/-- The value, or a fault where there is none. -/
def orFault {α : Type} (fault : Fault) : Option α → Except Fault α
  | some a => .ok a
  | none => .error fault

/-- The bytes that a pattern takes, and the groups if they are wanted. -/
def RegexRule.find (rule : RegexRule) (cursor : Cursor) (wantGroups : Bool) :
    Attempt (Nat × Option Captures) :=
  if rule.anchorsHold cursor then
    match rule.regexAt cursor with
    | .error text => { broken := [text] }
    | .ok regex =>
      match regex.search cursor.rest with
      | none => {}
      | some found =>
        let length := byteLength (found.reach cursor.rest)
        if length == 0 then {}
        else
          let groups :=
            if wantGroups then some (found.groups cursor.rest regex.groupCount) else none
          { found := some (length, groups) }
  else {}

/-- Whether a word of the list stands at the cursor, and its bytes. -/
def KeywordRule.length? (rule : KeywordRule) (cursor : Cursor) : Option Nat :=
  if cursor.wordStart then
    match cursor.word? with
    | none => none
    | some word =>
      let key := if rule.caseSensitive then word else Unicode.lowercase word
      if rule.words.contains key then some (byteLength word) else none
  else none

/-- The length if a word starts at the cursor. -/
def atWordStart (cursor : Cursor) (length : Option Nat) : Option Nat :=
  if cursor.wordStart then length else none

namespace Rule

/-- Whether the rule may match at a cursor at all. -/
def allows (rule : Rule) (cursor : Cursor) : Bool :=
  rule.column.all (· == cursor.column) && (!rule.firstNonSpace || cursor.firstNonSpace)

/-- The bytes that a kind other than patterns and inclusions takes at a cursor, without the rules
that extend a number. -/
def length? (rule : Rule) (cursor : Cursor) : Except Fault (Option Nat) :=
  let text := cursor.rest
  match text with
  | [] => .ok none
  | c :: rest =>
    match rule.kind with
    | .char (.literal d) => .ok (if c == d then some c.utf8Size else none)
    | .char (.capture index) =>
      .ok (if (cursor.capture index).head? == some c then some c.utf8Size else none)
    | .twoChars first second =>
      .ok (if c == first && rest.head? == some second then some (first.utf8Size + second.utf8Size)
        else none)
    | .anyChar set => .ok (if set.contains c then some c.utf8Size else none)
    | .text value caseless =>
      .ok (textLength? text (if rule.dynamic then fillIn cursor.capture value else value) caseless)
    | .word value caseless =>
      match atWordStart cursor (textLength? text value caseless) with
      | none => .ok none
      | some length => do
        let ends ← orFault (.splitsCharacter length) (cursor.wordEnd? length)
        .ok (if ends then some length else none)
    | .keyword keyword => .ok (keyword.length? cursor)
    | .int => .ok (atWordStart cursor (Literal.int? text))
    | .float => .ok (atWordStart cursor (Literal.float? text))
    | .octal => .ok (atWordStart cursor (Literal.octal? text))
    | .hex => .ok (atWordStart cursor (Literal.hex? text))
    | .stringEscape => .ok (Literal.escape? text)
    | .charLiteral => .ok (Literal.charLiteral? text)
    | .range first last => .ok (rangeLength? text first last)
    | .lineContinue marker =>
      .ok (if c == marker && rest.isEmpty then some marker.utf8Size else none)
    | .spaces => .ok (Literal.positive? (leadingBlanks text))
    | .identifier => .ok (identifierLength? text)
    | .regex _ | .inclusion _ => .ok none

/-- What the rule finds at a cursor without the help of other rules: its length and its groups. -/
def detect (rule : Rule) (cursor : Cursor) : Except Fault (Attempt (Nat × Option Captures)) :=
  match rule.kind with
  | .regex regex =>
    .ok (if cursor.rest.isEmpty then {} else regex.find cursor rule.switch.pushesDynamic)
  | _ => do .ok { found := (← rule.length? cursor).map (·, none) }

/-- Whether the rule is the marker that continues a line. -/
def isLineContinue (rule : Rule) : Bool :=
  match rule.kind with
  | .lineContinue _ => true
  | _ => false

/-- The match of a rule that takes some bytes by itself. -/
def toMatch (rule : Rule) (length : Nat) (captures : Option Captures) : RuleMatch :=
  { length := if rule.lookAhead then 0 else length
    style := rule.style
    switch := if rule.switch.isStay then none else some rule.switch
    lineContinue := rule.isLineContinue
    captures }

end Rule

end Highlight
