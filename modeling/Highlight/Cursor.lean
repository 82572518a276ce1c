import Highlight.Delimiters
import Highlight.Text

/-!
# Cursors

What a rule sees of a line: the text that is left, and the facts about the text before it that rules
ask for.  A cursor is built at an offset of a line (`Cursor.at?`) or moved forward
(`Cursor.advance?`).
-/

namespace Highlight

/-- The groups of a match: the whole match first, then the numbered groups. -/
abbrev Captures := List (List Char)

/-- A place in a line, as a rule sees it. -/
structure Cursor where
  /-- The character just before the cursor. -/
  before : Option Char
  /-- The text that is left. -/
  rest : List Char
  /-- The bytes before the cursor. -/
  offset : Nat
  /-- The characters before the cursor. -/
  column : Nat
  /-- Whether the cursor is in or just behind the white space that the line starts with. -/
  firstNonSpace : Bool
  /-- The groups captured when the current context was entered. -/
  data : Option Captures
  delimiters : Delimiters
  deriving Repr, DecidableEq, Inhabited

/-- The last character of a text, or `before` when the text is empty. -/
def lastChar (before : Option Char) (text : List Char) : Option Char :=
  text.getLast?.or before

namespace Cursor

/-- The cursor at a byte offset of a line, `column` characters into it, when the line starts with
`leading` bytes of white space.  There is none inside a character or behind the line's end. -/
def at? (line : List Char) (offset column leading : Nat) (data : Option Captures)
    (delimiters : Delimiters) : Option Cursor :=
  (splitAtByte? offset line).map fun (skipped, rest) =>
    { before := skipped.getLast?, rest, offset, column
      firstNonSpace := offset ≤ leading, data, delimiters }

/-- The cursor moved forward by some bytes.  It is still at the first character that is no white
space if it was and has only moved over white space. -/
def advance? (cursor : Cursor) (length : Nat) : Option Cursor :=
  (splitAtByte? length cursor.rest).map fun (skipped, rest) =>
    { cursor with
      before := lastChar cursor.before skipped
      rest
      offset := cursor.offset + length
      column := cursor.column + skipped.length
      firstNonSpace :=
        (cursor.firstNonSpace && skipped.all Unicode.isBlank) || cursor.offset + length == 0 }

/-- A cursor that is moved over something has less text left. -/
theorem length_rest_lt_of_advance? {cursor behind : Cursor} {length : Nat} (hlength : 0 < length)
    (h : cursor.advance? length = some behind) : behind.rest.length < cursor.rest.length := by
  obtain ⟨⟨skipped, rest⟩, hsplit, rfl⟩ := Option.map_eq_some_iff.1 h
  exact length_lt_of_splitAtByte? hlength hsplit

/-- Whether a word can start here: at the start of the line or behind a delimiter. -/
def wordStart (cursor : Cursor) : Bool :=
  cursor.before.all cursor.delimiters.contains

/-- Whether the cursor is at the start of the line. -/
def lineStart (cursor : Cursor) : Bool :=
  cursor.offset == 0

/-- The characters up to the next delimiter, if there are any. -/
def word? (cursor : Cursor) : Option (List Char) :=
  match cursor.rest.takeWhile fun c => !cursor.delimiters.contains c with
  | [] => none
  | c :: chars => some (c :: chars)

/-- Whether a text is at its end or goes on with a delimiter. -/
def endsWord (delimiters : Delimiters) (text : List Char) : Bool :=
  text.head?.all delimiters.contains

/-- Whether a word ends some bytes behind the cursor. -/
def wordEnd? (cursor : Cursor) (length : Nat) : Option Bool :=
  (splitAtByte? length cursor.rest).map fun (_, rest) => endsWord cursor.delimiters rest

/-- A captured group of the current context, empty if it was not captured. -/
def capture (cursor : Cursor) (index : Nat) : List Char :=
  (cursor.data.bind fun groups => groups[index]?).getD []

end Cursor

/-- The bytes of white space that a line starts with. -/
def leadingBlanks (line : List Char) : Nat :=
  byteLength (line.takeWhile Unicode.isBlank)

end Highlight
