import Highlight.Settings.Reader
import Highlight.Style
import Highlight.Text
import Highlight.Unicode.Width

/-!
# Rendering for a terminal

A line is written piece by piece: each span in its format, the text between spans without one.  A
format is switched on by escape sequences before its text and off behind it.  Tabs are expanded to
the next tab stop, counted in columns of the display.  A tab can be as wide as a machine word can say,
wider than what memory has room for, so `renderLine?` gives no text where one is too long.
-/

namespace Highlight

/-- How lines are rendered. -/
structure RenderOptions where
  tabWidth : Nat := 8
  color : Bool := true
  deriving Repr, DecidableEq, Inhabited

/-- The options that the settings ask for. -/
def RenderOptions.ofSettings (settings : Settings) : RenderOptions :=
  { tabWidth := settings.tabWidth, color := settings.color }

/-! ## Tabs -/

/-- The first tab stop behind a column, with tab stops every `width` columns. -/
def nextTabStop (width column : Nat) : Nat :=
  (column / width + 1) * width

/-- The text with its tabs expanded, starting at a display column, and the column behind it. -/
def expandTabs (width column : Nat) : List Char → List Char × Nat
  | [] => ([], column)
  | c :: rest =>
    if c == '\t' then
      let stop := nextTabStop (max width 1) column
      let (expanded, final) := expandTabs width stop rest
      (List.replicate (stop - column) ' ' ++ expanded, final)
    else
      let (expanded, final) := expandTabs width (column + Unicode.displayWidth c) rest
      (c :: expanded, final)

/-! ## Room -/

/-- The most bytes that a text can have in memory. -/
def maxTextBytes : Nat := 0x7FFFFFFFFFFFFFFF

/-- Columns are counted in sixty-four bits. -/
def columnLimit : Nat := 0x10000000000000000

/-- How many bytes a text has with its tabs expanded, and the column behind it. -/
def expandedSize (width column : Nat) : List Char → Nat × Nat
  | [] => (0, column)
  | c :: rest =>
    if c == '\t' then
      let stop := nextTabStop (max width 1) column
      let (bytes, final) := expandedSize width stop rest
      (stop - column + bytes, final)
    else
      let (bytes, final) := expandedSize width (column + Unicode.displayWidth c) rest
      (c.utf8Size + bytes, final)

/-- Whether a text with its tabs expanded has room in memory, and its columns can be counted. -/
def expansionFits (width column : Nat) (text : List Char) : Bool :=
  let (bytes, final) := expandedSize width column text
  bytes ≤ maxTextBytes && final < columnLimit

/-- The text with its tabs expanded, and the column behind it, if there is room for them. -/
def expandTabs? (width column : Nat) (text : List Char) : Option (List Char × Nat) :=
  if expansionFits width column text then some (expandTabs width column text) else none

/-! ## Escape sequences -/

/-- The number of a color in the palette of the terminal. -/
def Color.index : Color → Option Nat
  | default => none
  | black => some 0
  | red => some 1
  | green => some 2
  | yellow => some 3
  | blue => some 4
  | magenta => some 5
  | cyan => some 6
  | white => some 7
  | brightBlack => some 8
  | brightRed => some 9
  | brightGreen => some 10
  | brightYellow => some 11
  | brightBlue => some 12
  | brightMagenta => some 13
  | brightCyan => some 14
  | brightWhite => some 15

/-- The sequence that sets a graphic attribute of the terminal. -/
def escapeSequence (parameters : String) : List Char :=
  ['\x1b', '['] ++ parameters.toList ++ ['m']

/-- The sequence that sets a color; the parameter tells foreground from background. -/
def colorSequence (parameter : String) (color : Color) : List Char :=
  match color.index with
  | some index => escapeSequence (parameter ++ ";5;" ++ toString index)
  | none => []

/-- The sequence that sets an attribute, if it is wanted. -/
def attributeSequence (wanted : Bool) (parameter : String) : List Char :=
  if wanted then escapeSequence parameter else []

/-- The sequences that switch a format on. -/
def TextFormat.opening (format : TextFormat) : List Char :=
  colorSequence "38" format.foreground ++ colorSequence "48" format.background ++
    attributeSequence format.bold "1" ++ attributeSequence format.italic "3" ++
    attributeSequence format.underline "4"

/-- The sequences that switch all formats off: the attributes and then the colors. -/
def closingSequences : List Char :=
  escapeSequence "0" ++ escapeSequence "0"

/-- A text in a format. -/
def styledText (format : TextFormat) (text : List Char) : List Char :=
  if format.isPlain then text else format.opening ++ text ++ closingSequences

/-! ## Lines -/

/-- How far a line is rendered. -/
structure Rendering where
  /-- The bytes before the rest. -/
  position : Nat
  /-- The text that is not written yet. -/
  rest : List Char
  /-- The column of the display. -/
  column : Nat
  /-- What was written, piece by piece, the last one first. -/
  written : List (List Char)
  deriving Repr, DecidableEq, Inhabited

/-- A line cut at the two ends of a span. -/
structure Cut where
  /-- The text before the span. -/
  gap : List Char
  /-- The text of the span. -/
  body : List Char
  /-- The text behind the span. -/
  rest : List Char
  /-- The bytes up to the end of the span. -/
  stop : Nat
  deriving Repr, DecidableEq, Inhabited

namespace Rendering

/-- A number that is too small or too large is moved to the nearer bound. -/
def clamp (low high n : Nat) : Nat :=
  max low (min high n)

/-- The line cut at the ends of a span.  They are moved behind what was written already and before the
end of the line; a span that cuts a character in two has no cut. -/
def cut? (length : Nat) (rendering : Rendering) (span : Span) : Option Cut :=
  let start := clamp rendering.position length span.start
  let stop := clamp start length span.stop
  match splitAtByte? (start - rendering.position) rendering.rest with
  | none => none
  | some (gap, rest) =>
    match splitAtByte? (stop - start) rest with
    | none => none
    | some (body, rest) => some { gap, body, rest, stop }

/-- The rendering behind a cut, where a gap and a body were written for the two texts of the cut. -/
def behind (options : RenderOptions) (rendering : Rendering) (span : Span) (cut : Cut)
    (gap body : List Char) (column : Nat) : Rendering :=
  let format := if options.color then span.style.format else .plain
  { position := cut.stop, rest := cut.rest, column
    written := styledText format body :: gap :: rendering.written }

/-- Writes the text up to a span and the text of the span, unless the span has no cut. -/
def writeSpan (options : RenderOptions) (length : Nat) (rendering : Rendering) (span : Span) :
    Rendering :=
  match rendering.cut? length span with
  | none => rendering
  | some cut =>
    let (gap, column) := expandTabs options.tabWidth rendering.column cut.gap
    let (body, column) := expandTabs options.tabWidth column cut.body
    rendering.behind options span cut gap body column

/-- Writes a span if there is room for its two texts, each by itself. -/
def writeSpan? (options : RenderOptions) (length : Nat) (rendering : Rendering) (span : Span) :
    Option Rendering :=
  match rendering.cut? length span with
  | none => some rendering
  | some cut => do
    let (gap, column) ← expandTabs? options.tabWidth rendering.column cut.gap
    let (body, column) ← expandTabs? options.tabWidth column cut.body
    some (rendering.behind options span cut gap body column)

/-- All that was written, the rest of the line and a newline. -/
def finish (rendering : Rendering) (rest : List Char) : List Char :=
  (('\n' :: []) :: rest :: rendering.written).reverse.flatten

end Rendering

/-- A line with its spans, and a newline behind it. -/
def renderLine (options : RenderOptions) (line : List Char) (spans : List Span) : List Char :=
  let done := spans.foldl (Rendering.writeSpan options (byteLength line)) ⟨0, line, 0, []⟩
  done.finish (expandTabs options.tabWidth done.column done.rest).1

/-- A line with its spans, as `renderLine` gives it, if there is room for each of the texts whose tabs
are expanded. -/
def renderLine? (options : RenderOptions) (line : List Char) (spans : List Span) :
    Option (List Char) := do
  let done ← spans.foldlM (Rendering.writeSpan? options (byteLength line)) ⟨0, line, 0, []⟩
  let (rest, _) ← expandTabs? options.tabWidth done.column done.rest
  some (done.finish rest)

end Highlight
