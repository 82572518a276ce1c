/-!
# Styles

What a piece of highlighted text looks like and what kind of text it is.  A `Style` joins a visual
`TextFormat` with a text type: one character that tells code from comments and strings.  A `Span`
gives a style to a range of bytes of a line.
-/

namespace Highlight

/-- The colors of a sixteen-color terminal, and the terminal's own default. -/
inductive Color where
  | default
  | black
  | red
  | green
  | yellow
  | blue
  | magenta
  | cyan
  | white
  | brightBlack
  | brightRed
  | brightGreen
  | brightYellow
  | brightBlue
  | brightMagenta
  | brightCyan
  | brightWhite
  deriving Repr, DecidableEq, Inhabited

/-- How text looks. -/
structure TextFormat where
  foreground : Color := .default
  background : Color := .default
  bold : Bool := false
  italic : Bool := false
  underline : Bool := false
  deriving Repr, DecidableEq, Inhabited

namespace TextFormat

/-- The look of unstyled text. -/
def plain : TextFormat := {}

/-- Unstyled text in one color. -/
def colored (color : Color) : TextFormat :=
  { foreground := color }

/-- Whether text of this format looks unstyled. -/
def isPlain (format : TextFormat) : Bool :=
  format == plain

end TextFormat

/-- The look of a piece of text and its text type: `c` for a comment, `b` for a block comment, `s`
for a string, `h` for a here document and a blank for code. -/
structure Style where
  format : TextFormat := {}
  textType : Char := ' '
  deriving Repr, DecidableEq, Inhabited

/-- Whether the text is code, neither comment nor string. -/
def Style.isCode (style : Style) : Bool :=
  style.textType == ' '

/-- The bytes of a line from `start` to just before `stop`, in one style. -/
structure Span where
  start : Nat
  stop : Nat
  style : Style
  deriving Repr, DecidableEq, Inhabited

namespace Span

/-- Whether a byte offset lies in the span. -/
def contains (span : Span) (offset : Nat) : Bool :=
  span.start ≤ offset && offset < span.stop

/-- The number of bytes of a span; a reversed span has none. -/
def length (span : Span) : Nat :=
  span.stop - span.start

/-- Whether the span holds no byte. -/
def isEmpty (span : Span) : Bool :=
  span.stop ≤ span.start

theorem isEmpty_iff_length_eq_zero {span : Span} : span.isEmpty ↔ span.length = 0 := by
  simp [isEmpty, length]
  omega

end Span

end Highlight
