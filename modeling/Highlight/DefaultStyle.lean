import Highlight.Style
import Highlight.Text
import Highlight.Unicode.Lowercase

/-!
# Default styles

Grammars never name colors.  Each of their attributes points at one of the default styles below by
its `ds` name, and the default style decides the format and, together with the attribute's name,
the text type.
-/

namespace Highlight

/-- The styles that attributes refer to by name. -/
inductive DefaultStyle where
  | normal
  | keyword
  | controlFlow
  | operator
  | builtIn
  | extension
  | preprocessor
  | attributed
  | function
  | variable
  | constant
  | dataType
  | decVal
  | baseN
  | float
  | char
  | specialChar
  | string
  | verbatimString
  | specialString
  | importing
  | comment
  | documentation
  | annotated
  | commentVar
  | regionMarker
  | information
  | warning
  | alert
  | others
  | error
  deriving Repr, DecidableEq, Inhabited

namespace DefaultStyle

/-- All default styles. -/
def all : List DefaultStyle :=
  [.normal, .keyword, .controlFlow, .operator, .builtIn, .extension,
   .preprocessor, .attributed, .function, .variable, .constant, .dataType,
   .decVal, .baseN, .float, .char, .specialChar, .string,
   .verbatimString, .specialString, .importing, .comment, .documentation, .annotated,
   .commentVar, .regionMarker, .information, .warning, .alert, .others,
   .error]

/-- The name that attributes use for a default style. -/
def name : DefaultStyle → String
  | .normal => "dsNormal"
  | .keyword => "dsKeyword"
  | .controlFlow => "dsControlFlow"
  | .operator => "dsOperator"
  | .builtIn => "dsBuiltIn"
  | .extension => "dsExtension"
  | .preprocessor => "dsPreprocessor"
  | .attributed => "dsAttribute"
  | .function => "dsFunction"
  | .variable => "dsVariable"
  | .constant => "dsConstant"
  | .dataType => "dsDataType"
  | .decVal => "dsDecVal"
  | .baseN => "dsBaseN"
  | .float => "dsFloat"
  | .char => "dsChar"
  | .specialChar => "dsSpecialChar"
  | .string => "dsString"
  | .verbatimString => "dsVerbatimString"
  | .specialString => "dsSpecialString"
  | .importing => "dsImport"
  | .comment => "dsComment"
  | .documentation => "dsDocumentation"
  | .annotated => "dsAnnotation"
  | .commentVar => "dsCommentVar"
  | .regionMarker => "dsRegionMarker"
  | .information => "dsInformation"
  | .warning => "dsWarning"
  | .alert => "dsAlert"
  | .others => "dsOthers"
  | .error => "dsError"

/-- The default style of a name. -/
def ofName? (name : String) : Option DefaultStyle :=
  all.find? fun style => style.name == name

/-- The look of a default style. -/
def format : DefaultStyle → TextFormat
  | .normal => .plain
  | .keyword => { foreground := .magenta, bold := true }
  | .controlFlow => { foreground := .magenta, bold := true }
  | .operator => .colored .brightWhite
  | .builtIn => .colored .brightBlue
  | .extension => { foreground := .blue, bold := true }
  | .preprocessor => .colored .brightMagenta
  | .attributed => .colored .brightBlue
  | .function => .colored .blue
  | .variable => .colored .brightCyan
  | .constant => .colored .brightRed
  | .dataType => .colored .yellow
  | .decVal => .colored .cyan
  | .baseN => .colored .cyan
  | .float => .colored .cyan
  | .char => .colored .green
  | .specialChar => .colored .brightYellow
  | .string => .colored .green
  | .verbatimString => .colored .green
  | .specialString => .colored .brightGreen
  | .importing => .colored .brightMagenta
  | .comment => { foreground := .brightBlack, italic := true }
  | .documentation => { foreground := .brightBlack, italic := true }
  | .annotated => { foreground := .brightBlue, italic := true }
  | .commentVar => { foreground := .blue, italic := true }
  | .regionMarker => { foreground := .blue, background := .brightBlack }
  | .information => .colored .yellow
  | .warning => { foreground := .brightYellow, bold := true }
  | .alert => { foreground := .brightRed, bold := true }
  | .others => .colored .green
  | .error => { foreground := .red, underline := true }

/-- The text type of an attribute with this default style.  A here document and a block comment are
only told from other text of their default style by the attribute's name. -/
def textType (style : DefaultStyle) (attributeName : String) : Char :=
  let lowered := Unicode.lowercase attributeName.toList
  match style with
  | .others => if occursIn ['h', 'e', 'r', 'e'] lowered then 'h' else 's'
  | .comment => if occursIn ['b', 'l', 'o', 'c', 'k'] lowered then 'b' else 'c'
  | .string | .regionMarker | .char => 's'
  | _ => ' '

/-- The style of an attribute with this default style. -/
def styleFor (style : DefaultStyle) (attributeName : String) : Style :=
  { format := style.format, textType := style.textType attributeName }

end DefaultStyle

end Highlight
