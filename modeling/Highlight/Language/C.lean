import Highlight.Language.Writing

/-!
# The grammar of C

Comments, strings and preprocessor lines, with the text between `#if 0` and its end taken for a
comment.
-/

namespace Highlight.Language.C

/-- Keywords. -/
def keywords : List String :=
  ["break", "case", "continue", "default", "do", "else", "enum", "extern", "for", "goto", "if",
   "inline", "return", "sizeof", "struct", "switch", "typedef", "union", "while", "_Alignas",
   "_Alignof", "_Atomic", "_Generic", "_Noreturn", "_Static_assert", "_Thread_local"]

/-- Type names and qualifiers. -/
def types : List String :=
  ["auto", "char", "const", "double", "float", "int", "long", "register", "restrict", "short",
   "signed", "static", "unsigned", "void", "volatile", "_Bool", "_Complex", "_Imaginary",
   "size_t", "ptrdiff_t", "intptr_t", "uintptr_t", "int8_t", "int16_t", "int32_t", "int64_t",
   "uint8_t", "uint16_t", "uint32_t", "uint64_t", "FILE"]

/-- Suffixes of integers, the longest first. -/
def integerSuffixes : List String :=
  ["ULL", "LUL", "LLU", "UL", "LU", "LL", "U", "L"]

/-- A decimal number with its suffix. -/
def decimal : RuleDef :=
  extendedBy (styled .int "Decimal")
    (integerSuffixes.map fun suffix => { kind := text suffix, options := { caseless := true } })

/-- Code. -/
def normal : ContextDef :=
  { name := "Normal"
    attributeName := "Normal Text"
    rules :=
      [plain .spaces,
        firstOnLine (switching (regex "#\\s*if\\s+0\\s*$") "Preprocessor" "Outscoped"),
        firstOnLine (switching (.char '#') "Preprocessor" "Preprocessor"),
        styled (.keyword "keywords") "Keyword",
        styled (.keyword "types") "Data Type",
        plain .identifier,
        styled .charLiteral "Char",
        extendedBy (styled .float "Float") [plain (anyOf "fFlL")],
        styled .octal "Octal",
        styled .hex "Hex",
        decimal,
        switching (.char '\"') "String" "String",
        switching (.twoChars '/' '/') "Comment" "Line Comment",
        switching (.twoChars '/' '*') "Comment" "Block Comment",
        styled (anyOf ":!%&()+,-/.*<=>?[]|~^;\x7b\x7d") "Symbol"] }

/-- A string; it ends with its line unless the line is continued. -/
def string : ContextDef :=
  { name := "String"
    attributeName := "String"
    lineEnd := "#pop"
    rules :=
      [styled backslash "String",
        styled .stringEscape "String Char",
        switching (.char '\"') "String" "#pop"] }

/-- What comments call attention to. -/
def alerts : ContextDef :=
  { name := "Alerts"
    attributeName := "Comment"
    rules := [styled (.keyword "alerts") "Alert"] }

/-- A comment up to the end of its line. -/
def lineComment : ContextDef :=
  { name := "Line Comment"
    attributeName := "Comment"
    lineEnd := "#pop"
    rules := [styled backslash "Comment", plain (.inclusion "Alerts")] }

/-- A comment up to its closing mark. -/
def blockComment : ContextDef :=
  { name := "Block Comment"
    attributeName := "Comment"
    rules := [switching (.twoChars '*' '/') "Comment" "#pop", plain (.inclusion "Alerts")] }

/-- A preprocessor line. -/
def preprocessor : ContextDef :=
  { name := "Preprocessor"
    attributeName := "Preprocessor"
    lineEnd := "#pop"
    rules :=
      [styled backslash "Preprocessor",
        styled (.range '\"' '\"') "Prep. Lib",
        styled (.range '<' '>') "Prep. Lib",
        switching (.twoChars '/' '/') "Comment" "Line Comment",
        switching (.twoChars '/' '*') "Comment" "Preprocessor Comment"] }

/-- A comment in a preprocessor line. -/
def preprocessorComment : ContextDef :=
  { name := "Preprocessor Comment"
    attributeName := "Comment"
    lineEnd := "#pop"
    rules := [switching (.twoChars '*' '/') "Comment" "#pop"] }

/-- Text that a condition never lets through. -/
def outscoped : ContextDef :=
  { name := "Outscoped"
    attributeName := "Comment"
    rules :=
      [plain (.inclusion "Alerts"),
        firstOnLine (switching (regex "#\\s*if") "Comment" "Outscoped Nested"),
        firstOnLine (switching (regex "#\\s*(endif|else|elif)") "Preprocessor" "#pop")] }

/-- A condition inside text that is not let through. -/
def outscopedNested : ContextDef :=
  { name := "Outscoped Nested"
    attributeName := "Comment"
    rules :=
      [plain (.inclusion "Alerts"),
        firstOnLine (switching (regex "#\\s*if") "Comment" "Outscoped Nested"),
        firstOnLine (switching (regex "#\\s*endif") "Comment" "#pop")] }

/-- The grammar of C. -/
def grammar : GrammarDef where
  name := "C"
  items :=
    [item "Normal Text" "dsNormal", item "Keyword" "dsKeyword", item "Data Type" "dsDataType",
      item "Decimal" "dsDecVal", item "Octal" "dsBaseN", item "Hex" "dsBaseN",
      item "Float" "dsFloat", item "Char" "dsChar", item "String" "dsString",
      item "String Char" "dsSpecialChar", item "Comment" "dsComment", item "Symbol" "dsNormal",
      item "Preprocessor" "dsOthers", item "Prep. Lib" "dsOthers", item "Alert" "dsAlert"]
  lists := [("keywords", keywords), ("types", types), ("alerts", alertWords)]
  contexts :=
    [normal, string, alerts, lineComment, blockComment, preprocessor, preprocessorComment,
      outscoped, outscopedNested]

end Highlight.Language.C
