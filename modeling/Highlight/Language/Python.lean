import Highlight.Language.Writing

/-!
# The grammar of Python

Keywords, names of definitions, and strings between one or three quotes of either kind.
-/

namespace Highlight.Language.Python

/-- Keywords of definitions and expressions. -/
def definitions : List String :=
  ["as", "async", "await", "del", "global", "import", "from", "lambda", "nonlocal", "and", "in",
   "is", "not", "or"]

/-- Keywords that direct the flow. -/
def flow : List String :=
  ["assert", "break", "continue", "elif", "else", "except", "finally", "for", "if", "pass",
   "raise", "return", "try", "while", "with", "yield"]

/-- Functions and types that are always there. -/
def builtins : List String :=
  ["abs", "all", "any", "bool", "bytes", "callable", "chr", "dict", "dir", "enumerate", "filter",
   "float", "format", "getattr", "hasattr", "hash", "int", "isinstance", "issubclass", "iter",
   "len", "list", "map", "max", "min", "next", "object", "open", "ord", "print", "range", "repr",
   "reversed", "round", "set", "setattr", "sorted", "str", "sum", "super", "tuple", "type", "zip"]

/-- Names with a special meaning. -/
def specials : List String :=
  ["self", "cls", "None", "True", "False", "NotImplemented", "Ellipsis"]

/-- Code. -/
def normal : ContextDef :=
  { name := "Normal"
    attributeName := "Normal Text"
    rules :=
      [plain .spaces,
        switching (word "def") "Definition Keyword" "Definition",
        switching (word "class") "Definition Keyword" "Definition",
        styled (.keyword "definitions") "Definition Keyword",
        styled (.keyword "flow") "Flow Control Keyword",
        styled (.keyword "builtins") "Builtin Function",
        styled (.keyword "specials") "Special Variable",
        switching (regex "\\b[rRbBfFuU]\x7b1,2\x7d'''") "String" "Triple A-string",
        switching (regex "\\b[rRbBfFuU]\x7b1,2\x7d\"\"\"") "String" "Triple Q-string",
        switching (regex "\\b[rRbBfFuU]\x7b1,2\x7d'") "String" "Single A-string",
        switching (regex "\\b[rRbBfFuU]\x7b1,2\x7d\"") "String" "Single Q-string",
        plain .identifier,
        firstOnLine (styled (regex "@[_a-zA-Z][_a-zA-Z0-9.]*") "Decorator"),
        styled .hex "Hex",
        styled (regex "\\b[0-9]+(\\.[0-9]*)?[jJ]") "Complex",
        styled .float "Float",
        extendedBy (styled .int "Int") [plain (anyOf "lL")],
        switching (text "'''") "String" "Triple A-string",
        switching (text "\"\"\"") "String" "Triple Q-string",
        switching (.char '\'') "String" "Single A-string",
        switching (.char '\"') "String" "Single Q-string",
        switching (.char '#') "Comment" "Comment",
        styled (anyOf "+*/%|=;<>!^&~-@:,.()[]\x7b\x7d") "Operator"] }

/-- The name behind the keyword of a definition. -/
def definition : ContextDef :=
  { name := "Definition"
    attributeName := "Normal Text"
    fallthrough := "#pop"
    lineEnd := "#pop"
    rules := [plain .spaces, switching .identifier "Function Name" "#pop"] }

/-- A comment up to the end of its line. -/
def comment : ContextDef :=
  { name := "Comment"
    attributeName := "Comment"
    lineEnd := "#pop"
    rules := [styled (.keyword "alerts") "Alert"] }

/-- A string that may go over many lines. -/
def longString (name quote : String) : ContextDef :=
  { name
    attributeName := "String"
    rules := [styled .stringEscape "String Char", switching (text quote) "String" "#pop"] }

/-- A string that ends with its line unless the line is continued. -/
def shortString (name quote : String) : ContextDef :=
  { name
    attributeName := "String"
    lineEnd := "#pop"
    rules :=
      [styled backslash "String Char", styled .stringEscape "String Char",
        switching (text quote) "String" "#pop"] }

/-- The grammar of Python. -/
def grammar : GrammarDef where
  name := "Python"
  items :=
    [item "Normal Text" "dsNormal", item "Definition Keyword" "dsKeyword",
      item "Flow Control Keyword" "dsControlFlow", item "Builtin Function" "dsBuiltIn",
      item "Special Variable" "dsVariable", item "Function Name" "dsFunction",
      item "Decorator" "dsAttribute", item "Operator" "dsOperator", item "Int" "dsDecVal",
      item "Hex" "dsBaseN", item "Float" "dsFloat", item "Complex" "dsOthers",
      item "String" "dsString", item "String Char" "dsSpecialChar", item "Comment" "dsComment",
      item "Alert" "dsAlert"]
  lists :=
    [("definitions", definitions), ("flow", flow), ("builtins", builtins), ("specials", specials),
      ("alerts", alertWords)]
  contexts :=
    [normal, definition, comment, longString "Triple A-string" "'''",
      longString "Triple Q-string" "\"\"\"", shortString "Single A-string" "'",
      shortString "Single Q-string" "\""]

end Highlight.Language.Python
