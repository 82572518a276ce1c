import Highlight.Language.Writing

/-!
# The grammar of Bash

Commands, quotes, variables, and here documents that end at the word that announced them.
-/

namespace Highlight.Language.Bash

/-- Keywords. -/
def keywords : List String :=
  ["case", "do", "done", "elif", "else", "esac", "fi", "for", "function", "if", "in", "select",
   "then", "until", "while"]

/-- Commands of the shell itself. -/
def builtins : List String :=
  ["alias", "bg", "cd", "command", "declare", "echo", "eval", "exec", "exit", "export", "fg",
   "getopts", "hash", "local", "printf", "pwd", "read", "readonly", "return", "set", "shift",
   "source", "test", "trap", "type", "ulimit", "umask", "unalias", "unset", "wait"]

/-- The rules that expand variables in code, double quotes and here documents. -/
def variableRules : List RuleDef :=
  [switching (.twoChars '$' '\x7b') "Variable" "Variable Brace",
    switching (.char '$') "Variable" "Variable Name"]

/-- Commands. -/
def start : ContextDef :=
  { name := "Start"
    attributeName := "Normal Text"
    rules :=
      [plain .spaces,
        switching (regex "\\b#") "Comment" "Comment",
        switching (regex "<<-?\\s*['\"]?([A-Za-z_][A-Za-z0-9_]*)['\"]?") "Redirection" "Here Doc",
        styled (.keyword "keywords") "Keyword",
        styled (.keyword "builtins") "Builtin",
        switching (.char '\'') "String SingleQ" "String SingleQ",
        switching (.char '\"') "String DoubleQ" "String DoubleQ",
        styled .int "Decimal",
        plain .identifier,
        styled backslash "Escape",
        styled (regex "\\\\.") "Escape",
        styled (anyOf "<>") "Redirection",
        styled (anyOf "|&;()") "Operator"] ++ variableRules }

/-- A comment up to the end of its line. -/
def comment : ContextDef :=
  { name := "Comment"
    attributeName := "Comment"
    lineEnd := "#pop"
    rules := [styled (.keyword "alerts") "Alert"] }

/-- Text between single quotes. -/
def singleQuotes : ContextDef :=
  { name := "String SingleQ"
    attributeName := "String SingleQ"
    rules := [switching (.char '\'') "String SingleQ" "#pop"] }

/-- Text between double quotes. -/
def doubleQuotes : ContextDef :=
  { name := "String DoubleQ"
    attributeName := "String DoubleQ"
    rules :=
      [styled (regex "\\\\[\\\\\"$`]") "Escape",
        switching (.char '\"') "String DoubleQ" "#pop"] ++ variableRules }

/-- A variable behind its dollar sign. -/
def variableName : ContextDef :=
  { name := "Variable Name"
    attributeName := "Variable"
    fallthrough := "#pop"
    lineEnd := "#pop"
    rules :=
      [switching .identifier "Variable" "#pop",
        switching (anyOf "#?$!@*-0123456789") "Variable" "#pop"] }

/-- A variable in braces. -/
def variableBrace : ContextDef :=
  { name := "Variable Brace"
    attributeName := "Variable"
    lineEnd := "#pop"
    rules := [switching (.char '\x7d') "Variable" "#pop"] }

/-- A here document; the line that ends it is the first captured group. -/
def hereDocument : ContextDef :=
  { name := "Here Doc"
    attributeName := "Here Doc"
    dynamic := true
    rules :=
      { kind := regex "^%1$"
        options := { attributeName := "Redirection", switch := "#pop", dynamic := true } } ::
        variableRules }

/-- The grammar of Bash. -/
def grammar : GrammarDef where
  name := "Bash"
  items :=
    [item "Normal Text" "dsNormal", item "Keyword" "dsKeyword", item "Builtin" "dsBuiltIn",
      item "Comment" "dsComment", item "Alert" "dsAlert", item "Variable" "dsVariable",
      item "String SingleQ" "dsString", item "String DoubleQ" "dsString",
      item "Escape" "dsSpecialChar", item "Here Doc" "dsOthers", item "Redirection" "dsOperator",
      item "Decimal" "dsDecVal", item "Operator" "dsOperator"]
  lists := [("keywords", keywords), ("builtins", builtins), ("alerts", alertWords)]
  weakDelimiters := ['-']
  contexts :=
    [start, comment, singleQuotes, doubleQuotes, variableName, variableBrace, hereDocument]

end Highlight.Language.Bash
