/-!
# Broken grammar descriptions

The ways in which a grammar description can fail to become a grammar, and what is said about each.
-/

namespace Highlight

/-- Why a description is no grammar. -/
inductive GrammarError where
  /-- A switch or an inclusion names a context that is not declared. -/
  | unknownContext (context reference : String)
  /-- An attribute is used that no item defines. -/
  | unknownAttribute (owner attributeName : String)
  /-- A keyword rule names a list that is not declared. -/
  | unknownList (context list : String)
  /-- A pattern, given without its leading anchors, is no regular expression. -/
  | invalidPattern (context : String) (pattern : List Char)
  /-- The text of a switch is malformed. -/
  | invalidOperation (operation : String)
  /-- An item names a default style that does not exist. -/
  | unknownDefaultStyle (attributeName style : String)
  /-- No context is declared. -/
  | noContexts (language : String)
  /-- A context includes its own rules, possibly by way of others. -/
  | recursiveInclude (context : String)
  /-- Two contexts have one name. -/
  | duplicateContext (name : String)
  deriving Repr, DecidableEq, Inhabited

/-- What is said about an error. -/
def GrammarError.message : GrammarError → String
  | unknownContext context reference =>
    s!"Context '{context}' refers to unknown context '{reference}'"
  | unknownAttribute owner attributeName =>
    s!"{owner} refers to unknown attribute '{attributeName}'"
  | unknownList context list => s!"Context '{context}' refers to unknown keyword list '{list}'"
  | invalidPattern context pattern =>
    s!"Invalid regular expression '{String.ofList pattern}' in context '{context}'"
  | invalidOperation operation => s!"Invalid context operation '{operation}'"
  | unknownDefaultStyle attributeName style =>
    s!"Attribute '{attributeName}' uses unknown default style '{style}'"
  | noContexts language => s!"Language '{language}' has no contexts"
  | recursiveInclude context => s!"Context '{context}' includes its own rules"
  | duplicateContext name => s!"Context '{name}' is defined twice"

end Highlight
