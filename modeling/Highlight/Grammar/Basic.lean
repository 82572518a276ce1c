import Highlight.Delimiters
import Highlight.Grammar.Reach
import Highlight.Rule.Basic

/-!
# Grammars

A grammar is a list of contexts whose rules refer to each other by their places in the list; the
first context is the one a document starts in.  The rules of a grammar do not include themselves,
not even by way of other contexts.
-/

namespace Highlight

/-- A named state of the highlighter. -/
structure Context where
  name : String
  /-- The attribute as it was written. -/
  attributeName : Option String
  /-- The style of text that no rule takes. -/
  style : Style
  /-- Whether the context keeps the groups captured on entry. -/
  dynamic : Bool
  rules : List Rule
  lineEnd : Switch
  lineBegin : Switch
  fallthrough : Switch
  deriving Repr, Inhabited

/-- The context whose rules a rule includes. -/
def Rule.includedContext? (rule : Rule) : Option Nat :=
  match rule.kind with
  | .inclusion inclusion => some inclusion.target
  | _ => none

/-- The contexts whose rules some rules include directly. -/
def includedContexts (rules : List Rule) : List Nat :=
  rules.filterMap Rule.includedContext?

/-- The graph of direct inclusions between contexts. -/
def includeGraph (contexts : List Context) : Graph where
  size := contexts.length
  targets v := ((contexts[v]?).map fun context => includedContexts context.rules).getD []

/-- A resolved grammar. -/
structure Grammar where
  name : String
  contexts : List Context
  delimiters : Delimiters
  /-- Whether case counts for keywords. -/
  caseSensitive : Bool
  acyclic : (includeGraph contexts).Acyclic

namespace Grammar

/-- The context that a document starts in. -/
def defaultContext : Nat := 0

/-- The stack that a document starts with. -/
def initialStack : Stack :=
  .single defaultContext

/-- A context by its place. -/
def context (grammar : Grammar) (index : Nat) : Except Fault Context :=
  orFault (.noContext index) grammar.contexts[index]?

/-- The place of a context by its name. -/
def contextIndex? (grammar : Grammar) (name : String) : Option Nat :=
  grammar.contexts.findIdx? fun context => context.name == name

end Grammar

end Highlight
