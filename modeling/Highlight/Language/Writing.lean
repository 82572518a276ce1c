import Highlight.Grammar.Description

/-!
# Writing grammars down

Short forms for the parts of grammar descriptions that the languages of this library are made of.
-/

namespace Highlight.Language

/-- An attribute that keeps the looks of its default style. -/
def item (name defaultStyle : String) : ItemDef :=
  { name, defaultStyle }

/-- A rule that keeps the context and its style. -/
def plain (kind : RuleDefKind) : RuleDef :=
  { kind }

/-- A rule with an attribute. -/
def styled (kind : RuleDefKind) (attributeName : String) : RuleDef :=
  { kind, options := { attributeName } }

/-- A rule with an attribute and a switch. -/
def switching (kind : RuleDefKind) (attributeName switch : String) : RuleDef :=
  { kind, options := { attributeName, switch } }

/-- The rule, where only white space comes before it. -/
def firstOnLine (rule : RuleDef) : RuleDef :=
  { rule with options := { rule.options with firstNonSpace := true } }

/-- The rule with rules that may extend its number. -/
def extendedBy (rule : RuleDef) (children : List RuleDef) : RuleDef :=
  { rule with children }

/-- A text to find. -/
def text (value : String) : RuleDefKind :=
  .text value.toList

/-- A word to find. -/
def word (value : String) : RuleDefKind :=
  .word value.toList

/-- A pattern to find. -/
def regex (pattern : String) : RuleDefKind :=
  .regex pattern.toList

/-- Any of some characters. -/
def anyOf (set : String) : RuleDefKind :=
  .anyChar set.toList

/-- The mark of a backslash at the end of a line. -/
def backslash : RuleDefKind :=
  .lineContinue '\\'

/-- Words that call for attention in comments. -/
def alertWords : List String :=
  ["TODO", "FIXME", "XXX", "BUG", "NOTE", "HACK"]

end Highlight.Language
