import Highlight.Style

/-!
# Grammar descriptions

A grammar as it is written: contexts, rules, attributes and keyword lists that refer to each other
by name.
-/

namespace Highlight

/-- An attribute: its name, the default style that it points at, and what it changes of that. -/
structure ItemDef where
  name : String
  defaultStyle : String
  color : Option Color := none
  bold : Option Bool := none
  italic : Option Bool := none
  deriving Repr, DecidableEq, Inhabited

/-- What a rule looks for, as it is written. -/
inductive RuleDefKind where
  | char (c : Char)
  /-- The first character of a captured group. -/
  | charCapture (index : Nat)
  | twoChars (first second : Char)
  | anyChar (set : List Char)
  | text (value : List Char)
  | word (value : List Char)
  | regex (pattern : List Char)
  | keyword (list : String)
  | int
  | float
  | octal
  | hex
  | stringEscape
  | charLiteral
  | range (first last : Char)
  | lineContinue (marker : Char)
  | spaces
  | identifier
  /-- The rules of a context. -/
  | inclusion (context : String)
  deriving Repr, DecidableEq, Inhabited

/-- What every kind of rule can be given; a kind ignores what it has no use for. -/
structure RuleOptions where
  attributeName : Option String := none
  /-- The switch that a match takes. -/
  switch : String := "#stay"
  lookAhead : Bool := false
  firstNonSpace : Bool := false
  column : Option Nat := none
  dynamic : Bool := false
  caseless : Bool := false
  minimal : Bool := false
  /-- An inclusion lends its context's style to rules that have none. -/
  withStyle : Bool := false
  deriving Repr, DecidableEq, Inhabited

/-- A rule as it is written. -/
structure RuleDef where
  kind : RuleDefKind
  options : RuleOptions := {}
  /-- The rules that may extend a number. -/
  children : List RuleDef := []
  deriving Repr, Inhabited

/-- Whether rules may extend what a rule takes. -/
def RuleDefKind.isNumber : RuleDefKind → Bool
  | int | float => true
  | _ => false

/-- A context as it is written. -/
structure ContextDef where
  name : String
  attributeName : Option String := none
  lineEnd : String := "#stay"
  lineBegin : String := "#stay"
  /-- The switch that is taken where no rule matches. -/
  fallthrough : String := "#stay"
  dynamic : Bool := false
  rules : List RuleDef := []
  deriving Repr, Inhabited

/-- A grammar as it is written.  The first context is the one that documents start in. -/
structure GrammarDef where
  name : String
  contexts : List ContextDef := []
  items : List ItemDef := []
  /-- The keyword lists; a later list replaces an earlier one of its name. -/
  lists : List (String × List String) := []
  /-- Whether case counts for keywords. -/
  caseSensitive : Bool := true
  /-- Characters taken from the standard delimiters. -/
  weakDelimiters : List Char := []
  /-- Characters added to the delimiters. -/
  additionalDelimiters : List Char := []
  /-- Whether an unknown attribute is an error. -/
  strict : Bool := false
  deriving Repr, Inhabited

end Highlight
