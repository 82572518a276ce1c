import Highlight.DefaultStyle
import Highlight.Grammar.Basic
import Highlight.Grammar.Description

/-!
# Building grammars

Building looks up every name in a description and compiles every pattern, so that nothing can be
missing later.  The first thing found broken is reported: first missing or duplicate contexts, then
the items, then the contexts in their order, and inclusions that lead back to their context last.
-/

namespace Highlight

/-- The style of an item. -/
def ItemDef.style (item : ItemDef) : Reported Style :=
  (Reported.require (.unknownDefaultStyle item.name item.defaultStyle)
    (DefaultStyle.ofName? item.defaultStyle)).andThen fun base =>
      let style := base.styleFor item.name
      .done { style with
        format := { style.format with
          foreground := item.color.getD style.format.foreground
          bold := item.bold.getD style.format.bold
          italic := item.italic.getD style.format.italic } }

/-- The tables that names are looked up in. -/
structure Resolver where
  contexts : ContextTable
  /-- Styles by attribute in lower case; the last entry of a name counts. -/
  styles : List (List Char × Style)
  /-- Words by list; the last entry of a name counts. -/
  lists : List (String × List (List Char))
  caseSensitive : Bool
  strict : Bool

/-- The last value that a list gives to a key. -/
def lookupLast {α β : Type} [BEq α] (key : α) (entries : List (α × β)) : Option β :=
  entries.reverse.lookup key

/-- A name as it is compared with others when case does not count. -/
def lowercaseKey (name : String) : List Char :=
  Unicode.lowercase name.toList

namespace Resolver

/-- The style of an attribute.  An unknown one is an error if that is asked for, and otherwise worth
a warning and replaced by a fallback. -/
def style (resolver : Resolver) (owner attributeName : String) (fallback : Style) :
    Reported Style :=
  match lookupLast (lowercaseKey attributeName) resolver.styles with
  | some style => .done style
  | none =>
    if resolver.strict then .fail (.unknownAttribute owner attributeName)
    else .noted (.unknownAttribute owner attributeName) fallback

/-- The switch of a text in a context. -/
def switch (resolver : Resolver) (context operation : String) : Reported Switch :=
  Switch.ofText context resolver.contexts operation

/-- The pattern of a rule, compiled unless it has placeholders. -/
def regex (context : String) (text : List Char) (options : RuleOptions) : Reported RuleKind :=
  let (text, wordStart, lineStart) := RegexRule.splitAnchors false false text
  let rule (compiled : Option Regex) : RuleKind :=
    .regex
      { text, compiled, caseless := options.caseless, minimal := options.minimal, wordStart,
        lineStart }
  if options.dynamic then .done (rule none)
  else
    match Regex.compile text options.caseless options.minimal with
    | .ok compiled => .done (rule (some compiled))
    | .error _ => .fail (.invalidPattern context text)

/-- The resolved kind of a rule in a context. -/
def kind (resolver : Resolver) (context : String) (options : RuleOptions) :
    RuleDefKind → Reported RuleKind
  | .char c => .done (.char (.literal c))
  | .charCapture index => .done (.char (.capture index))
  | .twoChars first second => .done (.twoChars first second)
  | .anyChar set => .done (.anyChar set)
  | .text value => .done (.text value options.caseless)
  | .word value => .done (.word value options.caseless)
  | .regex pattern => regex context pattern options
  | .keyword list =>
    (Reported.require (.unknownList context list) (lookupLast list resolver.lists)).andThen
      fun words => .done (.keyword ⟨list, words, resolver.caseSensitive⟩)
  | .int => .done .int
  | .float => .done .float
  | .octal => .done .octal
  | .hex => .done .hex
  | .stringEscape => .done .stringEscape
  | .charLiteral => .done .charLiteral
  | .range first last => .done (.range first last)
  | .lineContinue marker => .done (.lineContinue marker)
  | .spaces => .done .spaces
  | .identifier => .done .identifier
  | .inclusion name =>
    (Reported.require (.unknownContext context name) (resolver.contexts.find? name)).andThen
      fun (target, _) => .done (.inclusion ⟨name, target, options.withStyle⟩)

/-- The style of a rule in a context of some style. -/
def ruleStyle (resolver : Resolver) (context : String) (contextStyle : Style) :
    Option String → Reported (Option Style)
  | none => .done none
  | some attributeName =>
    (resolver.style s!"Rule in context '{context}'" attributeName contextStyle).andThen
      fun style => .done (some style)

mutual

/-- A rule in a context of some style. -/
def rule (resolver : Resolver) (context : String) (contextStyle : Style) : RuleDef → Reported Rule
  | ⟨kind, options, children⟩ =>
    (resolver.kind context options kind).andThen fun resolved =>
      (if kind.isNumber then resolver.rules context contextStyle children else .done []).andThen
        fun children =>
          (resolver.ruleStyle context contextStyle options.attributeName).andThen fun style =>
            (resolver.switch context options.switch).andThen fun switch =>
              .done
                { kind := resolved, attributeName := options.attributeName, style, switch
                  lookAhead := options.lookAhead, firstNonSpace := options.firstNonSpace
                  column := options.column, dynamic := options.dynamic, children }

/-- Rules in a context of some style. -/
def rules (resolver : Resolver) (context : String) (contextStyle : Style) :
    List RuleDef → Reported (List Rule)
  | [] => .done []
  | first :: rest =>
    (resolver.rule context contextStyle first).andThen fun first =>
      (resolver.rules context contextStyle rest).andThen fun rest => .done (first :: rest)

end

/-- The style of a context. -/
def contextStyle (resolver : Resolver) (context : ContextDef) : Reported Style :=
  match context.attributeName with
  | none => .done {}
  | some attributeName =>
    resolver.style s!"Context '{context.name}'" attributeName
      (DefaultStyle.normal.styleFor attributeName)

/-- A context. -/
def context (resolver : Resolver) (context : ContextDef) : Reported Context :=
  (resolver.contextStyle context).andThen fun style =>
    (resolver.switch context.name context.fallthrough).andThen fun fallthrough =>
      (resolver.rules context.name style context.rules).andThen fun rules =>
        (resolver.switch context.name context.lineEnd).andThen fun lineEnd =>
          (resolver.switch context.name context.lineBegin).andThen fun lineBegin =>
            .done
              { name := context.name, attributeName := context.attributeName, style
                dynamic := context.dynamic, rules, lineEnd, lineBegin, fallthrough }

end Resolver

/-- The first name that stands in a list a second time. -/
def firstDuplicate? (met : List String) : List String → Option String
  | [] => none
  | name :: rest => if met.contains name then some name else firstDuplicate? (name :: met) rest

namespace GrammarDef

/-- The names of the contexts, with whether they are dynamic. -/
def contextTable (description : GrammarDef) : ContextTable :=
  description.contexts.map fun context => (context.name, context.dynamic)

/-- The words of the keyword lists. -/
def words (description : GrammarDef) : List (String × List (List Char)) :=
  description.lists.map fun (name, words) =>
    (name, words.map fun word =>
      if description.caseSensitive then word.toList else lowercaseKey word)

/-- The styles of the items. -/
def styles (description : GrammarDef) : Reported (List (List Char × Style)) :=
  .each (fun item => item.style.andThen fun style => .done (lowercaseKey item.name, style))
    description.items

/-- The tables of a description. -/
def resolver (description : GrammarDef) (styles : List (List Char × Style)) : Resolver :=
  { contexts := description.contextTable, styles, lists := description.words
    caseSensitive := description.caseSensitive, strict := description.strict }

/-- The grammar of resolved contexts, unless one of them includes itself. -/
def assemble (description : GrammarDef) (contexts : List Context) : Reported Grammar :=
  match h : (includeGraph contexts).firstCycle? with
  | some index => .fail (.recursiveInclude ((contexts[index]?.map Context.name).getD ""))
  | none =>
    .done
      { name := description.name, contexts
        delimiters := .adjusted description.weakDelimiters description.additionalDelimiters
        caseSensitive := description.caseSensitive
        acyclic := Graph.acyclic_of_firstCycle? h }

/-- Resolves a description. -/
def build (description : GrammarDef) : Reported Grammar :=
  if description.contexts.isEmpty then .fail (.noContexts description.name)
  else
    match firstDuplicate? [] (description.contexts.map ContextDef.name) with
    | some name => .fail (.duplicateContext name)
    | none =>
      description.styles.andThen fun styles =>
        (Reported.each (description.resolver styles).context description.contexts).andThen
          description.assemble

end GrammarDef

end Highlight
