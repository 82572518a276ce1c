import Highlight.Grammar.Basic
import Highlight.Unicode.Quoted

/-!
# Listing a grammar

A resolved grammar as text: its delimiters, and its contexts with their switches and rules.
-/

namespace Highlight

/-- The name of a kind of rule. -/
def RuleKind.label : RuleKind → String
  | char _ => "DetectChar"
  | twoChars .. => "Detect2Chars"
  | anyChar _ => "AnyChar"
  | text .. => "StringDetect"
  | word .. => "WordDetect"
  | regex _ => "RegExpr"
  | keyword _ => "keyword"
  | int => "Int"
  | float => "Float"
  | octal => "HlCOct"
  | hex => "HlCHex"
  | stringEscape => "HlCStringChar"
  | charLiteral => "HlCChar"
  | range .. => "RangeDetect"
  | lineContinue _ => "LineContinue"
  | spaces => "DetectSpaces"
  | identifier => "DetectIdentifier"
  | inclusion _ => "IncludeRules"

/-- A word behind a blank, if it applies. -/
def flagText (applies : Bool) (word : String) : String :=
  if applies then " " ++ word else ""

/-- What a rule looks for, as text. -/
def RuleKind.arguments : RuleKind → String
  | char (.literal c) => c.toString
  | char (.capture index) => s!"index: {index}"
  | twoChars first second => String.ofList [first, second]
  | anyChar set => String.ofList set
  | text value caseless | word value caseless =>
    String.ofList value ++ flagText caseless "insensitive"
  | regex rule =>
    String.ofList rule.text ++ flagText rule.caseless "insensitive" ++
      flagText rule.minimal "minimal" ++ flagText rule.wordStart "wordStart" ++
      flagText rule.lineStart "lineStart"
  | keyword rule => rule.list
  | range first last => s!"{first} - {last}"
  | lineContinue marker => marker.toString
  | inclusion included => included.name
  | _ => ""

/-- A rule as text. -/
def Rule.listing (rule : Rule) : String :=
  let attributeText :=
    match rule.attributeName with
    | some attributeName => " attribute=" ++ attributeName
    | none => ""
  let switchText := if rule.switch.isStay then "" else " context=" ++ rule.switch.render
  rule.kind.label ++ "(" ++ rule.kind.arguments ++ ")" ++ attributeText ++ switchText ++
    flagText rule.lookAhead "lookAhead"

/-- The line for a switch of a context, unless it stays. -/
def switchLine (label : String) (switch : Switch) : List String :=
  if switch.isStay then [] else [s!"\t\t{label}: {switch.render}"]

/-- The lines of a context. -/
def Context.listing (context : Context) : List String :=
  let attributeText := context.attributeName.getD "<not set>"
  [s!"\tContext {context.name}", s!"\t\tattribute: {attributeText}"] ++
    switchLine "lineEndContext" context.lineEnd ++
    switchLine "lineBeginContext" context.lineBegin ++
    switchLine "fallthroughContext" context.fallthrough ++
    (if context.dynamic then ["\t\tdynamic"] else []) ++
    context.rules.flatMap fun rule =>
      ("\t\t" ++ rule.listing) :: rule.children.map fun child => "\t\t\t" ++ child.listing

/-- The lines of a grammar. -/
def Grammar.listingLines (grammar : Grammar) : List String :=
  [s!"Language {grammar.name}",
    "\tdelimiters: " ++ Unicode.quoted grammar.delimiters.chars] ++
    (if grammar.caseSensitive then [] else ["\tcase insensitive keywords"]) ++
    grammar.contexts.flatMap Context.listing

/-- A grammar as text. -/
def Grammar.listing (grammar : Grammar) : String :=
  String.join (grammar.listingLines.map fun line => line ++ "\n")

end Highlight
