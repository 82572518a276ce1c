/-!
# Notices

Building and highlighting never stop for a doubtful grammar; they report what they noticed.  A
notice is either a warning about the grammar or a debugging note about a line.
-/

namespace Highlight

/-- What building a grammar, highlighting a line or loading the settings has to report. -/
inductive Notice where
  /-- An attribute that no item defines; `owner` names who refers to it. -/
  | unknownAttribute (owner attributeName : String)
  /-- A switch text that says to stay after popping. -/
  | stayAfterPop (operation : String)
  /-- A switch pops more contexts than the stack can give. -/
  | popTooBig (depth pops : Nat)
  /-- A pattern with its placeholders filled in is no regular expression. -/
  | brokenPattern (pattern : List Char)
  /-- So many switches were taken at one offset that the line is moved on. -/
  | tooManySwitches (offset : Nat) (context : String)
  /-- The switches at the end of a line went on for too long. -/
  | lineEndUnsettled (context : String)
  /-- A settings file was found and read. -/
  | loadingSettings
  deriving Repr, DecidableEq, Inhabited

namespace Notice

/-- How much a notice matters. -/
inductive Level where
  | warning
  | debug
  deriving Repr, DecidableEq, Inhabited

/-- Doubts about a grammar are warnings, all else is for debugging. -/
def level : Notice → Level
  | unknownAttribute .. | stayAfterPop .. | popTooBig .. => .warning
  | _ => .debug

/-- The text of a notice. -/
def message : Notice → String
  | unknownAttribute owner attributeName =>
    s!"{owner} refers to unknown attribute '{attributeName}'"
  | stayAfterPop operation => s!"Invalid context operation '{operation}', #stay after #pop"
  | popTooBig depth pops => s!"#pop value is too big: stack depth {depth}, pops {pops}"
  | brokenPattern pattern => s!"Dynamic regex '{String.ofList pattern}' failed to compile"
  | tooManySwitches offset context =>
    s!"Too many zero-width context switches at offset {offset} in context '{context}'"
  | lineEndUnsettled context => s!"Line end switches did not settle in context '{context}'"
  | loadingSettings => "Loading configuration"

/-- The name of a level as it stands before a notice's text. -/
def Level.label : Level → String
  | .warning => "WARN"
  | .debug => "DEBUG"

/-- A notice as a line of a log. -/
def render (notice : Notice) : String :=
  notice.level.label ++ " " ++ notice.message

end Notice

end Highlight
