import Highlight.Cache
import Highlight.Grammar.Build
import Highlight.Language.Bash
import Highlight.Language.C
import Highlight.Language.Python
import Highlight.Registry

/-!
# Workspaces

A workspace knows grammars by the names of their languages and keeps a cache for each buffer.  An
operation on a buffer touches the cache of that buffer and nothing else.
-/

namespace Highlight

/-- The descriptions of the languages of this library. -/
def standardLanguages : List GrammarDef :=
  [Language.C.grammar, Language.Python.grammar, Language.Bash.grammar]

/-- Grammars by name, and the caches of buffers. -/
structure Workspace where
  languages : Registry String Grammar := {}
  caches : Registry Nat Cache := {}
  /-- Whether buffers are highlighted at all. -/
  enabled : Bool := true

/-- A language that a workspace does not know. -/
structure UnknownLanguage where
  name : String
  deriving Repr, DecidableEq, Inhabited

/-- What is said about an unknown language. -/
def UnknownLanguage.message (error : UnknownLanguage) : String :=
  s!"No such language: {error.name}"

namespace Workspace

/-- A workspace without languages. -/
def empty : Workspace := {}

/-- The workspace with a grammar under the name of its language, in place of any other. -/
def addLanguage (workspace : Workspace) (grammar : Grammar) : Workspace :=
  { workspace with languages := workspace.languages.insert grammar.name grammar }

/-- The workspace with the grammars of some descriptions, up to the first that is broken. -/
def addAll (workspace : Workspace) : List GrammarDef → Reported Workspace
  | [] => .done workspace
  | description :: rest =>
    description.build.andThen fun grammar => (workspace.addLanguage grammar).addAll rest

/-- A workspace with the languages of this library. -/
def standard (strict : Bool) : Reported Workspace :=
  empty.addAll (standardLanguages.map fun description => { description with strict })

/-- The grammar of a language. -/
def language? (workspace : Workspace) (name : String) : Option Grammar :=
  workspace.languages.find? name

/-- The names of the languages in order. -/
def languageNames (workspace : Workspace) : List String :=
  workspace.languages.keys.mergeSort fun first second => !(second < first)

/-- The cache of a buffer; a buffer without one has an empty cache. -/
def cache (workspace : Workspace) (buffer : Nat) : Cache :=
  (workspace.caches.find? buffer).getD {}

/-- The workspace with a cache for a buffer. -/
def setCache (workspace : Workspace) (buffer : Nat) (cache : Cache) : Workspace :=
  { workspace with caches := workspace.caches.insert buffer cache }

/-- Changes the cache of a buffer, which gets one if it has none. -/
def modifyCache (workspace : Workspace) (buffer : Nat) (f : Cache → Cache) : Workspace :=
  workspace.setCache buffer (f (workspace.cache buffer))

/-- Changes the cache of a buffer if it has one. -/
def modifyExisting (workspace : Workspace) (buffer : Nat) (f : Cache → Cache) : Workspace :=
  match workspace.caches.find? buffer with
  | some cache => workspace.setCache buffer (f cache)
  | none => workspace

/-- Forgets the cache of a buffer. -/
def removeCache (workspace : Workspace) (buffer : Nat) : Workspace :=
  { workspace with caches := workspace.caches.erase buffer }

/-- Sets the language of a buffer and forgets its lines, unless there is no such language. -/
def setLanguage (workspace : Workspace) (buffer : Nat) (language : Option String) :
    Except UnknownLanguage Workspace :=
  match language.filter fun name => (workspace.language? name).isNone with
  | some name => .error ⟨name⟩
  | none => .ok (workspace.modifyCache buffer fun cache => cache.setLanguage language)

/-- Marks a line of a buffer that was edited. -/
def invalidateLine (workspace : Workspace) (buffer line : Nat) : Workspace :=
  workspace.modifyExisting buffer fun cache => cache.invalidateLine line

/-- Marks a line of a buffer and all lines behind it. -/
def invalidateFrom (workspace : Workspace) (buffer line : Nat) : Workspace :=
  workspace.modifyExisting buffer fun cache => cache.invalidateFrom line

/-- The grammar of a buffer's language, if it has one and it is known. -/
def bufferGrammar? (workspace : Workspace) (buffer : Nat) : Option Grammar :=
  (workspace.cache buffer).language.bind workspace.language?

/-- Brings a buffer up to date with its lines, and answers how many were highlighted.  Nothing
happens while highlighting is off, and a buffer without a known language only gets a cache. -/
def updateBuffer (workspace : Workspace) (buffer : Nat) (lines : List (List Char)) :
    Except Fault (Workspace × Nat × List Notice) :=
  if !workspace.enabled then .ok (workspace, 0, [])
  else
    match workspace.bufferGrammar? buffer with
    | none => .ok (workspace.modifyCache buffer id, 0, [])
    | some grammar => do
      let (cache, count, notices) ← (workspace.cache buffer).update grammar lines
      .ok (workspace.setCache buffer cache, count, notices)

/-- The spans of a line of a buffer, none if it is not highlighted. -/
def lineSpans (workspace : Workspace) (buffer line : Nat) : List Span :=
  if workspace.enabled then ((workspace.cache buffer).spans? line).getD [] else []

/-- Turns highlighting on or off. -/
def toggle (workspace : Workspace) : Workspace :=
  { workspace with enabled := !workspace.enabled }

end Workspace

end Highlight
