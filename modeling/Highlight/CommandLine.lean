import Highlight.Grammar.Listing
import Highlight.Render
import Highlight.Settings.Reader
import Highlight.Workspace

/-!
# The command line

What the program writes for its arguments.  The program sees the rest of the system only through its
`Surroundings`, so that it can be run on any files that are given to it.
-/

namespace Highlight.CommandLine

/-! ## Arguments -/

/-- What the arguments ask to be done with a file. -/
structure Request where
  /-- The name of a language, in place of the one in the settings. -/
  language : Option String := none
  /-- Write the grammar of the language. -/
  dump : Bool := false
  /-- Write the names of all languages. -/
  list : Bool := false
  /-- Write no colors. -/
  noColor : Bool := false
  /-- The file to highlight, or nothing for the standard input. -/
  file : Option String := none
  deriving Repr, DecidableEq, Inhabited

/-- What the arguments ask for. -/
inductive Command where
  | serve (request : Request)
  | help
  | version
  deriving Repr, DecidableEq, Inhabited

/-- Why the program fails. -/
inductive Error where
  /-- The option that names a language is the last argument. -/
  | missingName (option : String)
  | unknownOption (option : String)
  | noLanguage
  | unknownLanguage (error : UnknownLanguage)
  | settings (error : Settings.Error)
  | unreadable (error : ReadError)
  | grammar (error : GrammarError)
  | fault (fault : Fault)
  deriving Repr, DecidableEq, Inhabited

/-- What is said about settings that cannot be read. -/
def settingsErrorText : Settings.Error → String
  | .malformed => "the text is malformed"
  | .unknownKey => "a key is unknown"
  | .duplicateKey => "a key is set twice"
  | .wrongType => "a value has the wrong type"

/-- What is said about an error. -/
def Error.message : Error → String
  | missingName option => s!"{option} needs a language name"
  | unknownOption option => s!"Unknown option: {option}"
  | noLanguage => "No language given (use --lang NAME)"
  | unknownLanguage error => error.message
  | settings error => s!"Invalid configuration: {settingsErrorText error}"
  | unreadable error => s!"I/O error: {error.message}"
  | grammar error => s!"Grammar error: {error.message}"
  | fault (.noContext context) => s!"Grammar error: there is no context {context}"
  | fault (.splitsCharacter length) => s!"Grammar error: {length} bytes split a character"

/-- Reads arguments into a request.  Help and the version are given as soon as they are asked for,
and of two languages or files the last one counts. -/
def Request.readArguments (request : Request) : List String → Except Error Command
  | [] => .ok (.serve request)
  | argument :: rest =>
    if argument == "--help" || argument == "-h" then .ok .help
    else if argument == "--version" || argument == "-V" then .ok .version
    else if argument == "--lang" || argument == "-l" then
      match rest with
      | [] => .error (.missingName argument)
      | name :: rest => { request with language := some name }.readArguments rest
    else if argument == "--dump" then { request with dump := true }.readArguments rest
    else if argument == "--list" then { request with list := true }.readArguments rest
    else if argument == "--no-color" then { request with noColor := true }.readArguments rest
    else if argument == "-" then { request with file := none }.readArguments rest
    else if argument.startsWith "-" then .error (.unknownOption argument)
    else { request with file := some argument }.readArguments rest

/-- What some arguments ask for. -/
def Command.ofArguments (arguments : List String) : Except Error Command :=
  Request.readArguments {} arguments

/-! ## Fixed texts -/

/-- The version of the program. -/
def programVersion : String := "0.1.0"

/-- What is written for help. -/
def usage : String :=
  s!"ctxhl {programVersion} - context-stack syntax highlighter\n" ++
  "\n" ++
  "Usage: ctxhl [OPTIONS] [FILE]\n" ++
  "\n" ++
  "Reads FILE, or stdin when FILE is missing or '-'.\n" ++
  "\n" ++
  "Options:\n" ++
  "  -l, --lang NAME  Highlight with the named language\n" ++
  "      --dump       Print the language's grammar and exit\n" ++
  "      --list       List available languages and exit\n" ++
  "      --no-color   Write plain text\n" ++
  "  -h, --help       Show this help message\n" ++
  "  -V, --version    Show version information\n" ++
  "\n" ++
  "Settings are read from ~/.ctxhl.toml; RUST_LOG controls diagnostics.\n"

/-! ## Running -/

/-- What the program asks of the system. -/
structure Surroundings (m : Type → Type) where
  /-- Reads the settings file; it counts as missing where there is no home directory. -/
  settingsBytes : m FileBytes
  fileBytes : String → m FileBytes
  /-- Reads all of the standard input. -/
  inputBytes : m FileBytes
  /-- Whether the standard output is a terminal. -/
  terminal : m Bool

/-- What the program leaves behind. -/
structure Outcome where
  code : Nat
  /-- What is written to the standard output. -/
  output : String
  /-- What is written to the standard error output. -/
  diagnostics : String
  deriving Repr, DecidableEq, Inhabited

/-- The name of the settings file in the home directory. -/
def settingsFile : String := ".ctxhl.toml"

/-- The settings, or the error that they lead to. -/
def loadSettings (file : FileBytes) : Except Error Settings :=
  (Settings.load file).2.mapError fun
    | .unreadable error => .unreadable error
    | .malformed error => .settings error

/-- The grammar that a request is about. -/
def Request.grammar (request : Request) (settings : Settings) (workspace : Workspace) :
    Except Error Grammar :=
  match request.language.or settings.language with
  | none => .error .noLanguage
  | some name =>
    match workspace.language? name with
    | none => .error (.unknownLanguage ⟨name⟩)
    | some grammar => .ok grammar

/-- The lines of a text, highlighted in a buffer of their own and rendered.  The settings allow narrow
tabs only, so that a text which has room in memory leaves room for what is rendered. -/
def renderDocument (workspace : Workspace) (grammar : Grammar) (options : RenderOptions)
    (text : List Char) : Except Error String := do
  let lines := textLines text
  let workspace ← (workspace.setLanguage 0 (some grammar.name)).mapError .unknownLanguage
  let (workspace, _) ← (workspace.updateBuffer 0 lines).mapError .fault
  let rendered := lines.zipIdx.map fun (line, index) =>
    renderLine options line (workspace.lineSpans 0 index)
  .ok (String.ofList rendered.flatten)

/-- The options for an output that may be no terminal, where colors may be unwanted. -/
def renderOptions (request : Request) (settings : Settings) (terminal : Bool) : RenderOptions :=
  let options := RenderOptions.ofSettings settings
  { options with color := options.color && !request.noColor && terminal }

variable {m : Type → Type} [Monad m]

/-- What is written for a request. -/
def Request.run (request : Request) (surroundings : Surroundings m) : ExceptT Error m String := do
  let settings ← ExceptT.mk do return loadSettings (← surroundings.settingsBytes)
  let workspace ← ExceptT.mk do
    return (Workspace.standard settings.strictAttributes).result.mapError .grammar
  if request.list then
    return String.join (workspace.languageNames.map fun name => name ++ "\n")
  let grammar ← ExceptT.mk do return request.grammar settings workspace
  if request.dump then
    return grammar.listing
  let bytes ← ExceptT.lift <|
    match request.file with
    | some path => surroundings.fileBytes path
    | none => surroundings.inputBytes
  let text ← ExceptT.mk do return bytes.text.mapError .unreadable
  let terminal ← ExceptT.lift surroundings.terminal
  ExceptT.mk do
    return renderDocument workspace grammar (renderOptions request settings terminal) text

/-- What is written for a command. -/
def Command.run (command : Command) (surroundings : Surroundings m) : ExceptT Error m String :=
  match command with
  | .help => return usage
  | .version => return s!"ctxhl {programVersion}\n"
  | .serve request => request.run surroundings

/-- What the program leaves behind when it succeeds or fails. -/
def Outcome.ofResult : Except Error String → Outcome
  | .ok output => ⟨0, output, ""⟩
  | .error error => ⟨1, "", s!"Error: {error.message}\n"⟩

/-- Runs the program. -/
def run (arguments : List String) (surroundings : Surroundings m) : m Outcome := do
  let result ← ExceptT.run do
    let command ← ExceptT.mk do return Command.ofArguments arguments
    command.run surroundings
  return .ofResult result

end Highlight.CommandLine
