import Highlight.Notice
import Highlight.Settings.Quoted
import Highlight.TextFile

/-!
# Settings

What a user can set: how lines are shown, how strict grammars are taken, and the language that is
used when none is named.

Settings are in a file, which need not be there.  It gives values to keys, one in a line.  Of the
larger notation that such files use only texts, whole numbers and truth values are of use here, so
everything else is refused, and so are unknown keys and keys that are set twice.
-/

namespace Highlight

/-- The settings of the program. -/
structure Settings where
  /-- Columns between tab stops, from one to sixteen. -/
  tabWidth : Nat := 8
  /-- Whether colors are written. -/
  color : Bool := true
  /-- Whether a grammar may not name undefined attributes. -/
  strictAttributes : Bool := false
  /-- The language when none is given. -/
  language : Option String := none
  deriving Repr, DecidableEq, Inhabited

end Highlight

namespace Highlight.Settings

/-- Why a text holds no settings. -/
inductive Error where
  | malformed
  | unknownKey
  | duplicateKey
  | wrongType
  deriving Repr, DecidableEq, Inhabited

/-- Why settings cannot be loaded. -/
inductive LoadError where
  | unreadable (error : ReadError)
  | malformed (error : Settings.Error)
  deriving Repr, DecidableEq, Inhabited

/-- A value in a settings file. -/
inductive Value where
  | text (value : String)
  | integer (value : Int)
  | boolean (value : Bool)
  deriving Repr, DecidableEq, Inhabited

/-! ## Numbers -/

/-- The value of digits in a base, which may have underscores between them. -/
def digitsValue? (base : Nat) (afterDigit : Bool) (value : Nat) : List Char → Option Nat
  | [] => if afterDigit then some value else none
  | '_' :: rest => if afterDigit then digitsValue? base false value rest else none
  | c :: rest =>
    match Unicode.hexDigit? c with
    | some digit =>
      if digit < base then digitsValue? base true (value * base + digit) rest else none
    | none => none

/-- The value of a decimal number, which does not start with a zero unless it is one. -/
def decimalValue? : List Char → Option Nat
  | '0' :: _ :: _ => none
  | digits => digitsValue? 10 false 0 digits

/-- The value of a whole number. -/
def integerValue? : List Char → Option Int
  | '0' :: 'x' :: digits => (digitsValue? 16 false 0 digits).map Int.ofNat
  | '0' :: 'o' :: digits => (digitsValue? 8 false 0 digits).map Int.ofNat
  | '0' :: 'b' :: digits => (digitsValue? 2 false 0 digits).map Int.ofNat
  | '+' :: digits => (decimalValue? digits).map Int.ofNat
  | '-' :: digits => (decimalValue? digits).map fun n => -(n : Int)
  | digits => (decimalValue? digits).map Int.ofNat

/-- Whether a number fits into sixty-four bits with a sign. -/
def fitsWord (n : Int) : Bool :=
  -0x8000000000000000 ≤ n && n < 0x8000000000000000

/-- The value of a word that is not quoted. -/
def bareValue? (word : List Char) : Option Value :=
  if word == "true".toList then some (.boolean true)
  else if word == "false".toList then some (.boolean false)
  else (integerValue? word).bind fun n => if fitsWord n then some (.integer n) else none

/-! ## Lines -/

/-- The text without the blanks and tabs at its start. -/
def skipBlanks (text : List Char) : List Char :=
  text.dropWhile fun c => c == ' ' || c == '\t'

/-- Whether a character can stand in a key or in a number without quotes. -/
def isBareChar (c : Char) : Bool :=
  c.isAlphanum || c == '-' || c == '_'

/-- A key and what follows it. -/
def readKey? (text : List Char) : Option (List Char × List Char) :=
  match text with
  | '\"' :: rest => readDouble rest
  | '\'' :: rest => readSingle rest
  | _ =>
    match text.takeWhile isBareChar with
    | [] => none
    | key => some (key, text.dropWhile isBareChar)

/-- A value and what follows it. -/
def readValue? (text : List Char) : Option (Value × List Char) :=
  match readQuoted text with
  | some (value, rest) => some (.text (String.ofList value), rest)
  | none =>
    let isWordChar (c : Char) : Bool := isBareChar c || c == '+'
    (bareValue? (text.takeWhile isWordChar)).map fun value => (value, text.dropWhile isWordChar)

/-- The text behind the end of a line, before which a comment may stand. -/
def readLineEnd? (text : List Char) : Option (List Char) :=
  let text := skipBlanks text
  let rest :=
    match text with
    | '#' :: comment => comment.dropWhile isPlainChar
    | rest => rest
  match rest with
  | [] => some []
  | '\n' :: rest => some rest
  | '\r' :: '\n' :: rest => some rest
  | _ => none

/-- The entry of a line, if it has one, and the text behind the line. -/
def readLine? (text : List Char) : Option (Option (List Char × Value) × List Char) :=
  match readLineEnd? text with
  | some rest => some (none, rest)
  | none => do
    let (key, rest) ← readKey? (skipBlanks text)
    match skipBlanks rest with
    | '=' :: rest =>
      let (value, rest) ← readValue? (skipBlanks rest)
      let rest ← readLineEnd? rest
      some (some (key, value), rest)
    | _ => none

/-- The entries of a text, in order.  Each line leaves a shorter text. -/
def readEntries (text : List Char) : Except Error (List (List Char × Value)) :=
  if text.isEmpty then .ok []
  else
    match readLine? text with
    | none => .error .malformed
    | some (entry, rest) =>
      if rest.length < text.length then do
        let entries ← readEntries rest
        .ok (entry.toList ++ entries)
      else .error .malformed
termination_by text.length

/-! ## Entries -/

/-- The least and the greatest tab width. -/
def clampTabWidth (n : Nat) : Nat :=
  max 1 (min n 16)

/-- The settings with the value of an entry. -/
def set (settings : Settings) (key : List Char) (value : Value) : Except Error Settings :=
  if key == "tab-width".toList then
    match value with
    | .integer (.ofNat n) => .ok { settings with tabWidth := clampTabWidth n }
    | _ => .error .wrongType
  else if key == "color".toList then
    match value with
    | .boolean color => .ok { settings with color }
    | _ => .error .wrongType
  else if key == "strict-attributes".toList then
    match value with
    | .boolean strictAttributes => .ok { settings with strictAttributes }
    | _ => .error .wrongType
  else if key == "language".toList then
    match value with
    | .text language => .ok { settings with language }
    | _ => .error .wrongType
  else .error .unknownKey

/-- The settings with the values of entries, of which no two have one key. -/
def setAll (settings : Settings) (met : List (List Char)) :
    List (List Char × Value) → Except Error Settings
  | [] => .ok settings
  | (key, value) :: rest =>
    if met.contains key then .error .duplicateKey
    else do
      let settings ← settings.set key value
      settings.setAll (key :: met) rest

/-- The text without a byte order mark. -/
def dropByteOrderMark : List Char → List Char
  | c :: rest => if c.toNat == 0xFEFF then rest else c :: rest
  | [] => []

/-- The settings that a text holds. -/
def ofText (text : List Char) : Except Error Settings := do
  let entries ← readEntries (dropByteOrderMark text)
  setAll {} [] entries

/-- The settings in a file, with what there is to report.  A file that is missing leaves all
settings as they are. -/
def load (file : FileBytes) : List Notice × Except LoadError Settings :=
  match file.text with
  | .error .notFound => ([], .ok {})
  | .error error => ([], .error (.unreadable error))
  | .ok text => ([.loadingSettings], (ofText text).mapError .malformed)

end Highlight.Settings
