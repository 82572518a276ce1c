import Highlight.Unicode.Table

/-!
# Quoted values

The four ways to quote a text in a settings file: between double quotes with escapes, between single
quotes without, and either of them threefold over many lines.  A reader is given the text behind the
opening quotes and answers what was quoted and the text behind the closing ones.
-/

namespace Highlight.Settings

/-- A quoted text and what follows it. -/
abbrev Quoted := Option (List Char × List Char)

/-- The quoted text with some characters before it. -/
def Quoted.after (chars : List Char) : Quoted → Quoted :=
  Option.map fun (text, rest) => (chars ++ text, rest)

/-- Whether a character may stand for itself in a line of text: any but the controls, tab
excepted. -/
def isPlainChar (c : Char) : Bool :=
  c == '\t' || (0x20 ≤ c.toNat && c.toNat != 0x7F)

/-- The character that a letter stands for behind a backslash. -/
def escapedChar? (c : Char) : Option Char :=
  match c with
  | 'b' => some '\x08'
  | 't' => some '\t'
  | 'n' => some '\n'
  | 'f' => some '\x0c'
  | 'r' => some '\r'
  | '\"' => some '\"'
  | '\\' => some '\\'
  | _ => none

/-- The character with a number in hexadecimal digits. -/
def hexChar? (digits : List Char) : Option Char :=
  let code := (Unicode.readHex 0 digits).1
  if digits.all (fun c => (Unicode.hexDigit? c).isSome) && code.isValidChar then
    some (Char.ofNat code)
  else none

/-- The quoted text with a character before it, if there is one. -/
def Quoted.afterChar (c : Option Char) (quoted : Quoted) : Quoted :=
  c.bind fun c => quoted.after [c]

/-- A text between double quotes. -/
def readDouble : List Char → Quoted
  | '\"' :: rest => some ([], rest)
  | '\\' :: 'u' :: a :: b :: c :: d :: rest =>
    Quoted.afterChar (hexChar? [a, b, c, d]) (readDouble rest)
  | '\\' :: 'U' :: a :: b :: c :: d :: e :: f :: g :: h :: rest =>
    Quoted.afterChar (hexChar? [a, b, c, d, e, f, g, h]) (readDouble rest)
  | '\\' :: c :: rest => Quoted.afterChar (escapedChar? c) (readDouble rest)
  | c :: rest => if isPlainChar c && c != '\\' then (readDouble rest).after [c] else none
  | [] => none

/-- A text between single quotes. -/
def readSingle : List Char → Quoted
  | '\'' :: rest => some ([], rest)
  | c :: rest => if isPlainChar c then (readSingle rest).after [c] else none
  | [] => none

/-- Whether a line ends here, blanks aside. -/
def endsLine (text : List Char) : Bool :=
  match text.dropWhile fun c => c == ' ' || c == '\t' with
  | '\n' :: _ => true
  | '\r' :: '\n' :: _ => true
  | _ => false

/-- A text between three double quotes.  Up to two more quotes may stand before the closing ones.  A
backslash at the end of a line joins it to the next character that is neither blank nor line end;
`joining` says that this character is looked for. -/
def readLongDouble (joining : Bool) : List Char → Quoted
  | '\"' :: '\"' :: '\"' :: '\"' :: '\"' :: rest => some (['\"', '\"'], rest)
  | '\"' :: '\"' :: '\"' :: '\"' :: rest => some (['\"'], rest)
  | '\"' :: '\"' :: '\"' :: rest => some ([], rest)
  | '\\' :: 'u' :: a :: b :: c :: d :: rest =>
    Quoted.afterChar (hexChar? [a, b, c, d]) (readLongDouble false rest)
  | '\\' :: 'U' :: a :: b :: c :: d :: e :: f :: g :: h :: rest =>
    Quoted.afterChar (hexChar? [a, b, c, d, e, f, g, h]) (readLongDouble false rest)
  | '\\' :: c :: rest =>
    if endsLine (c :: rest) then readLongDouble true (c :: rest)
    else Quoted.afterChar (escapedChar? c) (readLongDouble false rest)
  | '\r' :: '\n' :: rest =>
    if joining then readLongDouble true rest else (readLongDouble false rest).after ['\n']
  | c :: rest =>
    if joining && (c == ' ' || c == '\t' || c == '\n') then readLongDouble true rest
    else if c == '\n' || (isPlainChar c && c != '\\') then (readLongDouble false rest).after [c]
    else none
  | [] => none

/-- A text between three single quotes, up to two more of which may stand before the closing
ones. -/
def readLongSingle : List Char → Quoted
  | '\'' :: '\'' :: '\'' :: '\'' :: '\'' :: rest => some (['\'', '\''], rest)
  | '\'' :: '\'' :: '\'' :: '\'' :: rest => some (['\''], rest)
  | '\'' :: '\'' :: '\'' :: rest => some ([], rest)
  | '\r' :: '\n' :: rest => (readLongSingle rest).after ['\n']
  | c :: rest =>
    if c == '\n' || isPlainChar c then (readLongSingle rest).after [c] else none
  | [] => none

/-- The text without a line end at its start. -/
def dropLineEnd : List Char → List Char
  | '\n' :: rest => rest
  | '\r' :: '\n' :: rest => rest
  | rest => rest

/-- A quoted text in any of the four ways. -/
def readQuoted : List Char → Quoted
  | '\"' :: '\"' :: '\"' :: rest => readLongDouble false (dropLineEnd rest)
  | '\'' :: '\'' :: '\'' :: rest => readLongSingle (dropLineEnd rest)
  | '\"' :: rest => readDouble rest
  | '\'' :: rest => readSingle rest
  | _ => none

end Highlight.Settings
