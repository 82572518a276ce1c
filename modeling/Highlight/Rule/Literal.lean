import Highlight.Text

/-!
# Literals

How far a number or a literal in the manner of C reaches at the start of a text.  Each scanner takes
as much as belongs to the literal; where the characters are of the basic alphabet their number is
the number of bytes.
-/

namespace Highlight.Literal

/-- How many characters of a kind a text starts with. -/
def countWhile (kind : Char → Bool) (text : List Char) : Nat :=
  (text.takeWhile kind).length

/-- Whether a character is an octal digit. -/
def isOctal (c : Char) : Bool :=
  '0' ≤ c && c ≤ '7'

/-- Whether a character is a hexadecimal digit. -/
def isHex (c : Char) : Bool :=
  c.isDigit || ('a' ≤ c && c ≤ 'f') || ('A' ≤ c && c ≤ 'F')

/-- The number unless it is zero. -/
def positive? (n : Nat) : Option Nat :=
  if n == 0 then none else some n

/-- The digits that a text starts with, if there are any. -/
def int? (text : List Char) : Option Nat :=
  positive? (countWhile Char.isDigit text)

/-- An exponent: its letter, perhaps a sign, and digits. -/
def exponent? : List Char → Option Nat
  | letter :: rest =>
    if letter == 'e' || letter == 'E' then
      match rest with
      | sign :: digits =>
        if sign == '+' || sign == '-' then (int? digits).map (· + 2) else (int? rest).map (· + 1)
      | [] => none
    else none
  | [] => none

/-- A number with a point, digits on one side of it at least, and perhaps an exponent, or digits
with an exponent. -/
def float? (text : List Char) : Option Nat :=
  let whole := countWhile Char.isDigit text
  match text.drop whole with
  | '.' :: rest =>
    let fraction := countWhile Char.isDigit rest
    if whole + fraction == 0 then none
    else some (whole + 1 + fraction + (exponent? (rest.drop fraction)).getD 0)
  | rest => if whole == 0 then none else (exponent? rest).map (whole + ·)

/-- One letter for the length or the sign of an integer, if there is one. -/
def suffix (text : List Char) : Nat :=
  match text with
  | c :: _ => if c == 'l' || c == 'L' || c == 'u' || c == 'U' then 1 else 0
  | [] => 0

/-- A zero, octal digits and perhaps a suffix. -/
def octal? : List Char → Option Nat
  | '0' :: rest =>
    (positive? (countWhile isOctal rest)).map fun digits =>
      1 + digits + suffix (rest.drop digits)
  | _ => none

/-- A zero, an x, hexadecimal digits and perhaps a suffix. -/
def hex? : List Char → Option Nat
  | '0' :: x :: rest =>
    if x == 'x' || x == 'X' then
      (positive? (countWhile isHex rest)).map fun digits => 2 + digits + suffix (rest.drop digits)
    else none
  | _ => none

/-- The characters that stand for another one behind a backslash. -/
def simpleEscapes : List Char :=
  ['a', 'b', 'e', 'f', 'n', 'r', 't', 'v', '\"', '\'', '?', '\\']

/-- A backslash with a character of its own meaning, with an x and hexadecimal digits, or with up to
three octal digits. -/
def escape? : List Char → Option Nat
  | '\\' :: c :: rest =>
    if simpleEscapes.contains c then some 2
    else if c == 'x' then (positive? (countWhile isHex rest)).map (· + 2)
    else (positive? (countWhile isOctal ((c :: rest).take 3))).map (· + 1)
  | _ => none

/-- An escape or any one character between single quotes. -/
def charLiteral? : List Char → Option Nat
  | '\'' :: rest =>
    match escape? rest with
    | some length => if (rest.drop length).head? == some '\'' then some (length + 2) else none
    | none =>
      match rest with
      | c :: '\'' :: _ => if c == '\'' || c == '\\' then none else some (c.utf8Size + 2)
      | _ => none
  | _ => none

end Highlight.Literal
