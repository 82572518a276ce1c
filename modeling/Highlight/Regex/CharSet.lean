import Highlight.Unicode.Blank
import Highlight.Unicode.Fold
import Highlight.Unicode.Property

/-!
# Sets of characters in patterns

What a pattern writes for "one character of these": ranges, the classes of a backslash and a letter,
bracketed sets and their unions, intersections and differences.  A set is read under a mode that
says whether case counts and whether the classes reach beyond the basic alphabet.
-/

namespace Highlight.Regex

/-- How the characters of a pattern are to be understood. -/
structure CharMode where
  /-- Characters that differ in case only are the same. -/
  caseless : Bool := false
  /-- Classes and case reach beyond the basic alphabet. -/
  unicode : Bool := true
  deriving Repr, DecidableEq, Inhabited

/-- The classes of a backslash and a letter. -/
inductive LetterClass where
  | digit
  | space
  | word
  deriving Repr, DecidableEq, Inhabited

/-- Whether a character is in a letter's class. -/
def LetterClass.contains (unicode : Bool) (kind : LetterClass) (c : Char) : Bool :=
  match kind with
  | .digit => if unicode then Unicode.isDecimalDigit c else c.isDigit
  | .space =>
    if unicode then Unicode.isBlank c else c == ' ' || (9 ≤ c.toNat && c.toNat ≤ 13)
  | .word => if unicode then Unicode.isWordChar c else c.isAlphanum || c == '_'

/-- The classes that have names inside brackets. -/
inductive NamedClass where
  | alnum
  | alpha
  | ascii
  | blank
  | cntrl
  | digit
  | graph
  | lower
  | print
  | punct
  | space
  | upper
  | word
  | xdigit
  deriving Repr, DecidableEq, Inhabited

namespace NamedClass

/-- The named classes by their names. -/
def byName : List (List Char × NamedClass) :=
  [("alnum".toList, alnum), ("alpha".toList, alpha), ("ascii".toList, ascii),
    ("blank".toList, blank), ("cntrl".toList, cntrl), ("digit".toList, digit),
    ("graph".toList, graph), ("lower".toList, lower), ("print".toList, print),
    ("punct".toList, punct), ("space".toList, space), ("upper".toList, upper),
    ("word".toList, word), ("xdigit".toList, xdigit)]

/-- Whether a character is in a named class; all of them lie in the basic alphabet. -/
def contains (kind : NamedClass) (c : Char) : Bool :=
  match kind with
  | alnum => c.isAlphanum
  | alpha => c.isAlpha
  | ascii => c.toNat < 128
  | blank => c == ' ' || c == '\t'
  | cntrl => c.toNat < 32 || c.toNat == 127
  | digit => c.isDigit
  | graph => 33 ≤ c.toNat && c.toNat < 127
  | lower => c.isLower
  | print => 32 ≤ c.toNat && c.toNat < 127
  | punct => 33 ≤ c.toNat && c.toNat < 127 && !c.isAlphanum
  | space => c == ' ' || (9 ≤ c.toNat && c.toNat ≤ 13)
  | upper => c.isUpper
  | word => c.isAlphanum || c == '_'
  | xdigit => c.isDigit || ('a' ≤ c && c ≤ 'f') || ('A' ≤ c && c ≤ 'F')

end NamedClass

/-- How two sets are combined. -/
inductive SetOp where
  | intersection
  | difference
  | symmetricDifference
  deriving Repr, DecidableEq, Inhabited

/-- The membership that a combination has, from that of its two sides. -/
def SetOp.combine : SetOp → Bool → Bool → Bool
  | intersection, first, second => first && second
  | difference, first, second => first && !second
  | symmetricDifference, first, second => first != second

/-- A set of characters as it is written. -/
inductive CharSet where
  | none
  | range (first last : Char)
  | letter (kind : LetterClass) (negated : Bool)
  | named (kind : NamedClass) (negated : Bool)
  | property (kind : Unicode.Property) (negated : Bool)
  | union (first second : CharSet)
  | bracket (negated : Bool) (body : CharSet)
  | combined (op : SetOp) (first second : CharSet)
  deriving Repr, DecidableEq, Inhabited

/-- The characters that count as `c` under a mode. -/
def CharMode.variants (mode : CharMode) (c : Char) : List Char :=
  if mode.caseless then
    (if mode.unicode then Unicode.caseVariants c.toNat
      else Unicode.asciiCaseVariants c.toNat).map Char.ofNat
  else [c]

/-- Whether a character, or one that counts as it, is in a set. -/
def CharMode.any (mode : CharMode) (set : Char → Bool) (c : Char) : Bool :=
  if mode.caseless then (mode.variants c).any set else set c

namespace CharSet

/-- Whether a character is in a set.  A set is closed under the mode's variants before it is negated
or combined with another. -/
def contains (mode : CharMode) : CharSet → Char → Bool
  | none, _ => false
  | range first last, c => first ≤ c && c ≤ last
  | letter kind negated, c => negated != kind.contains mode.unicode c
  | named kind negated, c => negated != mode.any kind.contains c
  | property kind negated, c => negated != mode.any kind.contains c
  | union first second, c => first.contains mode c || second.contains mode c
  | bracket negated body, c => negated != mode.any (body.contains mode) c
  | combined op first second, c =>
    op.combine (mode.any (first.contains mode) c) (mode.any (second.contains mode) c)

/-- The set of one character. -/
def single (c : Char) : CharSet :=
  range c c

/-- All characters. -/
def all : CharSet :=
  bracket true none

/-- All characters but those of a list. -/
def allBut (chars : List Char) : CharSet :=
  bracket true (chars.foldr (fun c set => union (single c) set) none)

@[simp] theorem contains_single {mode : CharMode} {c d : Char} :
    (single c).contains mode d = true ↔ d = c := by
  simp only [single, contains, Bool.and_eq_true, decide_eq_true_eq]
  constructor
  · rintro ⟨h₁, h₂⟩
    exact Char.le_antisymm h₂ h₁
  · rintro rfl
    exact ⟨Char.le_refl _, Char.le_refl _⟩

end CharSet

end Highlight.Regex
