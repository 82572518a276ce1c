import Highlight.Unicode.Blank
import Highlight.Unicode.Category

/-!
# Properties of characters

The sets of characters that patterns can ask for: general categories, listed code points, and what
is made of them.
-/

namespace Highlight.Unicode

/-- A property of characters. -/
inductive Property where
  | any
  | ascii
  | assigned
  | alphabetic
  | whiteSpace
  /-- The characters of one of the categories. -/
  | categories (list : List Category)
  /-- The characters of a table. -/
  | listed (table : Table)
  | either (first second : Property)
  /-- The characters of the first property that do not have the second. -/
  | except (first second : Property)
  deriving Repr, DecidableEq, Inhabited

/-- Whether a character has a property. -/
def Property.contains (property : Property) (c : Char) : Bool :=
  match property with
  | .any => true
  | .ascii => c.toNat < 128
  | .assigned => !Category.unassigned.contains c
  | .alphabetic => isAlphabetic c
  | .whiteSpace => isBlank c
  | .categories list => list.any (·.contains c)
  | .listed table => table.contains c.toNat
  | .either first second => first.contains c || second.contains c
  | .except first second => first.contains c && !second.contains c

end Highlight.Unicode
