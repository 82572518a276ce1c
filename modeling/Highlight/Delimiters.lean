import Highlight.Unicode.Blank

/-!
# Word delimiters

White space always ends a word.  Beside it a grammar has a set of delimiting characters: the
standard set without the characters that the grammar calls weak, and with those that it adds.
-/

namespace Highlight

/-- The characters that end a word for keywords and word boundaries. -/
structure Delimiters where
  chars : List Char
  deriving Repr, DecidableEq, Inhabited

namespace Delimiters

/-- The characters that delimit words unless a grammar says otherwise. -/
def standardChars : List Char :=
  " \t.():!+,-<=>%&*/;?[]^\x7b|\x7d~\\".toList

/-- A character list with one more character, unless it is there already. -/
def addChar (chars : List Char) (c : Char) : List Char :=
  if chars.contains c then chars else chars ++ [c]

/-- The standard delimiters without the `weak` ones and with the `additional` ones. -/
def adjusted (weak additional : List Char) : Delimiters :=
  ⟨additional.foldl addChar (standardChars.filter fun c => !weak.contains c)⟩

/-- The delimiters of a grammar without adjustments. -/
def standard : Delimiters :=
  adjusted [] []

/-- Whether a character ends a word. -/
def contains (delimiters : Delimiters) (c : Char) : Bool :=
  Unicode.isBlank c || delimiters.chars.contains c

theorem mem_addChar {chars : List Char} {c d : Char} : d ∈ addChar chars c ↔ d ∈ chars ∨ d = c := by
  unfold addChar
  split
  · next h =>
    have : c ∈ chars := by simpa using h
    constructor
    · exact Or.inl
    · rintro (h | rfl) <;> assumption
  · simp

theorem mem_foldl_addChar {chars additional : List Char} {c : Char} :
    c ∈ additional.foldl addChar chars ↔ c ∈ chars ∨ c ∈ additional := by
  induction additional generalizing chars with
  | nil => simp
  | cons d rest ih => simp [ih, mem_addChar, or_assoc]

/-- A character delimits if it is white space, standard and not weak, or additional. -/
theorem contains_adjusted {weak additional : List Char} {c : Char} :
    (adjusted weak additional).contains c ↔
      Unicode.isBlank c ∨ (c ∈ standardChars ∧ c ∉ weak) ∨ c ∈ additional := by
  simp [contains, adjusted, mem_foldl_addChar]

end Delimiters

end Highlight
