import Highlight.Proofs.KnownContexts
import Highlight.Proofs.StepBound
import Mathlib.Computability.Language
import Mathlib.Data.List.TakeWhile

/-!
# The languages of numbers and literals

The scanners for numbers and for literals in the manner of C take the longest first part of a text
that is one of the literals.  The languages are written here as regular expressions, apart from the
scanners, and `Longest` says what a scanner has to find.  It is proved by following an expression
from left to right: one character of a kind (`Longest.one`), as many as there are (`Longest.all`,
`Longest.atLeastOne`), something that may be missing (`Longest.optional`) and alternatives of which
one reaches at least as far as the other (`Longest.absorb`).

A repetition never has to give anything back, because what comes behind it starts with a character
of another kind (`Avoids`).
-/

open scoped Computability

namespace Highlight

namespace Literal

/-! ## Regular expressions -/

/-- The texts of one character of a kind. -/
def oneOf (kind : Char → Bool) : Language Char :=
  {text | ∃ c, kind c = true ∧ text = [c]}

/-- The text of one given character. -/
def only (c : Char) : Language Char :=
  oneOf (· == c)

/-- One character of a kind or more. -/
def run (kind : Char → Bool) : Language Char :=
  oneOf kind * (oneOf kind)∗

/-- Something that may be missing. -/
def perhaps (language : Language Char) : Language Char :=
  1 + language

def isExponentLetter (c : Char) : Bool :=
  c == 'e' || c == 'E'

def isSign (c : Char) : Bool :=
  c == '+' || c == '-'

def isHexLetter (c : Char) : Bool :=
  c == 'x' || c == 'X'

def isSuffix (c : Char) : Bool :=
  c == 'l' || c == 'L' || c == 'u' || c == 'U'

/-- A character that stands for itself between single quotes. -/
def isPlain (c : Char) : Bool :=
  !(c == '\'' || c == '\\')

def integers : Language Char :=
  run Char.isDigit

def exponents : Language Char :=
  oneOf isExponentLetter * perhaps (oneOf isSign) * run Char.isDigit

/-- A point with digits on one side of it at least and perhaps an exponent, or digits with an
exponent. -/
def floats : Language Char :=
  (run Char.isDigit * only '.' * (oneOf Char.isDigit)∗ + only '.' * run Char.isDigit) *
      perhaps exponents +
    run Char.isDigit * exponents

def octals : Language Char :=
  only '0' * run isOctal * perhaps (oneOf isSuffix)

def hexadecimals : Language Char :=
  only '0' * oneOf isHexLetter * run isHex * perhaps (oneOf isSuffix)

def upToThreeOctals : Language Char :=
  oneOf isOctal + oneOf isOctal ^ 2 + oneOf isOctal ^ 3

/-- What may stand behind the backslash of an escape. -/
def escaped : Language Char :=
  oneOf simpleEscapes.contains + only 'x' * run isHex + upToThreeOctals

def escapes : Language Char :=
  only '\\' * escaped

def charLiterals : Language Char :=
  only '\'' * (escapes + oneOf isPlain) * only '\''

theorem mem_oneOf_mul {kind : Char → Bool} {language : Language Char} {text : List Char} :
    text ∈ oneOf kind * language ↔
      ∃ c rest, kind c = true ∧ rest ∈ language ∧ text = c :: rest := by
  rw [Language.mem_mul]
  constructor
  · rintro ⟨first, ⟨c, hc, rfl⟩, rest, hrest, rfl⟩
    exact ⟨c, rest, hc, hrest, rfl⟩
  · rintro ⟨c, rest, hc, hrest, rfl⟩
    exact ⟨[c], ⟨c, hc, rfl⟩, rest, hrest, rfl⟩

theorem mem_oneOf_pow {kind : Char → Bool} {count : Nat} {text : List Char} :
    text ∈ oneOf kind ^ count ↔ text.length = count ∧ ∀ c ∈ text, kind c = true := by
  induction count generalizing text with
  | zero =>
    rw [pow_zero, Language.mem_one, List.length_eq_zero_iff]
    constructor
    · rintro rfl
      simp
    · exact And.left
  | succ count ih =>
    rw [pow_succ', mem_oneOf_mul]
    constructor
    · rintro ⟨c, rest, hc, hrest, rfl⟩
      obtain ⟨hlength, hall⟩ := ih.1 hrest
      exact ⟨by rw [List.length_cons, hlength], List.forall_mem_cons.2 ⟨hc, hall⟩⟩
    · rintro ⟨hlength, hall⟩
      cases text with
      | nil => cases hlength
      | cons c rest =>
        obtain ⟨hc, hrest⟩ := List.forall_mem_cons.1 hall
        exact ⟨c, rest, hc, ih.2 ⟨by simpa using hlength, hrest⟩, rfl⟩

theorem mem_upToThreeOctals {text : List Char} :
    text ∈ upToThreeOctals ↔
      text ≠ [] ∧ text.length ≤ 3 ∧ ∀ c ∈ text, isOctal c = true := by
  have hpos : text ≠ [] ↔ 0 < text.length := List.length_pos_iff.symm
  rw [upToThreeOctals, Language.mem_add, Language.mem_add, ← pow_one (oneOf isOctal), ← pow_mul,
    ← pow_mul, mem_oneOf_pow, mem_oneOf_pow, mem_oneOf_pow, hpos]
  constructor
  · rintro ((⟨hlength, hall⟩ | ⟨hlength, hall⟩) | ⟨hlength, hall⟩)
    all_goals exact ⟨by omega, by omega, hall⟩
  · rintro ⟨hfirst, hlast, hall⟩
    rcases show text.length = 1 ∨ text.length = 2 ∨ text.length = 3 by omega with h | h | h
    · exact .inl (.inl ⟨h, hall⟩)
    · exact .inl (.inr ⟨h, hall⟩)
    · exact .inr ⟨h, hall⟩

/-- The texts of a language never start with a character of a kind. -/
def Avoids (kind : Char → Bool) (language : Language Char) : Prop :=
  ∀ c rest, kind c = true → c :: rest ∉ language

theorem avoids_one (kind : Char → Bool) : Avoids kind 1 := by
  intro c rest _ h
  cases Language.mem_one _ |>.1 h

theorem avoids_oneOf_mul {kind other : Char → Bool} (h : ∀ c, other c = true → kind c = false)
    (language : Language Char) : Avoids kind (oneOf other * language) := by
  intro c rest hc hmem
  obtain ⟨d, more, hd, -, heq⟩ := mem_oneOf_mul.1 hmem
  cases heq
  rw [h c hd] at hc
  cases hc

theorem Avoids.perhaps {kind : Char → Bool} {language : Language Char} (h : Avoids kind language) :
    Avoids kind (perhaps language) := by
  intro c rest hc hmem
  rcases (Language.mem_add _ _ _).1 hmem with hone | hlanguage
  · exact avoids_one kind c rest hc hone
  · exact h c rest hc hlanguage

/-! ## The longest first part in a language -/

/-- The bytes of the first parts of a text that belong to a language. -/
def prefixLengths (language : Language Char) (text : List Char) : Set Nat :=
  {length | ∃ taken ∈ language, taken <+: text ∧ byteLength taken = length}

/-- The longest first part of a text that belongs to a language has that many bytes, or none
belongs to it. -/
def Longest (language : Language Char) (text : List Char) : Option Nat → Prop
  | some length => IsGreatest (prefixLengths language text) length
  | none => prefixLengths language text = ∅

theorem Longest.not_isPrefix {language : Language Char} {text taken : List Char}
    (h : Longest language text none) (htaken : taken ∈ language) : ¬taken <+: text := by
  intro hfront
  have hmem : byteLength taken ∈ prefixLengths language text := ⟨taken, htaken, hfront, rfl⟩
  rw [show prefixLengths language text = ∅ from h] at hmem
  cases hmem

theorem longest_one (text : List Char) : Longest 1 text (some 0) := by
  refine ⟨⟨[], Language.mem_one _ |>.2 rfl, List.nil_prefix, rfl⟩, ?_⟩
  rintro _ ⟨taken, htaken, -, rfl⟩
  rw [(Language.mem_one _).1 htaken]
  exact Nat.le_refl _

/-- One character of a kind and then a text of a language. -/
theorem Longest.one {kind : Char → Bool} {language : Language Char} {c : Char} {rest : List Char}
    {found : Option Nat} (hc : kind c = true) (h : Longest language rest found) :
    Longest (oneOf kind * language) (c :: rest) (found.map (c.utf8Size + ·)) := by
  have hlengths : prefixLengths (oneOf kind * language) (c :: rest) =
      (c.utf8Size + ·) '' prefixLengths language rest := by
    ext length
    constructor
    · rintro ⟨taken, htaken, hfront, rfl⟩
      obtain ⟨d, more, -, hmore, rfl⟩ := mem_oneOf_mul.1 htaken
      obtain ⟨rfl, hrest⟩ := List.cons_prefix_cons.1 hfront
      exact ⟨byteLength more, ⟨more, hmore, hrest, rfl⟩, rfl⟩
    · rintro ⟨_, ⟨more, hmore, hrest, rfl⟩, rfl⟩
      exact ⟨c :: more, mem_oneOf_mul.2 ⟨c, more, hc, hmore, rfl⟩,
        List.cons_prefix_cons.2 ⟨rfl, hrest⟩, rfl⟩
  cases found with
  | none =>
    show prefixLengths _ _ = ∅
    rw [hlengths, show prefixLengths language rest = ∅ from h, Set.image_empty]
  | some length =>
    show IsGreatest (prefixLengths _ _) _
    rw [hlengths]
    refine ⟨⟨length, h.1, rfl⟩, ?_⟩
    rintro _ ⟨other, hother, rfl⟩
    exact Nat.add_le_add_left (h.2 hother) _

theorem Longest.literal {language : Language Char} {rest : List Char} {found : Option Nat}
    (c : Char) (h : Longest language rest found) :
    Longest (only c * language) (c :: rest) (found.map (c.utf8Size + ·)) :=
  Longest.one (beq_self_eq_true c) h

/-- A text that does not start with the first character of an expression. -/
theorem longest_none {kind : Char → Bool} {text : List Char}
    (h : text.head?.any kind = false) (language : Language Char) :
    Longest (oneOf kind * language) text none := by
  refine Set.eq_empty_iff_forall_notMem.2 ?_
  rintro _ ⟨taken, htaken, ⟨behind, rfl⟩, rfl⟩
  obtain ⟨c, rest, hc, -, rfl⟩ := mem_oneOf_mul.1 htaken
  rw [List.cons_append, List.head?_cons, Option.any_some, hc] at h
  cases h

/-- An alternative that does not reach farther. -/
theorem Longest.absorb {language other : Language Char} {text : List Char} {found : Option Nat}
    (h : Longest language text found)
    (hother : ∀ n ∈ prefixLengths other text, ∃ length, found = some length ∧ n ≤ length) :
    Longest (other + language) text found := by
  have hlengths : prefixLengths (other + language) text =
      prefixLengths other text ∪ prefixLengths language text := by
    ext length
    constructor
    · rintro ⟨taken, htaken, hfront, hlength⟩
      rcases (Language.mem_add _ _ _).1 htaken with hmem | hmem
      · exact .inl ⟨taken, hmem, hfront, hlength⟩
      · exact .inr ⟨taken, hmem, hfront, hlength⟩
    · rintro (⟨taken, hmem, hrest⟩ | ⟨taken, hmem, hrest⟩)
      · exact ⟨taken, (Language.mem_add _ _ _).2 (.inl hmem), hrest⟩
      · exact ⟨taken, (Language.mem_add _ _ _).2 (.inr hmem), hrest⟩
  cases found with
  | none =>
    show prefixLengths _ _ = ∅
    have hempty : prefixLengths other text = ∅ := by
      refine Set.eq_empty_iff_forall_notMem.2 fun n hn => ?_
      obtain ⟨length, hlength, -⟩ := hother n hn
      cases hlength
    rw [hlengths, hempty, show prefixLengths language text = ∅ from h, Set.union_empty]
  | some length =>
    show IsGreatest (prefixLengths _ _) _
    rw [hlengths]
    refine ⟨.inr h.1, ?_⟩
    rintro n (hn | hn)
    · obtain ⟨_, hlength, hle⟩ := hother n hn
      cases hlength
      exact hle
    · exact h.2 hn

theorem Longest.none_add {language other : Language Char} {text : List Char} {found : Option Nat}
    (hother : Longest other text none) (h : Longest language text found) :
    Longest (other + language) text found := by
  refine h.absorb fun n hn => ?_
  rw [show prefixLengths other text = ∅ from hother] at hn
  cases hn

theorem Longest.add_none {language other : Language Char} {text : List Char} {found : Option Nat}
    (h : Longest language text found) (hother : Longest other text none) :
    Longest (language + other) text found := by
  rw [add_comm]
  exact hother.none_add h

theorem Longest.optional {language : Language Char} {text : List Char} {found : Option Nat}
    (h : Longest language text found) :
    Longest (perhaps language) text (some (found.getD 0)) := by
  cases found with
  | none => exact (longest_one text).add_none h
  | some length =>
    refine h.absorb ?_
    rintro _ ⟨taken, htaken, -, rfl⟩
    rw [(Language.mem_one _).1 htaken]
    exact ⟨length, rfl, Nat.zero_le _⟩

theorem countWhile_cons_of_pos {kind : Char → Bool} {c : Char} (hc : kind c = true)
    (rest : List Char) : countWhile kind (c :: rest) = countWhile kind rest + 1 := by
  rw [countWhile, List.takeWhile_cons_of_pos hc, List.length_cons, countWhile]

theorem countWhile_cons_of_neg {kind : Char → Bool} {c : Char} (hc : ¬kind c = true)
    (rest : List Char) : countWhile kind (c :: rest) = 0 := by
  rw [countWhile, List.takeWhile_cons_of_neg hc, List.length_nil]

/-- As many characters of a kind as there are, and then a text of a language that does not start
with such a one. -/
theorem Longest.all {kind : Char → Bool} (hkind : ∀ c, kind c = true → c.toNat < 128)
    {language : Language Char} (havoids : Avoids kind language) {text : List Char}
    {found : Option Nat} (h : Longest language (text.drop (countWhile kind text)) found) :
    Longest ((oneOf kind)∗ * language) text (found.map (countWhile kind text + ·)) := by
  have hunfold : (oneOf kind)∗ * language =
      language + oneOf kind * ((oneOf kind)∗ * language) := by
    conv_lhs => rw [← Language.one_add_self_mul_kstar_eq_kstar, add_mul, one_mul, mul_assoc]
  induction text with
  | nil =>
    rw [hunfold]
    exact Longest.add_none (by simpa [countWhile] using h) (longest_none rfl _)
  | cons c rest ih =>
    rw [hunfold]
    by_cases hc : kind c = true
    · have hcount := countWhile_cons_of_pos hc rest
      rw [hcount, List.drop_succ_cons] at h
      have hstep := Longest.one hc (ih h)
      have hfound : (found.map (countWhile kind rest + ·)).map (c.utf8Size + ·) =
          found.map (countWhile kind (c :: rest) + ·) := by
        rw [Option.map_map, hcount, utf8Size_eq_one (hkind c hc)]
        congr 1
        funext n
        simp only [Function.comp_apply]
        omega
      rw [hfound] at hstep
      refine hstep.absorb ?_
      rintro _ ⟨taken, htaken, hfront, rfl⟩
      -- The language gives nothing here but the empty text, which it gives behind the run as well.
      obtain rfl : taken = [] := by
        cases taken with
        | nil => rfl
        | cons d more =>
          obtain ⟨rfl, -⟩ := List.cons_prefix_cons.1 hfront
          exact absurd htaken (havoids d more hc)
      cases found with
      | none => exact absurd List.nil_prefix (h.not_isPrefix htaken)
      | some length => exact ⟨_, rfl, Nat.zero_le _⟩
    · have hcount := countWhile_cons_of_neg hc rest
      rw [hcount, List.drop_zero] at h
      refine Longest.add_none ?_ (longest_none (by simpa using hc) _)
      simpa [hcount] using h

/-- The same with one character of the kind at least. -/
theorem Longest.atLeastOne {kind : Char → Bool} (hkind : ∀ c, kind c = true → c.toNat < 128)
    {language : Language Char} (havoids : Avoids kind language) {text : List Char}
    {found : Option Nat} (h : Longest language (text.drop (countWhile kind text)) found) :
    Longest (run kind * language) text
      ((positive? (countWhile kind text)).bind fun count => found.map (count + ·)) := by
  rw [run, mul_assoc]
  cases text with
  | nil => exact longest_none rfl _
  | cons c rest =>
    by_cases hc : kind c = true
    · have hcount := countWhile_cons_of_pos hc rest
      rw [hcount, List.drop_succ_cons] at h
      have hstep := Longest.one hc (h.all hkind havoids)
      rw [utf8Size_eq_one (hkind c hc)] at hstep
      rw [hcount]
      cases found with
      | none => exact hstep
      | some length =>
        rwa [show positive? (countWhile kind rest + 1) = some (countWhile kind rest + 1) from rfl,
          Option.bind_some, Option.map_some, Nat.add_right_comm, Nat.add_comm _ 1]
    · have hcount := countWhile_cons_of_neg hc rest
      rw [hcount]
      exact longest_none (by simpa using hc) _

/-! ## The scanners -/

theorem longest_int (text : List Char) : Longest integers text (int? text) := by
  have h := Longest.atLeastOne (fun _ => toNat_lt_of_isDigit) (avoids_one Char.isDigit)
    (longest_one (text.drop (countWhile Char.isDigit text)))
  rw [mul_one] at h
  rw [integers, int?]
  cases hcount : positive? (countWhile Char.isDigit text) with
  | none => rwa [hcount] at h
  | some count => rwa [hcount] at h

/-- Behind the letter of an exponent come digits at once or behind a sign. -/
theorem longest_signed {found : Option Nat} {letter : Char} {rest : List Char}
    (hletter : isExponentLetter letter = true)
    (h : Longest (run Char.isDigit + oneOf isSign * run Char.isDigit) rest found) :
    Longest exponents (letter :: rest) (found.map (· + 1)) := by
  have hone : letter.utf8Size = 1 := by
    simp only [isExponentLetter, Bool.or_eq_true, beq_iff_eq] at hletter
    rcases hletter with rfl | rfl <;> rfl
  have hstep := Longest.one hletter h
  rw [exponents, mul_assoc, perhaps, add_mul, one_mul]
  simpa only [hone, Nat.add_comm 1] using hstep

theorem longest_exponent (text : List Char) : Longest exponents text (exponent? text) := by
  unfold exponent?
  split
  · next letter rest =>
    split
    · next hletter =>
      split
      · next sign digits =>
        split
        · next hsign =>
          obtain ⟨hsize, hdigit⟩ : sign.utf8Size = 1 ∧ sign.isDigit = false := by
            simp only [Bool.or_eq_true, beq_iff_eq] at hsign
            rcases hsign with rfl | rfl <;> exact ⟨rfl, rfl⟩
          have hdigits := Longest.one (show isSign sign = true from hsign) (longest_int digits)
          have hnone : Longest (run Char.isDigit) (sign :: digits) none :=
            longest_none (by simpa using hdigit) _
          have hall := longest_signed hletter (hnone.none_add hdigits)
          rw [hsize, Option.map_map] at hall
          simpa only [Function.comp_def, Nat.add_comm 1, Nat.add_assoc] using hall
        · next hsign =>
          refine longest_signed hletter ((longest_int _).add_none (longest_none ?_ _))
          simpa [isSign] using hsign
      · exact longest_signed hletter ((longest_int []).add_none (longest_none rfl _))
    · next hletter =>
      rw [exponents, mul_assoc]
      exact longest_none (by simpa [isExponentLetter] using hletter) _
  · rw [exponents, mul_assoc]
    exact longest_none rfl _

theorem avoids_exponents : Avoids Char.isDigit exponents := by
  rw [exponents, mul_assoc]
  refine avoids_oneOf_mul (fun c hc => ?_) _
  simp only [isExponentLetter, Bool.or_eq_true, beq_iff_eq] at hc
  rcases hc with rfl | rfl <;> rfl

/-- The digits behind a point, as many as there are, and perhaps an exponent. -/
theorem longest_fraction (rest : List Char) :
    Longest ((oneOf Char.isDigit)∗ * perhaps exponents) rest
      (some (countWhile Char.isDigit rest +
        (exponent? (rest.drop (countWhile Char.isDigit rest))).getD 0)) :=
  Longest.all (fun _ => toNat_lt_of_isDigit) avoids_exponents.perhaps
    (longest_exponent _).optional

/-- A text that starts with a digit does not start with a point. -/
theorem longest_point_none {text : List Char} (h : countWhile Char.isDigit text ≠ 0)
    (language : Language Char) : Longest (only '.' * language) text none := by
  refine longest_none ?_ language
  cases text with
  | nil => rfl
  | cons c rest =>
    have hc : c.isDigit = true := by
      by_contra hc
      exact h (countWhile_cons_of_neg hc rest)
    have hne : c ≠ '.' := by
      rintro rfl
      cases hc
    simpa using hne

/-- A point right at the start needs digits behind it. -/
theorem longest_point (rest : List Char) :
    Longest (only '.' * (run Char.isDigit * perhaps exponents)) ('.' :: rest)
      ((positive? (countWhile Char.isDigit rest)).map fun fraction =>
        1 + fraction + (exponent? (rest.drop fraction)).getD 0) := by
  have h := Longest.literal '.'
    (Longest.atLeastOne (fun _ => toNat_lt_of_isDigit) avoids_exponents.perhaps
      (longest_exponent (rest.drop (countWhile Char.isDigit rest))).optional)
  cases hcount : positive? (countWhile Char.isDigit rest) with
  | none => rwa [hcount] at h
  | some fraction =>
    obtain ⟨rfl, -⟩ := positive?_eq_some hcount
    rw [hcount] at h
    rw [Option.map_some, Nat.add_assoc]
    exact h

theorem longest_float (text : List Char) : Longest floats text (float? text) := by
  have hdigit : ∀ c, Char.isDigit c = true → c.toNat < 128 := fun _ => toNat_lt_of_isDigit
  have havoids : ∀ language, Avoids Char.isDigit (only '.' * language) :=
    avoids_oneOf_mul fun c hc => by rw [beq_iff_eq.1 hc]; rfl
  have hplain := Longest.atLeastOne hdigit avoids_exponents
    (longest_exponent (text.drop (countWhile Char.isDigit text)))
  rw [floats, add_mul, mul_assoc, mul_assoc, mul_assoc]
  simp only [float?]
  split
  · next rest hrest =>
    have hwhole := Longest.atLeastOne hdigit (havoids _)
      (hrest ▸ (longest_fraction rest).literal '.')
    have hnone : exponent? ('.' :: rest) = none := rfl
    rw [hrest, hnone] at hplain
    cases hcount : countWhile Char.isDigit text with
    | zero =>
      rw [hcount] at hwhole hplain hrest
      obtain rfl : text = '.' :: rest := hrest
      refine (hwhole.none_add ?_).add_none hplain
      have hpoint := longest_point rest
      unfold positive? at hpoint
      rw [Nat.zero_add, Nat.zero_add]
      split
      · next hzero => rwa [if_pos hzero] at hpoint
      · next hzero => rwa [if_neg hzero] at hpoint
    | succ count =>
      rw [hcount] at hwhole hplain
      have hpoint : Longest (only '.' * (run Char.isDigit * perhaps exponents)) text none :=
        longest_point_none (by omega) _
      refine Longest.add_none (Longest.add_none ?_ hpoint) hplain
      rw [if_neg (by simp)]
      have hsum : ∀ fraction exponent, count + 1 + 1 + fraction + exponent =
          count + 1 + (1 + (fraction + exponent)) := by omega
      rw [hsum]
      exact hwhole
  · next other hother =>
    have hhead : ∀ language, Longest (only '.' * language)
        (text.drop (countWhile Char.isDigit text)) none := by
      refine longest_none ?_
      cases hrest : text.drop (countWhile Char.isDigit text) with
      | nil => rfl
      | cons c rest => simpa using fun h => hother rest (by rw [hrest, h])
    have hwhole := Longest.atLeastOne hdigit (havoids _)
      (hhead ((oneOf Char.isDigit)∗ * perhaps exponents))
    cases hcount : countWhile Char.isDigit text with
    | zero =>
      rw [hcount] at hwhole hplain hhead
      exact (Longest.none_add hwhole (hhead _)).none_add hplain
    | succ count =>
      rw [hcount] at hwhole hplain
      have hpoint : Longest (only '.' * (run Char.isDigit * perhaps exponents)) text none :=
        longest_point_none (by omega) _
      exact (Longest.none_add hwhole hpoint).none_add hplain

theorem isOctal_eq_false_of_isSuffix : ∀ c, isSuffix c = true → isOctal c = false := by
  intro c hc
  simp only [isSuffix, Bool.or_eq_true, beq_iff_eq] at hc
  rcases hc with ((rfl | rfl) | rfl) | rfl <;> rfl

theorem isHex_eq_false_of_isSuffix : ∀ c, isSuffix c = true → isHex c = false := by
  intro c hc
  simp only [isSuffix, Bool.or_eq_true, beq_iff_eq] at hc
  rcases hc with ((rfl | rfl) | rfl) | rfl <;> rfl

theorem longest_suffix (text : List Char) :
    Longest (perhaps (oneOf isSuffix)) text (some (suffix text)) := by
  rw [← mul_one (oneOf isSuffix)]
  unfold suffix
  split
  · next c rest =>
    split
    · next hc =>
      have hone : c.utf8Size = 1 := by
        simp only [Bool.or_eq_true, beq_iff_eq] at hc
        rcases hc with ((rfl | rfl) | rfl) | rfl <;> rfl
      have h := (Longest.one (show isSuffix c = true from hc) (longest_one rest)).optional
      rwa [hone] at h
    · next hc => exact (longest_none (by simpa [isSuffix] using hc) 1).optional
  · exact (longest_none rfl 1).optional

/-- The digits of an integer and its suffix. -/
theorem longest_digits {kind : Char → Bool} (hkind : ∀ c, kind c = true → c.toNat < 128)
    (hsuffix : ∀ c, isSuffix c = true → kind c = false) (text : List Char) :
    Longest (run kind * perhaps (oneOf isSuffix)) text
      ((positive? (countWhile kind text)).map fun digits =>
        digits + suffix (text.drop digits)) := by
  have havoids : Avoids kind (perhaps (oneOf isSuffix)) := by
    rw [← mul_one (oneOf isSuffix)]
    exact (avoids_oneOf_mul hsuffix 1).perhaps
  have h := Longest.atLeastOne hkind havoids (longest_suffix (text.drop (countWhile kind text)))
  cases hcount : positive? (countWhile kind text) with
  | none => rwa [hcount] at h
  | some digits =>
    obtain ⟨rfl, -⟩ := positive?_eq_some hcount
    rwa [hcount] at h

theorem longest_octal (text : List Char) : Longest octals text (octal? text) := by
  rw [octals, mul_assoc]
  unfold octal?
  split
  · next rest =>
    have h := Longest.literal '0'
      (longest_digits (fun _ => toNat_lt_of_isOctal) isOctal_eq_false_of_isSuffix rest)
    rw [Option.map_map] at h
    have hsum : ∀ digits, 1 + digits + suffix (rest.drop digits) =
        1 + (digits + suffix (rest.drop digits)) := fun digits => Nat.add_assoc ..
    simp only [hsum]
    exact h
  · next hother =>
    refine longest_none ?_ _
    cases text with
    | nil => rfl
    | cons c rest => simpa using fun h => hother rest (by rw [h])

theorem longest_hex (text : List Char) : Longest hexadecimals text (hex? text) := by
  rw [hexadecimals, mul_assoc, mul_assoc]
  unfold hex?
  split
  · next x rest =>
    split
    · next hx =>
      have hone : x.utf8Size = 1 := by
        simp only [Bool.or_eq_true, beq_iff_eq] at hx
        rcases hx with rfl | rfl <;> rfl
      have h := Longest.literal '0'
        (Longest.one (show isHexLetter x = true from hx)
          (longest_digits (fun _ => toNat_lt_of_isHex) isHex_eq_false_of_isSuffix rest))
      rw [hone, Option.map_map, Option.map_map] at h
      have hsum : ∀ digits, 2 + digits + suffix (rest.drop digits) =
          1 + (1 + (digits + suffix (rest.drop digits))) := by
        intro digits
        omega
      simp only [hsum]
      exact h
    · next hx =>
      have hnone : Longest (oneOf isHexLetter * (run isHex * perhaps (oneOf isSuffix)))
          (x :: rest) none := longest_none (by simpa [isHexLetter] using hx) _
      exact hnone.literal '0'
  · next hother =>
    match text with
    | [] => exact longest_none rfl _
    | [c] =>
      by_cases hc : c = '0'
      · have hnone : Longest (oneOf isHexLetter * (run isHex * perhaps (oneOf isSuffix))) [] none :=
          longest_none rfl _
        rw [hc]
        exact hnone.literal '0'
      · exact longest_none (by simpa using hc) _
    | c :: x :: rest =>
      exact longest_none (by simpa using fun h => hother x rest (by rw [h])) _

/-- Octal digits of which three at most are taken. -/
theorem longest_upToThreeOctals (text : List Char) :
    Longest upToThreeOctals text (positive? (countWhile isOctal (text.take 3))) := by
  have htake : (text.take 3).takeWhile isOctal <+: text :=
    (List.takeWhile_prefix _).trans (List.take_prefix 3 text)
  have hall : ∀ c ∈ (text.take 3).takeWhile isOctal, isOctal c = true := fun _ =>
    List.mem_takeWhile_imp
  have hbytes : ∀ {taken : List Char}, (∀ c ∈ taken, isOctal c = true) →
      byteLength taken = taken.length := fun h =>
    byteLength_eq_length fun c hc => utf8Size_eq_one (toNat_lt_of_isOctal (h c hc))
  have hlongest : ∀ taken ∈ upToThreeOctals, taken <+: text →
      taken.length ≤ countWhile isOctal (text.take 3) := by
    intro taken htaken hfront
    obtain ⟨-, hlength, hoctal⟩ := mem_upToThreeOctals.1 htaken
    have hrun : taken <+: (text.take 3).takeWhile isOctal := by
      obtain ⟨behind, hbehind⟩ := List.prefix_take_iff.2 ⟨hfront, hlength⟩
      rw [← hbehind, List.takeWhile_append_of_pos hoctal]
      exact List.prefix_append _ _
    exact hrun.length_le
  cases hcount : positive? (countWhile isOctal (text.take 3)) with
  | none =>
    refine Set.eq_empty_iff_forall_notMem.2 ?_
    rintro _ ⟨taken, htaken, hfront, rfl⟩
    have hle := hlongest taken htaken hfront
    have hpos := List.length_pos_iff.2 (mem_upToThreeOctals.1 htaken).1
    have hzero : countWhile isOctal (text.take 3) = 0 := by simpa [positive?] using hcount
    omega
  | some digits =>
    obtain ⟨rfl, hpos⟩ := positive?_eq_some hcount
    refine ⟨⟨_, mem_upToThreeOctals.2 ⟨?_, ?_, hall⟩, htake, hbytes hall⟩, ?_⟩
    · exact List.length_pos_iff.1 hpos
    · exact ((List.takeWhile_prefix isOctal).length_le).trans (by simp)
    · rintro _ ⟨taken, htaken, hfront, rfl⟩
      rw [hbytes (mem_upToThreeOctals.1 htaken).2.2]
      exact hlongest taken htaken hfront

theorem longest_noOctals {c : Char} (hc : isOctal c = false) (rest : List Char) :
    Longest upToThreeOctals (c :: rest) none := by
  have h := longest_upToThreeOctals (c :: rest)
  have hzero : countWhile isOctal ((c :: rest).take 3) = 0 := by
    rw [List.take_succ_cons, countWhile_cons_of_neg (by simpa using hc)]
  rwa [hzero] at h

/-- What stands behind the backslash is found in the order in which it is asked for. -/
theorem longest_escaped (c : Char) (rest : List Char) :
    Longest escaped (c :: rest)
      (if simpleEscapes.contains c then some 1
      else if c == 'x' then (positive? (countWhile isHex rest)).map (· + 1)
      else positive? (countWhile isOctal ((c :: rest).take 3))) := by
  rw [escaped, ← mul_one (oneOf simpleEscapes.contains)]
  split
  · next hc =>
    have hall : simpleEscapes.all (fun d => d.utf8Size == 1 && !isOctal d && d != 'x') = true := by
      decide
    obtain ⟨⟨hone, hoctal⟩, hx⟩ : (c.utf8Size = 1 ∧ isOctal c = false) ∧ c ≠ 'x' := by
      simpa using List.all_eq_true.1 hall c (List.contains_iff_mem.1 hc)
    have h := Longest.one hc (longest_one rest)
    rw [hone] at h
    exact (h.add_none (longest_none (by simpa using hx) _)).add_none (longest_noOctals hoctal rest)
  · next hc =>
    have hsimple : Longest (oneOf simpleEscapes.contains * 1) (c :: rest) none :=
      longest_none (by simpa using hc) 1
    split
    · next hx =>
      obtain rfl : c = 'x' := by simpa using hx
      have h := Longest.atLeastOne (fun _ => toNat_lt_of_isHex) (avoids_one isHex)
        (longest_one (rest.drop (countWhile isHex rest)))
      rw [mul_one] at h
      have hnone : Longest upToThreeOctals ('x' :: rest) none := longest_noOctals rfl rest
      refine (hsimple.none_add ?_).add_none hnone
      have hall := h.literal 'x'
      cases hcount : positive? (countWhile isHex rest) with
      | none => rwa [hcount] at hall
      | some count =>
        rw [hcount] at hall
        rw [Option.map_some, Nat.add_comm]
        exact hall
    · next hx =>
      have hletter : Longest (only 'x' * run isHex) (c :: rest) none :=
        longest_none (by simpa using hx) _
      exact (hsimple.none_add hletter).none_add (longest_upToThreeOctals _)

theorem longest_escape (text : List Char) : Longest escapes text (escape? text) := by
  rw [escapes]
  unfold escape?
  split
  · next c rest =>
    have h := (longest_escaped c rest).literal '\\'
    split
    · next hc => rwa [if_pos hc] at h
    · next hc =>
      rw [if_neg hc] at h
      split
      · next hx =>
        rw [if_pos hx, Option.map_map] at h
        have hsum : ∀ digits, digits + 2 = 1 + (digits + 1) := by omega
        simp only [hsum]
        exact h
      · next hx =>
        rw [if_neg hx] at h
        simp only [Nat.add_comm _ 1]
        exact h
  · next hother =>
    match text with
    | [] => exact longest_none rfl _
    | [c] =>
      by_cases hc : c = '\\'
      · have hnone : Longest escaped [] none := by
          rw [escaped, ← mul_one (oneOf simpleEscapes.contains)]
          exact ((longest_none rfl _).add_none (longest_none rfl _)).add_none
            (longest_upToThreeOctals [])
        rw [hc]
        exact hnone.literal '\\'
      · exact longest_none (by simpa using hc) _
    | c :: d :: rest =>
      refine longest_none ?_ _
      simpa using fun h => hother d rest (by rw [h])

/-! ### Characters between quotes -/

/-- A text of a language that has to be closed.  The longest one is the only one to ask, because
what a longer one has behind a shorter one is never the closing character. -/
theorem Longest.closed {language : Language Char} {length : Nat} {skipped left : List Char}
    (h : Longest language (skipped ++ left) (some length)) (hbytes : byteLength skipped = length)
    {c : Char} (hgap : ∀ taken ∈ language, ∀ more, taken ++ c :: more ∉ language) :
    Longest (language * only c) (skipped ++ left)
      (if left.head? == some c then some (length + c.utf8Size) else none) := by
  have heq : ∀ {taken : List Char}, skipped <+: taken → byteLength taken ≤ length →
      taken = skipped := by
    rintro _ ⟨more, rfl⟩ hle
    rw [byteLength_append] at hle
    rw [byteLength_eq_zero_iff.1 (show byteLength more = 0 by omega), List.append_nil]
  obtain ⟨⟨found, hfound, hfront, hlength⟩, hmost⟩ := h
  obtain rfl : found = skipped := by
    rcases List.prefix_or_prefix_of_prefix hfront (List.prefix_append skipped left) with hp | hp
    · obtain ⟨more, rfl⟩ := hp
      rw [byteLength_append] at hbytes
      rw [byteLength_eq_zero_iff.1 (show byteLength more = 0 by omega), List.append_nil]
    · exact heq hp hlength.le
  have hmem : ∀ {text : List Char}, text ∈ language * only c → text <+: found ++ left →
      text = found ++ [c] ∧ left.head? = some c := by
    intro text htext hfront
    obtain ⟨taken, htaken, _, ⟨d, hd, rfl⟩, rfl⟩ := (Language.mem_mul).1 htext
    obtain rfl : d = c := by simpa using hd
    have hshort := (List.prefix_append taken [d]).trans hfront
    obtain rfl : taken = found := by
      rcases List.prefix_or_prefix_of_prefix hshort (List.prefix_append found left) with hp | hp
      · obtain ⟨more, rfl⟩ := hp
        cases more with
        | nil => exact (List.append_nil taken).symm
        | cons e more =>
          rw [List.append_assoc, List.prefix_append_right_inj, List.cons_append,
            List.cons_prefix_cons] at hfront
          rw [hfront.1] at hgap
          exact absurd hfound (hgap taken htaken more)
      · exact heq hp (hmost ⟨taken, htaken, hshort, rfl⟩)
    rw [List.prefix_append_right_inj] at hfront
    obtain ⟨more, rfl⟩ := hfront
    exact ⟨rfl, rfl⟩
  split
  · next hhead =>
    obtain ⟨more, rfl⟩ := List.head?_eq_some_iff.1 (by simpa using hhead)
    refine ⟨⟨found ++ [c], ?_, ?_, ?_⟩, ?_⟩
    · exact Language.mem_mul.2 ⟨found, hfound, [c], ⟨c, beq_self_eq_true c, rfl⟩, rfl⟩
    · exact ⟨more, by simp⟩
    · simp [hlength]
    · rintro _ ⟨taken, htaken, hfront, rfl⟩
      rw [(hmem htaken hfront).1]
      simp [hlength]
  · next hhead =>
    refine Set.eq_empty_iff_forall_notMem.2 ?_
    rintro _ ⟨taken, htaken, hfront, rfl⟩
    exact hhead (by simpa using (hmem htaken hfront).2)

theorem all_of_mem_run {kind : Char → Bool} {text : List Char} (h : text ∈ run kind) :
    ∀ c ∈ text, kind c = true := by
  obtain ⟨c, rest, hc, hrest, rfl⟩ := mem_oneOf_mul.1 h
  refine List.forall_mem_cons.2 ⟨hc, fun d hd => ?_⟩
  obtain ⟨parts, rfl, hparts⟩ := Language.mem_kstar.1 hrest
  obtain ⟨part, hpart, hmem⟩ := List.mem_flatten.1 hd
  obtain ⟨e, he, rfl⟩ := hparts part hpart
  rw [List.mem_singleton.1 hmem]
  exact he

/-- An escape never goes on with a quote behind a shorter one. -/
theorem escape_gap : ∀ taken ∈ escapes, ∀ more, taken ++ '\'' :: more ∉ escapes := by
  intro taken htaken more hlong
  obtain ⟨c, body, -, hbody, rfl⟩ := mem_oneOf_mul.1 htaken
  obtain ⟨d, other, -, hother, heq⟩ := mem_oneOf_mul.1 hlong
  cases heq
  have hne : body ≠ [] := by
    rintro rfl
    rcases hbody with (⟨e, -, heq⟩ | hhex) | hoctal
    · cases heq
    · obtain ⟨e, rest, -, -, heq⟩ := mem_oneOf_mul.1 hhex
      cases heq
    · exact (mem_upToThreeOctals.1 hoctal).1 rfl
  obtain ⟨e, rest, rfl⟩ := List.exists_cons_of_ne_nil hne
  have hquote : '\'' ∈ rest ++ '\'' :: more := by simp
  rcases hother with (⟨f, -, heq⟩ | hhex) | hoctal
  · have hlength := congrArg List.length heq
    simp at hlength
  · obtain ⟨f, digits, -, hdigits, heq⟩ := mem_oneOf_mul.1 hhex
    obtain ⟨-, rfl⟩ := List.cons.inj heq
    have hhex := all_of_mem_run hdigits '\'' hquote
    cases hhex
  · have hdigit := (mem_upToThreeOctals.1 hoctal).2.2 '\'' (List.mem_cons_of_mem e hquote)
    cases hdigit

/-- One character that stands for itself and the closing quote. -/
theorem longest_plain (c : Char) (rest : List Char) :
    Longest (oneOf isPlain * only '\'') (c :: rest)
      (if isPlain c && rest.head? == some '\'' then some (c.utf8Size + 1) else none) := by
  by_cases hc : isPlain c = true
  · have hquote : Longest (only '\'') rest (if rest.head? == some '\'' then some 1 else none) := by
      rw [← mul_one (only '\'')]
      split
      · next hhead =>
        obtain ⟨more, rfl⟩ := List.head?_eq_some_iff.1 (by simpa using hhead)
        exact (longest_one more).literal '\''
      · next hhead =>
        refine longest_none ?_ 1
        cases rest with
        | nil => rfl
        | cons d more => simpa using hhead
    have h := Longest.one hc hquote
    rw [hc, Bool.true_and]
    split
    · next hhead => rwa [if_pos hhead] at h
    · next hhead => rwa [if_neg hhead] at h
  · rw [if_neg (by simp [hc])]
    exact longest_none (by simpa using hc) _

theorem head?_of_escape {text : List Char} {length : Nat} (h : escape? text = some length) :
    text.head? = some '\\' := by
  unfold escape? at h
  split at h
  · rfl
  · cases h

theorem longest_charLiteral (text : List Char) : Longest charLiterals text (charLiteral? text) := by
  rw [charLiterals, mul_assoc, add_mul]
  unfold charLiteral?
  split
  · next rest =>
    have hescape := longest_escape rest
    split
    · next length hlength =>
      rw [hlength] at hescape
      obtain ⟨hle, hone⟩ := (singleBytes_escape hlength).2
      have hbytes : byteLength (rest.take length) = length := by
        rw [byteLength_eq_length hone, List.length_take, Nat.min_eq_left hle]
      have hsplit : Longest escapes (rest.take length ++ rest.drop length) (some length) := by
        rwa [List.take_append_drop]
      have hclosed := Longest.closed hsplit hbytes escape_gap
      rw [List.take_append_drop] at hclosed
      have hplain : Longest (oneOf isPlain * only '\'') rest none :=
        longest_none (by rw [head?_of_escape hlength]; rfl) _
      have h := (hclosed.add_none hplain).literal '\''
      split
      · next hhead =>
        rw [if_pos hhead] at h
        rw [show length + 2 = 1 + (length + 1) by omega]
        exact h
      · next hhead => rwa [if_neg hhead] at h
    · next hnone =>
      rw [hnone] at hescape
      have hclosed : Longest (escapes * only '\'') rest none := by
        refine Set.eq_empty_iff_forall_notMem.2 ?_
        rintro _ ⟨taken, htaken, hfront, rfl⟩
        obtain ⟨first, hfirst, last, -, rfl⟩ := Language.mem_mul.1 htaken
        exact hescape.not_isPrefix hfirst ((List.prefix_append first last).trans hfront)
      split
      · next c more =>
        have h := (hclosed.none_add (longest_plain c ('\'' :: more))).literal '\''
        split
        · next hc =>
          rwa [isPlain, hc, Bool.not_true, Bool.false_and, if_neg Bool.false_ne_true] at h
        · next hc =>
          rw [if_pos (by simpa [isPlain] using hc)] at h
          rw [show c.utf8Size + 2 = 1 + (c.utf8Size + 1) by omega]
          exact h
      · next hother =>
        have hplain : Longest (oneOf isPlain * only '\'') rest none := by
          cases rest with
          | nil => exact longest_none rfl _
          | cons c more =>
            have h := longest_plain c more
            rwa [if_neg] at h
            intro hquote
            simp only [Bool.and_eq_true, beq_iff_eq] at hquote
            obtain ⟨behind, rfl⟩ := List.head?_eq_some_iff.1 hquote.2
            exact hother c behind rfl
        exact (hclosed.none_add hplain).literal '\''
  · next hother =>
    refine longest_none ?_ _
    cases text with
    | nil => rfl
    | cons c rest => simpa using fun h => hother rest (by rw [h])

end Literal

/-! ## Rules -/

namespace RuleKind

/-- The language of a kind of rule for numbers or literals. -/
def literals? : RuleKind → Option (Language Char)
  | .int => some Literal.integers
  | .float => some Literal.floats
  | .octal => some Literal.octals
  | .hex => some Literal.hexadecimals
  | .stringEscape => some Literal.escapes
  | .charLiteral => some Literal.charLiterals
  | _ => none

/-- Whether such a kind is only looked for where a word starts. -/
def wordStartOnly : RuleKind → Bool
  | .stringEscape | .charLiteral => false
  | _ => true

end RuleKind

namespace Rule

/-- A scanner that needs some text is what its kind of rule looks for. -/
theorem length?_of_scan {rule : Rule} {cursor : Cursor} {scan : List Char → Option Nat}
    (hcons : ∀ c rest, cursor.rest = c :: rest → rule.length? cursor = .ok (scan cursor.rest))
    (hnil : scan [] = none) : rule.length? cursor = .ok (scan cursor.rest) := by
  cases hrest : cursor.rest with
  | nil => simp only [length?, hrest, hnil]
  | cons c rest => rw [← hrest, hcons c rest hrest]

/-- Where it may look, a rule for literals finds the longest one. -/
theorem exists_longest {rule : Rule} {cursor : Cursor} {language : Language Char}
    (hkind : rule.kind.literals? = some language)
    (hstart : rule.kind.wordStartOnly = true → cursor.wordStart = true) :
    ∃ found, rule.length? cursor = .ok found ∧ Literal.Longest language cursor.rest found := by
  cases hcase : rule.kind <;> rw [hcase] at hkind hstart <;> cases hkind
  case int =>
    refine ⟨_, length?_of_scan (fun c rest hrest => ?_) rfl, Literal.longest_int _⟩
    simp only [length?, hrest, hcase, atWordStart, if_pos (hstart rfl)]
  case float =>
    refine ⟨_, length?_of_scan (fun c rest hrest => ?_) rfl, Literal.longest_float _⟩
    simp only [length?, hrest, hcase, atWordStart, if_pos (hstart rfl)]
  case octal =>
    refine ⟨_, length?_of_scan (fun c rest hrest => ?_) rfl, Literal.longest_octal _⟩
    simp only [length?, hrest, hcase, atWordStart, if_pos (hstart rfl)]
  case hex =>
    refine ⟨_, length?_of_scan (fun c rest hrest => ?_) rfl, Literal.longest_hex _⟩
    simp only [length?, hrest, hcase, atWordStart, if_pos (hstart rfl)]
  case stringEscape =>
    refine ⟨_, length?_of_scan (fun c rest hrest => ?_) rfl, Literal.longest_escape _⟩
    simp only [length?, hrest, hcase]
  case charLiteral =>
    refine ⟨_, length?_of_scan (fun c rest hrest => ?_) rfl, Literal.longest_charLiteral _⟩
    simp only [length?, hrest, hcase]

/-- A rule for numbers or literals without rules behind it finds something exactly where a first
part of the text that is left belongs to its language, and takes the longest such part.  The
numbers are only looked for where a word starts. -/
theorem literal_takes_longest (grammar : Grammar) {rule : Rule} {cursor : Cursor}
    {language : Language Char} (hkind : rule.kind.literals? = some language)
    (hchildren : rule.children = [])
    (hstart : rule.kind.wordStartOnly = true → cursor.wordStart = true) :
    ∃ found, rule.length? cursor = .ok found ∧
      (found.isSome = true ↔ ∃ taken ∈ language, taken <+: cursor.rest) ∧
      (∀ length, found = some length →
        IsGreatest {bytes | ∃ taken ∈ language, taken <+: cursor.rest ∧ byteLength taken = bytes}
          length) ∧
      grammar.tryRule rule cursor =
        .ok (if rule.allows cursor then
          { found := found.map fun length => rule.toMatch length none } else {}) := by
  obtain ⟨found, hfound, hlongest⟩ := exists_longest hkind hstart
  refine ⟨found, hfound, ?_, ?_, ?_⟩
  · cases found with
    | none =>
      refine iff_of_false Bool.false_ne_true ?_
      rintro ⟨taken, htaken, hfront⟩
      exact hlongest.not_isPrefix htaken hfront
    | some length =>
      obtain ⟨taken, htaken, hfront, -⟩ := hlongest.1
      exact iff_of_true rfl ⟨taken, htaken, hfront⟩
  · rintro length rfl
    exact hlongest
  · split
    · next hallows =>
      refine grammar.tryRule_of_length? ?_ ?_ hchildren hallows hfound
      · intro regex hregex
        rw [hregex] at hkind
        cases hkind
      · unfold includedContext?
        split
        · next hinclusion =>
          rw [hinclusion] at hkind
          cases hkind
        · rfl
    · next hallows => rw [Grammar.tryRule, if_neg hallows]

/-- A rule for numbers with a point or an exponent. -/
def numberRule : Rule :=
  RuleKind.toRule .float

/-- The place behind `v=` in `v=1.5e+`. -/
def atNumber : Cursor where
  before := some '='
  rest := ['1', '.', '5', 'e', '+']
  offset := 2
  column := 2
  firstNonSpace := false
  data := none
  delimiters := .standard

/-- The start of an exponent is given back when no digits come behind it. -/
theorem literal_takes_longest_number :
    ∃ grammar, swinging.build.result = .ok grammar ∧
      numberRule.kind.literals? = some Literal.floats ∧ numberRule.children = [] ∧
      atNumber.wordStart = true ∧
      IsGreatest {bytes | ∃ taken ∈ Literal.floats, taken <+: ['1', '.', '5', 'e', '+'] ∧
        byteLength taken = bytes} 3 ∧
      grammar.tryRule numberRule atNumber = .ok { found := some (numberRule.toMatch 3 none) } := by
  obtain ⟨grammar, hbuild, -⟩ := swinging_build
  have hstart : atNumber.wordStart = true := by decide
  obtain ⟨found, hfound, -, hgreatest, htry⟩ :=
    @literal_takes_longest grammar numberRule atNumber _ rfl rfl fun _ => hstart
  obtain rfl : some 3 = found := Except.ok.inj hfound
  exact ⟨grammar, hbuild, rfl, rfl, hstart, hgreatest 3 rfl, htry⟩

end Rule

end Highlight
