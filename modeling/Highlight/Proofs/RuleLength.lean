import Highlight.Proofs.Boundary
import Highlight.Rule.Basic

/-!
# The lengths that rules report

A rule that finds something reports how many bytes it takes.  This module proves that such a length
is never zero and never cuts a character (`Advances`), for every kind of rule and every cursor, and
that looking for it never meets a fault.

There are three groups.

* Literals.  Their scanners count characters, all of them of one byte (`SingleBytes`).  The lemmas
  follow the scanners, each with the part of the text behind what was counted so far.
* Texts and ranges, where the characters may be longer and the bytes are added up.
* Rules.  `length?_advances` covers the kinds that need neither a pattern nor the grammar, and
  `detect_advances` adds patterns.
-/

namespace Highlight

/-- A number of bytes that takes whole characters at the start of a text, and at least one. -/
def Advances (text : List Char) (length : Nat) : Prop :=
  0 < length ∧ IsBoundary text length

theorem advances_utf8Size (c : Char) (rest : List Char) : Advances (c :: rest) c.utf8Size :=
  ⟨c.utf8Size_pos, isBoundary_utf8Size c rest⟩

/-- The bytes of a first part that is not empty. -/
theorem advances_append {skipped : List Char} (hskipped : skipped ≠ []) (left : List Char) :
    Advances (skipped ++ left) (byteLength skipped) := by
  refine ⟨?_, isBoundary_append skipped left⟩
  have hne : byteLength skipped ≠ 0 := fun h => hskipped (byteLength_eq_zero_iff.1 h)
  omega

/-! ## Literals -/

/-- The text starts with some number of characters of one byte each. -/
def SingleBytes (text : List Char) (count : Nat) : Prop :=
  count ≤ text.length ∧ ∀ c ∈ text.take count, c.utf8Size = 1

theorem SingleBytes.isBoundary {text : List Char} {count : Nat} (h : SingleBytes text count) :
    IsBoundary text count :=
  isBoundary_of_take h.1 h.2

theorem singleBytes_zero (text : List Char) : SingleBytes text 0 :=
  ⟨Nat.zero_le _, by simp⟩

theorem SingleBytes.cons {c : Char} {rest : List Char} {count : Nat} (hc : c.toNat < 128)
    (h : SingleBytes rest count) : SingleBytes (c :: rest) (count + 1) := by
  refine ⟨?_, ?_⟩
  · rw [List.length_cons]
    have := h.1
    omega
  · intro d hd
    rw [List.take_succ_cons, List.mem_cons] at hd
    rcases hd with rfl | hd
    · exact utf8Size_eq_one hc
    · exact h.2 d hd

/-- Characters of one byte behind others. -/
theorem SingleBytes.add {text : List Char} {first second : Nat} (hfirst : SingleBytes text first)
    (hsecond : SingleBytes (text.drop first) second) : SingleBytes text (first + second) := by
  refine ⟨?_, ?_⟩
  · have hlength := hsecond.1
    rw [List.length_drop] at hlength
    have := hfirst.1
    omega
  · intro c hc
    rw [List.take_add, List.mem_append] at hc
    rcases hc with hc | hc
    · exact hfirst.2 c hc
    · exact hsecond.2 c hc

namespace Literal

theorem toNat_lt_of_isDigit {c : Char} (h : c.isDigit = true) : c.toNat < 128 := by
  simp only [Char.isDigit, ge_iff_le, Bool.and_eq_true, decide_eq_true_eq,
    UInt32.le_iff_toNat_le] at h
  have hval : c.val.toNat = c.toNat := rfl
  have hbound : ('9' : Char).val.toNat = 57 := rfl
  omega

theorem toNat_lt_of_le {c d : Char} (h : c ≤ d) (hd : d.toNat < 128) : c.toNat < 128 := by
  have hle : c.toNat ≤ d.toNat := UInt32.le_iff_toNat_le.1 (Char.le_def.1 h)
  omega

theorem toNat_lt_of_isOctal {c : Char} (h : isOctal c = true) : c.toNat < 128 := by
  simp only [isOctal, Bool.and_eq_true, decide_eq_true_eq] at h
  exact toNat_lt_of_le h.2 (by decide)

theorem toNat_lt_of_isHex {c : Char} (h : isHex c = true) : c.toNat < 128 := by
  simp only [isHex, Bool.or_eq_true, Bool.and_eq_true, decide_eq_true_eq] at h
  rcases h with (h | h) | h
  · exact toNat_lt_of_isDigit h
  · exact toNat_lt_of_le h.2 (by decide)
  · exact toNat_lt_of_le h.2 (by decide)

/-- A run of characters of a kind, if the kind has only characters of one byte. -/
theorem singleBytes_countWhile {kind : Char → Bool} (hkind : ∀ c, kind c = true → c.toNat < 128)
    (text : List Char) : SingleBytes text (countWhile kind text) := by
  induction text with
  | nil => exact singleBytes_zero []
  | cons c rest ih =>
    unfold countWhile at ih ⊢
    by_cases hc : kind c = true
    · rw [List.takeWhile_cons_of_pos hc, List.length_cons]
      exact ih.cons (hkind c hc)
    · rw [List.takeWhile_cons_of_neg hc]
      exact singleBytes_zero _

theorem singleBytes_digits (text : List Char) :
    SingleBytes text (countWhile Char.isDigit text) :=
  singleBytes_countWhile (fun _ => toNat_lt_of_isDigit) text

theorem singleBytes_octals (text : List Char) : SingleBytes text (countWhile isOctal text) :=
  singleBytes_countWhile (fun _ => toNat_lt_of_isOctal) text

theorem singleBytes_hexes (text : List Char) : SingleBytes text (countWhile isHex text) :=
  singleBytes_countWhile (fun _ => toNat_lt_of_isHex) text

theorem positive?_eq_some {n m : Nat} (h : positive? n = some m) : n = m ∧ 0 < m := by
  unfold positive? at h
  split at h
  · cases h
  · next hne =>
    cases h
    have : n ≠ 0 := by simpa using hne
    exact ⟨rfl, by omega⟩

theorem singleBytes_int {text : List Char} {length : Nat} (h : int? text = some length) :
    0 < length ∧ SingleBytes text length := by
  obtain ⟨rfl, hpos⟩ := positive?_eq_some h
  exact ⟨hpos, singleBytes_digits text⟩

theorem singleBytes_exponent {text : List Char} {length : Nat}
    (h : exponent? text = some length) : 0 < length ∧ SingleBytes text length := by
  unfold exponent? at h
  split at h
  · next letter rest =>
    split at h
    · next hletter =>
      have hone : letter.toNat < 128 := by
        simp only [Bool.or_eq_true, beq_iff_eq] at hletter
        rcases hletter with rfl | rfl <;> decide
      split at h
      · next sign digits =>
        split at h
        · next hsign =>
          have hsignOne : sign.toNat < 128 := by
            simp only [Bool.or_eq_true, beq_iff_eq] at hsign
            rcases hsign with rfl | rfl <;> decide
          obtain ⟨count, hcount, rfl⟩ := Option.map_eq_some_iff.1 h
          have hdigits := (singleBytes_int hcount).2
          exact ⟨by omega, (hdigits.cons hsignOne).cons hone⟩
        · obtain ⟨count, hcount, rfl⟩ := Option.map_eq_some_iff.1 h
          exact ⟨by omega, (singleBytes_int hcount).2.cons hone⟩
      · cases h
    · cases h
  · cases h

/-- An exponent that may be missing. -/
theorem singleBytes_exponent_getD (text : List Char) :
    SingleBytes text ((exponent? text).getD 0) := by
  cases hexponent : exponent? text with
  | none => exact singleBytes_zero text
  | some length => exact (singleBytes_exponent hexponent).2

theorem singleBytes_float {text : List Char} {length : Nat} (h : float? text = some length) :
    0 < length ∧ SingleBytes text length := by
  have hwhole := singleBytes_digits text
  simp only [float?] at h
  split at h
  · next rest hrest =>
    split at h
    · cases h
    · cases h
      refine ⟨by omega, ?_⟩
      have hfraction := (singleBytes_digits rest).add (singleBytes_exponent_getD _)
      have hpoint := hfraction.cons (c := '.') (by decide)
      rw [← hrest] at hpoint
      have hadd := hwhole.add hpoint
      rwa [show ∀ a b c : Nat, a + (b + c + 1) = a + 1 + b + c from by omega] at hadd
  · split at h
    · cases h
    · obtain ⟨count, hcount, rfl⟩ := Option.map_eq_some_iff.1 h
      obtain ⟨hpos, hexponent⟩ := singleBytes_exponent hcount
      exact ⟨by omega, hwhole.add hexponent⟩

theorem singleBytes_suffix (text : List Char) : SingleBytes text (suffix text) := by
  unfold suffix
  split
  · next c rest =>
    split
    · next hc =>
      have hone : c.toNat < 128 := by
        simp only [Bool.or_eq_true, beq_iff_eq] at hc
        rcases hc with ((rfl | rfl) | rfl) | rfl <;> decide
      exact (singleBytes_zero rest).cons hone
    · exact singleBytes_zero _
  · exact singleBytes_zero _

theorem singleBytes_octal {text : List Char} {length : Nat} (h : octal? text = some length) :
    0 < length ∧ SingleBytes text length := by
  unfold octal? at h
  split at h
  · next rest =>
    obtain ⟨digits, hdigits, rfl⟩ := Option.map_eq_some_iff.1 h
    obtain ⟨rfl, hpos⟩ := positive?_eq_some hdigits
    have hrest := (singleBytes_octals rest).add (singleBytes_suffix _)
    have hall := hrest.cons (c := '0') (by decide)
    refine ⟨by omega, ?_⟩
    rwa [show ∀ a b : Nat, a + b + 1 = 1 + a + b from by omega] at hall
  · cases h

theorem singleBytes_hex {text : List Char} {length : Nat} (h : hex? text = some length) :
    0 < length ∧ SingleBytes text length := by
  unfold hex? at h
  split at h
  · next x rest =>
    split at h
    · next hx =>
      have hone : x.toNat < 128 := by
        simp only [Bool.or_eq_true, beq_iff_eq] at hx
        rcases hx with rfl | rfl <;> decide
      obtain ⟨digits, hdigits, rfl⟩ := Option.map_eq_some_iff.1 h
      obtain ⟨rfl, hpos⟩ := positive?_eq_some hdigits
      have hrest := (singleBytes_hexes rest).add (singleBytes_suffix _)
      have hall := (hrest.cons hone).cons (c := '0') (by decide)
      refine ⟨by omega, ?_⟩
      rwa [show ∀ a b : Nat, a + b + 1 + 1 = 2 + a + b from by omega] at hall
    · cases h
  · cases h

/-- The octal digits among the first characters of a text are at the start of the text. -/
theorem singleBytes_octal_take (text : List Char) (count : Nat) :
    SingleBytes text (countWhile isOctal (text.take count)) := by
  obtain ⟨hle, hone⟩ := singleBytes_octals (text.take count)
  rw [List.length_take] at hle
  refine ⟨by omega, ?_⟩
  rw [List.take_take, Nat.min_eq_left (by omega)] at hone
  exact hone

theorem singleBytes_escape {text : List Char} {length : Nat} (h : escape? text = some length) :
    0 < length ∧ SingleBytes text length := by
  unfold escape? at h
  split at h
  · next c rest =>
    split at h
    · next hc =>
      cases h
      have hone : c.toNat < 128 := by
        have hall : simpleEscapes.all (fun d => decide (d.toNat < 128)) = true := by decide
        have hmem : c ∈ simpleEscapes := by simpa using hc
        exact of_decide_eq_true (List.all_eq_true.1 hall c hmem)
      exact ⟨by omega, ((singleBytes_zero rest).cons hone).cons (by decide)⟩
    · split at h
      · next hx =>
        have hone : c.toNat < 128 := by
          obtain rfl : c = 'x' := by simpa using hx
          decide
        obtain ⟨digits, hdigits, rfl⟩ := Option.map_eq_some_iff.1 h
        obtain ⟨rfl, hpos⟩ := positive?_eq_some hdigits
        exact ⟨by omega, ((singleBytes_hexes rest).cons hone).cons (by decide)⟩
      · obtain ⟨digits, hdigits, rfl⟩ := Option.map_eq_some_iff.1 h
        obtain ⟨rfl, hpos⟩ := positive?_eq_some hdigits
        exact ⟨by omega, (singleBytes_octal_take (c :: rest) 3).cons (by decide)⟩
  · cases h

/-- The one literal that may hold a character of more than one byte. -/
theorem advances_charLiteral {text : List Char} {length : Nat}
    (h : charLiteral? text = some length) : Advances text length := by
  unfold charLiteral? at h
  split at h
  · next rest =>
    split at h
    · next count hescape =>
      split at h
      · next hquote =>
        cases h
        have hrest := (singleBytes_escape hescape).2
        obtain ⟨more, hmore⟩ : ∃ more, rest.drop count = '\'' :: more :=
          List.head?_eq_some_iff.1 (by simpa using hquote)
        have hend : SingleBytes (rest.drop count) 1 := by
          rw [hmore]
          exact (singleBytes_zero more).cons (by decide)
        have hall := (hrest.add hend).cons (c := '\'') (by decide)
        exact ⟨by omega, hall.isBoundary⟩
      · cases h
    · split at h
      · next c more _ =>
        split at h
        · cases h
        · cases h
          have hquote : ('\'' : Char).utf8Size = 1 := rfl
          have hall := ((isBoundary_utf8Size '\'' more).cons c).cons '\''
          rw [hquote] at hall
          refine ⟨by omega, ?_⟩
          rwa [show ∀ n : Nat, 1 + (n + 1) = n + 2 from by omega] at hall
      · cases h
  · cases h

end Literal

/-! ## Texts and ranges -/

/-- A text that is there character by character apart from case: the bytes are those of the text
that is read, not those of the value. -/
theorem caselessPrefixLength?_eq_some {text value : List Char} {length : Nat}
    (h : caselessPrefixLength? text value = some length) :
    value.length ≤ text.length ∧ length = byteLength (text.take value.length) := by
  induction value generalizing text length with
  | nil =>
    rw [caselessPrefixLength?] at h
    cases h
    exact ⟨Nat.zero_le _, rfl⟩
  | cons d value ih =>
    cases text with
    | nil =>
      rw [caselessPrefixLength?] at h
      cases h
    | cons c text =>
      rw [caselessPrefixLength?] at h
      split at h
      · obtain ⟨count, hcount, rfl⟩ := Option.map_eq_some_iff.1 h
        obtain ⟨hle, rfl⟩ := ih hcount
        refine ⟨?_, ?_⟩
        · rw [List.length_cons, List.length_cons]
          omega
        · rw [List.length_cons, List.take_succ_cons, byteLength_cons]
      · cases h

theorem advances_textLength {text value : List Char} {caseless : Bool} {length : Nat}
    (h : textLength? text value caseless = some length) : Advances text length := by
  unfold textLength? at h
  split at h
  · cases h
  · next hvalue =>
    have hne : value ≠ [] := by simpa using hvalue
    split at h
    · obtain ⟨hle, rfl⟩ := caselessPrefixLength?_eq_some h
      have htake : text.take value.length ≠ [] := by
        intro hnil
        have hlength := congrArg List.length hnil
        have hpos := List.length_pos_iff.2 hne
        rw [List.length_take, List.length_nil] at hlength
        omega
      have hadvances := advances_append htake (text.drop value.length)
      rwa [List.take_append_drop] at hadvances
    · split at h
      · next hprefix =>
        cases h
        obtain ⟨left, rfl⟩ := List.isPrefixOf_iff_prefix.1 hprefix
        exact advances_append hne left
      · cases h

theorem dropWhile_ne_eq_cons {last : Char} {body : List Char} (h : last ∈ body) :
    ∃ behind, body.dropWhile (fun d => d != last) = last :: behind := by
  induction body with
  | nil => cases h
  | cons c body ih =>
    by_cases hc : c = last
    · subst hc
      exact ⟨body, by rw [List.dropWhile_cons_of_neg (by simp)]⟩
    · rw [List.dropWhile_cons_of_pos (by simpa using hc)]
      exact ih (by simpa [Ne.symm hc] using h)

theorem advances_rangeLength {text : List Char} {first last : Char} {length : Nat}
    (h : rangeLength? text first last = some length) : Advances text length := by
  unfold rangeLength? at h
  split at h
  · next c body =>
    split at h
    · next hrange =>
      cases h
      simp only [Bool.and_eq_true, beq_iff_eq, List.contains_iff_mem] at hrange
      obtain ⟨rfl, hlast⟩ := hrange
      obtain ⟨behind, hbehind⟩ := dropWhile_ne_eq_cons hlast
      have hbody := (isBoundary_utf8Size last behind).add (body.takeWhile fun d => d != last)
      rw [← hbehind, List.takeWhile_append_dropWhile] at hbody
      have hall := hbody.cons c
      have hpos := c.utf8Size_pos
      refine ⟨by omega, ?_⟩
      rwa [← Nat.add_assoc] at hall
    · cases h
  · cases h

theorem toNat_lt_of_isAlphanum {c : Char} (h : (c.isAlphanum || c == '_') = true) :
    c.toNat < 128 := by
  rcases Bool.or_eq_true_iff.1 h with halphanum | hunderscore
  · rcases Bool.or_eq_true_iff.1 (show (c.isAlpha || c.isDigit) = true from halphanum) with
      halpha | hdigit
    · rcases Bool.or_eq_true_iff.1 (show (c.isUpper || c.isLower) = true from halpha) with
        hupper | hlower
      · have hbounds : 'A'.val ≤ c.val ∧ c.val ≤ 'Z'.val := of_decide_eq_true hupper
        exact Literal.toNat_lt_of_le hbounds.2 (by decide)
      · have hbounds := Bool.and_eq_true_iff.1 hlower
        exact Literal.toNat_lt_of_le (of_decide_eq_true hbounds.2) (by decide)
    · exact Literal.toNat_lt_of_isDigit hdigit
  · obtain rfl : c = '_' := by simpa using hunderscore
    decide

theorem advances_identifierLength {text : List Char} {length : Nat}
    (h : identifierLength? text = some length) : Advances text length := by
  unfold identifierLength? at h
  split at h
  · next c rest =>
    split at h
    · next hfirst =>
      cases h
      have hall := Literal.singleBytes_countWhile (fun _ => toNat_lt_of_isAlphanum) (c :: rest)
      refine ⟨?_, hall.isBoundary⟩
      have hc : (c.isAlphanum || c == '_') = true := by
        simp only [Char.isAlphanum, Bool.or_eq_true] at hfirst ⊢
        rcases hfirst with hfirst | hfirst
        · exact .inl (.inl hfirst)
        · exact .inr hfirst
      unfold Literal.countWhile
      rw [List.takeWhile_cons, if_pos hc, List.length_cons]
      omega
    · cases h
  · cases h

/-- White space that a text starts with. -/
theorem advances_leadingBlanks {text : List Char} {length : Nat}
    (h : Literal.positive? (leadingBlanks text) = some length) : Advances text length := by
  obtain ⟨rfl, hpos⟩ := Literal.positive?_eq_some h
  exact ⟨hpos, isBoundary_takeWhile text Unicode.isBlank⟩

/-! ## Rules -/

theorem atWordStart_eq_some {cursor : Cursor} {found : Option Nat} {length : Nat}
    (h : atWordStart cursor found = some length) :
    cursor.wordStart = true ∧ found = some length := by
  unfold atWordStart at h
  split at h
  · next hstart => exact ⟨hstart, h⟩
  · cases h

theorem Cursor.word?_eq_some {cursor : Cursor} {word : List Char} (h : cursor.word? = some word) :
    word ≠ [] ∧ word = cursor.rest.takeWhile fun c => !cursor.delimiters.contains c := by
  unfold Cursor.word? at h
  split at h
  · cases h
  · next c chars hword =>
    cases h
    exact ⟨List.cons_ne_nil _ _, hword.symm⟩

theorem KeywordRule.advances_length {rule : KeywordRule} {cursor : Cursor} {length : Nat}
    (h : rule.length? cursor = some length) : Advances cursor.rest length := by
  unfold KeywordRule.length? at h
  split at h
  · split at h
    · cases h
    · next word hword =>
      obtain ⟨hne, hrun⟩ := Cursor.word?_eq_some hword
      simp only [Option.ite_none_right_eq_some] at h
      obtain ⟨-, h⟩ := h
      cases h
      have hadvances := advances_append hne
        (cursor.rest.dropWhile fun c => !cursor.delimiters.contains c)
      rw [hrun, List.takeWhile_append_dropWhile] at hadvances
      rwa [hrun]
  · cases h

/-- A word is only asked to end at a length that was found for it, so that the cut behind it
succeeds. -/
theorem Cursor.exists_wordEnd {cursor : Cursor} {length : Nat}
    (h : IsBoundary cursor.rest length) : ∃ ends, cursor.wordEnd? length = some ends := by
  obtain ⟨skipped, left, hsplit⟩ := isBoundary_iff.1 h
  exact ⟨endsWord cursor.delimiters left, by rw [Cursor.wordEnd?, hsplit, Option.map_some]⟩

namespace Rule

/-- A rule for one character takes that character. -/
theorem advances_ite {text : List Char} {condition : Prop} [Decidable condition]
    {size length : Nat} (hsize : condition → Advances text size)
    (h : (if condition then some size else none) = some length) : Advances text length := by
  obtain ⟨hcondition, hlength⟩ := Option.ite_none_right_eq_some.1 h
  cases hlength
  exact hsize hcondition

theorem advances_twoChars {c first second : Char} {rest : List Char}
    (h : (c == first && rest.head? == some second) = true) :
    Advances (c :: rest) (first.utf8Size + second.utf8Size) := by
  simp only [Bool.and_eq_true, beq_iff_eq] at h
  obtain ⟨rfl, hsecond⟩ := h
  obtain ⟨more, rfl⟩ := List.head?_eq_some_iff.1 hsecond
  have hpos := c.utf8Size_pos
  exact ⟨by omega, (isBoundary_utf8Size second more).cons c⟩

/-- Looking for what a kind of rule takes meets no fault, and what it takes are whole
characters. -/
theorem length?_advances (rule : Rule) (cursor : Cursor) :
    ∃ found, rule.length? cursor = .ok found ∧
      ∀ length, found = some length → Advances cursor.rest length := by
  unfold length?
  cases hrest : cursor.rest with
  | nil => exact ⟨none, rfl, fun length h => by cases h⟩
  | cons c rest =>
    cases hkind : rule.kind with
    | char value =>
      cases value with
      | literal d => exact ⟨_, rfl, fun _ => advances_ite fun _ => advances_utf8Size c rest⟩
      | capture index =>
        exact ⟨_, rfl, fun _ => advances_ite fun _ => advances_utf8Size c rest⟩
    | twoChars first second => exact ⟨_, rfl, fun _ => advances_ite advances_twoChars⟩
    | anyChar set => exact ⟨_, rfl, fun _ => advances_ite fun _ => advances_utf8Size c rest⟩
    | text value caseless => exact ⟨_, rfl, fun _ => advances_textLength⟩
    | word value caseless =>
      cases hfound : atWordStart cursor (textLength? (c :: rest) value caseless) with
      | none => exact ⟨none, by simp only [hfound], fun length h => by cases h⟩
      | some length =>
        have hlength := advances_textLength (atWordStart_eq_some hfound).2
        rw [← hrest] at hlength
        obtain ⟨ends, hends⟩ := Cursor.exists_wordEnd hlength.2
        refine ⟨if ends then some length else none, ?_, fun _ => advances_ite fun _ => ?_⟩
        · simp only [hfound, hends, orFault, bind, Except.bind]
        · rwa [← hrest]
    | keyword keyword =>
      refine ⟨_, rfl, fun length h => ?_⟩
      rw [← hrest]
      exact keyword.advances_length h
    | int =>
      refine ⟨_, rfl, fun length h => ?_⟩
      obtain ⟨hpos, hbytes⟩ := Literal.singleBytes_int (atWordStart_eq_some h).2
      exact ⟨hpos, hbytes.isBoundary⟩
    | float =>
      refine ⟨_, rfl, fun length h => ?_⟩
      obtain ⟨hpos, hbytes⟩ := Literal.singleBytes_float (atWordStart_eq_some h).2
      exact ⟨hpos, hbytes.isBoundary⟩
    | octal =>
      refine ⟨_, rfl, fun length h => ?_⟩
      obtain ⟨hpos, hbytes⟩ := Literal.singleBytes_octal (atWordStart_eq_some h).2
      exact ⟨hpos, hbytes.isBoundary⟩
    | hex =>
      refine ⟨_, rfl, fun length h => ?_⟩
      obtain ⟨hpos, hbytes⟩ := Literal.singleBytes_hex (atWordStart_eq_some h).2
      exact ⟨hpos, hbytes.isBoundary⟩
    | stringEscape =>
      refine ⟨_, rfl, fun length h => ?_⟩
      obtain ⟨hpos, hbytes⟩ := Literal.singleBytes_escape h
      exact ⟨hpos, hbytes.isBoundary⟩
    | charLiteral => exact ⟨_, rfl, fun _ => Literal.advances_charLiteral⟩
    | range first last => exact ⟨_, rfl, fun _ => advances_rangeLength⟩
    | lineContinue marker =>
      refine ⟨_, rfl, fun _ => advances_ite fun h => ?_⟩
      obtain rfl : c = marker := by
        simp only [Bool.and_eq_true, beq_iff_eq] at h
        exact h.1
      exact advances_utf8Size c rest
    | spaces => exact ⟨_, rfl, fun _ => advances_leadingBlanks⟩
    | identifier => exact ⟨_, rfl, fun _ => advances_identifierLength⟩
    | regex pattern => exact ⟨none, rfl, fun length h => by cases h⟩
    | inclusion target => exact ⟨none, rfl, fun length h => by cases h⟩

end Rule

/-- What a pattern takes ends behind one of the characters that are left, and it is not empty. -/
theorem RegexRule.find_advances {rule : RegexRule} {cursor : Cursor} {wantGroups : Bool}
    {length : Nat} {groups : Option Captures}
    (h : (rule.find cursor wantGroups).found = some (length, groups)) :
    Advances cursor.rest length := by
  unfold RegexRule.find at h
  split at h
  · split at h
    · cases h
    · split at h
      · cases h
      · next found _ =>
        simp only at h
        split at h
        · cases h
        · next hlength =>
          obtain ⟨rfl, -⟩ := Prod.mk.inj (Option.some.inj h)
          have hne : byteLength (found.reach cursor.rest) ≠ 0 := by simpa using hlength
          exact ⟨by omega, isBoundary_take cursor.rest found.stop⟩
  · cases h

/-- What a rule finds by itself is found without a fault and takes whole characters. -/
theorem Rule.detect_advances (rule : Rule) (cursor : Cursor) :
    ∃ attempt, rule.detect cursor = .ok attempt ∧
      ∀ length captures, attempt.found = some (length, captures) →
        Advances cursor.rest length := by
  obtain ⟨found, hfound, hadvances⟩ := rule.length?_advances cursor
  have hplain : ∃ attempt,
      (do .ok { found := (← rule.length? cursor).map (·, none) } :
        Except Fault (Attempt (Nat × Option Captures))) = .ok attempt ∧
      ∀ length captures, attempt.found = some (length, captures) →
        Advances cursor.rest length := by
    refine ⟨{ found := found.map (·, none) }, by rw [hfound]; rfl, ?_⟩
    intro length captures h
    obtain ⟨count, hcount, heq⟩ := Option.map_eq_some_iff.1 h
    obtain ⟨rfl, -⟩ := Prod.mk.inj heq
    exact hadvances count hcount
  unfold Rule.detect
  split
  · next regex _ =>
    refine ⟨_, rfl, ?_⟩
    intro length captures h
    split at h
    · cases h
    · exact RegexRule.find_advances h
  · exact hplain

/-- What a rule detects is not empty, and ends at a boundary of what is left. -/
theorem Rule.advances_of_detect {rule : Rule} {cursor : Cursor}
    {attempt : Attempt (Nat × Option Captures)} {length : Nat} {captures : Option Captures}
    (hdetect : rule.detect cursor = .ok attempt)
    (hfound : attempt.found = some (length, captures)) : Advances cursor.rest length := by
  obtain ⟨other, hother, hadvances⟩ := rule.detect_advances cursor
  rw [hdetect] at hother
  cases hother
  exact hadvances length captures hfound

end Highlight
