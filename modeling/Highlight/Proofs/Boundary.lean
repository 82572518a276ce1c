import Highlight.Text

/-!
# Boundaries between characters

The offsets of a text at which a cut goes between two characters.  Every length that a rule
reports is one of them (`Highlight.Proofs.RuleLength`), and so is every place where a span begins or
ends (`Highlight.Proofs.Coverage`).

There are two groups.

* Boundaries and cuts.  `isBoundary_iff` says that the boundaries are the offsets at which
  `splitAtByte?` succeeds, and the lemmas below it make boundaries of parts into boundaries of the
  whole.
* Characters of one byte.  In a text of them the number of characters is the number of bytes, so a
  scanner that counts characters stops at a boundary.
-/

namespace Highlight

/-! ## Boundaries and cuts -/

/-- An offset of a text that is between two characters or at one of the ends. -/
def IsBoundary (text : List Char) (offset : Nat) : Prop :=
  ∃ skipped left, text = skipped ++ left ∧ byteLength skipped = offset

/-- The boundaries are the offsets at which a text can be cut. -/
theorem isBoundary_iff {text : List Char} {offset : Nat} :
    IsBoundary text offset ↔
      ∃ skipped left, splitAtByte? offset text = some (skipped, left) := by
  unfold IsBoundary
  simp only [splitAtByte?_eq_some_iff]

theorem isBoundary_zero (text : List Char) : IsBoundary text 0 :=
  ⟨[], text, rfl, rfl⟩

/-- The end of a first part of a text. -/
theorem isBoundary_append (skipped left : List Char) :
    IsBoundary (skipped ++ left) (byteLength skipped) :=
  ⟨skipped, left, rfl, rfl⟩

theorem isBoundary_take (text : List Char) (count : Nat) :
    IsBoundary text (byteLength (text.take count)) :=
  ⟨text.take count, text.drop count, (List.take_append_drop count text).symm, rfl⟩

theorem isBoundary_takeWhile (text : List Char) (kind : Char → Bool) :
    IsBoundary text (byteLength (text.takeWhile kind)) :=
  ⟨text.takeWhile kind, text.dropWhile kind, List.takeWhile_append_dropWhile.symm, rfl⟩

/-- The end of the first character. -/
theorem isBoundary_utf8Size (c : Char) (rest : List Char) :
    IsBoundary (c :: rest) c.utf8Size :=
  ⟨[c], rest, rfl, by simp⟩

theorem IsBoundary.le_byteLength {text : List Char} {offset : Nat} (h : IsBoundary text offset) :
    offset ≤ byteLength text := by
  obtain ⟨skipped, left, rfl, rfl⟩ := h
  rw [byteLength_append]
  exact Nat.le_add_right _ _

/-- A boundary of what is left of a text, counted from the start of the text. -/
theorem IsBoundary.add {left : List Char} {offset : Nat} (h : IsBoundary left offset)
    (skipped : List Char) : IsBoundary (skipped ++ left) (byteLength skipped + offset) := by
  obtain ⟨more, rest, rfl, rfl⟩ := h
  refine ⟨skipped ++ more, rest, ?_, ?_⟩
  · rw [List.append_assoc]
  · rw [byteLength_append]

theorem IsBoundary.cons {rest : List Char} {offset : Nat} (h : IsBoundary rest offset)
    (c : Char) : IsBoundary (c :: rest) (c.utf8Size + offset) := by
  have hadd := h.add [c]
  simpa using hadd

/-- A boundary behind a first part of a text cuts the rest of the text. -/
theorem IsBoundary.exists_gap {skipped left : List Char} {offset : Nat}
    (h : IsBoundary (skipped ++ left) offset) (hle : byteLength skipped ≤ offset) :
    ∃ gap rest, left = gap ++ rest ∧ byteLength (skipped ++ gap) = offset := by
  obtain ⟨first, rest, happend, rfl⟩ := h
  rcases List.append_eq_append_iff.1 happend with ⟨gap, rfl, rfl⟩ | ⟨gap, rfl, rfl⟩
  · exact ⟨gap, rest, rfl, rfl⟩
  · have hempty : gap = [] := by
      rw [← byteLength_eq_zero_iff]
      rw [byteLength_append] at hle
      omega
    exact ⟨[], left, rfl, by simp [hempty]⟩

/-! ## Characters of one byte -/

theorem utf8Size_eq_one {c : Char} (h : c.toNat < 128) : c.utf8Size = 1 := by
  rw [Char.utf8Size_eq_one_iff, UInt32.le_iff_toNat_le]
  have hval : c.val.toNat = c.toNat := rfl
  have hbound : (127 : UInt32).toNat = 127 := rfl
  omega

/-- A text of characters of one byte has as many bytes as characters. -/
theorem byteLength_eq_length {text : List Char} (h : ∀ c ∈ text, c.utf8Size = 1) :
    byteLength text = text.length := by
  induction text with
  | nil => rfl
  | cons c rest ih =>
    have hhead : c.utf8Size = 1 := h c List.mem_cons_self
    have htail : byteLength rest = rest.length :=
      ih fun d hd => h d (List.mem_cons_of_mem c hd)
    rw [byteLength_cons, List.length_cons, hhead, htail]
    omega

/-- A number of characters is a boundary if all of them are of one byte. -/
theorem isBoundary_of_take {text : List Char} {count : Nat} (hcount : count ≤ text.length)
    (h : ∀ c ∈ text.take count, c.utf8Size = 1) : IsBoundary text count := by
  have hbytes : byteLength (text.take count) = count := by
    rw [byteLength_eq_length h, List.length_take]
    omega
  have htake := isBoundary_take text count
  rwa [hbytes] at htake

end Highlight
