/-!
# Text and its byte offsets

A line is a list of characters.  Positions in it are counted in the bytes of its UTF-8 form, so this
file says how long a text is in bytes and cuts a text at a byte offset.  A cut that falls inside a
character or behind the end is refused; `splitAtByte?_eq_some_iff` says exactly when one succeeds.
-/

namespace Highlight

/-- The number of bytes of a text. -/
def byteLength : List Char → Nat
  | [] => 0
  | c :: rest => c.utf8Size + byteLength rest

@[simp] theorem byteLength_nil : byteLength [] = 0 := rfl

@[simp] theorem byteLength_cons (c : Char) (rest : List Char) :
    byteLength (c :: rest) = c.utf8Size + byteLength rest := rfl

@[simp] theorem byteLength_append (first second : List Char) :
    byteLength (first ++ second) = byteLength first + byteLength second := by
  induction first with
  | nil => simp
  | cons c rest ih => simp [ih, Nat.add_assoc]

@[simp] theorem byteLength_eq_zero_iff {text : List Char} : byteLength text = 0 ↔ text = [] := by
  cases text with
  | nil => simp
  | cons c rest =>
    have := c.utf8Size_pos
    simp
    omega

/-- The text before and after a byte offset, if the offset is between two characters. -/
def splitAtByte? : Nat → List Char → Option (List Char × List Char)
  | 0, text => some ([], text)
  | _ + 1, [] => none
  | n + 1, c :: rest =>
    if c.utf8Size ≤ n + 1 then
      (splitAtByte? (n + 1 - c.utf8Size) rest).map fun (skipped, left) => (c :: skipped, left)
    else none

@[simp] theorem splitAtByte?_zero (text : List Char) : splitAtByte? 0 text = some ([], text) := by
  cases text <;> rfl

theorem splitAtByte?_byteLength (skipped left : List Char) :
    splitAtByte? (byteLength skipped) (skipped ++ left) = some (skipped, left) := by
  induction skipped with
  | nil => simp
  | cons c rest ih =>
    have hpos := c.utf8Size_pos
    obtain ⟨n, hn⟩ : ∃ n, c.utf8Size + byteLength rest = n + 1 :=
      ⟨c.utf8Size + byteLength rest - 1, by omega⟩
    have hrest : n + 1 - c.utf8Size = byteLength rest := by omega
    have hle : c.utf8Size ≤ n + 1 := by omega
    simp [hn, splitAtByte?, hle, hrest, ih]

theorem append_of_splitAtByte? {n : Nat} {text skipped left : List Char}
    (h : splitAtByte? n text = some (skipped, left)) :
    text = skipped ++ left ∧ byteLength skipped = n := by
  induction text generalizing n skipped left with
  | nil =>
    cases n with
    | zero => simp_all
    | succ n => simp [splitAtByte?] at h
  | cons c rest ih =>
    cases n with
    | zero => simp_all
    | succ n =>
      simp only [splitAtByte?] at h
      split at h
      · next hle =>
        obtain ⟨⟨first, second⟩, hsplit, heq⟩ := Option.map_eq_some_iff.1 h
        simp only [Prod.mk.injEq] at heq
        obtain ⟨rfl, rfl⟩ := heq
        obtain ⟨happ, hlen⟩ := ih hsplit
        exact ⟨by simp [happ], by simp [hlen]; omega⟩
      · simp at h

/-- A cut succeeds exactly when some first part of the text has that many bytes. -/
theorem splitAtByte?_eq_some_iff {n : Nat} {text skipped left : List Char} :
    splitAtByte? n text = some (skipped, left) ↔
      text = skipped ++ left ∧ byteLength skipped = n := by
  constructor
  · exact append_of_splitAtByte?
  · rintro ⟨rfl, rfl⟩
    exact splitAtByte?_byteLength skipped left

/-- Past at least one byte less text is left. -/
theorem length_lt_of_splitAtByte? {n : Nat} {text skipped left : List Char} (hn : 0 < n)
    (h : splitAtByte? n text = some (skipped, left)) : left.length < text.length := by
  obtain ⟨rfl, hlen⟩ := append_of_splitAtByte? h
  have : skipped ≠ [] := by
    rintro rfl
    simp at hlen
    omega
  have := List.length_pos_iff.2 this
  simp
  omega

/-- Whether a text stands somewhere in another. -/
def occursIn (part : List Char) : List Char → Bool
  | [] => part.isEmpty
  | c :: rest => part.isPrefixOf (c :: rest) || occursIn part rest

end Highlight
