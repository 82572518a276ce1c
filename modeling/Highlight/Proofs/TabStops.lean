import Highlight.Proofs.RenderedText
import Mathlib.Algebra.Ring.Nat

/-!
# Tab stops

Expanding the tabs of a text puts blanks in the place of each of them, up to the next multiple of the
tab width, and keeps all other characters.  The column is carried along, so that a text can be
expanded in parts.

There are three groups.

* Stops.  The next tab stop is the one multiple of the width among the columns behind a column, as far
  as the width reaches (`nextTabStop_unique`), and machine words compute the same stop as long as
  they do not overflow (`toNat_nextTabStop`).
* Pieces.  `TabPiece.Aligned` lays a text out piece by piece, without computing a stop: a piece is a
  kept character or a tab with its blanks, and behind a tab the column is a multiple of the width.
  Every text has such a layout (`exists_aligned`), and a text that has one is expanded to what that
  shows (`TabPiece.Aligned.expandTabs_eq`), so that there is no other.
* Texts.  What is said about a whole text is an induction along its layout, and `expandTabs_aligned`
  puts it together.
-/

namespace Highlight

/-! ## Stops -/

theorem lt_nextTabStop {width : Nat} (hwidth : 0 < width) (column : Nat) :
    column < nextTabStop width column := by
  unfold nextTabStop
  rw [Nat.mul_comm]
  exact Nat.lt_mul_div_succ column hwidth

theorem dvd_nextTabStop (width column : Nat) : width ∣ nextTabStop width column :=
  Nat.dvd_mul_left width (column / width + 1)

/-- No other multiple of the width is as near behind the column. -/
theorem nextTabStop_unique {width column stop : Nat} (hbehind : column < stop)
    (hnear : stop ≤ column + width) (hdvd : width ∣ stop) : stop = nextTabStop width column := by
  obtain ⟨count, rfl⟩ := hdvd
  cases count with
  | zero => omega
  | succ count =>
    have hquotient : column / width = count := by
      apply Nat.div_eq_of_lt_le
      · rw [Nat.mul_comm]
        rw [Nat.mul_succ] at hnear
        omega
      · rw [Nat.mul_comm]
        exact hbehind
    rw [nextTabStop, hquotient, Nat.mul_comm]

/-- In machine words the stop is the same, and so is the number of blanks up to it, where a column and
the width do not add up to more than a word holds. -/
theorem toNat_nextTabStop {width column : UInt64} (hwidth : 0 < width.toNat)
    (hroom : column.toNat + width.toNat < 2 ^ 64) :
    ((column / width + 1) * width).toNat = nextTabStop width.toNat column.toNat ∧
      ((column / width + 1) * width - column).toNat =
        nextTabStop width.toNat column.toNat - column.toNat := by
  have hstop := nextTabStop_le width.toNat column.toNat
  have hbehind := lt_nextTabStop hwidth column.toNat
  have hquotient : column.toNat / width.toNat ≤ column.toNat := Nat.div_le_self _ _
  have hnext : (column / width + 1).toNat = column.toNat / width.toNat + 1 := by
    rw [UInt64.toNat_add, UInt64.toNat_div]
    show (column.toNat / width.toNat + 1) % 2 ^ 64 = _
    exact Nat.mod_eq_of_lt (by omega)
  have hwords : ((column / width + 1) * width).toNat = nextTabStop width.toNat column.toNat := by
    rw [UInt64.toNat_mul, hnext]
    exact Nat.mod_eq_of_lt (Nat.lt_of_le_of_lt hstop hroom)
  refine ⟨hwords, ?_⟩
  have hordered : column ≤ (column / width + 1) * width := by
    rw [UInt64.le_iff_toNat_le, hwords]
    omega
  rw [UInt64.toNat_sub_of_le _ _ hordered, hwords]

/-! ## Pieces -/

/-- What stands for one character of a text whose tabs are expanded. -/
inductive TabPiece where
  /-- A character that is kept. -/
  | kept (c : Char)
  /-- A tab, with the number of blanks in its place. -/
  | tab (blanks : Nat)
  deriving Repr, DecidableEq

namespace TabPiece

/-- The character that the piece stands for. -/
def source : TabPiece → Char
  | kept c => c
  | tab _ => '\t'

/-- What is shown for it. -/
def shown : TabPiece → List Char
  | kept c => [c]
  | tab blanks => List.replicate blanks ' '

/-- The character that is shown as it was. -/
def kept? : TabPiece → Option Char
  | kept c => some c
  | tab _ => none

/-- Pieces that are laid out from a column on, with the column behind them. -/
inductive Aligned (width : Nat) : Nat → List TabPiece → Nat → Prop
  | nil {column : Nat} : Aligned width column [] column
  | kept {column final : Nat} {c : Char} {pieces : List TabPiece} (plain : c ≠ '\t')
      (rest : Aligned width (column + Unicode.displayWidth c) pieces final) :
      Aligned width column (.kept c :: pieces) final
  /-- A tab takes some blanks, as many as the width at most, up to a multiple of the width. -/
  | tab {column final blanks : Nat} {pieces : List TabPiece} (one_le : 1 ≤ blanks)
      (le_width : blanks ≤ width) (dvd : width ∣ column + blanks)
      (rest : Aligned width (column + blanks) pieces final) :
      Aligned width column (.tab blanks :: pieces) final

end TabPiece

open TabPiece (Aligned)

variable {width column final : Nat} {pieces : List TabPiece}

theorem expandTabs_cons_of_ne {c : Char} (hc : c ≠ '\t') (rest : List Char) :
    expandTabs width column (c :: rest) =
      (c :: (expandTabs width (column + Unicode.displayWidth c) rest).1,
        (expandTabs width (column + Unicode.displayWidth c) rest).2) := by
  rw [expandTabs, if_neg (by simpa using hc)]

theorem expandTabs_cons_tab (rest : List Char) :
    expandTabs width column ('\t' :: rest) =
      (List.replicate (nextTabStop (max width 1) column - column) ' ' ++
          (expandTabs width (nextTabStop (max width 1) column) rest).1,
        (expandTabs width (nextTabStop (max width 1) column) rest).2) := by
  rw [expandTabs, if_pos (beq_self_eq_true '\t')]

/-- A text is expanded as it is laid out. -/
theorem TabPiece.Aligned.expandTabs_eq (h : Aligned (max width 1) column pieces final) :
    expandTabs width column (pieces.map source) = (pieces.flatMap TabPiece.shown, final) := by
  induction h with
  | nil => rfl
  | @kept column final c pieces plain rest ih =>
    rw [List.map_cons, source, expandTabs_cons_of_ne plain, ih]
    rfl
  | @tab column final blanks pieces one_le le_width dvd rest ih =>
    have hstop : column + blanks = nextTabStop (max width 1) column :=
      nextTabStop_unique (by omega) (by omega) dvd
    have hblanks : nextTabStop (max width 1) column - column = blanks := by omega
    rw [List.map_cons, source, expandTabs_cons_tab, hblanks, ← hstop, ih]
    rfl

/-- Every text can be laid out. -/
theorem exists_aligned (width column : Nat) (text : List Char) : ∃ pieces final,
    text = pieces.map TabPiece.source ∧ Aligned (max width 1) column pieces final := by
  induction text generalizing column with
  | nil => exact ⟨[], column, rfl, .nil⟩
  | cons c rest ih =>
    by_cases hc : c = '\t'
    · have hbehind := lt_nextTabStop (show 0 < max width 1 by omega) column
      have hnear := nextTabStop_le (max width 1) column
      have hsum : column + (nextTabStop (max width 1) column - column) =
          nextTabStop (max width 1) column := by omega
      obtain ⟨pieces, final, hrest, haligned⟩ := ih (nextTabStop (max width 1) column)
      refine ⟨.tab (nextTabStop (max width 1) column - column) :: pieces, final, ?_, ?_⟩
      · rw [List.map_cons, ← hrest, hc]
        rfl
      · refine .tab (by omega) (by omega) ?_ ?_
        · rw [hsum]
          exact dvd_nextTabStop (max width 1) column
        · rw [hsum]
          exact haligned
    · obtain ⟨pieces, final, hrest, haligned⟩ := ih (column + Unicode.displayWidth c)
      refine ⟨.kept c :: pieces, final, ?_, .kept hc haligned⟩
      rw [List.map_cons, ← hrest]
      rfl

/-! ## Texts -/

theorem displayWidth_blank : Unicode.displayWidth ' ' = 1 := by decide

theorem displayWidth_of_control {c : Char}
    (h : c.toNat < 0x20 ∨ (0x7F ≤ c.toNat ∧ c.toNat < 0xA0)) : Unicode.displayWidth c = 0 := by
  have hcontrol : (c.toNat < 0x20 || (0x7F ≤ c.toNat && c.toNat < 0xA0)) = true := by simpa using h
  unfold Unicode.displayWidth
  exact if_pos hcontrol

namespace TabPiece

theorem Aligned.tab_not_mem (h : Aligned width column pieces final) :
    '\t' ∉ pieces.flatMap TabPiece.shown := by
  induction h with
  | nil => simp
  | kept plain rest ih =>
    rw [List.flatMap_cons, TabPiece.shown, List.mem_append, List.mem_singleton]
    exact not_or.2 ⟨plain.symm, ih⟩
  | tab one_le le_width dvd rest ih =>
    rw [List.flatMap_cons, TabPiece.shown, List.mem_append]
    refine not_or.2 ⟨fun hmem => ?_, ih⟩
    exact absurd (List.eq_of_mem_replicate hmem) (by decide)

/-- Without its tabs the text is what is shown without the blanks for them. -/
theorem Aligned.filter_source (h : Aligned width column pieces final) :
    (pieces.map source).filter (· != '\t') = pieces.filterMap kept? := by
  induction h with
  | nil => rfl
  | kept plain rest ih =>
    rw [List.map_cons, source, List.filter_cons_of_pos (by simpa using plain), ih]
    rfl
  | tab one_le le_width dvd rest ih =>
    rw [List.map_cons, source, List.filter_cons_of_neg (by decide), ih]
    rfl

/-- The column behind the pieces is the one before them and the width of what is shown. -/
theorem Aligned.final_eq (h : Aligned width column pieces final) :
    final = column + ((pieces.flatMap TabPiece.shown).map Unicode.displayWidth).sum := by
  induction h with
  | nil => rfl
  | @kept column final c pieces plain rest ih =>
    rw [ih, List.flatMap_cons, TabPiece.shown, List.singleton_append, List.map_cons, List.sum_cons]
    omega
  | @tab column final blanks pieces one_le le_width dvd rest ih =>
    have hblanks : ((List.replicate blanks ' ').map Unicode.displayWidth).sum = blanks := by
      rw [List.map_replicate, displayWidth_blank, List.sum_replicate_nat, Nat.mul_one]
    rw [ih, List.flatMap_cons, TabPiece.shown, List.map_append, List.sum_append, hblanks]
    omega

end TabPiece

/-- A text is expanded part by part, each from the column behind the part before it.  What is shown is
the text laid out from its column on, with one blank at least and as many as the width at most for
each tab, up to a multiple of the width; it has no tab, it is the text without its tabs apart from
those blanks, and it is as wide as the columns that it takes.  A width of no columns counts as one,
and a control character has no width.  Machine words have the same tab stops, up to the last one that
does not overflow. -/
theorem expandTabs_aligned (width : Nat) :
    (∀ column first second shown middle more final,
      expandTabs width column first = (shown, middle) →
      expandTabs width middle second = (more, final) →
      expandTabs width column (first ++ second) = (shown ++ more, final)) ∧
    (∀ column text, ∃ pieces shown final, expandTabs width column text = (shown, final) ∧
      Aligned (max width 1) column pieces final ∧
      text = pieces.map TabPiece.source ∧ shown = pieces.flatMap TabPiece.shown ∧
      '\t' ∉ shown ∧ text.filter (· != '\t') = pieces.filterMap TabPiece.kept? ∧
      final = column + (shown.map Unicode.displayWidth).sum) ∧
    (∀ c : Char, c.toNat < 0x20 ∨ (0x7F ≤ c.toNat ∧ c.toNat < 0xA0) →
      Unicode.displayWidth c = 0) ∧
    ∀ words column : UInt64, words.toNat = max width 1 → column.toNat < 2 ^ 64 - words.toNat →
      ((column / words + 1) * words).toNat = nextTabStop (max width 1) column.toNat ∧
      ((column / words + 1) * words - column).toNat =
        nextTabStop (max width 1) column.toNat - column.toNat := by
  refine ⟨?_, ?_, fun c => displayWidth_of_control, ?_⟩
  · intro column first second shown middle more final hfirst hsecond
    rw [expandTabs_append, hfirst, hsecond]
  · intro column text
    obtain ⟨pieces, final, htext, haligned⟩ := exists_aligned width column text
    refine ⟨pieces, pieces.flatMap TabPiece.shown, final, ?_, haligned, htext, rfl,
      haligned.tab_not_mem, ?_, haligned.final_eq⟩
    · rw [htext]
      exact haligned.expandTabs_eq
    · rw [htext]
      exact haligned.filter_source
  · intro words column hwords hcolumn
    have hpositive : 0 < words.toNat := by omega
    have hroom : column.toNat + words.toNat < 2 ^ 64 := by omega
    have hstops := toNat_nextTabStop hpositive hroom
    rwa [hwords] at hstops

/-- A bell takes no column, so that as many blanks stand behind it as without it. -/
theorem expandTabs_aligned_bell :
    expandTabs 4 0 ['a', '\x07', '\t'] = (['a', '\x07', ' ', ' ', ' '], 4) ∧
      expandTabs 4 4 ['\t'] = ([' ', ' ', ' ', ' '], 8) ∧
      expandTabs 4 0 ['a', '\x07', '\t', '\t'] =
        (['a', '\x07', ' ', ' ', ' ', ' ', ' ', ' ', ' '], 8) ∧
      Unicode.displayWidth '\x07' = 0 ∧
      (((5 : UInt64) / 4 + 1) * 4).toNat = nextTabStop 4 5 := by
  obtain ⟨hparts, -, hcontrol, hwords⟩ := expandTabs_aligned 4
  have hfirst : expandTabs 4 0 ['a', '\x07', '\t'] = (['a', '\x07', ' ', ' ', ' '], 4) := by decide
  have hsecond : expandTabs 4 4 ['\t'] = ([' ', ' ', ' ', ' '], 8) := by decide
  exact ⟨hfirst, hsecond, hparts _ _ _ _ _ _ _ hfirst hsecond, hcontrol '\x07' (by decide),
    (hwords 4 5 rfl (by decide)).1⟩

end Highlight
