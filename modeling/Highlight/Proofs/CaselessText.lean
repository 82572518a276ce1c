import Highlight.Proofs.WholeWords

/-!
# Texts apart from case

A value that is looked for apart from case is compared with the text character by character.  The
two need not have the same bytes: the sign for kelvin is three bytes long and has the lower case of
the letter k.  What a match takes is measured in the text (`caseless_text_measured`).

There are two groups.

* Lower case.  The table of lower case is searched by halves.  `startedBy_eq` says what the search
  counts, and `ShiftTable.map?_of_append` what it finds in a table whose runs are in order, such as
  the run of the sign for kelvin.
* Values.  `textLength?_caseless_iff` compares a text with a value at each place.
-/

namespace Highlight

/-! ## Lower case -/

namespace Unicode

/-- The search by halves counts the runs that start at a code point or before it, if they stand in
front of the others. -/
theorem startedBy_eq {firstOf : Nat → Option Nat} {code low high count : Nat} (hlow : low ≤ count)
    (hhigh : count ≤ high)
    (hplaces : ∀ i < high, ∃ first, firstOf i = some first ∧ (first ≤ code ↔ i < count)) :
    startedBy firstOf code low high = count := by
  induction low, high using startedBy.induct firstOf code with
  | case1 low high hless middle first hfirst hle ih =>
    obtain ⟨other, hother, hstarted⟩ := hplaces middle (by omega)
    obtain rfl : first = other := Option.some.inj (hfirst.symm.trans hother)
    rw [startedBy, dif_pos hless]
    simp only [show (low + high) / 2 = middle from rfl, hfirst, if_pos hle]
    exact ih (hstarted.1 hle) hhigh hplaces
  | case2 low high hless middle first hfirst hle ih =>
    obtain ⟨other, hother, hstarted⟩ := hplaces middle (by omega)
    obtain rfl : first = other := Option.some.inj (hfirst.symm.trans hother)
    rw [startedBy, dif_pos hless]
    simp only [show (low + high) / 2 = middle from rfl, hfirst, if_neg hle]
    exact ih hlow (Nat.not_lt.1 (mt hstarted.2 hle)) fun i hi => hplaces i (by omega)
  | case3 low high hless middle hnone =>
    obtain ⟨first, hfirst, -⟩ := hplaces middle (by omega)
    rw [hnone] at hfirst
    cases hfirst
  | case4 low high hless =>
    rw [startedBy, dif_neg hless]
    omega

theorem startedBy_append {α : Type} {firstOf : α → Nat} {started later : List α} {code : Nat}
    (hstarted : ∀ run ∈ started, firstOf run ≤ code) (hlater : ∀ run ∈ later, code < firstOf run) :
    startedBy (fun i => (started ++ later)[i]?.map firstOf) code 0 (started ++ later).length =
      started.length := by
  rw [List.length_append]
  refine startedBy_eq (Nat.zero_le _) (Nat.le_add_right _ _) fun i hi => ?_
  by_cases hplace : i < started.length
  · refine ⟨firstOf started[i], ?_, iff_of_true (hstarted _ (List.getElem_mem hplace)) hplace⟩
    rw [List.getElem?_append_left hplace, List.getElem?_eq_getElem hplace, Option.map_some]
  · have hbehind : i - started.length < later.length := by omega
    refine ⟨firstOf later[i - started.length], ?_,
      iff_of_false (Nat.not_le.2 (hlater _ (List.getElem_mem hbehind))) hplace⟩
    rw [List.getElem?_append_right (Nat.not_lt.1 hplace), List.getElem?_eq_getElem hbehind,
      Option.map_some]

/-- A code point goes where the run that it is in is moved, if the runs in front have started before
and the others start behind it. -/
theorem ShiftTable.map?_of_append {table : ShiftTable} {front back : List Shift} {shift : Shift}
    {code : Nat} (htable : table.shifts.toList = front ++ shift :: back)
    (hfront : ∀ other ∈ front, other.first ≤ code) (hshift : shift.toRun.contains code = true)
    (hback : ∀ other ∈ back, code < other.first) :
    table.map? code = some (shift.target + (code - shift.first)) := by
  obtain ⟨⟨shifts⟩⟩ := table
  obtain rfl : shifts = front ++ shift :: back := htable
  have hfirst : shift.first ≤ code := by
    simp only [Run.contains, Bool.and_eq_true, decide_eq_true_eq] at hshift
    exact hshift.1.1
  have hstarted : ∀ other ∈ front ++ [shift], other.first ≤ code :=
    List.forall_mem_append.2 ⟨hfront, List.forall_mem_singleton.2 hfirst⟩
  have hlength : (front ++ [shift]).length = front.length + 1 := List.length_append
  have hcount := startedBy_append hstarted hback
  rw [← List.append_cons, hlength] at hcount
  have hfound : (front ++ shift :: back)[front.length]? = some shift := by simp
  simp only [map?, List.getElem?_toArray, List.size_toArray, hcount, hfound, hshift, if_true]

/-- The sign for kelvin, which has three bytes. -/
def kelvinSign : Char := '\u212A'

/-- A table is read from the characters of its text. -/
theorem ShiftTable.toList_shifts {table : ShiftTable} {chars : List Char}
    (h : table = ofText (String.ofList chars)) :
    table.shifts.toList = (splitAtBlanks [] chars).map fun entry =>
      match Run.read entry with
      | (run, '>' :: rest) => { run with target := (readHex 0 rest).1 }
      | (run, _) => { run with target := run.first } := by
  subst h
  exact congrArg (fun text => List.map _ (splitAtBlanks [] text)) String.toList_ofList

theorem exists_append_of_getElem? {α : Type} {all : List α} {place : Nat} {a : α} {p q : α → Prop}
    (hfront : ∀ other ∈ all.take place, p other) (ha : all[place]? = some a)
    (hback : ∀ other ∈ all.drop (place + 1), q other) :
    ∃ front back, all = front ++ a :: back ∧ (∀ other ∈ front, p other) ∧
      ∀ other ∈ back, q other := by
  obtain ⟨hplace, rfl⟩ := List.getElem?_eq_some_iff.1 ha
  exact ⟨all.take place, all.drop (place + 1), by simp, hfront, hback⟩

-- The text of the table has some thousand characters.
set_option maxRecDepth 20000 in
/-- The sign for kelvin is a run of its own. -/
theorem exists_shift_kelvinSign : ∃ front back,
    lowercaseShifts.shifts.toList = front ++ ⟨⟨0x212A, 0x212A, 1⟩, 0x6B⟩ :: back ∧
      (∀ other ∈ front, other.first ≤ 0x212A) ∧ ∀ other ∈ back, 0x212A < other.first := by
  -- The characters are read off the literal once, so that the kernel need not decode it.
  have hread := @ShiftTable.toList_shifts lowercaseShifts _ (congrArg ShiftTable.ofText rfl)
  rw [hread]
  exact @exists_append_of_getElem? _ _ 121 _ _ _ (by decide +kernel) (by decide +kernel)
    (by decide +kernel)

theorem lowercaseChar_kelvinSign : lowercaseChar kelvinSign = ['k'] := by
  obtain ⟨front, back, htable, hfront, hback⟩ := exists_shift_kelvinSign
  have hcode : kelvinSign.toNat = 0x212A := rfl
  have hmap : lowercaseShifts.map? 0x212A = some 0x6B :=
    ShiftTable.map?_of_append htable hfront (by decide) hback
  rw [lowercaseChar, hcode, hmap]
  rfl

end Unicode

/-! ## Values -/

theorem spells_caseless_iff {part value : List Char} :
    Spells true part value ↔ part.length = value.length ∧
      ∀ i (hpart : i < part.length) (hvalue : i < value.length),
        Unicode.lowercaseChar part[i] = Unicode.lowercaseChar value[i] :=
  List.forall₂_iff_get

/-- What is spelled in the same case is spelled apart from case. -/
theorem Spells.caseless {part value : List Char} (h : Spells false part value) :
    Spells true part value := by
  obtain rfl : part = value := h
  exact List.forall₂_same.2 fun _ _ => rfl

/-- Apart from case a value takes as many characters as it has, if those of the text are the same in
lower case one by one. -/
theorem textLength?_caseless_iff {text value : List Char} {length : Nat} :
    textLength? text value true = some length ↔ value ≠ [] ∧ value.length ≤ text.length ∧
      (∀ i (htext : i < text.length) (hi : i < value.length),
        Unicode.lowercaseChar text[i] = Unicode.lowercaseChar value[i]) ∧
      length = byteLength (text.take value.length) := by
  rw [textLength?_eq_some_iff]
  refine and_congr_right fun _ => ?_
  constructor
  · rintro ⟨part, behind, rfl, hspells, rfl⟩
    obtain ⟨hlength, hsame⟩ := spells_caseless_iff.1 hspells
    refine ⟨?_, fun i htext hi => ?_, ?_⟩
    · rw [List.length_append, hlength]
      exact Nat.le_add_right _ _
    · have hpart : i < part.length := hlength ▸ hi
      rw [List.getElem_append_left hpart]
      exact hsame i hpart hi
    · rw [← hlength, List.take_left]
  · rintro ⟨hle, hsame, rfl⟩
    refine ⟨text.take value.length, text.drop value.length, (List.take_append_drop _ text).symm,
      spells_caseless_iff.2 ⟨List.length_take_of_le hle, fun i _ hi => ?_⟩, rfl⟩
    rw [List.getElem_take]
    exact hsame i (Nat.lt_of_lt_of_le hi hle) hi

/-- The sign for kelvin and the letter k stand for each other, each with its own length. -/
theorem textLength?_kelvinSign (behind : List Char) :
    textLength? (Unicode.kelvinSign :: behind) ['k'] true = some 3 ∧
      textLength? ('k' :: behind) [Unicode.kelvinSign] true = some 1 := by
  have hsame : Unicode.lowercaseChar Unicode.kelvinSign = Unicode.lowercaseChar 'k' :=
    Unicode.lowercaseChar_kelvinSign
  exact ⟨textLength?_eq_some_iff.2 ⟨by simp, [_], behind, rfl, .cons hsame .nil, rfl⟩,
    textLength?_eq_some_iff.2 ⟨by simp, [_], behind, rfl, .cons hsame.symm .nil, rfl⟩⟩

/-- Apart from case a value takes the characters of the text that are the same as its own in lower
case, one by one, and nothing else.  Its length is that of these characters in the text, which ends
at a boundary of the text and may be more or less than the length of the value.  What it takes in
the same case it takes apart from case. -/
theorem caseless_text_measured (text : List Char) {value : List Char} (hvalue : value ≠ []) :
    (∀ length, textLength? text value true = some length ↔
      value.length ≤ text.length ∧
      (∀ i (htext : i < text.length) (hi : i < value.length),
        Unicode.lowercaseChar text[i] = Unicode.lowercaseChar value[i]) ∧
      length = byteLength (text.take value.length)) ∧
    (∀ length, textLength? text value true = some length → IsBoundary text length) ∧
    (∀ length, textLength? text value false = some length →
      textLength? text value true = some length) ∧
    ∃ (long short : List Char) (more fewer : Nat),
      textLength? long short true = some more ∧ byteLength short < more ∧
      textLength? short long true = some fewer ∧ fewer < byteLength long := by
  refine ⟨fun length => ?_, fun length h => (advances_textLength h).2, fun length h => ?_,
    [Unicode.kelvinSign], ['k'], 3, 1, (textLength?_kelvinSign []).1, by decide,
    (textLength?_kelvinSign []).2, by decide⟩
  · rw [textLength?_caseless_iff, and_iff_right hvalue]
  · obtain ⟨hne, part, behind, htext, hspells, hlength⟩ := textLength?_eq_some_iff.1 h
    exact textLength?_eq_some_iff.2 ⟨hne, part, behind, htext, hspells.caseless, hlength⟩

/-- The sign for kelvin with a capital M spells km, in four bytes. -/
theorem caseless_text_measured_kelvinSign : ['k', 'm'] ≠ [] ∧
    textLength? [Unicode.kelvinSign, 'M', '.'] ['k', 'm'] true = some 4 ∧
    IsBoundary [Unicode.kelvinSign, 'M', '.'] 4 ∧ byteLength ['k', 'm'] = 2 := by
  have hvalue : ['k', 'm'] ≠ [] := by simp
  obtain ⟨hiff, hboundary, -, -⟩ :=
    caseless_text_measured [Unicode.kelvinSign, 'M', '.'] hvalue
  have hlength : textLength? [Unicode.kelvinSign, 'M', '.'] ['k', 'm'] true = some 4 := by
    refine (hiff 4).2 ⟨by decide, fun i htext hi => ?_, rfl⟩
    match i, hi with
    | 0, _ => exact Unicode.lowercaseChar_kelvinSign
    | 1, _ =>
      show Unicode.lowercaseChar 'M' = Unicode.lowercaseChar 'm'
      decide
  exact ⟨hvalue, hlength, hboundary 4 hlength, rfl⟩

end Highlight
