import Highlight.Proofs.LeadingAnchors
import Highlight.Proofs.SearchComplete

/-!
# Patterns of literal text

What patterns that are made of known characters take.

* Literals.  The pattern of a text takes that text (`takes_literal_iff`), a choice takes what one of
  its alternatives takes, and blanks can be asked for in between.
* Escaped text.  Text that is escaped for a pattern is read as the pattern of its characters
  (`readFrom_escape`), which is compiled unless it takes too much room (`compile_escape`).  Behind it
  the end of the text can be asked for (`compile_escape_end`), and such a pattern takes the text
  itself where nothing follows (`takes_wholeText_iff`).
* Rules.  What a rule finds with a pattern that takes only one text at a place is that text
  (`RegexRule.exists_found_iff_takes`).
-/

namespace Highlight

namespace Regex

/-! ## Literals -/

theorem takes_single_iff {c : Char} {taken rest : List Char} {before : Option Char} :
    (Pattern.char {} (.single c)).Takes before taken rest ↔ taken = [c] := by
  constructor
  · intro h
    cases h with
    | char member => rw [(@CharSet.contains_single {} c _).1 member]
  · rintro rfl
    have hmember : (CharSet.single c).contains {} c = true := CharSet.contains_single.2 rfl
    exact .char (show CharMode.any {} _ c = true from hmember)

/-- The pattern of a text. -/
def Pattern.literal (text : List Char) : Pattern :=
  .sequence (text.map fun c => .char {} (.single c))

theorem Pattern.literal_cons (c : Char) {text : List Char} (h : text ≠ []) :
    literal (c :: text) = .seq (.char {} (.single c)) (literal text) :=
  sequence_cons_of_ne_nil _ (by simpa using h)

/-- It takes that text. -/
theorem takes_literal_iff {text taken rest : List Char} {before : Option Char} :
    (Pattern.literal text).Takes before taken rest ↔ taken = text := by
  induction text generalizing before taken with
  | nil =>
    constructor
    · intro h
      cases h
      rfl
    · rintro rfl
      exact .empty
  | cons c text ih =>
    by_cases htext : text = []
    · subst htext
      exact takes_single_iff
    · rw [Pattern.literal_cons c htext]
      constructor
      · intro h
        cases h with
        | seq takes behind => rw [takes_single_iff.1 takes, ih.1 behind, List.singleton_append]
      · rintro rfl
        have hchar : (Pattern.char {} (.single c)).Takes before [c] (text ++ rest) :=
          takes_single_iff.2 rfl
        exact .seq hchar (ih.2 rfl)

/-- A choice takes what one of its alternatives takes. -/
theorem takes_choice_iff {patterns : List Pattern} (h : patterns ≠ []) {taken rest : List Char}
    {before : Option Char} :
    (Pattern.choice patterns).Takes before taken rest ↔
      ∃ pattern ∈ patterns, pattern.Takes before taken rest := by
  induction patterns with
  | nil => exact absurd rfl h
  | cons pattern patterns ih =>
    by_cases hpatterns : patterns = []
    · subst hpatterns
      simp [Pattern.choice]
    · rw [Pattern.choice_cons_of_ne_nil _ hpatterns, List.exists_mem_cons_iff, ← ih hpatterns]
      constructor
      · intro htakes
        cases htakes with
        | altFirst takes => exact .inl takes
        | altSecond takes => exact .inr takes
      · rintro (htakes | htakes)
        · exact .altFirst htakes
        · exact .altSecond htakes

/-- Blanks, as many as there are. -/
def Pattern.blanks : Pattern :=
  .times (.char {} (.letter .space false)) 0 none true

/-- They take blanks. -/
theorem takes_blanks_iff {taken rest : List Char} {before : Option Char} :
    Pattern.blanks.Takes before taken rest ↔ ∀ c ∈ taken, Unicode.isBlank c = true := by
  constructor
  · intro h
    generalize hblanks : Pattern.blanks = pattern at h
    induction h with
    | enough =>
      intro c hc
      cases hc
    | round goesOn takes behind ih ihBehind =>
      cases hblanks
      cases takes with
      | char member =>
        have hblank := (Bool.false_bne _).symm.trans member
        rintro c (_ | ⟨_, hc⟩)
        · exact hblank
        · exact ihBehind rfl c hc
    | _ => cases hblanks
  · intro h
    induction taken generalizing before with
    | nil => exact .enough
    | cons c taken ih =>
      have hchar : (Pattern.char {} (.letter .space false)).Takes before [c] (taken ++ rest) :=
        .char ((Bool.false_bne _).trans (h c List.mem_cons_self))
      exact .round (.inr (by simp)) hchar (ih fun d hd => h d (List.mem_cons_of_mem _ hd))

/-! ## Reading escaped text -/

/-- The part that a character stands for. -/
def charPiece (flags : Flags) (c : Char) : Piece :=
  ⟨some (.char flags.mode (.single c)), 0⟩

/-- A character that has no meaning of its own stands for itself. -/
theorem readMove_of_not_isMeta {flags : Flags} {c : Char} (h : isMeta c = false)
    (rest : List Char) :
    readMove flags c rest = .ok (.add (.char flags.mode (.single c)) 0, rest) := by
  unfold readMove
  split
  all_goals first
    | rfl
    | cases h

/-- A character that has one stands for itself behind a backslash. -/
theorem readMove_of_isMeta {flags : Flags} {c : Char} (h : isMeta c = true) (rest : List Char) :
    readMove flags '\\' (c :: rest) = .ok (.add (.char flags.mode (.single c)) 0, rest) := by
  have hescape : readEscape flags (c :: rest) = .ok (.literal c false, rest) := by
    simp only [readEscape, bind, Except.bind]
    split
    all_goals first
      | cases h
      | rw [if_pos (by simp [isEscapable, h])]
  simp [readMove, hescape, Atom.toPattern, bind, Except.bind]

/-- Escaped text is read as its characters. -/
theorem readFrom_escape {reading : Reading} (hverbose : reading.flags.verbose = false)
    (text rest : List Char) :
    readFrom reading (escape text ++ rest) =
      readFrom
        { reading with
          pieces := (text.map (charPiece reading.flags)).reverse ++ reading.pieces } rest := by
  induction text generalizing reading with
  | nil => rfl
  | cons c text ih =>
    have hskip : ∀ text, reading.flags.skip text = text := by
      intro text
      simp [Flags.skip, hverbose]
    have hmove : readFrom reading (escape (c :: text) ++ rest) =
        readFrom { reading with pieces := charPiece reading.flags c :: reading.pieces }
          (escape text ++ rest) := by
      cases hmeta : isMeta c with
      | true =>
        have hescape : escape (c :: text) ++ rest = '\\' :: c :: (escape text ++ rest) := by
          simp [escape, hmeta]
        rw [hescape]
        exact readFrom_of_move (hskip _) (readMove_of_isMeta hmeta _) rfl
      | false =>
        have hescape : escape (c :: text) ++ rest = c :: (escape text ++ rest) := by
          simp [escape, hmeta]
        rw [hescape]
        exact readFrom_of_move (hskip _) (readMove_of_not_isMeta hmeta _) rfl
    have hrest :=
      @ih { reading with pieces := charPiece reading.flags c :: reading.pieces } hverbose
    rw [hmove, hrest]
    simp

/-- The parts of a text are its characters. -/
theorem filterMap_charPiece (flags : Flags) (text : List Char) :
    (text.map (charPiece flags)).filterMap Piece.pattern =
      text.map fun c => .char flags.mode (.single c) := by
  rw [List.filterMap_map]
  exact congrFun List.filterMap_eq_map text

/-- Parts that are not nested are read as a sequence of them, which is hardly nested itself. -/
theorem alternatives_of_flat {reading : Reading} (hbranches : reading.branches = [])
    (hflat : ∀ piece ∈ reading.pieces, piece.depth = 0) :
    reading.alternatives.1 = .sequence (reading.pieces.reverse.filterMap Piece.pattern) ∧
      reading.alternatives.2 ≤ 1 := by
  have hdepth : reading.pieces.reverse.foldl (fun depth piece => max depth piece.depth) 0 = 0 := by
    have hzero : ∀ piece ∈ reading.pieces.reverse, piece.depth = 0 :=
      fun piece hpiece => hflat piece (List.mem_reverse.1 hpiece)
    generalize reading.pieces.reverse = pieces at hzero
    induction pieces with
    | nil => rfl
    | cons piece pieces ih =>
      rw [List.foldl_cons, hzero piece List.mem_cons_self]
      exact ih fun other hother => hzero other (List.mem_cons_of_mem _ hother)
  rw [Reading.alternatives, hbranches]
  constructor
  · rfl
  · show max 0 (if reading.pieces.reverse.length ≤ 1 then _ else _ + 1) ≤ 1
    rw [hdepth]
    split <;> simp

/-- A text that is read as parts that are not nested compiles unless it takes too much room, the
anchor before it and the states around every pattern included. -/
theorem compile_of_flat {text : List Char} {caseless minimal : Bool} {pieces : List Piece}
    {pattern : Pattern}
    (hread : readFrom {} (wrap text caseless minimal) =
      readFrom
        (Reading.enclosed (wrapGroup caseless minimal)
          { flags := ruleFlags caseless minimal, pieces }) [')'])
    (hflat : ∀ piece ∈ pieces, piece.depth = 0)
    (hpattern : .sequence (pieces.reverse.filterMap Piece.pattern) = pattern) :
    compile text caseless minimal =
      if roomLimit < pattern.room + 160 then .error .tooBig
      else .ok ⟨.seq (.look .textStart) pattern, pattern.groupCount⟩ := by
  obtain ⟨halternatives, hdepth⟩ :=
    @alternatives_of_flat { flags := ruleFlags caseless minimal, pieces } rfl hflat
  rw [hpattern] at halternatives
  have hclose :=
    @closeGroup_wrapGroup caseless minimal { flags := ruleFlags caseless minimal, pieces } rfl
  obtain ⟨hopened, hwrapped, -⟩ := alternatives_closeGroup rfl hclose
  have htext : Pattern.ofText (wrap text caseless minimal) =
      .ok (.seq (.look .textStart) pattern) := by
    rw [Pattern.ofText_eq, Pattern.ofTextUnder_eq_ok_iff]
    refine ⟨_, ?_, hopened, ?_, hwrapped.trans ?_⟩
    · have happly : Move.apply (Reading.enclosed (wrapGroup caseless minimal)
          { flags := ruleFlags caseless minimal, pieces }) .close = _ := hclose
      rw [hread, readFrom_of_move rfl rfl happly]
      exact readFrom_nil _ rfl
    · generalize Reading.alternatives _ = own at hdepth
      cases caseless <;> cases minimal
      all_goals simp [Reading.alternatives, Reading.branch, wrapGroup, depthLimit]
      all_goals omega
    · rw [halternatives]
  have hroom : (Pattern.seq (.look .textStart) pattern).room + roomAround = pattern.room + 160 := by
    rw [Pattern.room, Pattern.room, roomAround]
    omega
  have hcount : (Pattern.seq (.look .textStart) pattern).groupCount = pattern.groupCount :=
    Nat.max_eq_right pattern.groupCount_pos
  simp only [compile, htext, bind, Except.bind, hroom, hcount]

theorem groupCount_literal (text : List Char) : (Pattern.literal text).groupCount = 1 := by
  induction text with
  | nil => rfl
  | cons c text ih =>
    by_cases htext : text = []
    · subst htext
      rfl
    · rw [Pattern.literal_cons c htext, Pattern.groupCount, ih]
      rfl

/-- Under the wrapper, escaped text is read as its characters. -/
theorem readFrom_wrap_escape (text rest : List Char) (minimal : Bool) :
    readFrom {} (wrap (escape text ++ rest) false minimal) =
      readFrom
        (Reading.enclosed (wrapGroup false minimal)
          { flags := ruleFlags false minimal, pieces := (text.map (charPiece {})).reverse })
        (rest ++ [')']) := by
  rw [readFrom_wrap, List.append_assoc, readFrom_escape rfl]
  show readFrom (Reading.enclosed (wrapGroup false minimal)
    { flags := ruleFlags false minimal, pieces := (text.map (charPiece {})).reverse ++ [] }) _ = _
  rw [List.append_nil]

/-- Escaped text compiles to the pattern of the text unless that takes too much room. -/
theorem compile_escape (text : List Char) (minimal : Bool) :
    compile (escape text) false minimal =
      if roomLimit < (Pattern.literal text).room + 160 then .error .tooBig
      else .ok ⟨.seq (.look .textStart) (.literal text), 1⟩ := by
  have hread := readFrom_wrap_escape text [] minimal
  rw [List.append_nil] at hread
  have hpattern : .sequence ((text.map (charPiece {})).reverse.reverse.filterMap Piece.pattern) =
      Pattern.literal text := by
    rw [List.reverse_reverse, filterMap_charPiece]
    rfl
  rw [compile_of_flat hread (by simp [charPiece]) hpattern, groupCount_literal]

/-- Only its room can keep escaped text from being compiled. -/
theorem compile_escape_of_ne_tooBig {text : List Char} {minimal : Bool}
    (h : compile (escape text) false minimal ≠ .error .tooBig) :
    compile (escape text) false minimal =
      .ok ⟨.seq (.look .textStart) (.literal text), 1⟩ := by
  have hcompile := compile_escape text minimal
  split at hcompile
  · exact absurd hcompile h
  · exact hcompile

/-! ## Text up to the end -/

/-- The pattern of a text that nothing follows. -/
def Pattern.wholeText (text : List Char) : Pattern :=
  .sequence (text.map (fun c => .char {} (.single c)) ++ [.look .textEnd])

theorem Pattern.wholeText_cons (c : Char) (text : List Char) :
    wholeText (c :: text) = .seq (.char {} (.single c)) (wholeText text) :=
  sequence_cons_of_ne_nil _ (by simp)

/-- It takes the text itself, where nothing follows. -/
theorem takes_wholeText_iff {text taken rest : List Char} {before : Option Char} :
    (Pattern.wholeText text).Takes before taken rest ↔ taken = text ∧ rest = [] := by
  induction text generalizing before taken with
  | nil =>
    constructor
    · intro h
      cases h with
      | look holds => exact ⟨rfl, List.isEmpty_iff.1 holds⟩
    · rintro ⟨rfl, rfl⟩
      exact .look rfl
  | cons c text ih =>
    rw [Pattern.wholeText_cons]
    constructor
    · intro h
      cases h with
      | seq takes behind =>
        obtain ⟨rfl, rfl⟩ := ih.1 behind
        rw [takes_single_iff.1 takes]
        exact ⟨rfl, rfl⟩
    · rintro ⟨rfl, rfl⟩
      have hchar : (Pattern.char {} (.single c)).Takes before [c] (text ++ []) :=
        takes_single_iff.2 rfl
      exact .seq hchar (ih.2 ⟨rfl, rfl⟩)

/-- Every byte of the text takes room, and so do the conditions on both sides of it. -/
theorem room_wholeText (text : List Char) :
    (Pattern.wholeText text).room = 32 * byteLength text + 32 := by
  induction text with
  | nil => rfl
  | cons c text ih =>
    have hchar : (Pattern.char {} (.single c)).room = 32 * c.utf8Size := by
      simp [Pattern.room, CharSet.single, CharSet.room]
    rw [Pattern.wholeText_cons, Pattern.room, ih, hchar, byteLength_cons]
    omega

theorem groupCount_wholeText (text : List Char) : (Pattern.wholeText text).groupCount = 1 := by
  induction text with
  | nil => rfl
  | cons c text ih =>
    rw [Pattern.wholeText_cons, Pattern.groupCount, ih]
    rfl

/-- Escaped text that nothing may follow compiles unless it takes too much room. -/
theorem compile_escape_end (text : List Char) :
    compile (escape text ++ ['$']) false false =
      if roomLimit < 32 * byteLength text + 192 then .error .tooBig
      else .ok ⟨.seq (.look .textStart) (.wholeText text), 1⟩ := by
  have hread : readFrom {} (wrap (escape text ++ ['$']) false false) =
      readFrom
        (Reading.enclosed (wrapGroup false false)
          { flags := ruleFlags false false
            pieces := ⟨some (.look .textEnd), 0⟩ :: (text.map (charPiece {})).reverse }) [')'] := by
    rw [readFrom_wrap_escape]
    exact readFrom_of_move rfl rfl rfl
  have hpattern : .sequence ((⟨some (.look .textEnd), 0⟩ ::
      (text.map (charPiece {})).reverse : List Piece).reverse.filterMap Piece.pattern) =
        Pattern.wholeText text := by
    rw [List.reverse_cons, List.reverse_reverse, List.filterMap_append, filterMap_charPiece]
    rfl
  rw [compile_of_flat hread (by simp [charPiece]) hpattern, room_wholeText, groupCount_wholeText]

end Regex

open Regex

/-- Where a pattern takes only one text, a rule finds that text. -/
theorem RegexRule.exists_found_iff_takes {rule : RegexRule} {cursor : Cursor} {regex : Regex}
    {own : Pattern} (hregex : rule.regexAt cursor = .ok regex)
    (hpattern : regex.pattern = .seq (.look .textStart) own)
    (hunique : ∀ first second left right, cursor.rest = first ++ left →
      cursor.rest = second ++ right → own.Takes none first left → own.Takes none second right →
      first = second)
    (wantGroups : Bool) (length : Nat) :
    (∃ captures, (rule.find cursor wantGroups).found = some (length, captures)) ↔
      rule.anchorsHold cursor = true ∧ 0 < length ∧
        ∃ taken rest, cursor.rest = taken ++ rest ∧ byteLength taken = length ∧
          own.Takes none taken rest := by
  rw [exists_found_iff hregex hpattern]
  refine and_congr_right fun _ => and_congr_right fun _ => ?_
  constructor
  · rintro ⟨found, hfound, hlength⟩
    obtain ⟨taken, rest, hrest, hstart, hstop, htakes⟩ := covers_of_matchAt hfound
    have hreach : found.reach cursor.rest = taken := by
      rw [Match.reach, hstop, show cursor.rest = taken ++ rest from hrest]
      simp
    exact ⟨taken, rest, hrest, by rw [← hlength, hreach], htakes⟩
  · rintro ⟨taken, rest, hrest, hlength, htakes⟩
    obtain ⟨found, hfound⟩ := Option.isSome_iff_exists.1
      (isSome_matchAt_iff.2 ⟨taken, rest, hrest, htakes⟩ :
        (own.matchAt ⟨none, cursor.rest, 0⟩).isSome = true)
    obtain ⟨other, left, hleft, hstart, hstop, hother⟩ := covers_of_matchAt hfound
    obtain rfl := hunique taken other rest left hrest hleft htakes hother
    refine ⟨found, hfound, ?_⟩
    rw [Match.reach, hstop, hrest]
    simpa using hlength

end Highlight
