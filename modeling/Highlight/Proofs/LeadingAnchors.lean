import Highlight.Proofs.Anchoring
import Highlight.Proofs.FullyResolved
import Highlight.Proofs.ReadingBehind

/-!
# Anchors that lead a pattern

The anchors that a pattern is written with at its start are taken off its text and asked of the
cursor before the rest is tried.  This module compares that with the pattern as a whole, in which
they belong to the first branch only.

* Meaning.  `Pattern.meantAt` is the pattern as a whole at a cursor: a leading anchor asks for the
  start of the line or of a word there, and every other `^` for the start of the line.
* Reading.  The pattern as a whole and what is compiled have the same branches, but for the leading
  anchors in front of the first (`exists_branches_of_compile`).  That rests on reading the rest
  behind the anchors (`readFrom_behind`) and inside the wrapper (`pattern_of_compile`).
* Matching.  Where the leading anchors hold, both match alike, whatever the other branches are.
  Where one fails, the rule finds nothing, which is right only for a pattern with one branch
  (`found_iff_meant`, `exists_anchor_misread`).
-/

namespace Highlight

open Regex

/-! ## Leading anchors -/

/-- What is taken off the start of a pattern and asked of the cursor. -/
inductive Anchor where
  | lineStart
  | wordStart
  deriving DecidableEq

namespace Anchor

def text : Anchor → List Char
  | lineStart => ['^']
  | wordStart => ['\\', 'b']

/-- The condition that the anchor is in a pattern. -/
def look : Anchor → Look
  | lineStart => .textStart
  | wordStart => .word .boundary true

def holds (cursor : Cursor) : Anchor → Bool
  | lineStart => cursor.lineStart
  | wordStart => cursor.wordStart

end Anchor

/-- The anchors that a pattern starts with. -/
def leadingAnchors : List Char → List Anchor
  | '^' :: rest => .lineStart :: leadingAnchors rest
  | '\\' :: 'b' :: rest => .wordStart :: leadingAnchors rest
  | _ => []

/-- Splitting takes the leading anchors off and remembers which there were. -/
theorem RegexRule.splitAnchors_eq (wordStart lineStart : Bool) (written : List Char) :
    ∃ rest, written = (leadingAnchors written).flatMap Anchor.text ++ rest ∧
      splitAnchors wordStart lineStart written =
        (rest, wordStart || (leadingAnchors written).contains .wordStart,
          lineStart || (leadingAnchors written).contains .lineStart) := by
  fun_induction splitAnchors wordStart lineStart written with
  | case1 wordStart lineStart rest ih =>
    obtain ⟨behind, hrest, hsplit⟩ := ih
    refine ⟨behind, congrArg ('^' :: ·) hrest, ?_⟩
    rw [hsplit]
    simp [leadingAnchors]
  | case2 wordStart lineStart rest ih =>
    obtain ⟨behind, hrest, hsplit⟩ := ih
    refine ⟨behind, congrArg ('\\' :: 'b' :: ·) hrest, ?_⟩
    rw [hsplit]
    simp [leadingAnchors]
  | case3 wordStart lineStart rest hline hword =>
    have hnone : leadingAnchors rest = [] := by
      unfold leadingAnchors
      split
      · next behind => exact absurd rfl (hline behind)
      · next behind => exact absurd rfl (hword behind)
      · rfl
    exact ⟨rest, by rw [hnone]; rfl, by simp [hnone]⟩

/-! ## Meaning at a cursor -/

/-- Whether a condition is one that `^` stands for; which of them it is depends on the flags. -/
def Regex.Look.isCaret : Look → Bool
  | textStart | lineStart _ => true
  | _ => false

namespace Regex.Pattern

/-- Whether there is a `^` in the pattern. -/
def hasCaret : Pattern → Bool
  | look condition => condition.isCaret
  | group _ body => body.hasCaret
  | seq first second => first.hasCaret || second.hasCaret
  | alt first second => first.hasCaret || second.hasCaret
  | times body _ _ _ => body.hasCaret
  | _ => false

/-- Whether the pattern has alternatives at its top. -/
def isAlt : Pattern → Bool
  | alt .. => true
  | _ => false

/-- What matches nowhere. -/
def never : Pattern :=
  .char {} .none

/-- The pattern for a text that may begin at the start of the line or not: where it does not, `^`
holds nowhere. -/
def onLine (lineStart : Bool) : Pattern → Pattern
  | look condition => if condition.isCaret && !lineStart then never else look condition
  | group index body => group index (body.onLine lineStart)
  | seq first second => seq (first.onLine lineStart) (second.onLine lineStart)
  | alt first second => alt (first.onLine lineStart) (second.onLine lineStart)
  | times body least most greedy => times (body.onLine lineStart) least most greedy
  | empty => empty
  | char mode set => char mode set

/-- The pattern as it is meant at a cursor.  The anchors that lead its first branch ask for the start
of the line or of a word there: one that holds asks for no more, and where one fails the branch
matches nowhere.  Every other `^` asks for the start of the line. -/
def meantAt (cursor : Cursor) : List Anchor → Pattern → Pattern
  | [], pattern => pattern.onLine cursor.lineStart
  | anchors, alt first second => alt (first.meantAt cursor anchors) (second.onLine cursor.lineStart)
  | anchor :: anchors, seq _ second =>
    if anchor.holds cursor then second.meantAt cursor anchors else never
  | anchor :: _, _ => if anchor.holds cursor then empty else never

/-- The pattern matches some bytes at the start of a text. -/
def MatchesFrom (pattern : Pattern) (text : List Char) (length : Nat) : Prop :=
  0 < length ∧ ∃ found, pattern.matchAt ⟨none, text, 0⟩ = some found ∧
    byteLength (found.reach text) = length

theorem onLine_true (pattern : Pattern) : pattern.onLine true = pattern := by
  induction pattern with
  | empty => rfl
  | char mode set => rfl
  | look condition => simp [onLine]
  | group index body ih => rw [onLine, ih]
  | seq first second ihFirst ihSecond => rw [onLine, ihFirst, ihSecond]
  | alt first second ihFirst ihSecond => rw [onLine, ihFirst, ihSecond]
  | times body least most greedy ih => rw [onLine, ih]

theorem onLine_of_hasCaret {pattern : Pattern} (h : pattern.hasCaret = false) (lineStart : Bool) :
    pattern.onLine lineStart = pattern := by
  induction pattern with
  | empty => rfl
  | char mode set => rfl
  | look condition => rw [onLine, show condition.isCaret = false from h]; rfl
  | group index body ih => rw [onLine, ih h]
  | seq first second ihFirst ihSecond =>
    rw [hasCaret, Bool.or_eq_false_iff] at h
    rw [onLine, ihFirst h.1, ihSecond h.2]
  | alt first second ihFirst ihSecond =>
    rw [hasCaret, Bool.or_eq_false_iff] at h
    rw [onLine, ihFirst h.1, ihSecond h.2]
  | times body least most greedy ih => rw [onLine, ih h]

theorem sequence_cons_of_ne_nil (pattern : Pattern) {patterns : List Pattern} (h : patterns ≠ []) :
    sequence (pattern :: patterns) = seq pattern (sequence patterns) := by
  cases patterns with
  | nil => exact absurd rfl h
  | cons next others => rfl

theorem choice_cons_of_ne_nil (pattern : Pattern) {patterns : List Pattern} (h : patterns ≠ []) :
    choice (pattern :: patterns) = alt pattern (choice patterns) := by
  cases patterns with
  | nil => exact absurd rfl h
  | cons next others => rfl

/-- A branch is meant without its leading anchors where these hold, and nowhere else. -/
theorem meantAt_sequence (cursor : Cursor) (anchors : List Anchor) (patterns : List Pattern) :
    (sequence (anchors.map (fun anchor => look anchor.look) ++ patterns)).meantAt cursor anchors =
      if anchors.all (Anchor.holds cursor) then (sequence patterns).onLine cursor.lineStart
      else never := by
  induction anchors with
  | nil => simp [meantAt]
  | cons anchor anchors ih =>
    have hstep : (sequence ((anchor :: anchors).map (fun anchor => look anchor.look) ++
        patterns)).meantAt cursor (anchor :: anchors) =
        if anchor.holds cursor then
          (sequence (anchors.map (fun anchor => look anchor.look) ++ patterns)).meantAt cursor
            anchors
        else never := by
      rw [List.map_cons, List.cons_append]
      by_cases hrest : anchors.map (fun anchor => look anchor.look) ++ patterns = []
      · obtain ⟨hanchors, rfl⟩ := List.append_eq_nil_iff.1 hrest
        obtain rfl := List.map_eq_nil_iff.1 hanchors
        simp [sequence, meantAt, onLine]
      · rw [sequence_cons_of_ne_nil _ hrest, meantAt]
    rw [hstep, ih, List.all_cons]
    cases anchor.holds cursor with
    | true => simp
    | false => simp

/-- Only the first branch of several is meant without its leading anchors. -/
theorem meantAt_choice (cursor : Cursor) (anchors : List Anchor) (patterns others : List Pattern)
    (hothers : others ≠ []) :
    (choice (sequence (anchors.map (fun anchor => look anchor.look) ++ patterns) ::
      others)).meantAt cursor anchors =
      alt (if anchors.all (Anchor.holds cursor) then (sequence patterns).onLine cursor.lineStart
        else never) ((choice others).onLine cursor.lineStart) := by
  rw [choice_cons_of_ne_nil _ hothers, ← meantAt_sequence]
  cases anchors with
  | nil => simp [meantAt, onLine]
  | cons anchor anchors =>
    rw [meantAt]
    exact List.cons_ne_nil _ _

theorem hasCaret_sequence (patterns : List Pattern) :
    (sequence patterns).hasCaret = patterns.any hasCaret := by
  induction patterns with
  | nil => rfl
  | cons pattern patterns ih =>
    by_cases hrest : patterns = []
    · simp [hrest, sequence]
    · rw [sequence_cons_of_ne_nil _ hrest, hasCaret, ih, List.any_cons]

theorem hasCaret_choice (patterns : List Pattern) :
    (choice patterns).hasCaret = patterns.any hasCaret := by
  induction patterns with
  | nil => rfl
  | cons pattern patterns ih =>
    by_cases hrest : patterns = []
    · simp [hrest, choice]
    · rw [choice_cons_of_ne_nil _ hrest, hasCaret, ih, List.any_cons]

/-- No character leads on from what matches nowhere. -/
theorem matchAt_never (place : Place) : never.matchAt place = none := by
  obtain ⟨before, text, position⟩ := place
  rw [matchAt, explore_eq]
  cases text with
  | nil => rfl
  | cons c text => cases text <;> rfl

theorem not_matchesFrom_never (text : List Char) (length : Nat) :
    ¬never.MatchesFrom text length := by
  rintro ⟨-, found, hfound, -⟩
  rw [matchAt_never] at hfound
  cases hfound

end Regex.Pattern

/-! ## Reading behind leading anchors -/

/-- The part that a leading anchor is read as. -/
def Anchor.piece (anchor : Anchor) : Piece :=
  ⟨some (.look anchor.look), 0⟩

namespace Regex

/-- Leading anchors are read one after another, unless a brace makes something else of the last. -/
theorem readFrom_anchors {flags : Flags} (hverbose : flags.verbose = false)
    (hmultiLine : flags.multiLine = false) (hunicode : flags.unicode = true)
    (anchors : List Anchor) {rest : List Char} (hrest : rest.head? ≠ some '\x7b')
    (pieces : List Piece) :
    readFrom { flags, pieces } (anchors.flatMap Anchor.text ++ rest) =
      readFrom { flags, pieces := (anchors.map Anchor.piece).reverse ++ pieces } rest := by
  have hskip : ∀ text, flags.skip text = text := by
    intro text
    simp [Flags.skip, hverbose]
  induction anchors generalizing pieces with
  | nil => rfl
  | cons anchor anchors ih =>
    have hhead : (anchors.flatMap Anchor.text ++ rest).head? ≠ some '\x7b' := by
      cases anchors with
      | nil => exact hrest
      | cons next others => cases next <;> simp [Anchor.text]
    rw [List.flatMap_cons, List.append_assoc]
    generalize hbehind : anchors.flatMap Anchor.text ++ rest = behind at hhead ih ⊢
    have hmove : readFrom { flags, pieces } (anchor.text ++ behind) =
        readFrom { flags, pieces := anchor.piece :: pieces } behind := by
      cases anchor with
      | lineStart =>
        have hread : readMove flags '^' behind = .ok (.add (.look .textStart) 0, behind) := by
          simp [readMove, hmultiLine]
        exact readFrom_of_move (hskip _) hread rfl
      | wordStart =>
        have hlook : readWordLook flags behind = .ok (.boundary, behind) := by
          unfold readWordLook
          split
          · simp at hhead
          · rfl
        have hread : readMove flags '\\' ('b' :: behind) =
            .ok (.add (.look (.word .boundary true)) 0, behind) := by
          have hescape : readEscape flags ('b' :: behind) =
              .ok (.look (.word .boundary true), behind) := by
            simp [readEscape, hlook, hunicode, bind, Except.bind]
          simp [readMove, hescape, Atom.toPattern, bind, Except.bind]
        exact readFrom_of_move (hskip _) hread rfl
    rw [hmove, ih]
    simp

/-- What compiles does not begin with a count. -/
theorem head?_ne_brace_of_compile {text : List Char} {caseless minimal : Bool} {regex : Regex}
    (h : compile text caseless minimal = .ok regex) : text.head? ≠ some '\x7b' := by
  obtain ⟨pattern, hpattern, -⟩ := bind_eq_ok_iff.1 h
  rw [Pattern.ofText_eq, Pattern.ofTextUnder_eq_ok_iff] at hpattern
  obtain ⟨final, hfinal, -⟩ := hpattern
  rw [readFrom_wrap] at hfinal
  intro hhead
  obtain ⟨rest, rfl⟩ : ∃ rest, text = '\x7b' :: rest := by
    cases text with
    | nil => cases hhead
    | cons c rest =>
      cases hhead
      exact ⟨rest, rfl⟩
  obtain ⟨move, left, next, hmove, hnext, -⟩ := exists_of_readFrom hfinal rfl
  obtain ⟨⟨least, most, behind⟩, -, hrepeat⟩ := bind_eq_ok_iff.1 hmove
  cases hrepeat
  cases hnext

/-- Only reading itself finds that a group is closed that was not opened. -/
theorem Pattern.readFrom_of_unopenedGroup {flags : Flags} {text : List Char}
    (h : ofTextUnder flags text = .error .unopenedGroup) :
    readFrom { flags } text = .error .unopenedGroup := by
  cases hread : readFrom { flags } text with
  | error error =>
    rw [ofTextUnder, hread] at h
    cases h
    rfl
  | ok reading =>
    rw [ofTextUnder, hread] at h
    simp only [bind, Except.bind] at h
    split at h
    · cases h
    · split at h
      · cases h
      · cases h

/-- What compiles has the alternatives that are read from its text alone, unless that closes a group
that it has not opened. -/
theorem reading_of_compile {text : List Char} {caseless minimal : Bool} {regex : Regex}
    (h : compile text caseless minimal = .ok regex) :
    (∃ own, readFrom { flags := ruleFlags caseless minimal } text = .ok own ∧
        regex.pattern = .seq (.look .textStart) own.alternatives.1) ∨
      readFrom { flags := ruleFlags caseless minimal } text = .error .unopenedGroup := by
  rcases pattern_of_compile h with ⟨pattern, hpattern, hregex⟩ | hunopened
  · obtain ⟨own, hown, -, -, rfl⟩ := Pattern.ofTextUnder_eq_ok_iff.1 hpattern
    exact .inl ⟨own, hown, hregex⟩
  · exact .inr (Pattern.readFrom_of_unopenedGroup hunopened)

/-- A pattern as a whole and what its rule compiles to have the same branches, but for the leading
anchors in front of the first. -/
theorem exists_branches_of_compile {anchors : List Anchor} {rest : List Char}
    {caseless minimal : Bool} {regex : Regex} {whole : Pattern}
    (hcompile : compile rest caseless minimal = .ok regex)
    (hwhole : Pattern.ofTextUnder (ruleFlags caseless minimal)
      (anchors.flatMap Anchor.text ++ rest) = .ok whole) :
    ∃ patterns others,
      whole = .choice (.sequence (anchors.map (fun anchor => .look anchor.look) ++ patterns) ::
        others) ∧
      regex.pattern = .seq (.look .textStart) (.choice (.sequence patterns :: others)) := by
  obtain ⟨final, hfinal, hopened, -, rfl⟩ := Pattern.ofTextUnder_eq_ok_iff.1 hwhole
  rw [readFrom_anchors rfl rfl rfl anchors (head?_ne_brace_of_compile hcompile),
    List.append_nil] at hfinal
  replace hfinal : readFrom (Reading.behind (anchors.map Anchor.piece).reverse []
    { flags := ruleFlags caseless minimal }) rest = .ok final := hfinal
  have hown : ∀ own, readFrom { flags := ruleFlags caseless minimal } rest = .ok own →
      regex.pattern = .seq (.look .textStart) own.alternatives.1 := by
    intro own hown
    rcases reading_of_compile hcompile with ⟨other, hother, hpattern⟩ | hunopened
    · cases hother.symm.trans hown
      exact hpattern
    · cases hunopened.symm.trans hown
  rcases readFrom_behind hfinal rfl with
    ⟨alone, halone, htop, rfl⟩ | ⟨first, others, hfirst, halone, rfl⟩ | hmissing
  · have hnil := Reading.opened_eq_nil_of_behind hopened
    rw [Reading.topBranches_of_nil hnil] at htop
    refine ⟨alone.pieces.reverse.filterMap Piece.pattern, [], ?_, ?_⟩
    · rw [Reading.behind_of_nil hnil]
      simp [Reading.alternatives, Reading.branch, htop, Anchor.piece, Function.comp_def]
    · rw [hown _ halone]
      simp [Reading.alternatives, Reading.branch, htop]
  · have hnil := Reading.opened_eq_nil_of_behind hopened
    rw [Reading.behind_of_nil hnil] at halone
    refine ⟨first.pieces.reverse.filterMap Piece.pattern,
      (others.branch :: others.branches).reverse.map Prod.fst, ?_, ?_⟩
    · rw [Reading.behind_of_nil hnil, Reading.behind_of_nil hfirst]
      simp [Reading.alternatives, Reading.branch, Anchor.piece, Function.comp_def]
    · rw [hown _ halone]
      simp [Reading.alternatives, Reading.branch]
  · rcases reading_of_compile hcompile with ⟨other, hother, -⟩ | hunopened
    · cases hother.symm.trans hmissing
    · cases hunopened.symm.trans hmissing

end Regex

/-! ## Rules with leading anchors -/

namespace RegexRule

variable {written : List Char} {options : RuleOptions} {rule : RegexRule}

/-- The rule of a pattern asks for all its leading anchors. -/
theorem Resolves.anchorsHold_eq (h : rule.Resolves written options) (cursor : Cursor) :
    rule.anchorsHold cursor = (leadingAnchors written).all (Anchor.holds cursor) := by
  obtain ⟨rest, -, hsplit⟩ := splitAnchors_eq false false written
  have hanchors := h.anchors.symm.trans hsplit
  simp only [Bool.false_or, Prod.mk.injEq] at hanchors
  rw [anchorsHold, hanchors.2.1, hanchors.2.2]
  generalize leadingAnchors written = anchors
  induction anchors with
  | nil => rfl
  | cons anchor anchors ih =>
    rw [List.all_cons, ← ih]
    cases anchor <;> cases hline : cursor.lineStart <;> cases hword : cursor.wordStart <;>
      simp [Anchor.holds, hline, hword]

/-- The text of a rule is its pattern without the leading anchors. -/
theorem Resolves.written_eq (h : rule.Resolves written options) :
    written = (leadingAnchors written).flatMap Anchor.text ++ rule.text := by
  obtain ⟨rest, hwritten, hsplit⟩ := splitAnchors_eq false false written
  have hanchors := h.anchors.symm.trans hsplit
  rw [Prod.mk.injEq] at hanchors
  rw [hanchors.1]
  exact hwritten

/-- A rule finds what its compiled text matches at the cursor if its anchors hold there. -/
theorem exists_found_iff {cursor : Cursor} {regex : Regex} {own : Pattern}
    (hregex : rule.regexAt cursor = .ok regex)
    (hpattern : regex.pattern = .seq (.look .textStart) own) (wantGroups : Bool) (length : Nat) :
    (∃ captures, (rule.find cursor wantGroups).found = some (length, captures)) ↔
      rule.anchorsHold cursor = true ∧ own.MatchesFrom cursor.rest length := by
  simp only [found_find_eq_some_iff hregex, search_of_pattern_eq hpattern]
  constructor
  · rintro ⟨captures, hanchors, found, hfound, hpos, hlength, -⟩
    exact ⟨hanchors, hpos, found, hfound, hlength⟩
  · rintro ⟨hanchors, hpos, found, hfound, hlength⟩
    exact ⟨_, hanchors, found, hfound, hpos, hlength, rfl⟩

end RegexRule

namespace Regex.Pattern

/-- Where the leading anchors hold, what is meant by a pattern is what is left without them, if no
other `^` asks for more. -/
theorem meantAt_of_holds {cursor : Cursor} {anchors : List Anchor} {patterns others : List Pattern}
    (hholds : anchors.all (Anchor.holds cursor) = true)
    (hcaret : cursor.lineStart = true ∨
      (choice (sequence patterns :: others)).hasCaret = false) :
    (choice (sequence (anchors.map (fun anchor => look anchor.look) ++ patterns) ::
      others)).meantAt cursor anchors = choice (sequence patterns :: others) := by
  have honLine : (choice (sequence patterns :: others)).onLine cursor.lineStart =
      choice (sequence patterns :: others) := by
    rcases hcaret with hline | hnone
    · rw [hline, onLine_true]
    · exact onLine_of_hasCaret hnone _
  rw [← honLine]
  by_cases hothers : others = []
  · subst hothers
    show (sequence _).meantAt cursor anchors = (sequence patterns).onLine cursor.lineStart
    rw [meantAt_sequence, if_pos hholds]
  · rw [meantAt_choice _ _ _ _ hothers, if_pos hholds, choice_cons_of_ne_nil _ hothers, onLine]

/-- Where a leading anchor fails, a pattern with one branch is not meant to match. -/
theorem meantAt_of_not_holds {cursor : Cursor} {anchors : List Anchor}
    {patterns others : List Pattern} (hfails : anchors.all (Anchor.holds cursor) = false)
    (hbranch : (choice (sequence (anchors.map (fun anchor => look anchor.look) ++ patterns) ::
      others)).isAlt = false) :
    (choice (sequence (anchors.map (fun anchor => look anchor.look) ++ patterns) ::
      others)).meantAt cursor anchors = never := by
  by_cases hothers : others = []
  · subst hothers
    show (sequence _).meantAt cursor anchors = never
    rw [meantAt_sequence, hfails]
    rfl
  · rw [choice_cons_of_ne_nil _ hothers] at hbranch
    cases hbranch

end Regex.Pattern

/-- A rule finds what is meant by its pattern, at a cursor where the leading anchors hold or if they
are those of the only branch, and if no other `^` asks for more than a leading one. -/
theorem found_iff_meant {context : String} {written : List Char} {options : RuleOptions}
    {rule : RegexRule} {whole : Pattern}
    (hbuilt : (Resolver.regex context written options).result = .ok (.regex rule))
    (hstatic : options.dynamic = false)
    (hwhole : Pattern.ofTextUnder (ruleFlags options.caseless options.minimal) written = .ok whole)
    (cursor : Cursor)
    (hanchors : (leadingAnchors written).all (Anchor.holds cursor) = true ∨ whole.isAlt = false)
    (hcaret : cursor.lineStart = true ∨ .lineStart ∈ leadingAnchors written ∨
      whole.hasCaret = false)
    (wantGroups : Bool) (length : Nat) :
    (∃ captures, (rule.find cursor wantGroups).found = some (length, captures)) ↔
      (whole.meantAt cursor (leadingAnchors written)).MatchesFrom cursor.rest length := by
  obtain ⟨other, hother, hresolves⟩ := Resolver.resolves_regex hbuilt
  cases hother
  obtain ⟨regex, hregex, hcompile⟩ := hresolves.compiled hstatic
  rw [hresolves.caseless, hresolves.minimal] at hcompile
  have hat : rule.regexAt cursor = .ok regex := by
    rw [RegexRule.regexAt, hregex]
  rw [hresolves.written_eq] at hwhole
  obtain ⟨patterns, others, rfl, hpattern⟩ := exists_branches_of_compile hcompile hwhole
  rw [RegexRule.exists_found_iff hat hpattern, hresolves.anchorsHold_eq]
  cases hholds : (leadingAnchors written).all (Anchor.holds cursor) with
  | true =>
    rw [Pattern.meantAt_of_holds hholds ?_]
    · simp
    · rcases hcaret with hline | hleading | hnone
      · exact .inl hline
      · exact .inl (List.all_eq_true.1 hholds _ hleading)
      · rw [Pattern.hasCaret_choice, List.any_cons, Pattern.hasCaret_sequence, List.any_append,
          Bool.or_eq_false_iff, Bool.or_eq_false_iff] at hnone
        right
        rw [Pattern.hasCaret_choice, List.any_cons, Pattern.hasCaret_sequence, hnone.1.2, hnone.2]
        rfl
  | false =>
    rw [hholds] at hanchors
    rw [Pattern.meantAt_of_not_holds hholds (hanchors.resolve_left Bool.false_ne_true)]
    simp [Pattern.not_matchesFrom_never]

/-- One letter at the start of the line, or another one anywhere. -/
def lineOrAnywhere : RegexRule :=
  { plainRegex ['a', '|', 'b']
      (.seq (.look .textStart) (.alt (.char {} (.single 'a')) (.char {} (.single 'b')))) with
    lineStart := true }

/-- The pattern that the rule is written with. -/
def lineOrAnywherePattern : Pattern :=
  .alt (.seq (.look .textStart) (.char {} (.single 'a'))) (.char {} (.single 'b'))

/-- At the start of the line both letters are found. -/
theorem found_iff_meant_lineOrAnywhere :
    (∃ captures, (lineOrAnywhere.find (lineCursor ['b', 'x']) true).found = some (1, captures)) ∧
      (lineOrAnywherePattern.meantAt (lineCursor ['b', 'x']) [.lineStart]).MatchesFrom
        ['b', 'x'] 1 := by
  have hbuilt : (Resolver.regex "Text" ['^', 'a', '|', 'b'] {}).result =
      .ok (.regex lineOrAnywhere) := by
    decide +kernel
  have hwhole : Pattern.ofTextUnder (ruleFlags false false) ['^', 'a', '|', 'b'] =
      .ok lineOrAnywherePattern := by
    decide +kernel
  have hfound : (lineOrAnywhere.find (lineCursor ['b', 'x']) true).found =
      some (1, some [['b']]) := by
    decide +kernel
  refine ⟨⟨_, hfound⟩, ?_⟩
  exact (found_iff_meant hbuilt rfl hwhole (lineCursor ['b', 'x']) (.inl rfl) (.inl rfl) true 1).1
    ⟨_, hfound⟩

/-- A cursor behind the start of a line. -/
def secondCursor : Cursor :=
  { lineCursor ['b'] with before := some 'x', offset := 1, column := 1, firstNonSpace := false }

/-- One letter anywhere, or another one at the start of the line. -/
def anywhereOrLine : RegexRule :=
  plainRegex ['a', '|', '^', 'b'] (.seq (.look .textStart)
    (.alt (.char {} (.single 'a')) (.seq (.look .textStart) (.char {} (.single 'b')))))

/-- The pattern that the second rule is written with. -/
def anywhereOrLinePattern : Pattern :=
  .alt (.char {} (.single 'a')) (.seq (.look .textStart) (.char {} (.single 'b')))

/-- Behind the start of the line, a letter is not found whose alternative does not ask for it, and a
letter is found whose alternative does, but is not the first. -/
theorem exists_anchor_misread :
    ((Resolver.regex "Text" ['^', 'a', '|', 'b'] {}).result = .ok (.regex lineOrAnywhere) ∧
      Pattern.ofTextUnder (ruleFlags false false) ['^', 'a', '|', 'b'] =
        .ok lineOrAnywherePattern ∧
      (lineOrAnywherePattern.meantAt secondCursor [.lineStart]).MatchesFrom secondCursor.rest 1 ∧
      ∀ wantGroups, (lineOrAnywhere.find secondCursor wantGroups).found = none) ∧
    ((Resolver.regex "Text" ['a', '|', '^', 'b'] {}).result = .ok (.regex anywhereOrLine) ∧
      Pattern.ofTextUnder (ruleFlags false false) ['a', '|', '^', 'b'] =
        .ok anywhereOrLinePattern ∧
      (∀ length, ¬(anywhereOrLinePattern.meantAt secondCursor []).MatchesFrom
        secondCursor.rest length) ∧
      (anywhereOrLine.find secondCursor false).found = some (1, none)) := by
  have hfirst : (lineOrAnywherePattern.meantAt secondCursor [.lineStart]).matchAt
      ⟨none, secondCursor.rest, 0⟩ = some ⟨0, 1, {}⟩ := by
    decide +kernel
  have hsecond : (anywhereOrLinePattern.meantAt secondCursor []).matchAt
      ⟨none, secondCursor.rest, 0⟩ = none := by
    decide +kernel
  refine ⟨⟨by decide +kernel, by decide +kernel, ⟨Nat.one_pos, _, hfirst, rfl⟩, ?_⟩,
    ⟨by decide +kernel, by decide +kernel, ?_, by decide +kernel⟩⟩
  · intro wantGroups
    rfl
  · rintro length ⟨-, found, hfound, -⟩
    cases hsecond.symm.trans hfound

end Highlight
