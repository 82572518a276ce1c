import Highlight.Proofs.GroupReading
import Highlight.Proofs.PatternTakes
import Highlight.Proofs.Resolved

/-!
# Patterns of rules are anchored

What a rule writes is put into a group behind an anchor and compiled (`Regex.wrap`).  This module
compares that with the text read alone, under the flags that the rule's options set
(`Pattern.ofTextUnder`).

* The wrapper.  Reading it comes to the text inside one open group (`readFrom_wrap`), so the text
  that compiles is a pattern of its own that the wrapper ties to the start of what is searched, or
  it closes a group that it has not opened (`pattern_of_compile`).
* Matches.  A pattern that is tied to the start takes what it matches from the cursor on, and its
  first group is that text (`Regex.compile_anchored`).  A text that closes the wrapper's group can be
  accepted and match further behind (`exists_match_behind_cursor`).
-/

namespace Highlight

namespace Regex

/-! ## Reading alone -/

/-- Reads a pattern with some flags set from its start. -/
def Pattern.ofTextUnder (flags : Flags) (text : List Char) : Except PatternError Pattern := do
  let reading ← readFrom { flags } text
  if !reading.opened.isEmpty then .error .unclosedGroup
  else
    let (pattern, depth) := reading.alternatives
    if depthLimit < depth then .error .tooDeep else .ok pattern

theorem Pattern.ofText_eq (text : List Char) : ofText text = ofTextUnder {} text := rfl

theorem Pattern.ofTextUnder_eq_ok_iff {flags : Flags} {text : List Char} {pattern : Pattern} :
    ofTextUnder flags text = .ok pattern ↔
      ∃ reading, readFrom { flags } text = .ok reading ∧ reading.opened = [] ∧
        reading.alternatives.2 ≤ depthLimit ∧ reading.alternatives.1 = pattern := by
  rw [ofTextUnder, bind_eq_ok_iff]
  refine exists_congr fun reading => and_congr_right fun _ => ?_
  by_cases hopened : reading.opened = []
  · by_cases hdepth : reading.alternatives.2 ≤ depthLimit
    · simp [hopened, hdepth, Nat.not_lt.2 hdepth]
    · simp [hopened, hdepth, Nat.not_le.1 hdepth]
  · simp [hopened]

/-- The flags that the options of a rule set. -/
def ruleFlags (caseless minimal : Bool) : Flags :=
  { caseless, swapGreed := minimal }

/-! ## The wrapper -/

/-- The group that the wrapper opens behind its anchor. -/
def wrapGroup (caseless minimal : Bool) : OpenGroup where
  pieces := ⟨some (.look .textStart), 0⟩ :: if caseless || minimal then [⟨none, 0⟩] else []
  branches := []
  flags := ruleFlags caseless minimal
  index := none

/-- Behind the flags of the wrapper come its anchor and its group. -/
theorem readFrom_anchor {flags : Flags} (pieces : List Piece) (text : List Char)
    (hverbose : flags.verbose = false) (hmultiLine : flags.multiLine = false) :
    readFrom { flags, pieces } ('^' :: '(' :: '?' :: ':' :: text) =
      readFrom
        (Reading.enclosed ⟨⟨some (.look .textStart), 0⟩ :: pieces, [], flags, none⟩ { flags })
        text := by
  have hskip : ∀ rest, flags.skip rest = rest := by
    intro rest
    simp [Flags.skip, hverbose]
  have hanchor : readMove flags '^' ('(' :: '?' :: ':' :: text) =
      .ok (.add (.look .textStart) 0, '(' :: '?' :: ':' :: text) := by
    simp [readMove, hmultiLine]
  have hgroup : readMove flags '(' ('?' :: ':' :: text) = .ok (.enter (.plain flags), text) := by
    rw [readMove, readGroupHead_eq, hskip]
    rfl
  rw [readFrom_of_move (hskip _) hanchor rfl]
  exact readFrom_of_move (hskip _) hgroup rfl

theorem readFrom_wrap (text : List Char) (caseless minimal : Bool) :
    readFrom {} (wrap text caseless minimal) =
      readFrom
        (Reading.enclosed (wrapGroup caseless minimal) { flags := ruleFlags caseless minimal })
        (text ++ [')']) := by
  rw [wrapGroup, ← readFrom_anchor _ _ rfl rfl]
  cases caseless <;> cases minimal
  · rfl
  · exact readFrom_of_move rfl rfl rfl
  · exact readFrom_of_move rfl rfl rfl
  · exact readFrom_of_move rfl rfl rfl

theorem closeGroup_wrapGroup (caseless minimal : Bool) {own : Reading} (hopened : own.opened = []) :
    (own.enclosed (wrapGroup caseless minimal)).closeGroup = .ok
      { own with
        opened := [], flags := ruleFlags caseless minimal, branches := []
        pieces := ⟨some own.alternatives.1, own.alternatives.2 + 1⟩ ::
          (wrapGroup caseless minimal).pieces } := by
  rw [Reading.closeGroup, Reading.opened_enclosed, hopened]
  rfl

/-- Closing the group of the wrapper ties its alternatives to the start of the text. -/
theorem alternatives_closeGroup {caseless minimal : Bool} {own final : Reading}
    (hopened : own.opened = [])
    (h : (own.enclosed (wrapGroup caseless minimal)).closeGroup = .ok final) :
    final.opened = [] ∧ final.alternatives.1 = .seq (.look .textStart) own.alternatives.1 ∧
      own.alternatives.2 ≤ final.alternatives.2 := by
  obtain rfl := Except.ok.inj ((closeGroup_wrapGroup caseless minimal hopened).symm.trans h)
  generalize own.alternatives = alternatives
  refine ⟨rfl, ?_, ?_⟩
  · cases caseless <;> cases minimal <;> rfl
  · cases caseless <;> cases minimal
    all_goals simp [Reading.alternatives, Reading.branch, wrapGroup]
    all_goals omega

/-- What a rule writes compiles only if it is a pattern of its own, which is then tied to the start
of the text, or if it closes a group that it has not opened. -/
theorem pattern_of_compile {text : List Char} {caseless minimal : Bool} {regex : Regex}
    (h : compile text caseless minimal = .ok regex) :
    (∃ own, Pattern.ofTextUnder (ruleFlags caseless minimal) text = .ok own ∧
        regex.pattern = .seq (.look .textStart) own) ∨
      Pattern.ofTextUnder (ruleFlags caseless minimal) text = .error .unopenedGroup := by
  obtain ⟨pattern, hpattern, hroom⟩ := bind_eq_ok_iff.1 h
  rw [Pattern.ofText_eq, Pattern.ofTextUnder_eq_ok_iff] at hpattern
  obtain ⟨final, hfinal, hopened, hlimit, rfl⟩ := hpattern
  rw [readFrom_wrap] at hfinal
  rcases readFrom_enclosed hfinal hopened with ⟨own, hown, hownOpened, hclose⟩ | hunopened
  · left
    obtain ⟨-, halternatives, hdepth⟩ := alternatives_closeGroup hownOpened hclose
    refine ⟨own.alternatives.1, Pattern.ofTextUnder_eq_ok_iff.2 ?_, ?_⟩
    · exact ⟨own, hown, hownOpened, Nat.le_trans hdepth hlimit, rfl⟩
    · rw [← halternatives]
      split at hroom
      · cases hroom
      · cases hroom
        rfl
  · right
    rw [Pattern.ofTextUnder, hunopened]
    rfl

theorem groupCount_of_compile {text : List Char} {caseless minimal : Bool} {regex : Regex}
    (h : compile text caseless minimal = .ok regex) :
    regex.groupCount = regex.pattern.groupCount := by
  obtain ⟨pattern, -, hroom⟩ := bind_eq_ok_iff.1 h
  split at hroom
  · cases hroom
  · cases hroom
    rfl

theorem Pattern.groupCount_pos (pattern : Pattern) : 0 < pattern.groupCount := by
  induction pattern with
  | empty => exact Nat.one_pos
  | char mode set => exact Nat.one_pos
  | look condition => exact Nat.one_pos
  | group index body ih => exact Nat.lt_of_lt_of_le ih (Nat.le_max_right _ _)
  | seq first second ih _ => exact Nat.lt_of_lt_of_le ih (Nat.le_max_left _ _)
  | alt first second ih _ => exact Nat.lt_of_lt_of_le ih (Nat.le_max_left _ _)
  | times body least most greedy ih => exact ih

/-! ## Matches of anchored patterns -/

/-- A pattern that is tied to the start of a text matches what it matches there. -/
theorem search_of_pattern_eq {regex : Regex} {own : Pattern}
    (h : regex.pattern = .seq (.look .textStart) own) (text : List Char) :
    regex.search text = own.matchAt ⟨none, text, 0⟩ := by
  have hanchored : regex.pattern.anchored = true := by
    rw [h]
    rfl
  rw [search, Pattern.search, if_pos hanchored, h]
  exact Pattern.matchAt_seq_look rfl

/-- Such a pattern takes what it matches from the start on. -/
theorem takes_of_search {regex : Regex} {own : Pattern} {text : List Char} {found : Match}
    (hpattern : regex.pattern = .seq (.look .textStart) own)
    (h : regex.search text = some found) :
    ∃ taken rest, text = taken ++ rest ∧ found.start = 0 ∧ found.stop = taken.length ∧
      own.Takes none taken rest := by
  rw [search_of_pattern_eq hpattern] at h
  obtain ⟨taken, rest, htext, hstart, hstop, htakes⟩ := covers_of_matchAt h
  exact ⟨taken, rest, htext, hstart, by simpa using hstop, htakes⟩

/-- The first group that such a match reports is what it takes. -/
theorem groups_of_anchored {found : Match} {taken : List Char} {count : Nat} (rest : List Char)
    (hstart : found.start = 0) (hstop : found.stop = taken.length) (hcount : 0 < count) :
    ∃ groups, found.groups (taken ++ rest) count = taken :: groups := by
  obtain ⟨more, rfl⟩ : ∃ more, count = more + 1 := ⟨count - 1, by omega⟩
  refine ⟨((List.range more).map Nat.succ).map (found.group (taken ++ rest)), ?_⟩
  rw [Match.groups, List.range_succ_eq_map, List.map_cons]
  simp [Match.group, hstart, hstop]

end Regex

open Regex

/-- A rule finds what its pattern finds in the text that is left, unless that is empty. -/
theorem RegexRule.found_find_eq_some_iff {rule : RegexRule} {cursor : Cursor} {wantGroups : Bool}
    {length : Nat} {captures : Option Captures} {regex : Regex}
    (hregex : rule.regexAt cursor = .ok regex) :
    (rule.find cursor wantGroups).found = some (length, captures) ↔
      rule.anchorsHold cursor = true ∧ ∃ found, regex.search cursor.rest = some found ∧
        0 < length ∧ byteLength (found.reach cursor.rest) = length ∧
        captures =
          if wantGroups then some (found.groups cursor.rest regex.groupCount) else none := by
  rw [find, hregex]
  by_cases hanchors : rule.anchorsHold cursor = true
  · simp only [hanchors, true_and]
    cases regex.search cursor.rest with
    | none => simp
    | some found =>
      simp only [Option.some.injEq, exists_eq_left']
      by_cases hlength : byteLength (found.reach cursor.rest) = 0
      · simp only [hlength, beq_self_eq_true, if_true]
        constructor
        · rintro ⟨⟩
        · rintro ⟨hpos, rfl, -⟩
          exact absurd hpos (Nat.lt_irrefl 0)
      · simp only [beq_iff_eq, hlength, if_false]
        constructor
        · rintro ⟨⟩
          exact ⟨Nat.pos_of_ne_zero hlength, rfl, rfl⟩
        · rintro ⟨-, rfl, rfl⟩
          rfl
  · simp [hanchors]

/-- Unless it closes a group that it has not opened, a pattern that compiles is a pattern of its own
and matches only from the cursor on, and a text that is no pattern is rejected. -/
theorem Regex.compile_anchored (text : List Char) (caseless minimal : Bool)
    (hopened : Pattern.ofTextUnder (ruleFlags caseless minimal) text ≠ .error .unopenedGroup) :
    (∀ regex, compile text caseless minimal = .ok regex →
      ∃ own, Pattern.ofTextUnder (ruleFlags caseless minimal) text = .ok own ∧
        ∀ (rule : RegexRule) (cursor : Cursor) (wantGroups : Bool) (length : Nat)
          (captures : Option Captures), rule.regexAt cursor = .ok regex →
          (rule.find cursor wantGroups).found = some (length, captures) →
          ∃ taken rest, cursor.rest = taken ++ rest ∧ byteLength taken = length ∧
            own.Takes none taken rest ∧
            if wantGroups then ∃ groups, captures = some (taken :: groups) else captures = none) ∧
    ((∀ own, Pattern.ofTextUnder (ruleFlags caseless minimal) text ≠ .ok own) →
      ∀ (context : String) (written : List Char) (options : RuleOptions),
        (RegexRule.splitAnchors false false written).1 = text → options.dynamic = false →
        options.caseless = caseless → options.minimal = minimal →
        (Resolver.regex context written options).result =
          .error (.invalidPattern context text)) := by
  constructor
  · intro regex hcompile
    obtain ⟨own, hown, hpattern⟩ | hunopened := pattern_of_compile hcompile
    · refine ⟨own, hown, ?_⟩
      intro rule cursor wantGroups length captures hregex hfind
      obtain ⟨-, found, hfound, -, hlength, hcaptures⟩ :=
        (RegexRule.found_find_eq_some_iff hregex).1 hfind
      obtain ⟨taken, rest, hrest, hstart, hstop, htakes⟩ :=
        takes_of_search hpattern hfound
      have hreach : found.reach cursor.rest = taken := by
        rw [Match.reach, hrest, hstop, List.take_left]
      refine ⟨taken, rest, hrest, by rw [← hlength, hreach], htakes, ?_⟩
      cases wantGroups with
      | false => exact hcaptures
      | true =>
        have hcount : 0 < regex.groupCount := by
          rw [groupCount_of_compile hcompile]
          exact Pattern.groupCount_pos _
        obtain ⟨groups, hgroups⟩ := groups_of_anchored rest hstart hstop hcount
        exact ⟨groups, by rw [hcaptures, hrest, hgroups]; rfl⟩
    · exact absurd hunopened hopened
  · intro hbroken context written options htext hdynamic hcaseless hminimal
    have hcompile : ∀ regex, compile text caseless minimal ≠ .ok regex := by
      intro regex hcompile
      obtain ⟨own, hown, -⟩ | hunopened := pattern_of_compile hcompile
      · exact hbroken own hown
      · exact hopened hunopened
    simp only [Resolver.regex, hdynamic, hcaseless, hminimal, htext]
    cases hresult : compile text caseless minimal with
    | error error => rfl
    | ok regex => exact absurd hresult (hcompile regex)

/-- A compiled rule that neither ignores case nor prefers short matches. -/
def plainRegex (text : List Char) (pattern : Pattern) : RegexRule where
  text
  compiled := some ⟨pattern, pattern.groupCount⟩
  caseless := false
  minimal := false
  wordStart := false
  lineStart := false

/-- Two letters, the second of them in a group. -/
def lettersPattern : Pattern :=
  .seq (.look .textStart) (.seq (.char {} (.single 'a')) (.group 1 (.char {} (.single 'b'))))

def letters : RegexRule :=
  plainRegex ['a', '(', 'b', ')'] lettersPattern

/-- Alternatives that close the group that they are put into and open another. -/
def escaping : RegexRule :=
  plainRegex ['a', ')', '|', '(', '?', ':', 'b']
    (.alt (.seq (.look .textStart) (.char {} (.single 'a'))) (.char {} (.single 'b')))

/-- A cursor at the start of a line. -/
def lineCursor (line : List Char) : Cursor where
  before := none
  rest := line
  offset := 0
  column := 0
  firstNonSpace := true
  data := none
  delimiters := .standard

theorem compile_anchored_letters :
    (letters.find (lineCursor ['a', 'b', 'x']) true).found = some (2, some [['a', 'b'], ['b']]) ∧
      ∃ own, Pattern.ofTextUnder (ruleFlags false false) letters.text = .ok own ∧
        own.Takes none ['a', 'b'] ['x'] := by
  have hfind : (letters.find (lineCursor ['a', 'b', 'x']) true).found =
      some (2, some [['a', 'b'], ['b']]) := by
    decide +kernel
  have hanchored := compile_anchored letters.text false false (by decide +kernel)
  have hcompile : compile letters.text false false =
      .ok ⟨lettersPattern, lettersPattern.groupCount⟩ := by
    decide +kernel
  obtain ⟨own, hown, hmatches⟩ := hanchored.1 _ hcompile
  obtain ⟨taken, rest, hrest, hlength, htakes, hgroups⟩ := hmatches letters _ _ _ _ rfl hfind
  obtain ⟨groups, heq⟩ := hgroups
  cases heq
  cases hrest
  exact ⟨hfind, own, hown, htakes⟩

/-- Such a pattern is accepted though it is none of its own, and matches behind the cursor. -/
theorem exists_match_behind_cursor :
    (Resolver.regex "Text" escaping.text {}).result = .ok (.regex escaping) ∧
      Pattern.ofTextUnder (ruleFlags false false) escaping.text = .error .unopenedGroup ∧
      (escaping.find (lineCursor ['x', 'b']) true).found = some (2, some [['b']]) := by
  refine ⟨?_, ?_, ?_⟩ <;> decide +kernel

end Highlight
