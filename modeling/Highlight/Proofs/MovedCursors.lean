import Highlight.Proofs.KnownContexts
import Highlight.Proofs.MatchingCalls

/-!
# Cursors that are moved forward

A cursor is built at an offset of a line from facts about the whole line, such as the white space
that it starts with.  Moving it forward has only the cursor and the text behind it.  Here the two are
shown to agree: a cursor of a line that is moved forward is the one that is built where it comes to
(`moved_cursor_is_placed`), so that the rules that extend a number see what they would see if they
were tried there by themselves.

There are four groups.

* White space.  An offset is in or just behind the white space at the start of a line exactly if
  there is nothing else before it (`byteLength_le_leadingBlanks_iff`).  This is what moving asks
  instead of the line.
* Places.  `Cursor.behind` is the cursor behind a first part of a line, `Cursor.placed?` the one at
  an offset, and `Cursor.advance?_behind` moves it.
* The end of the text.  Nothing is found where no text is left (`Grammar.answer_of_rest_eq_nil`), so
  that the rules behind a number may as well be tried there.
* Numbers.  `Grammar.exists_tryRule_extended` is the match of a rule with the rules that extend it.
-/

namespace Highlight

/-! ## White space -/

/-- The white space that a line starts with reaches up to the end of a first part if that is all white
space. -/
theorem byteLength_le_leadingBlanks_iff {before text : List Char} :
    byteLength before ≤ leadingBlanks (before ++ text) ↔
      ∀ c ∈ before, Unicode.isBlank c = true := by
  induction before with
  | nil => simp
  | cons c before ih =>
    have hsize := c.utf8Size_pos
    rw [List.forall_mem_cons, ← ih]
    unfold leadingBlanks
    by_cases hc : Unicode.isBlank c = true
    · rw [List.cons_append, List.takeWhile_cons_of_pos hc, byteLength_cons, byteLength_cons]
      constructor
      · intro h
        exact ⟨hc, by omega⟩
      · intro h
        have hrest := h.2
        omega
    · rw [List.cons_append, List.takeWhile_cons_of_neg hc, byteLength_cons, byteLength_nil]
      constructor
      · intro h
        omega
      · intro h
        exact absurd h.1 hc

/-! ## Places -/

namespace Cursor

/-- The cursor behind a first part of a line. -/
def behind (before text : List Char) (data : Option Captures) (delimiters : Delimiters) : Cursor where
  before := before.getLast?
  rest := text
  offset := byteLength before
  column := before.length
  firstNonSpace := byteLength before ≤ leadingBlanks (before ++ text)
  data := data
  delimiters := delimiters

/-- The cursor at an offset of a line, built with the number of characters before it and the white
space that the line starts with. -/
def placed? (line : List Char) (offset : Nat) (data : Option Captures) (delimiters : Delimiters) :
    Option Cursor :=
  (splitAtByte? offset line).bind fun (before, _) =>
    at? line offset before.length (leadingBlanks line) data delimiters

variable {data : Option Captures} {delimiters : Delimiters}

theorem placed?_append (before text : List Char) :
    placed? (before ++ text) (byteLength before) data delimiters =
      some (behind before text data delimiters) := by
  have hsplit := splitAtByte?_byteLength before text
  rw [placed?, hsplit]
  show at? _ _ _ _ _ _ = _
  rw [at?, hsplit]
  rfl

/-- A line has a cursor at its offsets between two characters and at its ends. -/
theorem isSome_placed?_iff {line : List Char} {offset : Nat} :
    (placed? line offset data delimiters).isSome = true ↔ IsBoundary line offset := by
  constructor
  · intro h
    obtain ⟨cursor, hcursor⟩ := Option.isSome_iff_exists.1 h
    obtain ⟨⟨before, text⟩, hsplit, -⟩ := Option.bind_eq_some_iff.1 hcursor
    exact isBoundary_iff.2 ⟨before, text, hsplit⟩
  · intro h
    obtain ⟨before, text, rfl, rfl⟩ := h
    rw [placed?_append]
    rfl

theorem exists_placed? {line : List Char} {offset : Nat} (h : IsBoundary line offset)
    (data : Option Captures) (delimiters : Delimiters) :
    ∃ cursor, placed? line offset data delimiters = some cursor :=
  Option.isSome_iff_exists.1 (isSome_placed?_iff.2 h)

/-- Behind some more text only white space has been read if it was so before, and the text is white
space. -/
theorem firstNonSpace_behind_append (before taken text : List Char) (data : Option Captures)
    (delimiters : Delimiters) :
    ((behind before (taken ++ text) data delimiters).firstNonSpace && taken.all Unicode.isBlank ||
        byteLength before + byteLength taken == 0) =
      (behind (before ++ taken) text data delimiters).firstNonSpace := by
  have hall : (behind (before ++ taken) text data delimiters).firstNonSpace = true ↔
      (behind before (taken ++ text) data delimiters).firstNonSpace = true ∧
        taken.all Unicode.isBlank = true := by
    simp only [behind, decide_eq_true_eq, byteLength_le_leadingBlanks_iff, List.all_eq_true,
      List.forall_mem_append]
  have hstart : byteLength before + byteLength taken = 0 →
      (behind (before ++ taken) text data delimiters).firstNonSpace = true := by
    intro hzero
    rw [behind, decide_eq_true_eq, byteLength_append, hzero]
    exact Nat.zero_le _
  rw [Bool.eq_iff_iff, Bool.or_eq_true, Bool.and_eq_true, beq_iff_eq, ← hall]
  constructor
  · intro h
    exact h.elim id hstart
  · exact Or.inl

theorem advance?_behind (before taken text : List Char) :
    (behind before (taken ++ text) data delimiters).advance? (byteLength taken) =
      some (behind (before ++ taken) text data delimiters) := by
  have hspace := firstNonSpace_behind_append before taken text data delimiters
  have hsplit : splitAtByte? (byteLength taken) (behind before (taken ++ text) data delimiters).rest =
      some (taken, text) := splitAtByte?_byteLength taken text
  rw [advance?, hsplit, Option.map_some]
  refine congrArg some ?_
  unfold behind at hspace ⊢
  rw [Cursor.mk.injEq]
  exact ⟨List.getLast?_append.symm, rfl, (byteLength_append before taken).symm,
    List.length_append.symm, hspace, rfl, rfl⟩

/-- A cursor of a line that is moved forward is the one at the offset that it comes to, and it cannot
be moved where the line has no cursor. -/
theorem advance?_of_placed? {line : List Char} {offset : Nat} {cursor : Cursor}
    (h : placed? line offset data delimiters = some cursor) (length : Nat) :
    cursor.advance? length = placed? line (offset + length) data delimiters := by
  obtain ⟨before, text, rfl, rfl⟩ := isSome_placed?_iff.1 (Option.isSome_of_eq_some h)
  obtain rfl : behind before text data delimiters = cursor := by
    rw [placed?_append] at h
    exact Option.some.inj h
  by_cases hboundary : IsBoundary (before ++ text) (byteLength before + length)
  · obtain ⟨taken, rest, rfl, hbytes⟩ := hboundary.exists_gap (Nat.le_add_right _ _)
    have hlength : byteLength taken = length := by
      rw [byteLength_append] at hbytes
      omega
    rw [← hlength, advance?_behind, ← byteLength_append, ← List.append_assoc, placed?_append]
  · have hnone : placed? (before ++ text) (byteLength before + length) data delimiters = none := by
      rw [← Option.not_isSome_iff_eq_none, isSome_placed?_iff]
      exact hboundary
    rw [hnone]
    cases hsplit : splitAtByte? length text with
    | none =>
      show (splitAtByte? length text).map _ = none
      rw [hsplit]
      rfl
    | some parts =>
      have hrest : IsBoundary text length := isBoundary_iff.2 ⟨parts.1, parts.2, hsplit⟩
      exact absurd (hrest.add before) hboundary

end Cursor

/-! ## The end of the text -/

theorem Rule.detect_of_rest_eq_nil (rule : Rule) {cursor : Cursor} (h : cursor.rest = []) :
    rule.detect cursor = .ok {} := by
  unfold Rule.detect Rule.length?
  rw [h]
  split
  · rfl
  · rfl

theorem firstAnswer_of_nothing {attempt : Rule → Except Fault Trial} {rules : List Rule}
    (h : ∀ rule ∈ rules, attempt rule = .ok {}) : firstAnswer attempt rules = .ok {} := by
  induction rules with
  | nil => rfl
  | cons rule rest ih =>
    have hrest := ih fun other hother => h other (List.mem_cons_of_mem _ hother)
    rw [firstAnswer, h rule List.mem_cons_self, hrest]
    rfl

namespace Grammar

variable {grammar : Grammar}

/-- Where no text is left, no rule or context of a resolved grammar finds or notes anything. -/
theorem answer_of_rest_eq_nil (hresolved : grammar.Resolved) {call : Call} (h : call.Of grammar)
    (hrest : call.cursor.rest = []) : grammar.answer call = .ok {} := by
  induction call using (Call.wellFounded_makes grammar).induction with
  | _ call ih =>
  rw [answer_eq]
  cases call with
  | context index cursor =>
    obtain ⟨context, -, hcontext, -⟩ := exists_context hresolved h
    rw [unroll, hcontext]
    apply firstAnswer_of_nothing
    intro rule hrule
    exact ih _ (.member hcontext hrule) (HasRule.top (List.mem_of_getElem? hcontext) hrule) hrest
  | rule rule cursor =>
    rw [unroll]
    by_cases hallows : rule.allows cursor = true
    · rw [if_pos hallows]
      split
      · next inclusion hkind =>
        have hwithin : rule.Within grammar.contexts.length := HasRule.within hresolved h
        have htarget : inclusion.target < grammar.contexts.length := by
          apply hwithin.included
          rw [Rule.includedContext?, hkind]
        obtain ⟨context, -, hcontext, -⟩ := exists_context hresolved htarget
        rw [hcontext, ih _ (.inclusion hallows hkind hcontext) htarget hrest]
        show Except.ok _ = _
        split
        · rfl
        · rfl
      · have hdetect : rule.detect cursor = .ok {} := rule.detect_of_rest_eq_nil hrest
        rw [hdetect]
    · rw [if_neg hallows]

/-- Nor do the rules that extend a rule of the grammar. -/
theorem tryRules_children_of_rest_eq_nil (hresolved : grammar.Resolved) {rule : Rule}
    (hrule : grammar.HasRule rule) {behind : Cursor} (hrest : behind.rest = []) :
    grammar.tryRules rule.children behind = .ok {} := by
  rw [tryRules_eq_firstAnswer]
  apply firstAnswer_of_nothing
  intro child hchild
  have hcall : Call.Of grammar (.rule child behind) := HasRule.child hrule hchild
  exact answer_of_rest_eq_nil hresolved hcall hrest

/-! ## Numbers -/

/-- The rules that extend a rule are not tried where it takes nothing by itself. -/
theorem tryRule_of_misses {rule : Rule} (hplain : rule.includedContext? = none) {cursor : Cursor}
    (hallows : rule.allows cursor = true) (hdetect : rule.detect cursor = .ok {}) :
    grammar.tryRule rule cursor = .ok {} := by
  have hanswer := grammar.answer_eq (.rule rule cursor)
  rw [answer, unroll, if_pos hallows] at hanswer
  rw [hanswer]
  split
  · next inclusion hkind => simp [Rule.includedContext?, hkind] at hplain
  · rw [hdetect]

/-- What a rule takes by itself is followed by what the first of the rules that extend it takes behind
that, wherever that is. -/
theorem exists_tryRule_extended (hresolved : grammar.Resolved) {rule : Rule}
    (hrule : grammar.HasRule rule) (hplain : rule.includedContext? = none) {cursor : Cursor}
    (hallows : rule.allows cursor = true) {broken : List (List Char)} {length : Nat}
    {captures : Option Captures}
    (hdetect : rule.detect cursor = .ok ⟨broken, some (length, captures)⟩) :
    ∃ behind trial, cursor.advance? length = some behind ∧
      grammar.tryRules rule.children behind = .ok trial ∧
      grammar.tryRule rule cursor = .ok ⟨broken ++ trial.broken,
        some (rule.toMatch (length + (trial.found.map RuleMatch.length).getD 0) captures)⟩ := by
  obtain ⟨attempt, hattempt, hadvances⟩ := rule.detect_advances cursor
  obtain rfl : ⟨broken, some (length, captures)⟩ = attempt := by
    rw [hdetect] at hattempt
    exact Except.ok.inj hattempt
  obtain ⟨behind, skipped, hadvance, hrest, hskipped⟩ :=
    Cursor.exists_advance (hadvances length captures rfl).2
  have hwithin : rule.Within grammar.contexts.length := HasRule.within hresolved hrule
  obtain ⟨trial, htrial, -⟩ := tryRules_finds hresolved rule.children behind hwithin.children
  refine ⟨behind, trial, hadvance, htrial, ?_⟩
  have hanswer := grammar.answer_eq (.rule rule cursor)
  rw [answer, unroll, if_pos hallows] at hanswer
  rw [hanswer]
  split
  · next inclusion hkind => simp [Rule.includedContext?, hkind] at hplain
  · rw [hdetect]
    dsimp only
    by_cases hextend : rule.children ≠ [] ∧ length < byteLength cursor.rest
    · rw [if_pos hextend, hadvance]
      dsimp only
      rw [← tryRules_eq_firstAnswer, htrial]
      rfl
    · -- The rules behind are not tried, which makes no difference: there are none, or no text.
      have hnothing : grammar.tryRules rule.children behind = .ok {} := by
        by_cases hchildren : rule.children = []
        · rw [hchildren, tryRules]
        · apply tryRules_children_of_rest_eq_nil hresolved hrule
          have hall : ¬length < byteLength cursor.rest := fun hless => hextend ⟨hchildren, hless⟩
          rw [hrest, byteLength_append] at hall
          rw [← byteLength_eq_zero_iff]
          omega
      obtain rfl : {} = trial := by
        rw [hnothing] at htrial
        exact Except.ok.inj htrial
      rw [if_neg hextend, List.append_nil]
      rfl

end Grammar

/-- A cursor of a line that is moved forward is in every respect the one that is built at the offset
that it comes to, so that two moves are one.  A number of a built grammar is extended by what its
rules find at that place: if it takes some bytes there, the rules that extend it are tried with the
cursor of the line behind those bytes. -/
theorem moved_cursor_is_placed {line : List Char} {offset : Nat} (hoffset : IsBoundary line offset)
    (data : Option Captures) (delimiters : Delimiters) :
    ∃ cursor, Cursor.placed? line offset data delimiters = some cursor ∧
      (∀ length, IsBoundary line (offset + length) → ∃ behind,
        Cursor.placed? line (offset + length) data delimiters = some behind ∧
        cursor.advance? length = some behind) ∧
      (∀ first second, IsBoundary line (offset + first) → IsBoundary line (offset + first + second) →
        ∃ middle behind, cursor.advance? first = some middle ∧
          middle.advance? second = some behind ∧ cursor.advance? (first + second) = some behind) ∧
      ∀ (description : GrammarDef) (grammar : Grammar), description.build.result = .ok grammar →
        ∀ rule, grammar.HasRule rule → rule.kind = .int ∨ rule.kind = .float →
          rule.allows cursor = true → ∃ found, rule.length? cursor = .ok found ∧
            (found = none → grammar.tryRule rule cursor = .ok {}) ∧
            ∀ length, found = some length → ∃ behind trial,
              Cursor.placed? line (offset + length) data delimiters = some behind ∧
              grammar.tryRules rule.children behind = .ok trial ∧
              grammar.tryRule rule cursor = .ok ⟨trial.broken,
                some (rule.toMatch (length + (trial.found.map RuleMatch.length).getD 0) none)⟩ := by
  obtain ⟨cursor, hcursor⟩ := Cursor.exists_placed? hoffset data delimiters
  have hmoves : ∀ length, IsBoundary line (offset + length) → ∃ behind,
      Cursor.placed? line (offset + length) data delimiters = some behind ∧
        cursor.advance? length = some behind := by
    intro length hlength
    obtain ⟨behind, hbehind⟩ := Cursor.exists_placed? hlength data delimiters
    exact ⟨behind, hbehind, (Cursor.advance?_of_placed? hcursor length).trans hbehind⟩
  refine ⟨cursor, hcursor, hmoves, ?_, ?_⟩
  · intro first second hfirst hsecond
    obtain ⟨middle, hmiddle, hfirstMove⟩ := hmoves first hfirst
    have hsum : offset + (first + second) = offset + first + second := by omega
    obtain ⟨behind, hbehind, hmove⟩ := hmoves (first + second) (hsum ▸ hsecond)
    refine ⟨middle, behind, hfirstMove, ?_, hmove⟩
    rw [Cursor.advance?_of_placed? hmiddle, ← hsum, hbehind]
  · intro description grammar hbuild rule hrule hkind hallows
    have hresolved : grammar.Resolved := Grammar.Built.resolved ⟨description, hbuild⟩
    have hpattern : ∀ regex, rule.kind ≠ .regex regex := by
      intro regex hregex
      rw [hregex] at hkind
      simp at hkind
    have hplain : rule.includedContext? = none := by
      rcases hkind with hkind | hkind <;> rw [Rule.includedContext?, hkind]
    obtain ⟨found, hfound, -⟩ := rule.length?_advances cursor
    have hdetect := Rule.detect_of_length? hpattern hfound
    refine ⟨found, hfound, ?_, ?_⟩
    · intro hnone
      rw [hnone] at hdetect
      exact Grammar.tryRule_of_misses hplain hallows hdetect
    · intro length hlength
      rw [hlength] at hdetect
      obtain ⟨behind, trial, hadvance, htrial, hmatch⟩ :=
        Grammar.exists_tryRule_extended hresolved hrule hplain hallows hdetect
      rw [Cursor.advance?_of_placed? hcursor length] at hadvance
      exact ⟨behind, trial, hadvance, htrial, hmatch⟩

/-- A wide blank, three bytes long, is all white space before a number that is followed by a rule of its
own context. -/
theorem moved_cursor_is_placed_wideBlank :
    ∃ grammar cursor behind trial, chainedNumbers.build.result = .ok grammar ∧
      grammar.HasRule ChainedNumbers.number ∧
      Cursor.placed? ['\u3000', '1', '_'] 3 none .standard = some cursor ∧
      cursor.firstNonSpace = true ∧
      Cursor.placed? ['\u3000', '1', '_'] 4 none .standard = some behind ∧
      cursor.advance? 1 = some behind ∧ behind.firstNonSpace = false ∧
      grammar.tryRules ChainedNumbers.number.children behind = .ok trial ∧
      grammar.tryRule ChainedNumbers.number cursor = .ok ⟨trial.broken,
        some (ChainedNumbers.number.toMatch (1 + (trial.found.map RuleMatch.length).getD 0)
          none)⟩ := by
  obtain ⟨grammar, hbuild, hcontexts⟩ := ChainedNumbers.exists_build
  have hnumber : grammar.HasRule ChainedNumbers.number :=
    .top (hcontexts ▸ List.mem_cons_self) List.mem_cons_self
  have hblank : IsBoundary ['\u3000', '1', '_'] 3 := ⟨['\u3000'], ['1', '_'], rfl, rfl⟩
  have hdigit : IsBoundary ['\u3000', '1', '_'] 4 := ⟨['\u3000', '1'], ['_'], rfl, rfl⟩
  obtain ⟨cursor, hcursor, hmoves, -, hnumbers⟩ :=
    moved_cursor_is_placed hblank none .standard
  obtain ⟨behind, hbehind, hmove⟩ := hmoves 1 hdigit
  obtain rfl : Cursor.behind ['\u3000'] ['1', '_'] none .standard = cursor := Option.some.inj hcursor
  obtain rfl : Cursor.behind ['\u3000', '1'] ['_'] none .standard = behind :=
    Option.some.inj hbehind
  obtain ⟨found, hfound, -, hextended⟩ :=
    hnumbers chainedNumbers grammar hbuild _ hnumber (.inl rfl) rfl
  obtain rfl : some 1 = found := Except.ok.inj hfound
  obtain ⟨other, trial, hother, htrial, hmatch⟩ := hextended 1 rfl
  obtain rfl := Option.some.inj hother
  exact ⟨grammar, _, _, trial, hbuild, hnumber, rfl, rfl, rfl, hmove, rfl, htrial, hmatch⟩

end Highlight
