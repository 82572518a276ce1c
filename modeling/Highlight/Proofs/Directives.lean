import Highlight.Language.C
import Highlight.Proofs.KnownContexts
import Highlight.Proofs.LiteralPatterns
import Mathlib.Data.List.TakeWhile

/-!
# Directives of C

The contexts of C for text that a condition leaves out know three kinds of directives, each by a
pattern of a number sign, white space and some words.

* Directives.  `directive?` reads a directive off the start of a text, and it is what these patterns
  take (`takes_directive_iff`).
* The grammar.  The two contexts have the same shape, `blockContext`: alerts, the start of a
  condition, and a directive that leaves the context.
* What is found.  At a cursor such a context finds an alert or a directive that comes first on its
  line (`blockFinds_of_tryRules`), and such a directive it finds (`found_of_directive`).
-/

namespace Highlight.Language.C

open Regex
open Unicode (isBlank)

/-! ## Directives -/

/-- The directive that a text begins with, and the text behind it: a number sign, white space and
the first of some words that comes behind that. -/
def directive? (words : List (List Char)) : List Char → Option (List Char × List Char)
  | '#' :: rest =>
    (words.find? fun word => word.isPrefixOf (rest.dropWhile isBlank)).map fun word =>
      ('#' :: (rest.takeWhile isBlank ++ word), (rest.dropWhile isBlank).drop word.length)
  | _ => none

/-- Words that can be told from white space and from each other. -/
structure Separate (words : List (List Char)) : Prop where
  visible : ∀ word ∈ words, word.head?.all isBlank = false
  distinct : ∀ first ∈ words, ∀ second ∈ words, first <+: second → first = second

/-- White space ends where other text begins. -/
theorem span_blanks {gap text : List Char} (hgap : ∀ c ∈ gap, isBlank c = true)
    (htext : ∀ c ∈ text.head?, isBlank c = false) :
    (gap ++ text).takeWhile isBlank = gap ∧ (gap ++ text).dropWhile isBlank = text := by
  rw [List.takeWhile_append_of_pos hgap, List.dropWhile_append_of_pos hgap]
  cases text with
  | nil => simp
  | cons c text => simp [htext c rfl]

/-- Of separate words one at most begins a text. -/
theorem Separate.find?_eq_some {words : List (List Char)} (hwords : Separate words)
    {word : List Char} (hword : word ∈ words) (rest : List Char) :
    words.find? (fun other => other.isPrefixOf (word ++ rest)) = some word := by
  have hprefix : word <+: word ++ rest := List.prefix_append word rest
  cases hfind : words.find? fun other => other.isPrefixOf (word ++ rest) with
  | none =>
    have hmissed := List.find?_eq_none.1 hfind word hword
    exact absurd (List.isPrefixOf_iff_prefix.2 hprefix) hmissed
  | some other =>
    have hother := List.mem_of_find?_eq_some hfind
    have hmatches := List.find?_some hfind
    have hfound := List.isPrefixOf_iff_prefix.1 hmatches
    rcases List.prefix_or_prefix_of_prefix hfound hprefix with hle | hle
    · rw [hwords.distinct other hother word hword hle]
    · rw [hwords.distinct word hword other hother hle]

/-- A directive stands behind its number sign, and one of its words behind the white space. -/
theorem exists_word_of_directive? {words : List (List Char)} {text taken rest : List Char}
    (h : directive? words text = some (taken, rest)) :
    ∃ body, text = '#' :: body ∧ ∃ word ∈ words, word <+: body.dropWhile isBlank ∧
      taken = '#' :: (body.takeWhile isBlank ++ word) ∧
      rest = (body.dropWhile isBlank).drop word.length := by
  unfold directive? at h
  split at h
  · next body =>
    obtain ⟨word, hfind, heq⟩ := Option.map_eq_some_iff.1 h
    cases heq
    have hmatches := List.find?_some hfind
    exact ⟨body, rfl, word, List.mem_of_find?_eq_some hfind,
      List.isPrefixOf_iff_prefix.1 hmatches, rfl, rfl⟩
  · cases h

/-- What is read off is the start of the text, and it is a directive. -/
theorem split_of_directive? {words : List (List Char)} {text taken rest : List Char}
    (h : directive? words text = some (taken, rest)) :
    text = taken ++ rest ∧ ∃ gap, ∃ word ∈ words, (∀ c ∈ gap, isBlank c = true) ∧
      taken = '#' :: (gap ++ word) := by
  obtain ⟨body, rfl, word, hword, ⟨left, hleft⟩, rfl, rfl⟩ := exists_word_of_directive? h
  refine ⟨?_, body.takeWhile isBlank, word, hword, fun c hc => List.mem_takeWhile_imp hc, rfl⟩
  have hbody := (List.takeWhile_append_dropWhile (p := isBlank) (l := body)).symm
  rw [← hleft] at hbody ⊢
  rw [List.drop_left]
  simpa using hbody

/-- Every directive at the start of a text is read off. -/
theorem directive?_eq_some_iff {words : List (List Char)} (hwords : Separate words)
    {text taken rest : List Char} :
    directive? words text = some (taken, rest) ↔
      text = taken ++ rest ∧ ∃ gap, ∃ word ∈ words, (∀ c ∈ gap, isBlank c = true) ∧
        taken = '#' :: (gap ++ word) := by
  constructor
  · exact split_of_directive?
  · rintro ⟨rfl, gap, word, hword, hgap, rfl⟩
    have hvisible : ∀ c ∈ (word ++ rest).head?, isBlank c = false := by
      have hstart := hwords.visible word hword
      cases word with
      | nil => cases hstart
      | cons d word =>
        intro c hc
        cases hc
        exact hstart
    obtain ⟨htake, hdrop⟩ := span_blanks hgap hvisible
    have hbody : '#' :: (gap ++ word) ++ rest = '#' :: (gap ++ (word ++ rest)) := by simp
    rw [hbody]
    simp only [directive?, htake, hdrop, hwords.find?_eq_some hword, Option.map_some,
      List.drop_left]

theorem byteLength_pos_of_directive? {words : List (List Char)} {text taken rest : List Char}
    (h : directive? words text = some (taken, rest)) : 0 < byteLength taken := by
  obtain ⟨-, gap, word, -, -, rfl⟩ := split_of_directive? h
  have hsize := Char.utf8Size_pos '#'
  rw [byteLength_cons]
  omega

/-- Directives of words that do not begin each other do not stand in one place. -/
theorem directive?_eq_none_of_apart {words others : List (List Char)}
    (hapart : ∀ word ∈ words, ∀ other ∈ others, ¬word <+: other ∧ ¬other <+: word)
    {text taken rest : List Char} (h : directive? words text = some (taken, rest)) :
    directive? others text = none := by
  obtain ⟨body, rfl, word, hword, hprefix, -⟩ := exists_word_of_directive? h
  cases hother : directive? others ('#' :: body) with
  | none => rfl
  | some found =>
    obtain ⟨_, heq, other, hmember, hfound, -⟩ := exists_word_of_directive? hother
    cases heq
    obtain ⟨hfirst, hsecond⟩ := hapart word hword other hmember
    rcases List.prefix_or_prefix_of_prefix hprefix hfound with hle | hle
    · exact absurd hle hfirst
    · exact absurd hle hsecond

/-- The pattern of a directive. -/
def directivePattern (ending : Pattern) : Pattern :=
  .seq (.char {} (.single '#')) (.seq .blanks ending)

/-- It takes the directives of the words that come behind the white space. -/
theorem takes_directive_iff {ending : Pattern} {words : List (List Char)}
    (hending : ∀ {before taken rest}, ending.Takes before taken rest ↔ taken ∈ words)
    (hwords : Separate words) {before : Option Char} {taken rest : List Char} :
    (directivePattern ending).Takes before taken rest ↔
      directive? words (taken ++ rest) = some (taken, rest) := by
  rw [directive?_eq_some_iff hwords]
  constructor
  · intro h
    cases h with
    | seq sign behind =>
      cases behind with
      | seq gap word =>
        rw [takes_single_iff.1 sign]
        exact ⟨rfl, _, _, hending.1 word, takes_blanks_iff.1 gap, rfl⟩
  · rintro ⟨-, gap, word, hword, hgap, rfl⟩
    have hsign : (Pattern.char {} (.single '#')).Takes before ['#'] (gap ++ word ++ rest) :=
      takes_single_iff.2 rfl
    exact .seq hsign (.seq (takes_blanks_iff.2 hgap) (hending.2 hword))

/-- The words of directives. -/
def opening : List (List Char) :=
  ["if".toList]

def closing : List (List Char) :=
  ["endif".toList]

def leaving : List (List Char) :=
  ["endif".toList, "else".toList, "elif".toList]

theorem separate_opening : Separate opening :=
  ⟨by decide, by decide⟩

theorem separate_closing : Separate closing :=
  ⟨by decide, by decide⟩

theorem separate_leaving : Separate leaving :=
  ⟨by decide, by decide⟩

/-! ## The grammar -/

/-- The pattern rule of a directive. -/
def directiveRule (written : String) (ending : Pattern) (groupCount : Nat) : RegexRule where
  text := written.toList
  compiled := some ⟨.seq (.look .textStart) (directivePattern ending), groupCount⟩
  caseless := false
  minimal := false
  wordStart := false
  lineStart := false

/-- The words of alerts. -/
def alertKeywords : KeywordRule :=
  ⟨"alerts", alertWords.map String.toList, true⟩

/-- The rule for alerts. -/
def alert : Rule :=
  { RuleKind.toRule (.keyword alertKeywords) with
    attributeName := "Alert", style := DefaultStyle.alert.styleFor "Alert" }

def alertsContext : Context :=
  { Context.ofRules "Alerts" [alert] with
    attributeName := "Comment", style := DefaultStyle.comment.styleFor "Comment" }

/-- The rule that includes them. -/
def includedAlerts : Rule :=
  RuleKind.toRule (.inclusion ⟨"Alerts", 2, false⟩)

/-- The rule for the start of a condition in a block. -/
def conditionStart : Rule :=
  { RuleKind.toRule (.regex (directiveRule "#\\s*if" (.literal "if".toList) 1)) with
    attributeName := "Comment", style := DefaultStyle.comment.styleFor "Comment"
    switch := ⟨0, some ⟨8, "Outscoped Nested", false⟩⟩, firstNonSpace := true }

/-- The rule for the end of a condition in a block. -/
def conditionEnd : Rule :=
  { RuleKind.toRule (.regex (directiveRule "#\\s*endif" (.literal "endif".toList) 1)) with
    attributeName := "Comment", style := DefaultStyle.comment.styleFor "Comment"
    switch := ⟨1, none⟩, firstNonSpace := true }

/-- The rule for the end of a block. -/
def blockEnd : Rule :=
  { RuleKind.toRule (.regex (directiveRule "#\\s*(endif|else|elif)"
      (.group 1 (.choice (leaving.map .literal))) 2)) with
    attributeName := "Preprocessor", style := DefaultStyle.others.styleFor "Preprocessor"
    switch := ⟨1, none⟩, firstNonSpace := true }

/-- A context of a block, which some rule leaves. -/
def blockContext (name : String) (leave : Rule) : Context :=
  { Context.ofRules name [includedAlerts, conditionStart, leave] with
    attributeName := "Comment", style := DefaultStyle.comment.styleFor "Comment" }

theorem exists_build : ∃ built, grammar.build.result = .ok built :=
  GrammarDef.exists_build_of_ranked (fun place => if place = 2 then 0 else 1) (by decide +kernel)

/-- A pattern without leading anchors is resolved to what it compiles to. -/
theorem regex_directive {written : String} {ending : Pattern} {groupCount : Nat}
    (hanchors : RegexRule.splitAnchors false false written.toList = (written.toList, false, false))
    (hcompiled : Regex.compile written.toList false false =
      .ok ⟨.seq (.look .textStart) (directivePattern ending), groupCount⟩)
    (context : String) {options : RuleOptions} (hstatic : options.dynamic = false)
    (hcase : options.caseless = false) (hgreedy : options.minimal = false) :
    Resolver.regex context written.toList options =
      .done (.regex (directiveRule written ending groupCount)) := by
  simp only [Resolver.regex, hanchors, hstatic, hcase, hgreedy, hcompiled, directiveRule,
    Bool.false_eq_true, if_false]

theorem compile_opening : Regex.compile "#\\s*if".toList false false =
    .ok ⟨.seq (.look .textStart) (directivePattern (.literal "if".toList)), 1⟩ := by
  decide +kernel

section

variable {built : Grammar} (hbuild : grammar.build.result = .ok built)

include hbuild

theorem context_alerts : built.contexts[2]? = some alertsContext :=
  GrammarDef.context_of_build hbuild rfl rfl rfl

theorem context_outscoped : built.contexts[7]? = some (blockContext "Outscoped" blockEnd) := by
  have hstart := @regex_directive "#\\s*if" _ _ (by decide) compile_opening
  have hend := @regex_directive "#\\s*(endif|else|elif)"
    (.group 1 (.choice (leaving.map .literal))) 2 (by decide) (by decide +kernel)
  refine GrammarDef.context_of_build hbuild rfl rfl ?_
  simp only [Resolver.context, outscoped, Resolver.rules, Resolver.rule, plain, firstOnLine,
    switching, Language.regex, Resolver.kind, hstart, hend]
  rfl

theorem context_outscopedNested :
    built.contexts[8]? = some (blockContext "Outscoped Nested" conditionEnd) := by
  have hstart := @regex_directive "#\\s*if" _ _ (by decide) compile_opening
  have hend := @regex_directive "#\\s*endif" (.literal "endif".toList) 1 (by decide)
    (by decide +kernel)
  refine GrammarDef.context_of_build hbuild rfl rfl ?_
  simp only [Resolver.context, outscopedNested, Resolver.rules, Resolver.rule, plain, firstOnLine,
    switching, Language.regex, Resolver.kind, hstart, hend]
  rfl

end

/-! ## What is found -/

/-- A rule that finds the directives of some words where they come first on their line. -/
structure FindsDirective (rule : Rule) (words : List (List Char)) : Prop where
  simple : rule.isSimple = true
  allows : ∀ cursor, rule.allows cursor = cursor.firstNonSpace
  takesText : rule.lookAhead = false
  found_iff : ∀ cursor length,
    (∃ attempt captures, rule.detect cursor = .ok attempt ∧
      attempt.found = some (length, captures)) ↔
      ∃ taken rest, directive? words cursor.rest = some (taken, rest) ∧ byteLength taken = length

/-- What the pattern rule of a directive finds. -/
theorem found_directiveRule_iff {ending : Pattern} {words : List (List Char)}
    (hending : ∀ {before taken rest}, ending.Takes before taken rest ↔ taken ∈ words)
    (hwords : Separate words) {written : String} {groupCount : Nat} {cursor : Cursor}
    (wantGroups : Bool) (length : Nat) :
    (∃ captures, ((directiveRule written ending groupCount).find cursor wantGroups).found =
        some (length, captures)) ↔
      ∃ taken rest, directive? words cursor.rest = some (taken, rest) ∧
        byteLength taken = length := by
  have hunique : ∀ first second left right, cursor.rest = first ++ left →
      cursor.rest = second ++ right → (directivePattern ending).Takes none first left →
      (directivePattern ending).Takes none second right → first = second := by
    intro first second left right hfirst hsecond hleft hright
    rw [takes_directive_iff hending hwords, ← hfirst] at hleft
    rw [takes_directive_iff hending hwords, ← hsecond, hleft] at hright
    exact (Prod.mk.inj (Option.some.inj hright)).1
  rw [RegexRule.exists_found_iff_takes rfl rfl hunique]
  have hanchors : (directiveRule written ending groupCount).anchorsHold cursor = true := rfl
  simp only [hanchors, true_and, takes_directive_iff hending hwords]
  constructor
  · rintro ⟨-, taken, rest, hsplit, hlength, hdirective⟩
    rw [← hsplit] at hdirective
    exact ⟨taken, rest, hdirective, hlength⟩
  · rintro ⟨taken, rest, hdirective, hlength⟩
    obtain ⟨hsplit, -⟩ := split_of_directive? hdirective
    refine ⟨?_, taken, rest, hsplit, hlength, hsplit ▸ hdirective⟩
    rw [← hlength]
    exact byteLength_pos_of_directive? hdirective

/-- A rule with such a pattern finds directives. -/
theorem findsDirective_of_kind {ending : Pattern} {words : List (List Char)}
    (hending : ∀ {before taken rest}, ending.Takes before taken rest ↔ taken ∈ words)
    (hwords : Separate words) {written : String} {groupCount : Nat} {rule : Rule}
    (hkind : rule.kind = .regex (directiveRule written ending groupCount))
    (hsimple : rule.isSimple = true) (hcolumn : rule.column = none)
    (hfirst : rule.firstNonSpace = true) (htakes : rule.lookAhead = false) :
    FindsDirective rule words where
  simple := hsimple
  allows cursor := by simp [Rule.allows, hcolumn, hfirst]
  takesText := htakes
  found_iff cursor length := by
    simp only [Rule.detect, hkind, Except.ok.injEq, exists_and_left, exists_eq_left']
    cases hrest : cursor.rest with
    | nil =>
      constructor
      · rintro ⟨captures, hfound⟩
        cases hfound
      · rintro ⟨taken, rest, hdirective, -⟩
        cases hdirective
    | cons c rest =>
      rw [← hrest]
      simp only [hrest, List.isEmpty_cons, Bool.false_eq_true, if_false]
      rw [← hrest]
      exact found_directiveRule_iff hending hwords _ length

theorem findsDirective_conditionStart : FindsDirective conditionStart opening :=
  findsDirective_of_kind (by simp [takes_literal_iff, opening]) separate_opening rfl rfl rfl rfl rfl

theorem findsDirective_conditionEnd : FindsDirective conditionEnd closing :=
  findsDirective_of_kind (by simp [takes_literal_iff, closing]) separate_closing rfl rfl rfl rfl rfl

theorem findsDirective_blockEnd : FindsDirective blockEnd leaving := by
  refine findsDirective_of_kind ?_ separate_leaving rfl rfl rfl rfl rfl
  intro before taken rest
  constructor
  · intro h
    cases h with
    | group takes =>
      obtain ⟨pattern, hpattern, htakes⟩ := (takes_choice_iff (by simp [leaving])).1 takes
      obtain ⟨word, hword, rfl⟩ := List.mem_map.1 hpattern
      rwa [takes_literal_iff.1 htakes]
  · intro h
    refine .group ((takes_choice_iff (by simp [leaving])).2 ?_)
    exact ⟨.literal taken, List.mem_map_of_mem h, takes_literal_iff.2 rfl⟩

/-- Alerts are found neither in white space nor at a number sign. -/
theorem visible_of_alert {cursor : Cursor} {attempt : Attempt (Nat × Option Captures)}
    {found : Nat × Option Captures} (hdetect : alert.detect cursor = .ok attempt)
    (hfound : attempt.found = some found) :
    ∀ c ∈ cursor.rest.head?, isBlank c = false ∧ c ≠ '#' := by
  cases hrest : cursor.rest with
  | nil =>
    intro c hc
    cases hc
  | cons d rest =>
    have hlength : alert.length? cursor = .ok (alertKeywords.length? cursor) := by
      simp only [Rule.length?, hrest]
      rfl
    have hattempt : alert.detect cursor =
        .ok ⟨[], (alertKeywords.length? cursor).map fun length => (length, none)⟩ := by
      simp only [Rule.detect, hlength, bind, Except.bind]
      rfl
    rw [hattempt] at hdetect
    cases hdetect
    obtain ⟨length, hkeyword, -⟩ := Option.map_eq_some_iff.1 hfound
    obtain ⟨word, hword, hne, more, hprefix⟩ := KeywordRule.exists_word_of_length? rfl hkeyword
    rw [hrest] at hprefix
    have hall : ∀ word ∈ alertWords.map String.toList,
        (word.head?.any fun c => isBlank c || c == '#') = false := by decide
    have hstart := hall word hword
    cases word with
    | nil => exact absurd rfl hne
    | cons e word =>
      cases hprefix
      intro c hc
      cases hc
      simpa using hstart

/-- A rule that leaves the context of a block when it finds a directive. -/
structure LeavingRule (leave : Rule) (words : List (List Char)) : Prop
    extends FindsDirective leave words where
  pops : leave.switch = ⟨1, none⟩
  apart : ∀ word ∈ opening, ∀ other ∈ words, ¬word <+: other ∧ ¬other <+: word

theorem leavingRule_conditionEnd : LeavingRule conditionEnd closing :=
  ⟨findsDirective_conditionEnd, rfl, by decide⟩

theorem leavingRule_blockEnd : LeavingRule blockEnd leaving :=
  ⟨findsDirective_blockEnd, rfl, by decide⟩

/-- The rules of a block for directives, with their words. -/
def directives (leave : Rule) (words : List (List Char)) : List (Rule × List (List Char)) :=
  [(conditionStart, opening), (leave, words)]

section

variable {leave : Rule} {words : List (List Char)} (hleave : LeavingRule leave words)

include hleave

theorem LeavingRule.findsDirective {rule : Rule} {own : List (List Char)}
    (h : (rule, own) ∈ directives leave words) : FindsDirective rule own := by
  simp only [directives, List.mem_cons, List.not_mem_nil, or_false, Prod.mk.injEq] at h
  rcases h with ⟨rfl, rfl⟩ | ⟨rfl, rfl⟩
  · exact findsDirective_conditionStart
  · exact hleave.toFindsDirective

/-- In one place there is a directive of one rule only. -/
theorem LeavingRule.unique {rule other : Rule} {own others : List (List Char)}
    (hrule : (rule, own) ∈ directives leave words) (hother : (other, others) ∈ directives leave words)
    {text : List Char} {found found' : List Char × List Char}
    (hown : directive? own text = some found) (hfound : directive? others text = some found') :
    rule = other ∧ own = others := by
  have hapart : ∀ {first second}, directive? opening text = some first →
      directive? words text ≠ some second := by
    intro first second hfirst hsecond
    rw [directive?_eq_none_of_apart hleave.apart hfirst] at hsecond
    cases hsecond
  simp only [directives, List.mem_cons, List.not_mem_nil, or_false, Prod.mk.injEq] at hrule hother
  rcases hrule with ⟨rfl, rfl⟩ | ⟨rfl, rfl⟩ <;> rcases hother with ⟨rfl, rfl⟩ | ⟨rfl, rfl⟩
  · exact ⟨rfl, rfl⟩
  · exact absurd hfound (hapart hown)
  · exact absurd hown (hapart hfound)
  · exact ⟨rfl, rfl⟩

end

/-- What a context of a block can find at a cursor. -/
inductive BlockFinds (leave : Rule) (words : List (List Char)) (cursor : Cursor) : RuleMatch → Prop
  /-- An alert, which is neither white space nor a number sign and changes nothing. -/
  | alert {matched : RuleMatch} (stays : matched.switch = none)
      (ends : matched.lineContinue = false)
      (visible : ∀ c ∈ cursor.rest.head?, isBlank c = false ∧ c ≠ '#') :
      BlockFinds leave words cursor matched
  /-- A directive where it comes first on the line. -/
  | directive {rule : Rule} {own : List (List Char)} {taken rest : List Char}
      {captures : Option Captures} (member : (rule, own) ∈ directives leave words)
      (first : cursor.firstNonSpace = true)
      (found : directive? own cursor.rest = some (taken, rest)) :
      BlockFinds leave words cursor (rule.toMatch (byteLength taken) captures)

section

variable {built : Grammar} (hbuild : grammar.build.result = .ok built) {place : Nat}
  {name : String} {leave : Rule} {words : List (List Char)}
  (hcontext : built.contexts[place]? = some (blockContext name leave))
  (hleave : LeavingRule leave words)

include hbuild hcontext hleave

theorem blockFinds_of_tryRules {cursor : Cursor} {trial : Trial} {matched : RuleMatch}
    (htrial : built.tryRules (blockContext name leave).rules cursor = .ok trial)
    (hfound : trial.found = some matched) : BlockFinds leave words cursor matched := by
  have hresolved : built.Resolved := Grammar.Built.resolved ⟨_, hbuild⟩
  obtain ⟨rule, hrule, hfinds⟩ :=
    Grammar.exists_finds_of_tryRules hresolved hcontext htrial hfound
  have hdirective : ∀ {own}, (rule, own) ∈ directives leave words →
      BlockFinds leave words cursor matched := by
    intro own hmember
    have hown := hleave.findsDirective hmember
    obtain ⟨hplain, hchildren, -⟩ := Rule.isSimple_iff.1 hown.simple
    obtain ⟨hallows, attempt, length, captures, hdetect, hattempt, rfl⟩ :=
      hfinds.detect_of_childless hplain hchildren
    obtain ⟨taken, rest, hdirective, rfl⟩ :=
      (hown.found_iff cursor length).1 ⟨attempt, captures, hdetect, hattempt⟩
    rw [hown.allows] at hallows
    exact .directive hmember hallows hdirective
  simp only [blockContext, Context.ofRules, List.mem_cons, List.not_mem_nil, or_false] at hrule
  rcases hrule with rfl | rfl | rfl
  · obtain ⟨member, hmember, found, hmatch, hswitch, hcontinue⟩ :=
      hfinds.exists_included rfl (context_alerts hbuild)
    obtain rfl : member = alert := List.mem_singleton.1 hmember
    obtain ⟨-, attempt, length, captures, hdetect, hattempt, rfl⟩ :=
      hmatch.detect_of_childless rfl rfl
    exact .alert hswitch hcontinue (visible_of_alert hdetect hattempt)
  · exact hdirective (List.mem_cons_self ..)
  · exact hdirective (List.mem_cons_of_mem _ (List.mem_cons_self ..))

/-- Where a directive comes first on the line, it is found. -/
theorem found_of_directive {cursor : Cursor} {trial : Trial}
    (htrial : built.tryRules (blockContext name leave).rules cursor = .ok trial)
    {rule : Rule} {own : List (List Char)} (hmember : (rule, own) ∈ directives leave words)
    (hfirst : cursor.firstNonSpace = true) {taken rest : List Char}
    (hdirective : directive? own cursor.rest = some (taken, rest)) :
    ∃ captures, trial.found = some (rule.toMatch (byteLength taken) captures) := by
  have hown := hleave.findsDirective hmember
  obtain ⟨attempt, captures, hdetect, hattempt⟩ :=
    (hown.found_iff cursor (byteLength taken)).2 ⟨taken, rest, hdirective, rfl⟩
  cases hfound : trial.found with
  | none =>
    obtain ⟨hplain, hchildren, -⟩ := Rule.isSimple_iff.1 hown.simple
    have hrule : rule ∈ (blockContext name leave).rules := by
      simp only [directives, List.mem_cons, List.not_mem_nil, or_false, Prod.mk.injEq] at hmember
      rcases hmember with ⟨rfl, -⟩ | ⟨rfl, -⟩ <;> simp [blockContext, Context.ofRules]
    obtain ⟨other, hother, hmissed⟩ :=
      (firstMatch_of_tryRules htrial).misses (by rw [hfound]; rfl) rule hrule
    rw [Grammar.tryRule_of_childless hplain hchildren ((hown.allows cursor).trans hfirst) hdetect]
      at hother
    cases hother
    rw [hattempt] at hmissed
    cases hmissed
  | some matched =>
    cases blockFinds_of_tryRules hbuild hcontext hleave htrial hfound with
    | alert stays ends visible =>
      obtain ⟨body, hbody, -⟩ := exists_word_of_directive? hdirective
      rw [hbody] at visible
      exact absurd rfl (visible '#' rfl).2
    | directive member first found =>
      obtain ⟨rfl, rfl⟩ := hleave.unique hmember member hdirective found
      rw [hdirective] at found
      cases found
      exact ⟨_, rfl⟩

end

end Highlight.Language.C
