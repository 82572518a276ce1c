import Highlight.Proofs.KnownContexts
import Highlight.Proofs.LiteralPatterns

/-!
# Captured text stands for itself in a pattern

A context can keep the groups that were captured when it was entered, and its dynamic rules may ask
for them again: `%1` in a pattern stands for the first group.  The text of a group may be anything,
also text that means something in a pattern, so it is escaped before the pattern is compiled.

There are two groups.

* Literals at a cursor.  A rule whose compiled pattern is a literal text finds that text where the
  cursor's text starts with it, and it finds nothing else (`RegexRule.find_literal`).
* Placeholders.  The pattern that is nothing but a placeholder is compiled to the literal of the
  group (`RegexRule.regexAt_placeholder`), so a rule that is built from it takes the captured text
  and no other (`capturedText_matches_literally`).
-/

namespace Highlight

open Regex

/-! ## Literals at a cursor -/

/-- What matches a literal is the literal, as a whole and as its only group. -/
theorem Regex.reach_of_matchAt_literal {text rest : List Char} {found : Match}
    (h : (Pattern.literal text).matchAt ⟨none, rest, 0⟩ = some found) :
    text <+: rest ∧ found.reach rest = text ∧ found.groups rest 1 = [text] := by
  obtain ⟨taken, left, hrest, hstart, hstop, htakes⟩ := covers_of_matchAt h
  obtain rfl := takes_literal_iff.1 htakes
  have hsplit : rest = taken ++ left := hrest
  have hstops : found.stop = taken.length := by simpa using hstop
  subst hsplit
  refine ⟨List.prefix_append taken left, ?_, ?_⟩
  · rw [Match.reach, hstops, List.take_left]
  · have hstarts : found.start = 0 := hstart
    simp [Match.groups, Match.group, List.range_succ, hstarts, hstops]

theorem Regex.exists_matchAt_literal {text rest : List Char} (h : text <+: rest) :
    ∃ found, (Pattern.literal text).matchAt ⟨none, rest, 0⟩ = some found := by
  obtain ⟨left, rfl⟩ := h
  exact Option.isSome_iff_exists.1
    (isSome_matchAt_iff.2 ⟨text, left, rfl, takes_literal_iff.2 rfl⟩)

/-- A rule with the pattern of a text takes that text, unless it is empty, and no other. -/
theorem RegexRule.find_literal {rule : RegexRule} {cursor : Cursor} {text : List Char}
    (hregex : rule.regexAt cursor = .ok ⟨.seq (.look .textStart) (.literal text), 1⟩)
    (hanchors : rule.anchorsHold cursor = true) (wantGroups : Bool) :
    rule.find cursor wantGroups =
      { found :=
          if text ≠ [] ∧ text <+: cursor.rest then
            some (byteLength text, if wantGroups then some [text] else none)
          else none } := by
  have hsearch := @search_of_pattern_eq ⟨.seq (.look .textStart) (.literal text), 1⟩ _ rfl
  rw [find, if_pos hanchors, hregex]
  dsimp only
  rw [hsearch]
  cases hfound : (Pattern.literal text).matchAt ⟨none, cursor.rest, 0⟩ with
  | none =>
    have hmisses : ¬ (text ≠ [] ∧ text <+: cursor.rest) := by
      rintro ⟨-, hbegins⟩
      obtain ⟨found, hsome⟩ := exists_matchAt_literal hbegins
      cases hfound.symm.trans hsome
    rw [if_neg hmisses]
  | some found =>
    obtain ⟨hbegins, hreach, hgroups⟩ := reach_of_matchAt_literal hfound
    dsimp only
    rw [hreach, hgroups]
    by_cases htext : text = []
    · simp [htext]
    · have htakes : text ≠ [] ∧ text <+: cursor.rest := ⟨htext, hbegins⟩
      have hlength : ¬ (byteLength text == 0) = true := by simpa using htext
      rw [if_neg hlength, if_pos htakes]

/-- That is what the rule finds where text is left, and where none is left it finds nothing. -/
theorem Rule.detect_literal {rule : Rule} {regexRule : RegexRule} {cursor : Cursor}
    {text : List Char} (hkind : rule.kind = .regex regexRule)
    (hregex : regexRule.regexAt cursor = .ok ⟨.seq (.look .textStart) (.literal text), 1⟩)
    (hanchors : regexRule.anchorsHold cursor = true) :
    rule.detect cursor = .ok
      { found :=
          if text ≠ [] ∧ text <+: cursor.rest then
            some (byteLength text, if rule.switch.pushesDynamic then some [text] else none)
          else none } := by
  have hdetect : rule.detect cursor = .ok
      (if cursor.rest.isEmpty then {} else regexRule.find cursor rule.switch.pushesDynamic) := by
    rw [Rule.detect, hkind]
  rw [hdetect, RegexRule.find_literal hregex hanchors]
  by_cases hrest : cursor.rest = []
  · have hmisses : ¬ (text ≠ [] ∧ text <+: cursor.rest) := by
      rintro ⟨htext, hbegins⟩
      rw [hrest] at hbegins
      exact htext (List.prefix_nil.1 hbegins)
    rw [if_pos (List.isEmpty_iff.2 hrest), if_neg hmisses]
  · rw [if_neg (mt List.isEmpty_iff.1 hrest)]

/-! ## Placeholders -/

/-- The rule of the pattern that is nothing but the placeholder of a group. -/
def placeholderRule (index : Nat) (minimal : Bool) : RegexRule where
  text := ['%', index.digitChar]
  compiled := none
  caseless := false
  minimal := minimal
  wordStart := false
  lineStart := false

theorem fillIn_placeholder_cons (group : Nat → List Char) {index : Nat} (hindex : index < 10)
    (value : List Char) :
    fillIn group ('%' :: index.digitChar :: value) = group index ++ fillIn group value := by
  have hdigit : index.digitChar.isDigit = true := by
    rw [Nat.isDigit_digitChar, decide_eq_true hindex]
  have hindexed : index.digitChar.toNat - '0'.toNat = index := by
    rw [Nat.toNat_digitChar_of_lt_ten hindex]
    exact Nat.add_sub_cancel_left 48 index
  rw [fillIn, if_pos hdigit, hindexed]

theorem fillIn_placeholder (group : Nat → List Char) {index : Nat} (hindex : index < 10) :
    fillIn group ['%', index.digitChar] = group index := by
  rw [fillIn_placeholder_cons group hindex, fillIn, List.append_nil]

/-- The pattern is compiled to the literal of the group, unless that takes too much room. -/
theorem RegexRule.regexAt_placeholder {index : Nat} (hindex : index < 10) {minimal : Bool}
    {cursor : Cursor}
    (hroom : compile (escape (cursor.capture index)) false minimal ≠ .error .tooBig) :
    (placeholderRule index minimal).regexAt cursor =
      .ok ⟨.seq (.look .textStart) (.literal (cursor.capture index)), 1⟩ := by
  simp only [regexAt, placeholderRule, fillIn_placeholder _ hindex,
    compile_escape_of_ne_tooBig hroom]

/-- Building the rule keeps the pattern, which has no anchors. -/
theorem Resolver.kind_of_placeholder {resolver : Resolver} {owner : String} {ownerStyle : Style}
    {written : RuleDef} {rule : Rule}
    (hrule : (resolver.rule owner ownerStyle written).result = .ok rule) {index : Nat}
    (hkind : written.kind = .regex ['%', index.digitChar])
    (hdynamic : written.options.dynamic = true) (hcase : written.options.caseless = false) :
    rule.kind = .regex (placeholderRule index written.options.minimal) ∧ rule.children = [] := by
  obtain ⟨kind, options, children⟩ := written
  obtain rfl : kind = .regex ['%', index.digitChar] := hkind
  rw [Resolver.rule] at hrule
  obtain ⟨resolved, hresolved, hrule⟩ := Reported.andThen_eq_ok_iff.1 hrule
  obtain ⟨extending, hextending, hrule⟩ := Reported.andThen_eq_ok_iff.1 hrule
  obtain ⟨style, -, hrule⟩ := Reported.andThen_eq_ok_iff.1 hrule
  obtain ⟨switch, -, hrule⟩ := Reported.andThen_eq_ok_iff.1 hrule
  cases hrule
  cases hextending
  obtain ⟨regex, rfl, hregex⟩ := Resolver.resolves_regex hresolved
  obtain ⟨text, compiled, caseless, minimal, wordStart, lineStart⟩ := regex
  obtain rfl : compiled = none := hregex.dynamic hdynamic
  obtain rfl : caseless = false := hregex.caseless.trans hcase
  obtain rfl : minimal = options.minimal := hregex.minimal
  obtain ⟨rfl, rfl, rfl⟩ : text = ['%', index.digitChar] ∧ wordStart = false ∧
      lineStart = false := by
    have hanchors := hregex.anchors
    simpa [RegexRule.splitAnchors, eq_comm] using hanchors
  exact ⟨rfl, rfl⟩

/-- A dynamic rule whose pattern is the placeholder of a group takes the captured text as it is, and
nothing else: the pattern compiles whatever the text is, if it does not take too much room. -/
theorem capturedText_matches_literally {resolver : Resolver} {owner : String} {ownerStyle : Style}
    {written : RuleDef} {rule : Rule}
    (hrule : (resolver.rule owner ownerStyle written).result = .ok rule) {index : Nat}
    (hindex : index < 10) (hkind : written.kind = .regex ['%', index.digitChar])
    (hdynamic : written.options.dynamic = true) (hcase : written.options.caseless = false)
    {cursor : Cursor} {captures : Captures} {text : List Char}
    (hdata : cursor.data = some captures) (hgroup : captures[index]? = some text)
    (hroom : compile (escape text) false written.options.minimal ≠ .error .tooBig) :
    (∃ regex, compile (escape text) false written.options.minimal = .ok regex) ∧
      rule.detect cursor = .ok
        { found :=
            if text ≠ [] ∧ text <+: cursor.rest then
              some (byteLength text, if rule.switch.pushesDynamic then some [text] else none)
            else none } ∧
      ∀ grammar : Grammar, grammar.tryRule rule cursor = .ok
        { found :=
            if rule.allows cursor = true ∧ text ≠ [] ∧ text <+: cursor.rest then
              some (rule.toMatch (byteLength text)
                (if rule.switch.pushesDynamic then some [text] else none))
            else none } := by
  obtain ⟨hrules, hchildren⟩ :=
    Resolver.kind_of_placeholder hrule hkind hdynamic hcase
  have hcapture : cursor.capture index = text := by
    rw [Cursor.capture, hdata, Option.bind_some, hgroup, Option.getD_some]
  have hregex := RegexRule.regexAt_placeholder hindex (hcapture ▸ hroom)
  rw [hcapture] at hregex
  have hdetect := Rule.detect_literal hrules hregex rfl
  refine ⟨⟨_, compile_escape_of_ne_tooBig hroom⟩, hdetect, ?_⟩
  intro grammar
  by_cases hallows : rule.allows cursor = true
  · have hplain : rule.includedContext? = none := by
      rw [Rule.includedContext?, hrules]
    rw [Grammar.tryRule_of_childless hplain hchildren hallows hdetect]
    simp only [hallows, true_and]
    split <;> rfl
  · rw [Grammar.tryRule, if_neg hallows, if_neg fun h => hallows h.1]

/-- A captured name, with characters that mean something in a pattern or in a placeholder. -/
def dottedName : List Char :=
  ['a', '.', '%', '1', 'é']

/-- A cursor in a context that was entered with that name. -/
def dottedCursor (rest : List Char) : Cursor :=
  { (default : Cursor) with rest, data := some [[], dottedName] }

/-- Asks for the name again. -/
def dottedRule : RuleDef where
  kind := .regex ['%', '1']
  options := { dynamic := true }

/-- A language that has neither contexts, items nor lists to refer to. -/
def bareResolver : Resolver :=
  { contexts := [], styles := [], lists := [], caseSensitive := true, strict := false }

/-- The dot takes a dot and no other character. -/
theorem capturedText_matches_literally_dottedName :
    ∃ rule, (bareResolver.rule "Text" {} dottedRule).result = .ok rule ∧
      rule.detect (dottedCursor (dottedName ++ ['!'])) = .ok { found := some (6, none) } ∧
      rule.detect (dottedCursor ['a', 'b', '%', '1', 'é', '!']) = .ok {} := by
  obtain ⟨rule, hrule, hpushes⟩ : ∃ rule,
      (bareResolver.rule "Text" {} dottedRule).result = .ok rule ∧
        rule.switch.pushesDynamic = false := ⟨_, rfl, rfl⟩
  have hroom : compile (escape dottedName) false dottedRule.options.minimal ≠ .error .tooBig := by
    rw [compile_escape, if_neg (by decide)]
    exact nofun
  refine ⟨rule, hrule, ?_, ?_⟩
  · obtain ⟨-, hdetect, -⟩ := @capturedText_matches_literally _ _ _ _ _ hrule 1 (by decide) rfl
      rfl rfl (dottedCursor (dottedName ++ ['!'])) _ _ rfl rfl hroom
    rw [hdetect, hpushes]
    rfl
  · obtain ⟨-, hdetect, -⟩ := @capturedText_matches_literally _ _ _ _ _ hrule 1 (by decide) rfl
      rfl rfl (dottedCursor ['a', 'b', '%', '1', 'é', '!']) _ _ rfl rfl hroom
    rw [hdetect, hpushes]
    rfl

end Highlight
