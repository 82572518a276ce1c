import Highlight.Proofs.KnownContexts
import Highlight.Proofs.MatchingCalls
import Mathlib.Data.List.TakeWhile

/-!
# Whole words

A keyword rule matches a word of its list, and a word rule matches its value, where that stands
between delimiters or the ends of the line.

There are four groups.

* Delimiters.  `GrammarDef.Delimits` says which characters a description has end words, and
  `GrammarDef.Separates` that a part of a line stands between such characters.
* Cursors.  What a keyword rule and a word rule take at any cursor
  (`KeywordRule.length?_eq_some_iff`, `Rule.exists_length?_of_word`).
* Lists.  The words of a rule of a built grammar are those of the last list of its name
  (`KeywordRule.Resolves.contains_iff`), and only rules for numbers have rules behind them
  (`Rule.OnlyNumbersExtended`), so that a keyword or word rule gives its own match.
* Lines.  `whole_words_match` puts them together at the cursors of a line.  A word rule without a
  value finds nothing, also where nothing stands between delimiters (`exists_unmatched_value`).
-/

namespace Highlight

/-! ## Delimiters -/

namespace GrammarDef

/-- A character ends words: it is white space, a standard delimiter that is not weak, or an
additional one. -/
def Delimits (description : GrammarDef) (c : Char) : Prop :=
  Unicode.isBlank c = true ∨
    (c ∈ Delimiters.standardChars ∧ c ∉ description.weakDelimiters) ∨
    c ∈ description.additionalDelimiters

/-- What stands between two parts of a line begins at its start or behind a delimiter, and ends at
its end or before one. -/
structure Separates (description : GrammarDef) (before behind : List Char) : Prop where
  start : ∀ c ∈ before.getLast?, description.Delimits c
  stop : ∀ c ∈ behind.head?, description.Delimits c

/-- A word is in the last list of a name, apart from case if case does not count. -/
def Lists (description : GrammarDef) (list : String) (word : List Char) : Prop :=
  ∃ front words back, description.lists = front ++ (list, words) :: back ∧
    (∀ later ∈ back, later.1 ≠ list) ∧
    ∃ entry ∈ words, if description.caseSensitive then entry.toList = word
      else Unicode.lowercase entry.toList = Unicode.lowercase word

theorem contains_delimiters_iff {description : GrammarDef} {grammar : Grammar}
    (hbuild : description.build.result = .ok grammar) {c : Char} :
    grammar.delimiters.contains c = true ↔ description.Delimits c := by
  rw [delimiters_of_build hbuild]
  exact Delimiters.contains_adjusted

end GrammarDef

/-! ## Cursors -/

/-- The characters of a kind that a text starts with end at its end or before one of another
kind. -/
theorem takeWhile_eq_iff {kind : Char → Bool} {text run : List Char} :
    text.takeWhile kind = run ↔ ∃ behind, text = run ++ behind ∧
      (∀ c ∈ run, kind c = true) ∧ ∀ c ∈ behind.head?, kind c = false := by
  constructor
  · rintro rfl
    refine ⟨text.dropWhile kind, List.takeWhile_append_dropWhile.symm,
      fun c => List.mem_takeWhile_imp, fun c hc => ?_⟩
    have hstop := List.head?_dropWhile_not kind text
    rw [Option.mem_def.1 hc] at hstop
    simpa using hstop
  · rintro ⟨behind, rfl, hrun, hstop⟩
    rw [List.takeWhile_append_of_pos hrun]
    cases behind with
    | nil => rw [List.takeWhile_nil, List.append_nil]
    | cons c behind =>
      rw [List.takeWhile_cons_of_neg (by simpa using hstop c rfl), List.append_nil]

theorem Cursor.word?_eq_some_iff {cursor : Cursor} {word : List Char} :
    cursor.word? = some word ↔
      word ≠ [] ∧ (cursor.rest.takeWhile fun c => !cursor.delimiters.contains c) = word := by
  constructor
  · intro h
    obtain ⟨hne, hrun⟩ := Cursor.word?_eq_some h
    exact ⟨hne, hrun.symm⟩
  · rintro ⟨hne, hrun⟩
    obtain ⟨c, chars, rfl⟩ := List.exists_cons_of_ne_nil hne
    unfold Cursor.word?
    rw [hrun]

/-- A keyword rule takes the word at the cursor if it is one of its list. -/
theorem KeywordRule.length?_eq_some_iff {rule : KeywordRule} {cursor : Cursor} {length : Nat} :
    rule.length? cursor = some length ↔ cursor.wordStart = true ∧ ∃ word, cursor.word? = some word ∧
      rule.words.contains (if rule.caseSensitive then word else Unicode.lowercase word) = true ∧
      byteLength word = length := by
  unfold KeywordRule.length?
  cases cursor.word? with
  | none => simp
  | some word => simp

theorem Rule.length?_of_keyword {rule : Rule} {keyword : KeywordRule}
    (hkind : rule.kind = .keyword keyword) (cursor : Cursor) :
    rule.length? cursor = .ok (keyword.length? cursor) := by
  cases hrest : cursor.rest with
  | nil => simp [Rule.length?, KeywordRule.length?, Cursor.word?, hrest]
  | cons c rest => simp only [Rule.length?, hrest, hkind]

/-- A part of a text is a value, character by character apart from case if case does not count. -/
def Spells (caseless : Bool) (part value : List Char) : Prop :=
  if caseless then
    List.Forall₂ (fun c d => Unicode.lowercaseChar c = Unicode.lowercaseChar d) part value
  else part = value

theorem Spells.eq_nil {caseless : Bool} {value : List Char} (h : Spells caseless [] value) :
    value = [] := by
  cases caseless with
  | true =>
    cases h
    rfl
  | false =>
    cases h
    rfl

theorem caselessPrefixLength?_eq_some_iff {text value : List Char} {length : Nat} :
    caselessPrefixLength? text value = some length ↔ ∃ part behind, text = part ++ behind ∧
      Spells true part value ∧ byteLength part = length := by
  induction value generalizing text length with
  | nil =>
    rw [caselessPrefixLength?]
    constructor
    · intro h
      cases h
      exact ⟨[], text, rfl, .nil, rfl⟩
    · rintro ⟨part, behind, -, hspells, rfl⟩
      cases hspells
      rfl
  | cons d value ih =>
    cases text with
    | nil =>
      rw [caselessPrefixLength?]
      refine iff_of_false (fun h => by cases h) ?_
      rintro ⟨part, behind, htext, hspells, -⟩
      cases hspells
      cases htext
    | cons c text =>
      rw [caselessPrefixLength?]
      constructor
      · intro h
        obtain ⟨hsame, hrest⟩ := Option.ite_none_right_eq_some.1 h
        obtain ⟨count, hcount, rfl⟩ := Option.map_eq_some_iff.1 hrest
        obtain ⟨part, behind, rfl, hspells, rfl⟩ := ih.1 hcount
        exact ⟨c :: part, behind, rfl, .cons (beq_iff_eq.1 hsame) hspells, rfl⟩
      · rintro ⟨part, behind, htext, hspells, rfl⟩
        cases hspells with
        | cons hsame hrest =>
          cases htext
          have hcount := ih.2 ⟨_, behind, rfl, hrest, rfl⟩
          rw [if_pos (beq_iff_eq.2 hsame)]
          exact congrArg (Option.map (c.utf8Size + ·)) hcount

theorem textLength?_eq_some_iff {text value : List Char} {caseless : Bool} {length : Nat} :
    textLength? text value caseless = some length ↔ value ≠ [] ∧ ∃ part behind,
      text = part ++ behind ∧ Spells caseless part value ∧ byteLength part = length := by
  unfold textLength?
  cases value with
  | nil => simp
  | cons d value =>
    rw [if_neg (by simp), and_iff_right (List.cons_ne_nil d value)]
    cases caseless with
    | true => exact caselessPrefixLength?_eq_some_iff
    | false =>
      rw [if_neg Bool.false_ne_true, Option.ite_none_right_eq_some, List.isPrefixOf_iff_prefix]
      constructor
      · rintro ⟨⟨behind, rfl⟩, hlength⟩
        exact ⟨d :: value, behind, rfl, rfl, Option.some.inj hlength⟩
      · rintro ⟨part, behind, rfl, hspells, rfl⟩
        obtain rfl : part = d :: value := hspells
        exact ⟨⟨behind, rfl⟩, rfl⟩

/-- A word rule takes its value where that begins and ends a word. -/
theorem Rule.exists_length?_of_word {rule : Rule} {value : List Char} {caseless : Bool}
    (hkind : rule.kind = .word value caseless) (cursor : Cursor) :
    ∃ found, rule.length? cursor = .ok found ∧ ∀ length, found = some length ↔
      cursor.wordStart = true ∧ value ≠ [] ∧ ∃ part behind, cursor.rest = part ++ behind ∧
        Cursor.endsWord cursor.delimiters behind = true ∧ Spells caseless part value ∧
        byteLength part = length := by
  have hfits : ∀ {part behind length}, value ≠ [] → cursor.rest = part ++ behind →
      Spells caseless part value → byteLength part = length →
      textLength? cursor.rest value caseless = some length :=
    fun hne hrest hspells hlength =>
      textLength?_eq_some_iff.2 ⟨hne, _, _, hrest, hspells, hlength⟩
  cases hrest : cursor.rest with
  | nil =>
    refine ⟨none, by simp only [length?, hrest], fun length => ?_⟩
    refine iff_of_false (fun h => by cases h) ?_
    rintro ⟨-, hne, part, behind, htext, -, hspells, hlength⟩
    obtain ⟨rfl, -⟩ := List.append_eq_nil_iff.1 htext.symm
    exact hne hspells.eq_nil
  | cons c rest =>
    rw [hrest] at hfits
    by_cases hstart : cursor.wordStart = true
    · cases htext : textLength? (c :: rest) value caseless with
      | none =>
        refine ⟨none, ?_, fun length => ?_⟩
        · simp only [length?, hrest, hkind, atWordStart, if_pos hstart, htext]
        · refine iff_of_false (fun h => by cases h) ?_
          rintro ⟨-, hne, part, behind, hsplit, -, hspells, hlength⟩
          rw [hfits hne hsplit hspells hlength] at htext
          cases htext
      | some count =>
        obtain ⟨hne, part, behind, hsplit, hspells, hbytes⟩ := textLength?_eq_some_iff.1 htext
        have hcut := splitAtByte?_eq_some_iff.2 ⟨hsplit, hbytes⟩
        have hends : cursor.wordEnd? count = some (Cursor.endsWord cursor.delimiters behind) := by
          rw [Cursor.wordEnd?, hrest, hcut, Option.map_some]
        refine ⟨if Cursor.endsWord cursor.delimiters behind then some count else none, ?_,
          fun length => ?_⟩
        · simp only [length?, hrest, hkind, atWordStart, if_pos hstart, htext, hends, orFault, bind,
            Except.bind]
        · rw [Option.ite_none_right_eq_some]
          constructor
          · rintro ⟨hstop, hlength⟩
            cases hlength
            exact ⟨hstart, hne, part, behind, hsplit, hstop, hspells, hbytes⟩
          · rintro ⟨-, -, other, left, hother, hstop, hsame, hlength⟩
            rw [hfits hne hother hsame hlength] at htext
            cases htext
            rw [splitAtByte?_eq_some_iff.2 ⟨hother, hlength⟩] at hcut
            cases hcut
            exact ⟨hstop, rfl⟩
    · refine ⟨none, ?_, fun length => iff_of_false (fun h => by cases h) fun h => hstart h.1⟩
      simp only [length?, hrest, hkind, atWordStart, if_neg hstart]

/-! ## Lists -/

/-- Only rules for numbers have rules behind them. -/
inductive Rule.OnlyNumbersExtended : Rule → Prop
  | intro {rule : Rule} (plain : rule.kind ≠ .int → rule.kind ≠ .float → rule.children = [])
      (children : ∀ child ∈ rule.children, OnlyNumbersExtended child) : OnlyNumbersExtended rule

namespace Resolver

variable {resolver : Resolver}

/-- What was written as a number is one. -/
theorem number_of_kind {context : String} {options : RuleOptions} {written : RuleDefKind}
    {kind : RuleKind} (h : (resolver.kind context options written).result = .ok kind)
    (hnumber : written.isNumber = true) : kind = .int ∨ kind = .float := by
  cases written <;> cases hnumber <;> cases h
  · exact .inl rfl
  · exact .inr rfl

-- As in the resolver, a rule is followed into the rules that extend it.
mutual

theorem onlyNumbersExtended_rule {context : String} {contextStyle : Style} (written : RuleDef)
    {rule : Rule} (h : (resolver.rule context contextStyle written).result = .ok rule) :
    rule.OnlyNumbersExtended := by
  match written with
  | ⟨kind, options, children⟩ =>
    rw [Resolver.rule] at h
    obtain ⟨resolved, hkind, h⟩ := Reported.andThen_eq_ok_iff.1 h
    obtain ⟨extending, hchildren, h⟩ := Reported.andThen_eq_ok_iff.1 h
    obtain ⟨style, -, h⟩ := Reported.andThen_eq_ok_iff.1 h
    obtain ⟨switch, -, h⟩ := Reported.andThen_eq_ok_iff.1 h
    cases h
    split at hchildren
    · next hnumber =>
      refine .intro (fun hint hfloat => ?_) (onlyNumbersExtended_rules children hchildren)
      rcases number_of_kind hkind hnumber with hkind | hkind
      · exact absurd hkind hint
      · exact absurd hkind hfloat
    · cases hchildren
      exact .intro (fun _ _ => rfl) fun child hchild => by cases hchild

theorem onlyNumbersExtended_rules {context : String} {contextStyle : Style}
    (written : List RuleDef) {rules : List Rule}
    (h : (resolver.rules context contextStyle written).result = .ok rules) :
    ∀ rule ∈ rules, rule.OnlyNumbersExtended := by
  match written with
  | [] =>
    rw [Resolver.rules] at h
    cases h
    intro rule hrule
    cases hrule
  | first :: rest =>
    rw [Resolver.rules] at h
    obtain ⟨rule, hrule, h⟩ := Reported.andThen_eq_ok_iff.1 h
    obtain ⟨others, hothers, h⟩ := Reported.andThen_eq_ok_iff.1 h
    cases h
    exact List.forall_mem_cons.2
      ⟨onlyNumbersExtended_rule first hrule, onlyNumbersExtended_rules rest hothers⟩

end

end Resolver

section

variable {description : GrammarDef} {grammar : Grammar}

/-- Every rule of a grammar comes from one that was written. -/
theorem GrammarDef.exists_written (hbuild : description.build.result = .ok grammar) {rule : Rule}
    (hrule : grammar.HasRule rule) :
    ∃ written, Rule.Resolves description grammar.contexts written rule := by
  induction hrule with
  | top context_mem mem =>
    obtain ⟨written, -, hcontext⟩ :=
      exists_mem_left_of_forall₂ (GrammarDef.grammar_resolves hbuild).contexts context_mem
    obtain ⟨rule, -, hresolves⟩ := exists_mem_left_of_forall₂ hcontext.rules mem
    exact ⟨rule, hresolves⟩
  | child parent mem ih =>
    obtain ⟨written, hresolves⟩ := ih
    cases hresolves with
    | intro kind dynamic switch children =>
      obtain ⟨rule, -, hchild⟩ := exists_mem_left_of_forall₂ children mem
      exact ⟨rule, hchild⟩

theorem GrammarDef.onlyNumbersExtended (hbuild : description.build.result = .ok grammar)
    {rule : Rule} (hrule : grammar.HasRule rule) : rule.OnlyNumbersExtended := by
  induction hrule with
  | top context_mem mem =>
    obtain ⟨-, -, styles, -, hcontexts, -⟩ := GrammarDef.build_eq_ok hbuild
    obtain ⟨written, -, h⟩ := exists_mem_left_of_forall₂ hcontexts context_mem
    obtain ⟨style, -, h⟩ := Reported.andThen_eq_ok_iff.1 h
    obtain ⟨fallthrough, -, h⟩ := Reported.andThen_eq_ok_iff.1 h
    obtain ⟨rules, hrules, h⟩ := Reported.andThen_eq_ok_iff.1 h
    obtain ⟨lineEnd, -, h⟩ := Reported.andThen_eq_ok_iff.1 h
    obtain ⟨lineBegin, -, h⟩ := Reported.andThen_eq_ok_iff.1 h
    cases h
    exact Resolver.onlyNumbersExtended_rules _ hrules _ mem
  | child parent mem ih =>
    cases ih with
    | intro plain children => exact children _ mem

/-- The list of a rule of a grammar, and how its words are compared. -/
theorem KeywordRule.Resolves.contains_iff {keyword : KeywordRule}
    (h : keyword.Resolves description) {word : List Char} :
    keyword.words.contains (if keyword.caseSensitive then word else Unicode.lowercase word) = true ↔
      description.Lists keyword.list word := by
  obtain ⟨front, words, back, hlists, hlast, hwords⟩ := h.words
  have hentry : ∀ entry : String,
      (if description.caseSensitive then entry.toList else lowercaseKey entry) =
          (if description.caseSensitive then word else Unicode.lowercase word) ↔
        if description.caseSensitive then entry.toList = word
          else Unicode.lowercase entry.toList = Unicode.lowercase word := by
    intro entry
    split
    · exact Iff.rfl
    · exact Iff.rfl
  rw [List.contains_iff_mem, hwords, List.mem_map, h.caseSensitive]
  constructor
  · rintro ⟨entry, hmem, heq⟩
    exact ⟨front, words, back, hlists, hlast, entry, hmem, (hentry entry).1 heq⟩
  · rintro ⟨front', words', back', hlists', hlast', entry, hmem, heq⟩
    have hsame : some words = some words' :=
      (lookupLast_eq_some_iff.2 ⟨front, back, hlists, hlast⟩).symm.trans
        (lookupLast_eq_some_iff.2 ⟨front', back', hlists', hlast'⟩)
    cases hsame
    exact ⟨entry, hmem, (hentry entry).2 heq⟩

end

/-! ## Lines -/

/-- A rule stands for itself: its match has one of the right lengths, or there is none. -/
def Grammar.MatchesExactly (grammar : Grammar) (rule : Rule) (cursor : Cursor)
    (right : Nat → Prop) : Prop :=
  ∃ found, rule.length? cursor = .ok found ∧
    grammar.tryRule rule cursor =
      .ok { found := found.map fun length => rule.toMatch length none } ∧
    ∀ length, found = some length ↔ right length

/-- A word of a list stands between two parts of a line. -/
structure GrammarDef.KeywordBetween (description : GrammarDef) (list : String)
    (before word behind : List Char) : Prop where
  separates : description.Separates before behind
  nonempty : word ≠ []
  whole : ∀ c ∈ word, ¬description.Delimits c
  listed : description.Lists list word

/-- A value stands between two parts of a line. -/
structure GrammarDef.ValueBetween (description : GrammarDef) (caseless : Bool) (value : List Char)
    (before part behind : List Char) : Prop where
  separates : description.Separates before behind
  spells : Spells caseless part value

section

variable {description : GrammarDef} {grammar : Grammar}

/-- What the cursor at an offset of a line sees of it. -/
theorem Cursor.at?_append {before text : List Char} {column leading : Nat} {data : Option Captures}
    {delimiters : Delimiters} {cursor : Cursor}
    (h : Cursor.at? (before ++ text) (byteLength before) column leading data delimiters =
      some cursor) :
    cursor.before = before.getLast? ∧ cursor.rest = text ∧ cursor.delimiters = delimiters := by
  rw [Cursor.at?, splitAtByte?_eq_some_iff.2 ⟨rfl, rfl⟩] at h
  cases h
  exact ⟨rfl, rfl, rfl⟩

theorem Cursor.separates_iff (hbuild : description.build.result = .ok grammar)
    {before behind : List Char} {cursor : Cursor} (hbefore : cursor.before = before.getLast?)
    (hdelimiters : cursor.delimiters = grammar.delimiters) :
    cursor.wordStart = true ∧ Cursor.endsWord cursor.delimiters behind = true ↔
      description.Separates before behind := by
  unfold Cursor.wordStart Cursor.endsWord
  rw [hbefore, hdelimiters, Option.all_eq_true, Option.all_eq_true]
  constructor
  · rintro ⟨hstart, hstop⟩
    exact ⟨fun c hc => (GrammarDef.contains_delimiters_iff hbuild).1 (hstart c hc),
      fun c hc => (GrammarDef.contains_delimiters_iff hbuild).1 (hstop c hc)⟩
  · rintro ⟨hstart, hstop⟩
    exact ⟨fun c hc => (GrammarDef.contains_delimiters_iff hbuild).2 (hstart c hc),
      fun c hc => (GrammarDef.contains_delimiters_iff hbuild).2 (hstop c hc)⟩

/-- What a keyword rule of a grammar takes on a line. -/
theorem KeywordRule.Resolves.length?_eq_some_iff (hbuild : description.build.result = .ok grammar)
    {keyword : KeywordRule} (hresolves : keyword.Resolves description) {before : List Char}
    {cursor : Cursor} (hbefore : cursor.before = before.getLast?)
    (hdelimiters : cursor.delimiters = grammar.delimiters) {length : Nat} :
    keyword.length? cursor = some length ↔ ∃ word behind, cursor.rest = word ++ behind ∧
      byteLength word = length ∧ description.KeywordBetween keyword.list before word behind := by
  have hdelimits : ∀ c, cursor.delimiters.contains c = true ↔ description.Delimits c := fun c => by
    rw [hdelimiters]
    exact GrammarDef.contains_delimiters_iff hbuild
  rw [KeywordRule.length?_eq_some_iff]
  constructor
  · rintro ⟨hstart, word, hword, hlisted, hlength⟩
    obtain ⟨hne, hrun⟩ := Cursor.word?_eq_some_iff.1 hword
    obtain ⟨behind, hrest, hwhole, hstop⟩ := takeWhile_eq_iff.1 hrun
    refine ⟨word, behind, hrest, hlength, ?_, hne, ?_, hresolves.contains_iff.1 hlisted⟩
    · refine (Cursor.separates_iff hbuild hbefore hdelimiters).1 ⟨hstart, ?_⟩
      exact (Option.all_eq_true _ _).2 fun c hc => by simpa using hstop c hc
    · intro c hc hdelimiter
      have hplain := hwhole c hc
      rw [(hdelimits c).2 hdelimiter] at hplain
      cases hplain
  · rintro ⟨word, behind, hrest, hlength, hword⟩
    obtain ⟨hstart, hends⟩ :=
      (Cursor.separates_iff hbuild hbefore hdelimiters).2 hword.separates
    refine ⟨hstart, word, Cursor.word?_eq_some_iff.2 ⟨hword.nonempty, ?_⟩,
      hresolves.contains_iff.2 hword.listed, hlength⟩
    refine takeWhile_eq_iff.2 ⟨behind, hrest, fun c hc => ?_, fun c hc => ?_⟩
    · have hplain := mt (hdelimits c).1 (hword.whole c hc)
      simpa using hplain
    · rw [(Option.all_eq_true _ _).1 hends c hc]
      rfl

/-- A rule other than a number, a pattern or an inclusion stands for itself. -/
theorem GrammarDef.matchesExactly (hbuild : description.build.result = .ok grammar) {rule : Rule}
    (hrule : grammar.HasRule rule) {cursor : Cursor} (hallows : rule.allows cursor = true)
    (hint : rule.kind ≠ .int) (hfloat : rule.kind ≠ .float)
    (hpattern : ∀ regex, rule.kind ≠ .regex regex) (hplain : rule.includedContext? = none)
    {found : Option Nat} (hfound : rule.length? cursor = .ok found) {right : Nat → Prop}
    (hright : ∀ length, found = some length ↔ right length) :
    grammar.MatchesExactly rule cursor right := by
  refine ⟨found, hfound, ?_, hright⟩
  cases GrammarDef.onlyNumbersExtended hbuild hrule with
  | intro plain children =>
    exact grammar.tryRule_of_length? hpattern hplain (plain hint hfloat) hallows hfound

end

/-- Keywords and words match where they stand whole.  Where a rule of a built grammar may match at a
place of a line, a keyword rule matches the words of its list that begin at the line's start or
behind a delimiter, have none in them, and end at the line's end or before one; a word rule with a
value matches the texts between such ends that spell it, which may have delimiters in them.  A
character is a delimiter if it is white space, standard and not weak, or additional. -/
theorem whole_words_match {description : GrammarDef} {grammar : Grammar}
    (hbuild : description.build.result = .ok grammar) {rule : Rule} (hrule : grammar.HasRule rule)
    {before text : List Char} {data : Option Captures} {cursor : Cursor}
    (hcursor : Cursor.at? (before ++ text) (byteLength before) before.length
      (leadingBlanks (before ++ text)) data grammar.delimiters = some cursor)
    (hallows : rule.allows cursor = true) :
    (∀ c, grammar.delimiters.contains c = true ↔ Unicode.isBlank c = true ∨
      (c ∈ Delimiters.standardChars ∧ c ∉ description.weakDelimiters) ∨
      c ∈ description.additionalDelimiters) ∧
    (∀ keyword, rule.kind = .keyword keyword → grammar.MatchesExactly rule cursor fun length =>
      ∃ word behind, text = word ++ behind ∧ byteLength word = length ∧
        description.KeywordBetween keyword.list before word behind) ∧
    ∀ value caseless, rule.kind = .word value caseless →
      grammar.MatchesExactly rule cursor fun length => value ≠ [] ∧
        ∃ part behind, text = part ++ behind ∧ byteLength part = length ∧
          description.ValueBetween caseless value before part behind := by
  obtain ⟨hbefore, rfl, hdelimiters⟩ := Cursor.at?_append hcursor
  refine ⟨fun c => GrammarDef.contains_delimiters_iff hbuild, fun keyword hkind => ?_,
    fun value caseless hkind => ?_⟩
  · obtain ⟨written, hwritten⟩ := GrammarDef.exists_written hbuild hrule
    cases hwritten with
    | intro kind dynamic switch children =>
      rw [hkind] at kind
      refine GrammarDef.matchesExactly hbuild hrule hallows ?_ ?_ ?_ ?_
        (Rule.length?_of_keyword hkind cursor)
        fun length => kind.2.length?_eq_some_iff hbuild hbefore hdelimiters
      all_goals simp [Rule.includedContext?, hkind]
  · obtain ⟨found, hfound, hright⟩ := Rule.exists_length?_of_word hkind cursor
    refine GrammarDef.matchesExactly hbuild hrule hallows ?_ ?_ ?_ ?_ hfound fun length => ?_
    case refine_5 =>
      rw [hright]
      constructor
      · rintro ⟨hstart, hne, part, behind, hrest, hends, hspells, hlength⟩
        exact ⟨hne, part, behind, hrest, hlength,
          (Cursor.separates_iff hbuild hbefore hdelimiters).1 ⟨hstart, hends⟩, hspells⟩
      · rintro ⟨hne, part, behind, hrest, hlength, hvalue⟩
        obtain ⟨hstart, hends⟩ :=
          (Cursor.separates_iff hbuild hbefore hdelimiters).2 hvalue.separates
        exact ⟨hstart, hne, part, behind, hrest, hends, hvalue.spells, hlength⟩
    all_goals simp [Rule.includedContext?, hkind]

/-- A small language with a list of keywords and a word that is empty. -/
def loopText : GrammarDef where
  name := "Loops"
  caseSensitive := false
  lists := [("loops", ["For", "Do"])]
  contexts := [{ name := "Text", rules := [{ kind := .keyword "loops" }, { kind := .word [] }] }]

namespace LoopText

def loops : KeywordRule :=
  ⟨"loops", [['f', 'o', 'r'], ['d', 'o']], false⟩

def loop : Rule :=
  RuleKind.toRule (.keyword loops)

def nothing : Rule :=
  RuleKind.toRule (.word [] false)

theorem exists_build : ∃ grammar, loopText.build.result = .ok grammar ∧
    grammar.HasRule loop ∧ grammar.HasRule nothing := by
  obtain ⟨grammar, hbuild, hcontexts, -⟩ :=
    @GrammarDef.exists_build_of_acyclic loopText [] [.ofRules "Text" [loop, nothing]]
      (by simp [loopText]) (by decide) rfl rfl (Graph.firstCycle?_of_increasing (by decide))
  refine ⟨grammar, hbuild, ?_, ?_⟩
  · exact .top (hcontexts ▸ List.mem_cons_self) List.mem_cons_self
  · exact .top (hcontexts ▸ List.mem_cons_self) (List.mem_cons_of_mem _ List.mem_cons_self)

/-- At the start of a blank line. -/
def atBlank (grammar : Grammar) : Cursor :=
  { before := none, rest := [' '], offset := 0, column := 0, firstNonSpace := true, data := none,
    delimiters := grammar.delimiters }

/-- Behind a blank. -/
def behindBlank (grammar : Grammar) (rest : List Char) : Cursor :=
  { before := some ' ', rest, offset := 1, column := 1, firstNonSpace := true, data := none,
    delimiters := grammar.delimiters }

end LoopText

/-- A keyword in capitals is found behind a blank. -/
theorem whole_words_match_capitals : ∃ grammar, loopText.build.result = .ok grammar ∧
    grammar.HasRule LoopText.loop ∧
    Cursor.at? [' ', 'D', 'O'] 1 1 1 none grammar.delimiters =
      some (LoopText.behindBlank grammar ['D', 'O']) ∧
    LoopText.loop.allows (LoopText.behindBlank grammar ['D', 'O']) = true ∧
    grammar.tryRule LoopText.loop (LoopText.behindBlank grammar ['D', 'O']) =
      .ok { found := some (LoopText.loop.toMatch 2 none) } := by
  obtain ⟨grammar, hbuild, hrule, -⟩ := LoopText.exists_build
  have hcursor : Cursor.at? ([' '] ++ ['D', 'O']) (byteLength [' ']) [' '].length
      (leadingBlanks ([' '] ++ ['D', 'O'])) none grammar.delimiters =
      some (LoopText.behindBlank grammar ['D', 'O']) := rfl
  obtain ⟨hdelimiters, hkeywords, -⟩ := whole_words_match hbuild hrule hcursor rfl
  obtain ⟨found, -, htry, hright⟩ := hkeywords LoopText.loops rfl
  have hfound : found = some 2 := by
    refine (hright 2).2 ⟨['D', 'O'], [], rfl, rfl, ⟨?_, by simp⟩, by simp, ?_, ?_⟩
    · intro c hc
      cases hc
      exact (hdelimiters ' ').1 (by rw [GrammarDef.delimiters_of_build hbuild]; decide)
    · have hplain : ['D', 'O'].any Delimiters.standard.contains = false := by decide
      intro c hc hdelimits
      have hcontains := (hdelimiters c).2 hdelimits
      rw [GrammarDef.delimiters_of_build hbuild] at hcontains
      exact List.any_eq_false.1 hplain c hc hcontains
    · exact ⟨[], ["For", "Do"], [], rfl, by simp, "Do", by simp, by decide⟩
  rw [hfound] at htry
  exact ⟨grammar, hbuild, hrule, hcursor, rfl, htry⟩

/-- An empty word stands between the start of a line and a blank, and its rule does not match. -/
theorem exists_unmatched_value : ∃ grammar, loopText.build.result = .ok grammar ∧
    grammar.HasRule LoopText.nothing ∧
    Cursor.at? [' '] 0 0 1 none grammar.delimiters = some (LoopText.atBlank grammar) ∧
    LoopText.nothing.allows (LoopText.atBlank grammar) = true ∧
    LoopText.nothing.kind = .word [] false ∧ loopText.ValueBetween false [] [] [] [' '] ∧
    grammar.tryRule LoopText.nothing (LoopText.atBlank grammar) = .ok {} ∧
    ¬grammar.MatchesExactly LoopText.nothing (LoopText.atBlank grammar) fun length =>
      ∃ part behind, [' '] = part ++ behind ∧ byteLength part = length ∧
        loopText.ValueBetween false [] [] part behind := by
  obtain ⟨grammar, hbuild, -, hrule⟩ := LoopText.exists_build
  have hbetween : loopText.ValueBetween false [] [] [] [' '] := by
    refine ⟨⟨by simp, ?_⟩, rfl⟩
    intro c hc
    cases hc
    exact .inl (by decide)
  refine ⟨grammar, hbuild, hrule, rfl, rfl, rfl, hbetween, ?_, ?_⟩
  · have hnothing : LoopText.nothing.length? (LoopText.atBlank grammar) = .ok none := rfl
    exact grammar.tryRule_of_length? (fun regex h => by cases h) rfl rfl rfl hnothing
  · rintro ⟨found, hfound, -, hright⟩
    cases (hright 0).2 ⟨[], [' '], rfl, rfl, hbetween⟩
    cases hfound

end Highlight
