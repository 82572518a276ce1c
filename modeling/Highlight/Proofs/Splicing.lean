import Highlight.Proofs.Matching

/-!
# Inclusions are splices

A rule that includes a context stands for the rules of that context.  `Grammar.flatten` writes them
out: it puts the rules of the included context in the place of the inclusion, follows the inclusions
among them, and keeps with each rule what the inclusions around it ask for and lend to it.  Trying
the rules of a context is then a search through a flat list for the first that finds something.

There are three groups.

* Splicing.  A `Spliced` rule has the guards of the inclusions around it and the style that the
  innermost of them with a style to lend has given it.  `flatten` ends for the reason that matching
  does: an inclusion leads to a context of lower rank.
* One rule.  What a rule that includes nothing finds is its own match (`exists_detect_of_tryRule`),
  and an inclusion only adds its guard and its style to what is found inside (`finds_within`).
* Searching.  `FirstMatch.eq_findSome?` is the induction along `flatten`.
-/

namespace Highlight

/-! ## Splicing -/

/-- Where a rule may match: at a column, or where nothing but white space comes before. -/
structure Guard where
  column : Option Nat
  firstNonSpace : Bool
  deriving Repr, DecidableEq, Inhabited

/-- Whether a guard lets a cursor pass. -/
def Guard.holds (guard : Guard) (cursor : Cursor) : Bool :=
  guard.column.all (· == cursor.column) && (!guard.firstNonSpace || cursor.firstNonSpace)

/-- The guard of a rule. -/
def Rule.guard (rule : Rule) : Guard :=
  ⟨rule.column, rule.firstNonSpace⟩

/-- The style that an inclusion lends to the rules of the context that it includes. -/
def Inclusion.lent (inclusion : Inclusion) (context : Context) : Option Style :=
  if inclusion.withStyle then some context.style else none

/-- A rule in the place of an inclusion. -/
structure Spliced where
  rule : Rule
  /-- The guards of the inclusions around the rule, the outermost first. -/
  guards : List Guard
  /-- The style for a match of a rule that has none. -/
  fallback : Option Style
  deriving Repr, Inhabited

namespace Spliced

/-- A rule that no inclusion is around. -/
def plain (rule : Rule) : Spliced :=
  ⟨rule, [], none⟩

/-- The rule inside one more inclusion.  A style that was lent further inside stays. -/
def within (spliced : Spliced) (guard : Guard) (lent : Option Style) : Spliced :=
  { spliced with
    guards := guard :: spliced.guards
    fallback := spliced.fallback.or lent }

/-- What the rule finds at a cursor that every guard around it lets pass.  The match has the style
of the rule, or else the one that was lent to it. -/
def finds (grammar : Grammar) (cursor : Cursor) (spliced : Spliced) : Option RuleMatch :=
  if spliced.guards.all (·.holds cursor) then
    match grammar.tryRule spliced.rule cursor with
    | .ok trial =>
      trial.found.map fun found => { found with style := spliced.rule.style.or spliced.fallback }
    | .error _ => none
  else none

end Spliced

/-- Some rules with each inclusion replaced, in its place, by the rules of the context that it
includes. -/
def Grammar.flatten (grammar : Grammar) : List Rule → List Spliced
  | [] => []
  | rule :: rest =>
    (match _hkind : rule.kind with
      | .inclusion inclusion =>
        match _hcontext : grammar.contexts[inclusion.target]? with
        | none => []
        | some context =>
          (grammar.flatten context.rules).map (·.within rule.guard (inclusion.lent context))
      | _ => [.plain rule]) ++ grammar.flatten rest
termination_by rules => (grammar.rulesRank rules, rules.length)
decreasing_by
  · apply Prod.Lex.left
    exact Nat.lt_of_lt_of_le (rulesRank_lt_ruleRank _hkind _hcontext) (Nat.le_max_left ..)
  · rcases Nat.lt_or_eq_of_le (Nat.le_max_right (grammar.ruleRank rule) (grammar.rulesRank rest))
      with hless | hsame
    · exact Prod.Lex.left _ _ hless
    · rw [rulesRank, ← hsame]
      exact Prod.Lex.right _ (Nat.lt_succ_self _)

namespace Grammar

variable {grammar : Grammar}

theorem flatten_cons (rule : Rule) (rest : List Rule) :
    grammar.flatten (rule :: rest) = grammar.flatten [rule] ++ grammar.flatten rest := by
  rw [flatten, flatten, flatten, List.append_nil]

/-- A rule that includes nothing stands for itself. -/
theorem flatten_of_plain {rule : Rule} (hplain : rule.includedContext? = none) :
    grammar.flatten [rule] = [.plain rule] := by
  rw [flatten, flatten, List.append_nil]
  split
  · next inclusion hkind => simp [Rule.includedContext?, hkind] at hplain
  · rfl

/-- An inclusion stands for the rules of its context. -/
theorem flatten_of_inclusion {rule : Rule} {inclusion : Inclusion} {context : Context}
    (hkind : rule.kind = .inclusion inclusion)
    (hcontext : grammar.contexts[inclusion.target]? = some context) :
    grammar.flatten [rule] =
      (grammar.flatten context.rules).map (·.within rule.guard (inclusion.lent context)) := by
  rw [flatten, flatten, List.append_nil]
  split
  · next other hother =>
    rw [hkind] at hother
    cases hother
    split
    · next hnone => simp [hcontext] at hnone
    · next found hfound =>
      rw [hcontext] at hfound
      cases hfound
      rfl
  · next hother => exact absurd hkind (hother inclusion)

theorem flatten_of_missing {rule : Rule} {inclusion : Inclusion}
    (hkind : rule.kind = .inclusion inclusion)
    (hmissing : grammar.contexts[inclusion.target]? = none) : grammar.flatten [rule] = [] := by
  rw [flatten, flatten, List.append_nil]
  split
  · next other hother =>
    rw [hkind] at hother
    cases hother
    split
    · rfl
    · next found hfound => simp [hmissing] at hfound
  · next hother => exact absurd hkind (hother inclusion)

/-- What stands in a flat list are rules that include nothing, of the list that was flattened or of
some context. -/
theorem mem_of_mem_flatten {rules : List Rule} {spliced : Spliced}
    (h : spliced ∈ grammar.flatten rules) :
    spliced.rule.includedContext? = none ∧
      (spliced.rule ∈ rules ∨ ∃ context ∈ grammar.contexts, spliced.rule ∈ context.rules) := by
  induction rules using flatten.induct grammar generalizing spliced with
  | case1 =>
    rw [flatten] at h
    cases h
  | case2 rule rest ihInside ihRest =>
    rw [flatten_cons, List.mem_append] at h
    rcases h with h | h
    · cases hincluded : rule.includedContext? with
      | none =>
        rw [flatten_of_plain hincluded, List.mem_singleton] at h
        rw [h]
        exact ⟨hincluded, .inl List.mem_cons_self⟩
      | some target =>
        obtain ⟨inclusion, hkind, rfl⟩ := Rule.kind_of_includedContext hincluded
        cases hcontext : grammar.contexts[inclusion.target]? with
        | none =>
          rw [flatten_of_missing hkind hcontext] at h
          cases h
        | some context =>
          rw [flatten_of_inclusion hkind hcontext] at h
          obtain ⟨inside, hinside, rfl⟩ := List.mem_map.1 h
          obtain ⟨hplain, hmember⟩ := ihInside inclusion hkind context hcontext hinside
          refine ⟨hplain, .inr ?_⟩
          rcases hmember with hmember | hmember
          · exact ⟨context, List.mem_of_getElem? hcontext, hmember⟩
          · exact hmember
    · obtain ⟨hplain, hmember⟩ := ihRest h
      exact ⟨hplain, hmember.imp_left (List.mem_cons_of_mem rule)⟩

end Grammar

/-! ## One rule -/

/-- What a rule that includes nothing finds is what it detects by itself, lengthened at most by the
rules that extend a number. -/
theorem Grammar.exists_detect_of_tryRule {grammar : Grammar} {rule : Rule} {cursor : Cursor}
    {trial : Trial} {found : RuleMatch} (hplain : rule.includedContext? = none)
    (h : grammar.tryRule rule cursor = .ok trial) (hfound : trial.found = some found) :
    ∃ attempt length captures taken, rule.allows cursor = true ∧
      rule.detect cursor = .ok attempt ∧ attempt.found = some (length, captures) ∧
      found = rule.toMatch taken captures := by
  rw [tryRule] at h
  split at h
  · next hallows =>
    split at h
    · next inclusion hkind => simp [Rule.includedContext?, hkind] at hplain
    · split at h
      · cases h
      · cases h
        cases hfound
      · next broken length captures hdetect =>
        split at h
        · split at h
          · cases h
          · split at h
            · cases h
            · cases h
              cases hfound
              exact ⟨_, length, captures, _, hallows, hdetect, rfl, rfl⟩
        · cases h
          cases hfound
          exact ⟨_, length, captures, _, hallows, hdetect, rfl, rfl⟩
  · cases h
    cases hfound

theorem Spliced.finds_plain {grammar : Grammar} {rule : Rule} {cursor : Cursor} {trial : Trial}
    (hplain : rule.includedContext? = none) (h : grammar.tryRule rule cursor = .ok trial) :
    (plain rule).finds grammar cursor = trial.found := by
  simp only [finds, plain, List.all_nil, if_true, h, Option.or_none]
  cases hfound : trial.found with
  | none => rfl
  | some found =>
    obtain ⟨attempt, length, captures, taken, -, -, -, rfl⟩ :=
      Grammar.exists_detect_of_tryRule hplain h hfound
    rfl

/-- What a spliced rule finds is what the rule detects by itself.  It has the switch of the rule unless
that stays, and continues the line if the rule does. -/
theorem Spliced.exists_detect_of_finds {grammar : Grammar} {cursor : Cursor} {spliced : Spliced}
    {matched : RuleMatch} (hplain : spliced.rule.includedContext? = none)
    (h : spliced.finds grammar cursor = some matched) :
    ∃ attempt length, spliced.rule.detect cursor = .ok attempt ∧
      attempt.found = some (length, matched.captures) ∧
      matched.switch = (if spliced.rule.switch.isStay then none else some spliced.rule.switch) ∧
      matched.lineContinue = spliced.rule.isLineContinue := by
  unfold finds at h
  split at h
  · split at h
    · next trial htrial =>
      obtain ⟨found, hfound, rfl⟩ := Option.map_eq_some_iff.1 h
      obtain ⟨attempt, length, captures, taken, -, hdetect, hattempt, rfl⟩ :=
        Grammar.exists_detect_of_tryRule hplain htrial hfound
      exact ⟨attempt, length, hdetect, hattempt, rfl, rfl⟩
    · cases h
  · cases h

/-- One more inclusion around a rule adds its guard, and lends its style to a match without one. -/
theorem Spliced.finds_within (grammar : Grammar) (cursor : Cursor) (spliced : Spliced)
    (guard : Guard) (lent : Option Style) :
    (spliced.within guard lent).finds grammar cursor =
      if guard.holds cursor then
        (spliced.finds grammar cursor).map fun found =>
          { found with style := found.style.or lent }
      else none := by
  simp only [finds, within, List.all_cons]
  by_cases hguard : guard.holds cursor = true
  · by_cases hguards : (spliced.guards.all (·.holds cursor)) = true
    · simp only [hguard, hguards, Bool.and_self, if_true]
      cases grammar.tryRule spliced.rule cursor with
      | error fault => rfl
      | ok trial => simp [Function.comp_def, Option.or_assoc]
    · simp [hguard, hguards]
  · simp [hguard]

/-- An inclusion finds what the rules of its context find, with its style lent to that. -/
theorem Inclusion.found_eq (inclusion : Inclusion) (context : Context) (trial : Trial) :
    (if inclusion.withStyle then trial.withStyle context.style else trial).found =
      trial.found.map fun found => { found with style := found.style.or (inclusion.lent context) } := by
  unfold Inclusion.lent
  split
  · rfl
  · simp

variable {grammar : Grammar} {cursor : Cursor}

/-- An inclusion of a context that the grammar does not have cannot be tried. -/
theorem Grammar.tryRule_of_missing {rule : Rule} {inclusion : Inclusion}
    (hallows : rule.allows cursor = true) (hkind : rule.kind = .inclusion inclusion)
    (hmissing : grammar.contexts[inclusion.target]? = none) :
    grammar.tryRule rule cursor = .error (.noContext inclusion.target) := by
  rw [tryRule, if_pos hallows]
  split
  · next other hother =>
    rw [hkind] at hother
    cases hother
    split
    · rfl
    · next found hfound => simp [hmissing] at hfound
  · next hother => exact absurd hkind (hother inclusion)

theorem Grammar.tryRule_of_not_allows {rule : Rule} (hallows : ¬rule.allows cursor = true) :
    grammar.tryRule rule cursor = .ok {} := by
  rw [tryRule, if_neg hallows]

/-- Only the guard and the kind of an inclusion count: its own style and switch, and whether it
looks ahead, make no difference. -/
theorem Grammar.tryRule_eq_of_inclusion {rule other : Rule} {inclusion : Inclusion}
    (hkind : rule.kind = .inclusion inclusion) (hother : other.kind = rule.kind)
    (hguard : other.guard = rule.guard) :
    grammar.tryRule other cursor = grammar.tryRule rule cursor := by
  have hotherKind : other.kind = .inclusion inclusion := hother.trans hkind
  have hsame : other.allows cursor = rule.allows cursor :=
    congrArg (Guard.holds · cursor) hguard
  by_cases hallows : rule.allows cursor = true
  · have hotherAllows : other.allows cursor = true := hsame.trans hallows
    cases hcontext : grammar.contexts[inclusion.target]? with
    | none =>
      rw [tryRule_of_missing hallows hkind hcontext,
        tryRule_of_missing hotherAllows hotherKind hcontext]
    | some context =>
      rw [tryRule_inclusion hallows hkind hcontext,
        tryRule_inclusion hotherAllows hotherKind hcontext]
  · have hotherAllows : ¬other.allows cursor = true := by rwa [hsame]
    rw [tryRule_of_not_allows hallows, tryRule_of_not_allows hotherAllows]

/-- What an inclusion finds is what its context's rules find in its place. -/
theorem found_eq_findSome?_of_inclusion {rule : Rule} {inclusion : Inclusion} {context : Context}
    {trial : Trial} (hkind : rule.kind = .inclusion inclusion)
    (hcontext : grammar.contexts[inclusion.target]? = some context)
    (h : grammar.tryRule rule cursor = .ok trial)
    (hinside : ∀ inside, grammar.tryRules context.rules cursor = .ok inside →
      inside.found = (grammar.flatten context.rules).findSome? (Spliced.finds grammar cursor)) :
    trial.found =
      ((grammar.flatten context.rules).map (·.within rule.guard (inclusion.lent context))).findSome?
        (Spliced.finds grammar cursor) := by
  rw [List.findSome?_map]
  by_cases hallows : rule.allows cursor = true
  · have hguard : rule.guard.holds cursor = true := hallows
    simp only [Function.comp_def, Spliced.finds_within, hguard, if_true]
    rw [Grammar.tryRule_inclusion hallows hkind hcontext] at h
    cases hrules : grammar.tryRules context.rules cursor with
    | error fault =>
      rw [hrules] at h
      cases h
    | ok inside =>
      rw [hrules] at h
      cases h
      rw [inclusion.found_eq, hinside inside hrules, List.map_findSome?]
      rfl
  · have hguard : ¬rule.guard.holds cursor = true := hallows
    rw [Grammar.tryRule_of_not_allows hallows] at h
    cases h
    simp only [Function.comp_def, Spliced.finds_within, if_neg hguard]
    exact (List.findSome?_eq_none_iff.2 fun _ _ => rfl).symm

/-- What a rule finds is what the rules that stand for it in the flat list find, if that is so for
the rules of a context that it includes. -/
theorem found_eq_findSome?_of_tryRule {rule : Rule} {trial : Trial}
    (h : grammar.tryRule rule cursor = .ok trial)
    (hinside : ∀ inclusion context inside, rule.kind = .inclusion inclusion →
      grammar.contexts[inclusion.target]? = some context →
      grammar.tryRules context.rules cursor = .ok inside →
      inside.found = (grammar.flatten context.rules).findSome? (Spliced.finds grammar cursor)) :
    trial.found = (grammar.flatten [rule]).findSome? (Spliced.finds grammar cursor) := by
  cases hincluded : rule.includedContext? with
  | none =>
    rw [Grammar.flatten_of_plain hincluded, List.findSome?_singleton,
      Spliced.finds_plain hincluded h]
  | some target =>
    obtain ⟨inclusion, hkind, rfl⟩ := Rule.kind_of_includedContext hincluded
    cases hcontext : grammar.contexts[inclusion.target]? with
    | none =>
      rw [Grammar.flatten_of_missing hkind hcontext]
      by_cases hallows : rule.allows cursor = true
      · rw [Grammar.tryRule_of_missing hallows hkind hcontext] at h
        cases h
      · rw [Grammar.tryRule_of_not_allows hallows] at h
        cases h
        rfl
    | some context =>
      rw [Grammar.flatten_of_inclusion hkind hcontext]
      exact found_eq_findSome?_of_inclusion hkind hcontext h fun inside =>
        hinside inclusion context inside hkind hcontext

/-- Searching some rules, with the inclusions among them, is searching the flat list. -/
theorem FirstMatch.eq_findSome? {rules : List Rule} {found : Option RuleMatch}
    (h : FirstMatch grammar cursor rules found) :
    found = (grammar.flatten rules).findSome? (Spliced.finds grammar cursor) := by
  -- The induction is along `flatten`: into the context of an inclusion, and on to the next rule.
  induction rules using Grammar.flatten.induct grammar generalizing found with
  | case1 =>
    cases h
    rw [Grammar.flatten]
    rfl
  | case2 rule rest ihInside ihRest =>
    have hhead : ∀ trial, grammar.tryRule rule cursor = .ok trial →
        trial.found = (grammar.flatten [rule]).findSome? (Spliced.finds grammar cursor) := by
      intro trial htrial
      refine found_eq_findSome?_of_tryRule htrial ?_
      intro inclusion context inside hkind hcontext hinside
      exact ihInside inclusion hkind context hcontext (firstMatch_of_tryRules hinside)
    rw [Grammar.flatten_cons, List.findSome?_append]
    cases h with
    | hit trial_eq found =>
      rw [← hhead _ trial_eq, found]
      rfl
    | skip trial_eq misses first =>
      rw [← hhead _ trial_eq, misses]
      exact ihRest first

/-- In a resolved grammar every rule of a context can be tried, and so can every rule that stands in
the flat list of a context. -/
theorem Grammar.exists_tryRule_of_mem_flatten (hresolved : grammar.Resolved) {context : Context}
    (hcontext : context ∈ grammar.contexts) {spliced : Spliced}
    (h : spliced ∈ grammar.flatten context.rules) (cursor : Cursor) :
    ∃ trial, grammar.tryRule spliced.rule cursor = .ok trial := by
  obtain ⟨owner, howner, hmember⟩ :
      ∃ owner ∈ grammar.contexts, spliced.rule ∈ owner.rules := by
    rcases (mem_of_mem_flatten h).2 with hmember | hmember
    · exact ⟨context, hcontext, hmember⟩
    · exact hmember
  have hwithin := (hresolved.contexts owner howner).rules spliced.rule hmember
  obtain ⟨trial, htrial, -⟩ := tryRules_finds hresolved [spliced.rule] cursor
    fun rule hrule => List.mem_singleton.1 hrule ▸ hwithin
  rw [tryRules] at htrial
  split at htrial
  · cases htrial
  · next first hfirst => exact ⟨first, hfirst⟩

/-- An inclusion is a splice: trying the rules of a context of a built grammar gives what the first
of the rules in its flat list finds.  Those rules include nothing themselves and can be tried, and of
an inclusion only its guard, its target and whether it lends its style make a difference. -/
theorem tryRules_eq_first_spliced {description : GrammarDef}
    (hbuild : description.build.result = .ok grammar) {context : Context}
    (hcontext : context ∈ grammar.contexts) (cursor : Cursor) :
    ∃ trial, grammar.tryRules context.rules cursor = .ok trial ∧
      trial.found =
        (grammar.flatten context.rules).findSome? (Spliced.finds grammar cursor) ∧
      (∀ spliced ∈ grammar.flatten context.rules, spliced.rule.includedContext? = none ∧
        ∃ own, grammar.tryRule spliced.rule cursor = .ok own) ∧
      ∀ rule other inclusion, rule.kind = .inclusion inclusion → other.kind = rule.kind →
        other.guard = rule.guard → grammar.tryRule other cursor = grammar.tryRule rule cursor := by
  have hresolved : grammar.Resolved := Grammar.Built.resolved ⟨description, hbuild⟩
  obtain ⟨trial, htrial, -⟩ :=
    Grammar.exists_tryRules hresolved (hresolved.contexts context hcontext) cursor
  refine ⟨trial, htrial, (firstMatch_of_tryRules htrial).eq_findSome?, ?_, ?_⟩
  · intro spliced hspliced
    exact ⟨(Grammar.mem_of_mem_flatten hspliced).1,
      Grammar.exists_tryRule_of_mem_flatten hresolved hcontext hspliced cursor⟩
  · intro rule other inclusion hkind hother hguard
    exact Grammar.tryRule_eq_of_inclusion hkind hother hguard

/-- A small language whose inclusions are nested: the signs are among the marks, and marks stand at
the start of a line only. -/
def signedText : GrammarDef where
  name := "Signed text"
  contexts :=
    [{ name := "Text"
       rules :=
        [{ kind := .inclusion "Marks"
           options := { withStyle := true, firstNonSpace := true, lookAhead := true } }] },
      { name := "Marks", attributeName := "Mark"
        rules :=
          [{ kind := .inclusion "Signs", options := { withStyle := true, column := some 0 } },
            { kind := .char '#' }] },
      { name := "Signs", attributeName := "Sign"
        rules :=
          [{ kind := .char '!', options := { attributeName := "Mark" } }, { kind := .char '?' }] }]
  items :=
    [{ name := "Mark", defaultStyle := "dsKeyword" }, { name := "Sign", defaultStyle := "dsString" }]

namespace SignedText

def markStyle : Style :=
  DefaultStyle.keyword.styleFor "Mark"

def signStyle : Style :=
  DefaultStyle.string.styleFor "Sign"

def exclamation : Rule :=
  { RuleKind.toRule (.char (.literal '!')) with attributeName := "Mark", style := markStyle }

def question : Rule :=
  RuleKind.toRule (.char (.literal '?'))

def hash : Rule :=
  RuleKind.toRule (.char (.literal '#'))

def includeMarks : Rule :=
  { RuleKind.toRule (.inclusion ⟨"Marks", 1, true⟩) with firstNonSpace := true, lookAhead := true }

def includeSigns : Rule :=
  { RuleKind.toRule (.inclusion ⟨"Signs", 2, true⟩) with column := some 0 }

def text : Context :=
  .ofRules "Text" [includeMarks]

def marks : Context :=
  { Context.ofRules "Marks" [includeSigns, hash] with attributeName := "Mark", style := markStyle }

def signs : Context :=
  { Context.ofRules "Signs" [exclamation, question] with
    attributeName := "Sign", style := signStyle }

theorem exists_build : ∃ grammar, signedText.build.result = .ok grammar ∧
    grammar.contexts = [text, marks, signs] := by
  have hacyclic : (includeGraph [text, marks, signs]).firstCycle? = none :=
    Graph.firstCycle?_of_increasing (by decide)
  obtain ⟨grammar, hbuild, hcontexts, -⟩ :=
    @GrammarDef.exists_build_of_acyclic signedText _ _ (by simp [signedText]) (by decide) rfl rfl
      hacyclic
  exact ⟨grammar, hbuild, hcontexts⟩

/-- The flat list of the text: each sign has both guards and the style of the signs. -/
theorem flatten_eq {grammar : Grammar}
    (h : grammar.contexts = [text, marks, signs]) :
    grammar.flatten [includeMarks] =
      [⟨exclamation, [⟨none, true⟩, ⟨some 0, false⟩], some signStyle⟩,
        ⟨question, [⟨none, true⟩, ⟨some 0, false⟩], some signStyle⟩,
        ⟨hash, [⟨none, true⟩], some markStyle⟩] := by
  have hmarks : grammar.contexts[1]? = some marks := by rw [h]; rfl
  have hsigns : grammar.contexts[2]? = some signs := by rw [h]; rfl
  have hinside : grammar.flatten signs.rules = [.plain exclamation, .plain question] := by
    show grammar.flatten [exclamation, question] = _
    rw [Grammar.flatten_cons, Grammar.flatten_of_plain rfl, Grammar.flatten_of_plain rfl]
    rfl
  have hmiddle : grammar.flatten marks.rules =
      [⟨exclamation, [⟨some 0, false⟩], some signStyle⟩,
        ⟨question, [⟨some 0, false⟩], some signStyle⟩, .plain hash] := by
    show grammar.flatten [includeSigns, hash] = _
    rw [Grammar.flatten_cons, Grammar.flatten_of_inclusion rfl hsigns, hinside,
      Grammar.flatten_of_plain rfl]
    rfl
  rw [Grammar.flatten_of_inclusion rfl hmarks, hmiddle]
  rfl

end SignedText

/-- A sign at the start of a line: the flat list has it with the guards of both inclusions, and with
the style that the inner one lends. -/
theorem tryRules_eq_first_spliced_signedText :
    ∃ grammar trial cursor, signedText.build.result = .ok grammar ∧
      Cursor.at? ['?'] 0 0 0 none grammar.delimiters = some cursor ∧
      grammar.tryRules [SignedText.includeMarks] cursor = .ok trial ∧
      trial.found =
        List.findSome? (Spliced.finds grammar cursor)
          [⟨SignedText.exclamation, [⟨none, true⟩, ⟨some 0, false⟩], some SignedText.signStyle⟩,
            ⟨SignedText.question, [⟨none, true⟩, ⟨some 0, false⟩], some SignedText.signStyle⟩,
            ⟨SignedText.hash, [⟨none, true⟩], some SignedText.markStyle⟩] := by
  obtain ⟨grammar, hbuild, hcontexts⟩ := SignedText.exists_build
  have hcontext : SignedText.text ∈ grammar.contexts := by
    rw [hcontexts]
    exact List.mem_cons_self
  obtain ⟨trial, htrial, hfound, -⟩ := tryRules_eq_first_spliced hbuild hcontext
    ((Cursor.at? ['?'] 0 0 0 none grammar.delimiters).get rfl)
  refine ⟨grammar, trial, _, hbuild, (Option.some_get _).symm, htrial, ?_⟩
  rw [hfound]
  congr 1
  exact SignedText.flatten_eq hcontexts

end Highlight
