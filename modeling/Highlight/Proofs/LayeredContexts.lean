import Highlight.Proofs.Enclosing
import Highlight.Proofs.KnownContexts
import Highlight.Proofs.Provenance
import Highlight.Proofs.StepBound

/-!
# Layered contexts

In a grammar whose switches pop or push one frame at a time, the frames of a stack are a path: each
context was pushed by the one below it.  If, moreover, contexts that end with their line push only
such contexts, and of two contexts that are next to each other on the path one has no fallthrough,
then lines are highlighted without any notice but those of patterns that do not compile.

There are seven groups.

* Rules.  `Layered` says what is asked of the contexts.  It can be evaluated.
* Notices of rules.  A rule notes a broken pattern, and this is its own, that of a rule behind its
  number or that of an included rule.  All that are compiled with the grammar are left out of this
  (`Layered.exists_refused`).
* Matches.  Every match is that of one rule, it takes some text and captures pieces of it
  (`Layered.exists_of_finds`).
* Stacks.  `Stack.Grown` is the path, with captured groups that are pieces of lines.
* Lines.  `Scan.Orderly` is what a step keeps (`Scan.Orderly.step`) and so a run
  (`Scan.Reaches.orderly`): behind a switch that takes no text, no other can follow at once.
* Ends of lines.  On a path the contexts that end with their line stand on top of the others, so the
  switches for the end of a line pop exactly these (`Stack.Grown.exists_settled`).
* Documents.  `Highlighted.Calm` is what one line comes to, at any place of a document
  (`Layered.exists_line`).
-/

namespace Highlight

/-! ## Rules -/

/-- The pattern of a rule. -/
def Rule.pattern? (rule : Rule) : Option RegexRule :=
  match rule.kind with
  | .regex regex => some regex
  | _ => none

/-- A rule that neither includes a context nor has rules behind it. -/
def Rule.isLeaf (rule : Rule) : Bool :=
  rule.includedContext?.isNone && rule.children.isEmpty

/-- A rule that takes what it finds and moves the stack by one frame at most.  All patterns but
those in a list are compiled, and the rules behind a number are no patterns. -/
structure Rule.Tame (patterns : List RegexRule) (rule : Rule) : Prop where
  takes : rule.lookAhead = false
  switch : rule.switch.pops = 0 ∨ rule.switch = ⟨1, none⟩
  pattern : ∀ regex ∈ rule.pattern?, regex.compiled.isSome = true ∨ regex ∈ patterns
  children : ∀ child ∈ rule.children, child.isLeaf = true ∧ child.pattern? = none

/-- The contexts that the rules of a context push. -/
def Context.opens (context : Context) : List Nat :=
  context.rules.filterMap fun rule => rule.switch.target.map Target.context

/-- A context that is popped at the end of a line. -/
def Context.isSingleLine (context : Context) : Bool :=
  context.lineEnd == ⟨1, none⟩

/-- Contexts whose switches pop or push one frame at a time, such that what a context pushes, and so
what stands directly above it on a stack, is restricted. -/
structure Layered (patterns : List RegexRule) (contexts : List Context) : Prop where
  rules : ∀ context ∈ contexts, ∀ rule ∈ context.rules, rule.Tame patterns
  included : ∀ context ∈ contexts, ∀ rule ∈ context.rules, ∀ target ∈ rule.includedContext?,
    ∀ entered ∈ contexts[target]?, ∀ member ∈ entered.rules,
      member.isLeaf = true ∧ member.switch.isStay = true
  lineBegin : ∀ context ∈ contexts, context.lineBegin.isStay = true
  lineEnd : ∀ context ∈ contexts, context.isSingleLine = false → context.lineEnd.isStay = true
  fallthrough : ∀ context ∈ contexts,
    context.fallthrough.isStay = true ∨ context.fallthrough = ⟨1, none⟩
  /-- Nothing pops the base. -/
  base : ∀ context ∈ contexts[Grammar.defaultContext]?, context.isSingleLine = false ∧
    context.fallthrough.isStay = true ∧ ∀ rule ∈ context.rules, rule.switch.pops = 0
  /-- Of a context and one that it pushes, one has no fallthrough. -/
  falls : ∀ context ∈ contexts, ∀ above ∈ context.opens, ∀ entered ∈ contexts[above]?,
    entered.fallthrough.isStay = true ∨ context.fallthrough.isStay = true
  /-- Above a context that ends with its line is one more at most, and it does so too. -/
  nests : ∀ context ∈ contexts, ∀ above ∈ context.opens, ∀ entered ∈ contexts[above]?,
    context.isSingleLine = true → entered.isSingleLine = true ∧ entered.opens = []

instance (patterns : List RegexRule) (rule : Rule) : Decidable (rule.Tame patterns) :=
  decidable_of_iff
    (rule.lookAhead = false ∧ (rule.switch.pops = 0 ∨ rule.switch = ⟨1, none⟩) ∧
      (∀ regex ∈ rule.pattern?, regex.compiled.isSome = true ∨ regex ∈ patterns) ∧
      ∀ child ∈ rule.children, child.isLeaf = true ∧ child.pattern? = none)
    ⟨fun h => ⟨h.1, h.2.1, h.2.2.1, h.2.2.2⟩, fun h => ⟨h.takes, h.switch, h.pattern, h.children⟩⟩

instance (patterns : List RegexRule) (contexts : List Context) :
    Decidable (Layered patterns contexts) :=
  decidable_of_iff
    ((∀ context ∈ contexts, ∀ rule ∈ context.rules, rule.Tame patterns) ∧
      (∀ context ∈ contexts, ∀ rule ∈ context.rules, ∀ target ∈ rule.includedContext?,
        ∀ entered ∈ contexts[target]?, ∀ member ∈ entered.rules,
          member.isLeaf = true ∧ member.switch.isStay = true) ∧
      (∀ context ∈ contexts, context.lineBegin.isStay = true) ∧
      (∀ context ∈ contexts, context.isSingleLine = false → context.lineEnd.isStay = true) ∧
      (∀ context ∈ contexts,
        context.fallthrough.isStay = true ∨ context.fallthrough = ⟨1, none⟩) ∧
      (∀ context ∈ contexts[Grammar.defaultContext]?, context.isSingleLine = false ∧
        context.fallthrough.isStay = true ∧ ∀ rule ∈ context.rules, rule.switch.pops = 0) ∧
      (∀ context ∈ contexts, ∀ above ∈ context.opens, ∀ entered ∈ contexts[above]?,
        entered.fallthrough.isStay = true ∨ context.fallthrough.isStay = true) ∧
      ∀ context ∈ contexts, ∀ above ∈ context.opens, ∀ entered ∈ contexts[above]?,
        context.isSingleLine = true → entered.isSingleLine = true ∧ entered.opens = [])
    ⟨fun ⟨h₁, h₂, h₃, h₄, h₅, h₆, h₇, h₈⟩ => ⟨h₁, h₂, h₃, h₄, h₅, h₆, h₇, h₈⟩,
      fun h => ⟨h.rules, h.included, h.lineBegin, h.lineEnd, h.fallthrough, h.base, h.falls,
        h.nests⟩⟩

/-! ## Notices of rules -/

/-- A pattern that is noted as broken is one of a rule that was tried. -/
theorem Grammar.broken_of_tryRules {grammar : Grammar} {rules : List Rule} {cursor : Cursor}
    {trial : Trial} (h : grammar.tryRules rules cursor = .ok trial) {text : List Char}
    (htext : text ∈ trial.broken) :
    ∃ rule ∈ rules, ∃ own, grammar.tryRule rule cursor = .ok own ∧ text ∈ own.broken := by
  induction rules generalizing trial with
  | nil =>
    rw [tryRules] at h
    cases h
    cases htext
  | cons rule rest ih =>
    rw [tryRules] at h
    split at h
    · cases h
    · next first hfirst =>
      split at h
      · cases h
        exact ⟨rule, List.mem_cons_self, _, hfirst, htext⟩
      · split at h
        · cases h
        · next later hlater =>
          cases h
          rcases List.mem_append.1 htext with htext | htext
          · exact ⟨rule, List.mem_cons_self, first, hfirst, htext⟩
          · obtain ⟨member, hmember, hrest⟩ := ih hlater htext
            exact ⟨member, List.mem_cons_of_mem _ hmember, hrest⟩

/-- It is that of the rule itself, of a rule behind its number, or of a rule of the context that it
includes. -/
theorem Grammar.broken_of_tryRule {grammar : Grammar} {rule : Rule} {cursor : Cursor}
    {trial : Trial} (h : grammar.tryRule rule cursor = .ok trial) {text : List Char}
    (htext : text ∈ trial.broken) :
    (∃ attempt, rule.detect cursor = .ok attempt ∧ text ∈ attempt.broken) ∨
      (∃ child ∈ rule.children, ∃ behind own, grammar.tryRule child behind = .ok own ∧
        text ∈ own.broken) ∨
      ∃ target context, rule.includedContext? = some target ∧
        grammar.contexts[target]? = some context ∧
        ∃ member ∈ context.rules, ∃ own, grammar.tryRule member cursor = .ok own ∧
          text ∈ own.broken := by
  rw [tryRule] at h
  split at h
  · split at h
    · next inclusion hkind =>
      split at h
      · cases h
      · next context hcontext =>
        split at h
        · cases h
        · next inner hinner =>
          cases h
          have hinside : text ∈ inner.broken := by
            split at htext
            · exact htext
            · exact htext
          refine .inr (.inr ⟨_, context, ?_, hcontext, broken_of_tryRules hinner hinside⟩)
          rw [Rule.includedContext?, hkind]
    · split at h
      · cases h
      · next broken hdetect =>
        cases h
        exact .inl ⟨_, hdetect, htext⟩
      · next broken length captures hdetect =>
        split at h
        · split at h
          · cases h
          · next behind hbehind =>
            split at h
            · cases h
            · next inner hinner =>
              cases h
              rcases List.mem_append.1 htext with htext | htext
              · exact .inl ⟨_, hdetect, htext⟩
              · obtain ⟨child, hchild, own, hown⟩ := broken_of_tryRules hinner htext
                exact .inr (.inl ⟨child, hchild, behind, own, hown⟩)
        · cases h
          exact .inl ⟨_, hdetect, htext⟩
  · cases h
    cases htext

/-- What a rule notes as broken by itself is its own pattern. -/
theorem Rule.exists_pattern_of_broken {rule : Rule} {cursor : Cursor}
    {attempt : Attempt (Nat × Option Captures)} (h : rule.detect cursor = .ok attempt)
    {text : List Char} (htext : text ∈ attempt.broken) :
    ∃ regex, rule.pattern? = some regex ∧ regex.regexAt cursor = .error text := by
  unfold detect at h
  split at h
  · next regex hkind =>
    cases h
    refine ⟨regex, by rw [pattern?, hkind], ?_⟩
    split at htext
    · cases htext
    · unfold RegexRule.find at htext
      split at htext
      · split at htext
        · next broken hbroken =>
          rw [List.mem_singleton.1 htext]
          exact hbroken
        · split at htext
          · cases htext
          · simp only at htext
            split at htext
            · cases htext
            · cases htext
      · cases htext
  · simp only [bind, Except.bind] at h
    split at h
    · cases h
    · cases h
      cases htext

theorem Rule.isLeaf_iff {rule : Rule} :
    rule.isLeaf = true ↔ rule.includedContext? = none ∧ rule.children = [] := by
  simp [isLeaf]

theorem Rule.exists_pattern_of_isLeaf {grammar : Grammar} {rule : Rule}
    (hleaf : rule.isLeaf = true) {cursor : Cursor} {trial : Trial}
    (h : grammar.tryRule rule cursor = .ok trial) {text : List Char}
    (htext : text ∈ trial.broken) :
    ∃ regex, rule.pattern? = some regex ∧ regex.regexAt cursor = .error text := by
  obtain ⟨hplain, hchildren⟩ := isLeaf_iff.1 hleaf
  rcases Grammar.broken_of_tryRule h htext with
    ⟨attempt, hdetect, hbroken⟩ | ⟨child, hchild, -⟩ | ⟨target, context, htarget, -⟩
  · exact exists_pattern_of_broken hdetect hbroken
  · rw [hchildren] at hchild
    cases hchild
  · rw [hplain] at htarget
    cases htarget

section

variable {patterns : List RegexRule} {grammar : Grammar}
  (hlayered : Layered patterns grammar.contexts)

include hlayered

/-- The rules of layered contexts note only patterns that are filled in where they are tried. -/
theorem Layered.exists_refused {context : Context} (hcontext : context ∈ grammar.contexts)
    {cursor : Cursor} {trial : Trial} (h : grammar.tryRules context.rules cursor = .ok trial)
    {text : List Char} (htext : text ∈ trial.broken) :
    ∃ regex ∈ patterns, regex.regexAt cursor = .error text := by
  have hknown : ∀ context ∈ grammar.contexts, ∀ rule ∈ context.rules,
      (∃ regex, rule.pattern? = some regex ∧ regex.regexAt cursor = .error text) →
      ∃ regex ∈ patterns, regex.regexAt cursor = .error text := by
    rintro context hcontext rule hrule ⟨regex, hregex, hrefused⟩
    rcases (hlayered.rules context hcontext rule hrule).pattern regex hregex with
      hcompiled | hlisted
    · obtain ⟨compiled, hcompiled⟩ := Option.isSome_iff_exists.1 hcompiled
      simp only [RegexRule.regexAt, hcompiled] at hrefused
      cases hrefused
    · exact ⟨regex, hlisted, hrefused⟩
  obtain ⟨rule, hrule, own, hown, hbroken⟩ := Grammar.broken_of_tryRules h htext
  rcases Grammar.broken_of_tryRule hown hbroken with
    ⟨attempt, hdetect, hattempt⟩ | ⟨child, hchild, behind, inner, hinner, hinside⟩ |
    ⟨target, entered, htarget, hentered, member, hmember, inner, hinner, hinside⟩
  · exact hknown context hcontext rule hrule (Rule.exists_pattern_of_broken hdetect hattempt)
  · obtain ⟨hleaf, hnone⟩ := (hlayered.rules context hcontext rule hrule).children child hchild
    obtain ⟨regex, hregex, -⟩ := Rule.exists_pattern_of_isLeaf hleaf hinner hinside
    rw [hnone] at hregex
    cases hregex
  · obtain ⟨hleaf, -⟩ :=
      hlayered.included context hcontext rule hrule target htarget entered hentered member hmember
    exact hknown entered (List.mem_of_getElem? hentered) member hmember
      (Rule.exists_pattern_of_isLeaf hleaf hinner hinside)

end

/-! ## Matches -/

/-- A match that takes some text and the switch of a rule, with groups from the text. -/
structure RuleMatch.Of (rule : Rule) (cursor : Cursor) (matched : RuleMatch) : Prop where
  takes : 0 < matched.length
  switch : matched.switch = if rule.switch.isStay then none else some rule.switch
  captured : ∀ groups, matched.captures = some groups → ∀ group ∈ groups, group <:+: cursor.rest

theorem RuleMatch.Of.nextStack_eq {rule : Rule} {cursor : Cursor} {matched : RuleMatch}
    (h : matched.Of rule cursor) (stack : Stack) :
    matched.nextStack stack = rule.switch.apply stack matched.captures := by
  rw [nextStack, h.switch]
  cases hstay : rule.switch.isStay with
  | true => exact (Switch.apply_of_isStay hstay stack _).symm
  | false => rfl

theorem RuleMatch.Of.notices_eq {rule : Rule} {cursor : Cursor} {matched : RuleMatch}
    (h : matched.Of rule cursor) (stack : Stack) :
    matched.notices stack = rule.switch.notices stack := by
  rw [notices, h.switch]
  cases hstay : rule.switch.isStay with
  | true => exact (Switch.notices_of_isStay hstay stack).symm
  | false => rfl

/-- The groups of a match are pieces of the text. -/
theorem Regex.Match.infix_of_mem_groups {found : Regex.Match} {text : List Char} {count : Nat}
    {group : List Char} (h : group ∈ found.groups text count) : group <:+: text := by
  obtain ⟨index, -, rfl⟩ := List.mem_map.1 h
  simp only [Match.group]
  split
  · exact (List.drop_suffix _ _).isInfix.trans (List.take_prefix _ _).isInfix
  · exact List.nil_infix

/-- A rule that includes a context takes nothing by itself. -/
theorem Rule.found_eq_none_of_inclusion {rule : Rule} {target : Nat}
    (hincluded : rule.includedContext? = some target) {cursor : Cursor}
    {attempt : Attempt (Nat × Option Captures)} (h : rule.detect cursor = .ok attempt) :
    attempt.found = none := by
  obtain ⟨inclusion, hkind, -⟩ := kind_of_includedContext hincluded
  have hlength : rule.length? cursor = .ok none := by
    cases hrest : cursor.rest <;> simp only [length?, hrest, hkind]
  simp only [detect, hkind, hlength, bind, Except.bind] at h
  cases h
  rfl

/-- A rule that includes nothing and takes what it finds finds such a match. -/
theorem Finds.of_plain {grammar : Grammar} {rule : Rule} {cursor : Cursor} {matched : RuleMatch}
    (h : Finds grammar rule cursor matched) (hplain : rule.includedContext? = none)
    (htakes : rule.lookAhead = false) : matched.Of rule cursor := by
  have hmatch : ∀ {attempt : Attempt (Nat × Option Captures)} {length : Nat}
      {captures : Option Captures} (extra : Nat), rule.detect cursor = .ok attempt →
      attempt.found = some (length, captures) →
      (rule.toMatch (length + extra) captures).Of rule cursor := by
    intro attempt length captures extra hdetect hfound
    obtain ⟨other, hother, hadvances⟩ := rule.detect_advances cursor
    rw [hdetect] at hother
    cases hother
    have hpos := (hadvances length captures hfound).1
    refine ⟨?_, rfl, ?_⟩
    · simp only [Rule.toMatch, htakes, Bool.false_eq_true, if_false]
      omega
    · intro groups hgroups group hgroup
      obtain ⟨-, regex, -, compiled, found, -, -, rfl⟩ :=
        (Rule.captures_eq_some_iff_of_detect hdetect hfound groups).1 hgroups
      exact Regex.Match.infix_of_mem_groups hgroup
  cases h with
  | own allows detect found => exact hmatch 0 detect found
  | extended allows detect found advance member finds => exact hmatch _ detect found
  | included allows kind => simp [Rule.includedContext?, kind] at hplain

section

variable {patterns : List RegexRule} {grammar : Grammar}
  (hlayered : Layered patterns grammar.contexts)

include hlayered

/-- What is found in a layered context is the match of one of its rules, or of an included rule that
stays. -/
theorem Layered.exists_of_finds {context : Context} (hcontext : context ∈ grammar.contexts)
    {rule : Rule} (hrule : rule ∈ context.rules) {cursor : Cursor} {matched : RuleMatch}
    (h : Finds grammar rule cursor matched) :
    ∃ source, matched.Of source cursor ∧
      (source ∈ context.rules ∨ source.switch.isStay = true) := by
  have htakes := (hlayered.rules context hcontext rule hrule).takes
  cases hincluded : rule.includedContext? with
  | none => exact ⟨rule, h.of_plain hincluded htakes, .inl hrule⟩
  | some target =>
    cases h with
    | own allows detect found =>
      rw [Rule.found_eq_none_of_inclusion hincluded detect] at found
      cases found
    | extended allows detect found =>
      rw [Rule.found_eq_none_of_inclusion hincluded detect] at found
      cases found
    | @included rule member cursor inclusion entered found allows kind context_eq member_mem
        finds =>
      have htarget : inclusion.target = target := by
        simpa [Rule.includedContext?, kind] using hincluded
      rw [htarget] at context_eq
      obtain ⟨hleaf, hstay⟩ :=
        hlayered.included context hcontext rule hrule target hincluded entered context_eq member
          member_mem
      have htame := hlayered.rules entered (List.mem_of_getElem? context_eq) member member_mem
      have hown := finds.of_plain (Rule.isLeaf_iff.1 hleaf).1 htame.takes
      exact ⟨member, ⟨hown.takes, hown.switch, hown.captured⟩, .inr hstay⟩

end

/-! ## Stacks -/

/-- The captured groups, if there are any, are pieces of some lines. -/
def CapturedFrom (lines : List (List Char)) (data : Option Captures) : Prop :=
  ∀ groups, data = some groups → ∀ group ∈ groups, ∃ line ∈ lines, group <:+: line

/-- So is each group that a rule asks for, also an empty one that was not captured. -/
theorem CapturedFrom.exists_line {lines : List (List Char)} {cursor : Cursor}
    (h : CapturedFrom lines cursor.data) (hlines : lines ≠ []) (index : Nat) :
    ∃ line ∈ lines, cursor.capture index <:+: line := by
  cases hgroup : cursor.data.bind fun groups => groups[index]? with
  | none =>
    obtain ⟨line, hline⟩ := List.exists_mem_of_ne_nil lines hlines
    refine ⟨line, hline, ?_⟩
    rw [Cursor.capture, hgroup]
    exact List.nil_infix
  | some group =>
    obtain ⟨groups, hgroups, hget⟩ := Option.bind_eq_some_iff.1 hgroup
    rw [Cursor.capture, hgroup]
    exact h groups hgroups group (List.mem_of_getElem? hget)

/-- A stack that grew from the start of a document by what rules push, with groups from some
lines. -/
inductive Stack.Grown (contexts : List Context) (lines : List (List Char)) : Stack → Prop
  | base : Grown contexts lines (.single Grammar.defaultContext)
  | push {stack : Stack} {context : Context} {above : Nat} {data : Option Captures}
      (grown : Grown contexts lines stack) (context_eq : contexts[stack.current]? = some context)
      (opens : above ∈ context.opens) (captured : CapturedFrom lines data) :
      Grown contexts lines (stack.push above data)

namespace Stack.Grown

variable {contexts : List Context} {lines : List (List Char)} {stack : Stack}

theorem capturedFrom (h : stack.Grown contexts lines) : CapturedFrom lines stack.currentData := by
  cases h with
  | base =>
    intro groups hgroups
    cases hgroups
  | push grown context_eq opens captured => exact captured

/-- Above the base a context was pushed by the one below it. -/
theorem exists_under (h : stack.Grown contexts lines)
    (habove : stack.current ≠ Grammar.defaultContext) :
    ∃ (under : Stack) (context : Context) (data : Option Captures),
      stack = under.push stack.current data ∧ under.Grown contexts lines ∧
        contexts[under.current]? = some context ∧ stack.current ∈ context.opens := by
  cases h with
  | base => exact absurd rfl habove
  | @push under context above data grown context_eq opens captured =>
    exact ⟨under, context, data, rfl, grown, context_eq, opens⟩

end Stack.Grown

theorem Stack.push_ne (stack : Stack) (context : Nat) (data : Option Captures) :
    stack ≠ stack.push context data := by
  intro hsame
  have hdepth : stack.depth = stack.depth + 1 := congrArg Stack.depth hsame
  omega

/-- A frame can be popped off a stack to which it was pushed. -/
theorem Switch.notices_pop_push (stack : Stack) (context : Nat) (data : Option Captures) :
    Switch.notices ⟨1, none⟩ (stack.push context data) = [] := by
  have hpos := stack.depth_eq
  have hdepth : (stack.push context data).depth = stack.depth + 1 := rfl
  simp only [notices, Stack.popsTooMany, hdepth]
  rw [if_neg]
  simp only [decide_eq_true_eq]
  omega

theorem Switch.notices_of_pops_eq_zero {switch : Switch} (h : switch.pops = 0) (stack : Stack) :
    switch.notices stack = [] := by
  simp [notices, Stack.popsTooMany, h]

/-- A switch that pops or pushes one frame leads from a grown stack to another and has a frame to
pop. -/
theorem Stack.Grown.apply {contexts : List Context} {lines : List (List Char)} {stack : Stack}
    {context : Context} (h : stack.Grown contexts lines)
    (hcontext : contexts[stack.current]? = some context) {switch : Switch}
    (hswitch : switch.pops = 0 ∨ switch = ⟨1, none⟩)
    (hopens : ∀ target, switch.target = some target → target.context ∈ context.opens)
    (hbase : stack.current = Grammar.defaultContext → switch.pops = 0) {data : Option Captures}
    (hdata : CapturedFrom lines data) :
    (switch.apply stack data).Grown contexts lines ∧ switch.notices stack = [] := by
  rcases hswitch with hpops | rfl
  · refine ⟨?_, Switch.notices_of_pops_eq_zero hpops stack⟩
    obtain ⟨pops, target⟩ := switch
    cases hpops
    cases target with
    | none => exact h
    | some target =>
      refine .push h hcontext (hopens target rfl) ?_
      split
      · exact hdata
      · intro groups hgroups
        cases hgroups
  · have habove : stack.current ≠ Grammar.defaultContext := fun hsame => by
      cases hbase hsame
    obtain ⟨under, entered, below, hstack, hunder, -⟩ := h.exists_under habove
    rw [hstack, Switch.apply_pop, Stack.pop_push]
    exact ⟨hunder, Switch.notices_pop_push under _ below⟩

section

variable {patterns : List RegexRule} {grammar : Grammar}
  (hlayered : Layered patterns grammar.contexts) {lines : List (List Char)}

include hlayered

/-- The match of a rule leads from a grown stack to another, without a notice. -/
theorem Layered.grown_nextStack {stack : Stack} (hgrown : stack.Grown grammar.contexts lines)
    {context : Context} (hcontext : grammar.contexts[stack.current]? = some context)
    {rule : Rule} (hrule : rule ∈ context.rules) {cursor : Cursor} {matched : RuleMatch}
    (hfinds : Finds grammar rule cursor matched) (hrest : ∃ line ∈ lines, cursor.rest <:+ line) :
    0 < matched.length ∧ (matched.nextStack stack).Grown grammar.contexts lines ∧
      matched.notices stack = [] := by
  have hmember := List.mem_of_getElem? hcontext
  obtain ⟨source, hof, hsource⟩ := hlayered.exists_of_finds hmember hrule hfinds
  rw [hof.nextStack_eq, hof.notices_eq]
  refine ⟨hof.takes, ?_⟩
  rcases hsource with hsource | hstay
  · refine hgrown.apply hcontext (hlayered.rules context hmember source hsource).switch ?_ ?_ ?_
    · intro target htarget
      exact List.mem_filterMap.2 ⟨source, hsource, by rw [htarget]; rfl⟩
    · intro hbase
      rw [hbase] at hcontext
      exact (hlayered.base context hcontext).2.2 source hsource
    · intro groups hgroups group hgroup
      obtain ⟨line, hline, hsuffix⟩ := hrest
      exact ⟨line, hline, (hof.captured groups hgroups group hgroup).trans hsuffix.isInfix⟩
  · rw [Switch.apply_of_isStay hstay, Switch.notices_of_isStay hstay]
    exact ⟨hgrown, rfl⟩

/-- A fallthrough switch that moves pops a frame, and the context below stays. -/
theorem Layered.grown_fallthrough {stack : Stack} (hgrown : stack.Grown grammar.contexts lines)
    {context : Context} (hcontext : grammar.contexts[stack.current]? = some context)
    (hmoves : context.fallthrough.isStay = false) :
    (context.fallthrough.apply stack none).Grown grammar.contexts lines ∧
      context.fallthrough.apply stack none ≠ stack ∧ context.fallthrough.notices stack = [] ∧
      ∀ under, grammar.contexts[(context.fallthrough.apply stack none).current]? = some under →
        under.fallthrough.isStay = true := by
  have hmember := List.mem_of_getElem? hcontext
  have hpop : context.fallthrough = ⟨1, none⟩ := by
    rcases hlayered.fallthrough context hmember with hstay | hpop
    · rw [hmoves] at hstay
      cases hstay
    · exact hpop
  have habove : stack.current ≠ Grammar.defaultContext := by
    intro hsame
    rw [hsame] at hcontext
    rw [(hlayered.base context hcontext).2.1] at hmoves
    cases hmoves
  obtain ⟨under, entered, below, hstack, hunder, hentered, hopens⟩ := hgrown.exists_under habove
  rw [hpop, Switch.apply_pop]
  rw [hstack] at hcontext ⊢
  rw [Stack.pop_push]
  refine ⟨hunder, Stack.push_ne _ _ _, Switch.notices_pop_push _ _ _, ?_⟩
  intro other hother
  obtain rfl : entered = other := Option.some.inj (hentered.symm.trans hother)
  rcases hlayered.falls entered (List.mem_of_getElem? hentered) _ hopens context hcontext with
    hstay | hstay
  · rw [hmoves] at hstay
    cases hstay
  · exact hstay

end

/-! ## Lines -/

/-- The notice of a pattern that does not compile with groups from some lines filled in. -/
def Refused (patterns : List RegexRule) (lines : List (List Char)) (notice : Notice) : Prop :=
  ∃ regex ∈ patterns, ∃ place : Cursor, CapturedFrom lines place.data ∧
    ∃ text, regex.regexAt place = .error text ∧ notice = .brokenPattern text

/-- The invariant of scanning: at most one switch was taken without text, and if one was, no other
follows. -/
structure Scan.Orderly (patterns : List RegexRule) (contexts : List Context)
    (lines : List (List Char)) (scan : Scan) : Prop where
  grown : scan.stack.Grown contexts lines
  switches : scan.zeroWidth = 0 ∨ scan.zeroWidth = 1 ∧
    ∀ context, contexts[scan.stack.current]? = some context → context.fallthrough.isStay = true
  notices : ∀ notice ∈ scan.notices, Refused patterns lines notice

section

variable {patterns : List RegexRule} {grammar : Grammar}
  (hlayered : Layered patterns grammar.contexts) {lines : List (List Char)}

include hlayered

/-- The move of such a scan comes without a notice and leads to such a scan. -/
theorem Scan.Orderly.perform (hresolved : grammar.Resolved) {scan moved : Scan} {leading : Nat}
    {context : Context} {trial : Trial}
    (h : scan.Orderly patterns grammar.contexts lines)
    (hcontext : grammar.contexts[scan.stack.current]? = some context)
    (htrial : grammar.tryRules context.rules (scan.cursor grammar leading) = .ok trial)
    (hrest : ∃ line ∈ lines, scan.rest <:+ line)
    (hmoved : scan.perform context (scan.chooseMove context trial.found).1 = .ok moved) :
    (scan.chooseMove context trial.found).2 = [] ∧
      moved.Orderly patterns grammar.contexts lines := by
  cases hfound : trial.found with
  | some matched =>
    obtain ⟨rule, hrule, hfinds⟩ :=
      Grammar.exists_finds_of_tryRules hresolved hcontext htrial hfound
    obtain ⟨hpos, hgrown, hnotices⟩ :=
      hlayered.grown_nextStack h.grown hcontext hrule hfinds hrest
    have hmove : scan.chooseMove context (some matched) =
        (.consume matched (matched.nextStack scan.stack), []) := by
      simp only [chooseMove, if_pos hpos, hnotices]
    rw [hfound, hmove] at hmoved
    rw [hmove]
    refine ⟨rfl, ?_⟩
    simp only [Scan.perform] at hmoved
    split at hmoved
    · cases hmoved
    · cases hmoved
      exact ⟨hgrown, .inl rfl, h.notices⟩
  | none =>
    -- The limit refuses no switch here, as one was taken at this offset at most.
    have hlimit : scan.zeroWidth < zeroWidthLimit := by
      rw [zeroWidthLimit]
      rcases h.switches with hzero | ⟨hone, -⟩
      · omega
      · omega
    rw [hfound] at hmoved
    simp only [chooseMove, fallThrough, if_pos hlimit] at hmoved ⊢
    cases hstay : context.fallthrough.isStay with
    | true =>
      simp only [hstay, if_true, Scan.perform] at hmoved ⊢
      refine ⟨trivial, ?_⟩
      split at hmoved
      · cases hmoved
        exact h
      · cases hmoved
        exact ⟨h.grown, .inl rfl, h.notices⟩
    | false =>
      obtain ⟨hgrown, hchanges, hnotices, hunder⟩ :=
        hlayered.grown_fallthrough h.grown hcontext hstay
      simp only [hstay, Bool.false_eq_true, if_false, if_neg hchanges, Scan.perform] at hmoved ⊢
      refine ⟨hnotices, ?_⟩
      cases hmoved
      refine ⟨hgrown, .inr ⟨?_, hunder⟩, h.notices⟩
      rcases h.switches with hzero | ⟨-, hlater⟩
      · exact congrArg (· + 1) hzero
      · rw [hlater context hcontext] at hstay
        cases hstay

/-- The step lemma: a step keeps the invariant. -/
theorem Scan.Orderly.step (hresolved : grammar.Resolved) {scan next : Scan} {leading : Nat}
    (h : scan.Orderly patterns grammar.contexts lines)
    (hrest : ∃ line ∈ lines, scan.rest <:+ line)
    (hstep : scan.step grammar leading = .ok next) :
    next.Orderly patterns grammar.contexts lines := by
  obtain ⟨context, trial, moved, hcontext, htrial, hmoved, rfl⟩ := exists_of_step hstep
  have hget := Grammar.getElem?_of_context hcontext
  obtain ⟨hsilent, horderly⟩ := h.perform hlayered hresolved hget htrial hrest hmoved
  refine ⟨horderly.grown, horderly.switches, ?_⟩
  intro notice hnotice
  simp only [note, hsilent, List.append_nil, List.mem_append, List.mem_reverse,
    List.mem_map] at hnotice
  rcases hnotice with ⟨text, htext, rfl⟩ | hnotice
  · obtain ⟨regex, hregex, hrefused⟩ :=
      hlayered.exists_refused (List.mem_of_getElem? hget) htrial htext
    exact ⟨regex, hregex, _, h.grown.capturedFrom, text, hrefused, rfl⟩
  · exact horderly.notices notice hnotice

/-- The run lemma: the invariant holds of every scan along a line. -/
theorem Scan.Reaches.orderly (hresolved : grammar.Resolved) {line : List Char}
    (hline : line ∈ lines) {leading count : Nat} {scan last : Scan}
    (hreaches : Reaches grammar leading count scan last) (hat : scan.At line)
    (hstack : scan.stack.Within grammar.contexts.length)
    (h : scan.Orderly patterns grammar.contexts lines) :
    last.Orderly patterns grammar.contexts lines := by
  induction hreaches with
  | refl scan => exact h
  | @head count scan next last rest step_eq reaches ih =>
    obtain ⟨context, trial, -, -, hfollows, hwithin⟩ :=
      follows_of_step hresolved hstack rest step_eq
    have hrest : ∃ line ∈ lines, scan.rest <:+ line := by
      obtain ⟨skipped, hsplit, -⟩ := hat
      exact ⟨line, hline, skipped, hsplit.symm⟩
    exact ih (hfollows.at hat) hwithin (h.step hlayered hresolved hrest step_eq)

end

/-! ## Ends of lines -/

/-- A frame of a context that is popped at the end of a line. -/
def Frame.isSingleLine (contexts : List Context) (frame : Frame) : Bool :=
  contexts[frame.context]?.any Context.isSingleLine

/-- How many contexts on a stack are popped at the end of a line. -/
def Stack.singleLines (contexts : List Context) (stack : Stack) : Nat :=
  stack.frames.countP (Frame.isSingleLine contexts)

theorem Frame.isSingleLine_eq {contexts : List Context} (frame : Frame) {context : Context}
    (h : contexts[frame.context]? = some context) :
    frame.isSingleLine contexts = context.isSingleLine := by
  rw [isSingleLine, h, Option.any_some]

theorem Stack.singleLines_push {contexts : List Context} {stack : Stack} {above : Nat}
    {data : Option Captures} {context : Context} (h : contexts[above]? = some context) :
    (stack.push above data).singleLines contexts =
      stack.singleLines contexts + if context.isSingleLine then 1 else 0 := by
  rw [singleLines, frames_push, List.countP_append, List.countP_singleton,
    Frame.isSingleLine_eq ⟨above, data⟩ h]
  rfl

section

variable {patterns : List RegexRule} {grammar : Grammar}
  (hlayered : Layered patterns grammar.contexts) {lines : List (List Char)}

include hlayered

/-- Contexts that end with their line stand on top of all others, and there are at most two. -/
theorem Stack.Grown.singleLines_le {stack : Stack} (h : stack.Grown grammar.contexts lines)
    {context : Context} (hcontext : grammar.contexts[stack.current]? = some context) :
    (context.isSingleLine = false → stack.singleLines grammar.contexts = 0) ∧
    (context.opens ≠ [] → stack.singleLines grammar.contexts ≤ 1) ∧
    stack.singleLines grammar.contexts ≤ 2 := by
  -- The middle part is what carries the induction: only a context that opens another is pushed on.
  induction h generalizing context with
  | base =>
    have hnone : (Stack.single Grammar.defaultContext).singleLines grammar.contexts = 0 := by
      rw [Stack.singleLines, Stack.frames_single, List.countP_singleton,
        Frame.isSingleLine_eq ⟨Grammar.defaultContext, none⟩ hcontext,
        (hlayered.base context hcontext).1]
      rfl
    omega
  | @push under entered above data grown context_eq opens captured ih =>
    obtain ⟨hplain, hopens, hmost⟩ := ih context_eq
    have hunder := hopens (List.ne_nil_of_mem opens)
    have habove : grammar.contexts[above]? = some context := hcontext
    have hnests := hlayered.nests entered (List.mem_of_getElem? context_eq) above opens context
      habove
    rw [Stack.singleLines_push habove]
    cases hentered : entered.isSingleLine with
    | true =>
      obtain ⟨hsingle, hleaf⟩ := hnests hentered
      simp only [hsingle, hleaf, if_true]
      refine ⟨fun h => (by cases h), fun h => absurd rfl h, by omega⟩
    | false =>
      have hzero := hplain hentered
      refine ⟨fun h => ?_, fun _ => ?_, ?_⟩
      · rw [hzero, h]
        rfl
      · split
        · omega
        · omega
      · split
        · omega
        · omega

/-- Where the context on top stays at the end of a line, the switches settle at once. -/
theorem Stack.Grown.settleLineEnd_eq {stack : Stack} (h : stack.Grown grammar.contexts lines)
    {context : Context} (hcontext : grammar.contexts[stack.current]? = some context)
    (hplain : context.isSingleLine = false) {limit : Nat} (hlimit : 0 < limit) :
    settleLineEnd grammar limit stack = .ok (stack, []) ∧
      stack.frames = stack.frames.filter fun frame => !frame.isSingleLine grammar.contexts := by
  obtain ⟨less, rfl⟩ := Nat.exists_eq_succ_of_ne_zero (Nat.ne_of_gt hlimit)
  have hstays := hlayered.lineEnd context (List.mem_of_getElem? hcontext) hplain
  refine ⟨settleLineEnd_of_stay hcontext hstays less, ?_⟩
  have hnone := (h.singleLines_le hlayered hcontext).1 hplain
  refine (List.filter_eq_self.2 fun frame hframe => ?_).symm
  rw [Bool.not_eq_true', Bool.eq_false_iff]
  exact List.countP_eq_zero.1 hnone frame hframe

/-- The switches for the end of a line pop the contexts that end with it and settle on the others,
within any limit above their number. -/
theorem Stack.Grown.exists_settled {stack : Stack} (h : stack.Grown grammar.contexts lines)
    {context : Context} (hcontext : grammar.contexts[stack.current]? = some context) {limit : Nat}
    (hlimit : stack.singleLines grammar.contexts < limit) :
    ∃ settled last, settleLineEnd grammar limit stack = .ok (settled, []) ∧
      settled.Grown grammar.contexts lines ∧
      grammar.contexts[settled.current]? = some last ∧ last.isSingleLine = false ∧
      settled.frames =
        stack.frames.filter fun frame => !frame.isSingleLine grammar.contexts := by
  -- A pop undoes the last push, so the induction on the path is one on the switches.
  induction h generalizing limit context with
  | base =>
    have hplain := (hlayered.base _ hcontext).1
    have hgrown : (Stack.single Grammar.defaultContext).Grown grammar.contexts lines := .base
    obtain ⟨hsettled, hframes⟩ :=
      hgrown.settleLineEnd_eq hlayered hcontext hplain (Nat.zero_lt_of_lt hlimit)
    exact ⟨_, _, hsettled, hgrown, hcontext, hplain, hframes⟩
  | @push under entered above data grown context_eq opens captured ih =>
    have hgrown : (under.push above data).Grown grammar.contexts lines :=
      .push grown context_eq opens captured
    have habove : grammar.contexts[above]? = some context := hcontext
    cases hsingle : context.isSingleLine with
    | false =>
      obtain ⟨hsettled, hframes⟩ :=
        hgrown.settleLineEnd_eq hlayered hcontext hsingle (Nat.zero_lt_of_lt hlimit)
      exact ⟨_, context, hsettled, hgrown, hcontext, hsingle, hframes⟩
    | true =>
      rw [Stack.singleLines_push habove, hsingle, if_pos rfl] at hlimit
      obtain ⟨less, rfl⟩ := Nat.exists_eq_succ_of_ne_zero (Nat.ne_of_gt (Nat.zero_lt_of_lt hlimit))
      obtain ⟨settled, last, hsettled, hlast⟩ := ih context_eq (Nat.lt_of_succ_lt_succ hlimit)
      have hpop : context.lineEnd = ⟨1, none⟩ := by simpa [Context.isSingleLine] using hsingle
      have happly : context.lineEnd.apply (under.push above data) none = under := by
        rw [hpop, Switch.apply_pop, Stack.pop_push]
      have hleft : (under.push above data).frames.filter
          (fun frame => !frame.isSingleLine grammar.contexts) =
            under.frames.filter fun frame => !frame.isSingleLine grammar.contexts := by
        rw [Stack.frames_push, List.filter_append, List.filter_singleton,
          Frame.isSingleLine_eq ⟨above, data⟩ habove, hsingle]
        simp
      rw [hleft]
      refine ⟨settled, last, ?_, hlast⟩
      refine settleLineEnd_succ_eq_ok_iff.2 ⟨context, Grammar.context_eq_ok hcontext, ?_⟩
      rw [happly, if_neg (Stack.push_ne under above data), hpop, Switch.notices_pop_push]
      exact ⟨[], hsettled, rfl⟩

end

/-! ## Documents -/

/-- The notices of a line are those of its scan and those of its end. -/
theorem notices_of_highlightLine {grammar : Grammar} {line : List Char} {stack : Stack}
    {result : Highlighted} {count : Nat} {last : Scan}
    (h : highlightLine grammar line stack = .ok result)
    (hreaches : Scan.Reaches grammar (leadingBlanks line) count (Scan.start line stack) last)
    (hend : last.rest = []) :
    ∃ ending, result.notices = last.notices.reverse ++ ending ∧
      if result.lineContinue then result.endStack = last.stack ∧ ending = []
      else nextLineStack grammar last.stack = .ok (result.endStack, ending) := by
  have hrun := hreaches.run_eq.trans (Scan.run_of_rest_eq_nil hend)
  simp only [highlightLine, hrun, bind, Except.bind] at h
  split at h
  · cases h
  · split at h
    · cases h
      exact ⟨[], (List.append_nil _).symm, rfl, rfl⟩
    · split at h
      · cases h
      · next next hnext =>
        cases h
        exact ⟨next.2, rfl, hnext⟩

theorem Scan.Reaches.trans {grammar : Grammar} {leading first second : Nat}
    {scan middle last : Scan} (h : Reaches grammar leading first scan middle)
    (hlater : Reaches grammar leading second middle last) :
    Reaches grammar leading (first + second) scan last := by
  induction h with
  | refl scan =>
    rw [Nat.zero_add]
    exact hlater
  | head rest step_eq reaches ih =>
    rw [Nat.succ_add]
    exact .head rest step_eq (ih hlater)

/-- What a line of layered contexts comes to: the scan at its end, and the stack that the switches
for the end of a line settle on there. -/
structure Highlighted.Calm (patterns : List RegexRule) (grammar : Grammar)
    (lines : List (List Char)) (line : List Char) (stack : Stack) (result : Highlighted)
    (last : Scan) (settled : Stack) : Prop where
  reaches : ∃ count,
    Scan.Reaches grammar (leadingBlanks line) count (Scan.start line stack) last
  rest : last.rest = []
  orderly : ∀ before scan,
    Scan.Reaches grammar (leadingBlanks line) before (Scan.start line stack) scan →
      scan.Orderly patterns grammar.contexts lines
  settles : ∀ limit, 2 < limit → settleLineEnd grammar limit last.stack = .ok (settled, [])
  settledGrown : settled.Grown grammar.contexts lines
  frames : settled.frames =
    last.stack.frames.filter fun frame => !frame.isSingleLine grammar.contexts
  endStack : result.endStack = if result.lineContinue then last.stack else settled
  notices : result.notices = last.notices.reverse

/-- The next line starts with a grown stack again. -/
theorem Highlighted.Calm.grown {patterns : List RegexRule} {grammar : Grammar}
    {lines : List (List Char)} {line : List Char} {stack : Stack} {result : Highlighted}
    {last : Scan} {settled : Stack}
    (h : result.Calm patterns grammar lines line stack last settled) :
    result.endStack.Grown grammar.contexts lines := by
  obtain ⟨count, hreaches⟩ := h.reaches
  rw [h.endStack]
  split
  · exact (h.orderly count last hreaches).grown
  · exact h.settledGrown

/-- At any offset such a line takes one switch without text at most. -/
theorem Highlighted.Calm.between_le {patterns : List RegexRule} {grammar : Grammar}
    {lines : List (List Char)} {line : List Char} {stack : Stack} {result : Highlighted}
    {last : Scan} {settled : Stack}
    (h : result.Calm patterns grammar lines line stack last settled)
    (hresolved : grammar.Resolved) (hstack : stack.Within grammar.contexts.length)
    {before between : Nat} {scan later : Scan}
    (hscan : Scan.Reaches grammar (leadingBlanks line) before (Scan.start line stack) scan)
    (hlater : Scan.Reaches grammar (leadingBlanks line) between scan later)
    (hsame : later.offset = scan.offset) : between ≤ 1 := by
  obtain ⟨-, hwithin⟩ := hscan.invariant hresolved (Scan.at_start line stack) hstack
  have hcounted := hlater.zeroWidth_eq hresolved hwithin hsame
  rcases (h.orderly _ later (hscan.trans hlater)).switches with hzero | ⟨hone, -⟩
  · omega
  · omega

section

variable {patterns : List RegexRule} {grammar : Grammar}
  (hlayered : Layered patterns grammar.contexts) (hresolved : grammar.Resolved)
  {lines : List (List Char)}

include hlayered hresolved

theorem Layered.exists_highlightLine {line : List Char} (hline : line ∈ lines) {stack : Stack}
    (hgrown : stack.Grown grammar.contexts lines)
    (hstack : stack.Within grammar.contexts.length) :
    ∃ result last settled, highlightLine grammar line stack = .ok result ∧
      result.Calm patterns grammar lines line stack last settled ∧
      result.endStack.Within grammar.contexts.length := by
  obtain ⟨result, count, last, hresult, hreaches, hend, -, hwithin⟩ :=
    Highlight.exists_highlightLine hresolved line hstack
  have hstart : (Scan.start line stack).Orderly patterns grammar.contexts lines :=
    ⟨hgrown, .inl rfl, fun notice hnotice => by cases hnotice⟩
  have horderly : ∀ before scan,
      Scan.Reaches grammar (leadingBlanks line) before (Scan.start line stack) scan →
        scan.Orderly patterns grammar.contexts lines := fun before scan hscan =>
    hscan.orderly hlayered hresolved hline (Scan.at_start line stack) hstack hstart
  have hlast := (horderly count last hreaches).grown
  obtain ⟨-, hlastWithin⟩ := hreaches.invariant hresolved (Scan.at_start line stack) hstack
  have hcontext := List.getElem?_eq_getElem hlastWithin.current_lt
  have hcount := (hlast.singleLines_le hlayered hcontext).2.2
  have hsettles := fun limit (hlimit : 2 < limit) =>
    hlast.exists_settled hlayered hcontext (Nat.lt_of_le_of_lt hcount hlimit)
  obtain ⟨settled, top, hsettled, hgrownNext, htop, -, hframes⟩ := hsettles lineEndLimit (by decide)
  have hbegin := hlayered.lineBegin top (List.mem_of_getElem? htop)
  have hnext : nextLineStack grammar last.stack = .ok (settled, []) := by
    refine nextLineStack_eq_ok_iff.2
      ⟨settled, [], top, hsettled, Grammar.context_eq_ok htop, ?_, ?_⟩
    · exact (Switch.apply_of_isStay hbegin settled none).symm
    · exact (Switch.notices_of_isStay hbegin settled).symm
  obtain ⟨ending, hnotices, hclosing⟩ := notices_of_highlightLine hresult hreaches hend
  have hclosed : result.endStack = (if result.lineContinue then last.stack else settled) ∧
      ending = [] := by
    cases hcontinue : result.lineContinue with
    | true => simpa only [hcontinue, if_true] using hclosing
    | false =>
      simp only [hcontinue, Bool.false_eq_true, if_false, hnext] at hclosing
      cases hclosing
      exact ⟨rfl, rfl⟩
  refine ⟨result, last, settled, hresult, ⟨⟨count, hreaches⟩, hend, horderly, ?_, hgrownNext,
    hframes, hclosed.1, ?_⟩, hwithin⟩
  · intro limit hlimit
    obtain ⟨other, -, hother, -, -, -, hsame⟩ := hsettles limit hlimit
    rw [hother, Stack.ext_frames (hsame.trans hframes.symm)]
  · rw [hnotices, hclosed.2, List.append_nil]

/-- Along a document the stacks stay grown. -/
theorem Layered.exists_highlightDocument {part : List (List Char)}
    (hpart : ∀ line ∈ part, line ∈ lines) {stack : Stack}
    (hgrown : stack.Grown grammar.contexts lines)
    (hstack : stack.Within grammar.contexts.length) :
    ∃ entries, highlightDocument grammar stack part = .ok entries ∧
      (stackAfter stack entries).Grown grammar.contexts lines ∧
      (stackAfter stack entries).Within grammar.contexts.length := by
  induction part generalizing stack with
  | nil => exact ⟨[], rfl, hgrown, hstack⟩
  | cons line rest ih =>
    obtain ⟨result, last, settled, hresult, hcalm, hwithin⟩ :=
      hlayered.exists_highlightLine hresolved (hpart line List.mem_cons_self) hgrown hstack
    obtain ⟨entries, hentries, hlater⟩ :=
      ih (fun other hother => hpart other (List.mem_cons_of_mem _ hother)) hcalm.grown hwithin
    exact ⟨result.entry :: entries, highlightDocument_cons hresult hentries, hlater⟩

/-- Any line of a document, behind some others. -/
theorem Layered.exists_line (before : List (List Char)) (line : List Char) :
    ∃ entries result last settled,
      highlightDocument grammar Grammar.initialStack before = .ok entries ∧
      highlightLine grammar line (stackAfter Grammar.initialStack entries) = .ok result ∧
      highlightDocument grammar Grammar.initialStack (before ++ [line]) =
        .ok (entries ++ [result.entry]) ∧
      (stackAfter Grammar.initialStack entries).Within grammar.contexts.length ∧
      result.Calm patterns grammar (before ++ [line]) line
        (stackAfter Grammar.initialStack entries) last settled := by
  have hpart : ∀ other ∈ before, other ∈ before ++ [line] :=
    fun other hother => List.mem_append_left _ hother
  obtain ⟨entries, hentries, hgrown, hwithin⟩ :=
    hlayered.exists_highlightDocument hresolved hpart .base
      (Stack.within_single hresolved.nonempty)
  obtain ⟨result, last, settled, hresult, hcalm, -⟩ :=
    hlayered.exists_highlightLine hresolved
      (List.mem_append_right before List.mem_cons_self) hgrown hwithin
  exact ⟨entries, result, last, settled, hentries, hresult,
    highlightDocument_append hentries (highlightDocument_cons hresult rfl), hwithin, hcalm⟩

end

end Highlight
