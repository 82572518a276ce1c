import Highlight.Proofs.FullyResolved
import Highlight.Proofs.Incremental

/-!
# Scanning in known contexts

Tools for a grammar whose description is at hand, so that the rules of its contexts are known.

* Building.  `GrammarDef.buildsRanked` runs the phases of building and checks the inclusions against
  a rank, which can be evaluated (`exists_build_of_ranked`); a context of the grammar is what its
  description resolves to (`context_of_build`), and its switches stay where they are written so
  (`exists_staying_context`).  `Grammar.names` are the names of the contexts on a stack, which say
  what contexts these are (`contexts_of_names`).
* Rules.  A rule that neither includes a context nor has rules behind it finds its own match or
  nothing (`tryRule_of_childless`, `tryRule_of_length?`, `Finds.detect_of_childless`).
* Stacks along a line.  A step changes the stack by a match, by the fallthrough switch or not at all
  (`Scan.Follows.stack_cases`), and only adds spans (`Scan.Follows.suffix_spans`).  What every step
  keeps holds wherever a run comes to (`Scan.Reaches.keeps`) and at the end of the line
  (`exists_highlightLine_preserves`), and what a run has lost some step has ended
  (`Scan.Reaches.exists_exit`).  `nextLineStack_of_stay` and `nextLineStack_of_leave` say what
  becomes of the stack at the end of the line.
-/

namespace Highlight

/-! ## Building -/

namespace GrammarDef

/-- Whether the phases of building succeed and every inclusion leads to a context of lower rank. -/
def buildsRanked (description : GrammarDef) (rank : Nat → Nat) : Bool :=
  !description.contexts.isEmpty &&
    (firstDuplicate? [] (description.contexts.map ContextDef.name)).isNone &&
    match description.styles.result with
    | .error _ => false
    | .ok styles =>
      match (Reported.each (description.resolver styles).context description.contexts).result with
      | .error _ => false
      | .ok contexts =>
        (List.range contexts.length).all fun source =>
          ((includeGraph contexts).targets source).all fun target => rank target < rank source

theorem exists_build_of_ranked {description : GrammarDef} (rank : Nat → Nat)
    (h : description.buildsRanked rank = true) :
    ∃ grammar, description.build.result = .ok grammar := by
  unfold buildsRanked at h
  split at h
  · simp at h
  · next styles hstyles =>
    split at h
    · simp at h
    · next contexts hcontexts =>
      simp only [Bool.and_eq_true, Bool.not_eq_true', List.isEmpty_eq_false_iff,
        Option.isNone_iff_eq_none, List.all_eq_true, List.mem_range, decide_eq_true_eq] at h
      obtain ⟨⟨hne, hdistinct⟩, hranked⟩ := h
      have hacyclic : (includeGraph contexts).firstCycle? = none :=
        Graph.firstCycle?_of_ranked rank hranked
      obtain ⟨grammar, hbuild, -⟩ :=
        exists_build_of_acyclic hne hdistinct hstyles hcontexts hacyclic
      exact ⟨grammar, hbuild⟩

theorem delimiters_of_build {description : GrammarDef} {grammar : Grammar}
    (h : description.build.result = .ok grammar) :
    grammar.delimiters =
      .adjusted description.weakDelimiters description.additionalDelimiters := by
  obtain ⟨-, -, styles, -, -, hassemble⟩ := build_eq_ok h
  unfold assemble at hassemble
  split at hassemble
  · cases hassemble
  · rw [← Except.ok.inj hassemble]

/-- A context of a grammar is what its description resolves to. -/
theorem context_of_build {description : GrammarDef} {grammar : Grammar}
    (h : description.build.result = .ok grammar) {styles : List (List Char × Style)}
    (hstyles : description.styles.result = .ok styles) {index : Nat} {written : ContextDef}
    (hwritten : description.contexts[index]? = some written) {context : Context}
    (hcontext : ((description.resolver styles).context written).result = .ok context) :
    grammar.contexts[index]? = some context := by
  obtain ⟨-, -, others, hothers, hcontexts, -⟩ := build_eq_ok h
  obtain rfl : styles = others := Except.ok.inj (hstyles.symm.trans hothers)
  obtain ⟨hindex, rfl⟩ := List.getElem?_eq_some_iff.1 hwritten
  have hlast : index < grammar.contexts.length := hcontexts.length_eq ▸ hindex
  have hresolved := hcontexts.get hindex hlast
  rw [List.getElem?_eq_getElem hlast]
  exact congrArg some (Except.ok.inj (hresolved.symm.trans hcontext))

end GrammarDef

/-- A switch that is written as one that stays does so. -/
theorem Switch.Resolves.isStay {contexts : List Context} {switch : Switch}
    (h : switch.Resolves contexts "#stay") : switch.isStay = true := by
  obtain ⟨pops, target⟩ := switch
  have hparsed := h.parsed
  rw [show (SwitchOp.parse "#stay").result = .ok ⟨0, none⟩ from rfl] at hparsed
  cases target with
  | none =>
    cases hparsed
    rfl
  | some target => cases hparsed

/-- Contexts that are written to stay at both ends of a line do so. -/
theorem GrammarDef.exists_staying_context {description : GrammarDef} {grammar : Grammar}
    (h : description.build.result = .ok grammar) {index : Nat} {written : ContextDef}
    (hwritten : description.contexts[index]? = some written) (hend : written.lineEnd = "#stay")
    (hbegin : written.lineBegin = "#stay") :
    ∃ context, grammar.contexts[index]? = some context ∧ context.lineEnd.isStay = true ∧
      context.lineBegin.isStay = true := by
  have hcontexts := (GrammarDef.grammar_resolves h).contexts
  obtain ⟨hindex, rfl⟩ := List.getElem?_eq_some_iff.1 hwritten
  have hlast : index < grammar.contexts.length := hcontexts.length_eq ▸ hindex
  have hresolves := hcontexts.get hindex hlast
  refine ⟨grammar.contexts[index], List.getElem?_eq_getElem hlast, ?_, ?_⟩
  · have hswitch := hresolves.lineEnd
    rw [show (description.contexts.get ⟨index, hindex⟩).lineEnd = "#stay" from hend] at hswitch
    exact hswitch.isStay
  · have hswitch := hresolves.lineBegin
    rw [show (description.contexts.get ⟨index, hindex⟩).lineBegin = "#stay" from hbegin] at hswitch
    exact hswitch.isStay

/-- The names of the contexts on a stack, from the base to the top. -/
def Grammar.names (grammar : Grammar) (stack : Stack) : List (Option String) :=
  stack.frames.map fun frame => (grammar.contexts[frame.context]?).map Context.name

/-- They are the names that the description gives to the contexts. -/
theorem GrammarDef.names_eq {description : GrammarDef} {grammar : Grammar}
    (h : description.build.result = .ok grammar) (stack : Stack) :
    grammar.names stack = (stack.frames.map Frame.context).map fun place =>
      (description.contexts.map ContextDef.name)[place]? := by
  rw [Grammar.names, ← (declared_of_build h).1, List.map_map]
  simp [Function.comp_def]

/-- The names on a stack say which contexts are on it. -/
theorem GrammarDef.contexts_of_names {description : GrammarDef} {grammar : Grammar}
    (h : description.build.result = .ok grammar) {stack : Stack} {places : List Nat}
    (hplaces : ∀ place ∈ places, place < description.contexts.length)
    (hnames : grammar.names stack =
      places.map fun place => (description.contexts.map ContextDef.name)[place]?) :
    stack.frames.map Frame.context = places := by
  have hdistinct := (GrammarDef.grammar_resolves h).distinct
  rw [(declared_of_build h).1] at hdistinct
  rw [names_eq h] at hnames
  generalize stack.frames.map Frame.context = others at hnames
  induction places generalizing others with
  | nil => exact List.map_eq_nil_iff.1 hnames
  | cons place places ih =>
    cases others with
    | nil => cases hnames
    | cons other others =>
      simp only [List.map_cons, List.cons.injEq] at hnames
      obtain ⟨hname, hrest⟩ := hnames
      have hplace : place < (description.contexts.map ContextDef.name).length := by
        rw [List.length_map]
        exact hplaces place List.mem_cons_self
      rw [(List.getElem?_inj hplace hdistinct).1 hname.symm,
        ih (fun later hlater => hplaces later (List.mem_cons_of_mem _ hlater)) others hrest]

/-- A name says which context it is the name of. -/
theorem GrammarDef.context_of_name {description : GrammarDef} {grammar : Grammar}
    (h : description.build.result = .ok grammar) {place other : Nat} {context : Context}
    (hcontext : grammar.contexts[place]? = some context)
    (hname : (grammar.contexts[other]?).map Context.name = some context.name) :
    grammar.contexts[other]? = some context := by
  have hdistinct := (GrammarDef.grammar_resolves h).distinct
  have hplace : place < (grammar.contexts.map Context.name).length := by
    rw [List.length_map]
    exact (List.getElem?_eq_some_iff.1 hcontext).1
  have hsame : (grammar.contexts.map Context.name)[place]? =
      (grammar.contexts.map Context.name)[other]? := by
    rw [List.getElem?_map, List.getElem?_map, hname, hcontext, Option.map_some]
  rw [← (List.getElem?_inj hplace hdistinct).1 hsame, hcontext]

/-- A context that a grammar has can be looked up. -/
theorem Grammar.context_eq_ok {grammar : Grammar} {index : Nat} {context : Context}
    (h : grammar.contexts[index]? = some context) : grammar.context index = .ok context := by
  rw [Grammar.context, h, orFault]

/-- The top and the rest of a stack whose contexts are known. -/
theorem Stack.current_of_frames {stack : Stack} {places : List Nat} {place : Nat}
    (h : stack.frames.map Frame.context = places ++ [place]) :
    stack.current = place ∧
      (places ≠ [] → stack.pop.frames.map Frame.context = places) := by
  have hsplit : stack.frames = stack.below.reverse ++ [stack.top] := by simp [frames]
  rw [hsplit, List.map_append, List.map_singleton] at h
  obtain ⟨hbelow, htop⟩ := List.append_inj' h rfl
  refine ⟨List.singleton_inj.1 htop, fun hne => ?_⟩
  have hcut : stack.below.reverse.length = max 1 (stack.depth - 1) := by
    have hlength := congrArg List.length hbelow
    have hpos := List.length_pos_iff.2 hne
    rw [List.length_map, List.length_reverse] at hlength
    rw [List.length_reverse, stack.depth_eq]
    omega
  rw [frames_pop, hsplit, List.take_left' hcut]
  exact hbelow

theorem Stack.pop_push (stack : Stack) (context : Nat) (data : Option Captures) :
    (stack.push context data).pop = stack := rfl

theorem Stack.popMany_one (stack : Stack) : stack.popMany 1 = stack.pop := by
  apply ext_frames
  rw [frames_popMany, frames_pop]

theorem Stack.within_of_frames {stack : Stack} {size : Nat}
    (h : ∀ place ∈ stack.frames.map Frame.context, place < size) : stack.Within size :=
  fun _ hframe => h _ (List.mem_map_of_mem hframe)

/-! ## Rules -/

/-- A rule that neither includes a context nor has rules behind it gives its own match. -/
theorem Grammar.tryRule_of_childless {grammar : Grammar} {rule : Rule} {cursor : Cursor}
    {attempt : Attempt (Nat × Option Captures)} (hplain : rule.includedContext? = none)
    (hchildren : rule.children = []) (hallows : rule.allows cursor = true)
    (hdetect : rule.detect cursor = .ok attempt) :
    grammar.tryRule rule cursor =
      .ok ⟨attempt.broken, attempt.found.map fun found => rule.toMatch found.1 found.2⟩ := by
  rw [tryRule, if_pos hallows]
  split
  · next inclusion hkind => simp [Rule.includedContext?, hkind] at hplain
  · rw [hdetect]
    obtain ⟨broken, found⟩ := attempt
    cases found with
    | none => rfl
    | some found => simp [hchildren]

/-- A rule without a pattern detects the length that it finds, and no groups. -/
theorem Rule.detect_of_length? {rule : Rule} {cursor : Cursor} {found : Option Nat}
    (hpattern : ∀ regex, rule.kind ≠ .regex regex) (hfound : rule.length? cursor = .ok found) :
    rule.detect cursor = .ok { found := found.map (·, none) } := by
  unfold Rule.detect
  split
  · next regex hregex => exact absurd hregex (hpattern regex)
  · rw [hfound]
    rfl

/-- A rule that stands alone and has no pattern gives the length that it finds. -/
theorem Grammar.tryRule_of_length? (grammar : Grammar) {rule : Rule} {cursor : Cursor}
    {found : Option Nat} (hpattern : ∀ regex, rule.kind ≠ .regex regex)
    (hplain : rule.includedContext? = none) (hchildren : rule.children = [])
    (hallows : rule.allows cursor = true) (hfound : rule.length? cursor = .ok found) :
    grammar.tryRule rule cursor =
      .ok { found := found.map fun length => rule.toMatch length none } := by
  have hdetect := Rule.detect_of_length? hpattern hfound
  rw [tryRule_of_childless hplain hchildren hallows hdetect, Option.map_map]
  rfl

/-- A rule that finds nothing and notes nothing leaves the cursor to the rules behind it. -/
theorem Grammar.tryRules_cons {grammar : Grammar} {rule : Rule} {cursor : Cursor}
    {found : Option RuleMatch} (h : grammar.tryRule rule cursor = .ok { found })
    (rest : List Rule) : grammar.tryRules (rule :: rest) cursor =
      if found.isSome then .ok { found } else grammar.tryRules rest cursor := by
  rw [Grammar.tryRules, h]
  cases found with
  | some matched => rfl
  | none => cases grammar.tryRules rest cursor <;> rfl

/-- What such a rule finds is its own match. -/
theorem Finds.detect_of_childless {grammar : Grammar} {rule : Rule} {cursor : Cursor}
    {matched : RuleMatch} (h : Finds grammar rule cursor matched)
    (hplain : rule.includedContext? = none) (hchildren : rule.children = []) :
    rule.allows cursor = true ∧ ∃ attempt length captures, rule.detect cursor = .ok attempt ∧
      attempt.found = some (length, captures) ∧ matched = rule.toMatch length captures := by
  cases h with
  | own allows detect found => exact ⟨allows, _, _, _, detect, found, rfl⟩
  | extended allows detect found advance member finds =>
    rw [hchildren] at member
    cases member
  | included allows kind context_eq member_mem finds =>
    simp [Rule.includedContext?, kind] at hplain

/-- A rule that stands for itself alone: it neither includes a context, has rules behind it nor
looks for the marker of a continued line. -/
def Rule.isSimple (rule : Rule) : Bool :=
  rule.includedContext?.isNone && rule.children.isEmpty && !rule.isLineContinue

theorem Rule.isSimple_iff {rule : Rule} : rule.isSimple = true ↔
    rule.includedContext? = none ∧ rule.children = [] ∧ rule.isLineContinue = false := by
  simp [isSimple, and_assoc]

/-- A rule that includes a context finds what a rule of that context finds. -/
theorem Finds.exists_included {grammar : Grammar} {rule : Rule} {cursor : Cursor}
    {matched : RuleMatch} (h : Finds grammar rule cursor matched) {inclusion : Inclusion}
    (hkind : rule.kind = .inclusion inclusion) {context : Context}
    (hcontext : grammar.contexts[inclusion.target]? = some context) :
    ∃ member ∈ context.rules, ∃ found, Finds grammar member cursor found ∧
      matched.switch = found.switch ∧ matched.lineContinue = found.lineContinue := by
  have hnone : ∀ attempt, rule.detect cursor = .ok attempt → attempt.found = none := by
    intro attempt hdetect
    have hlength : rule.length? cursor = .ok none := by
      cases hrest : cursor.rest <;> simp only [Rule.length?, hrest, hkind]
    have hempty : rule.detect cursor = .ok {} := by
      simp only [Rule.detect, hkind, hlength, bind, Except.bind, Option.map_none]
    rw [hempty] at hdetect
    cases hdetect
    rfl
  cases h with
  | own allows detect found =>
    rw [hnone _ detect] at found
    cases found
  | extended allows detect found =>
    rw [hnone _ detect] at found
    cases found
  | included allows kind context_eq member_mem finds =>
    rw [hkind] at kind
    cases kind
    rw [hcontext] at context_eq
    cases context_eq
    exact ⟨_, member_mem, _, finds, rfl, rfl⟩

/-- The switch of a rule is taken by its match. -/
theorem Rule.nextStack_toMatch (rule : Rule) (length : Nat) (captures : Option Captures)
    (stack : Stack) :
    (rule.toMatch length captures).nextStack stack = rule.switch.apply stack captures := by
  by_cases hstay : rule.switch.isStay = true
  · simp [RuleMatch.nextStack, toMatch, hstay, Switch.apply_of_isStay hstay]
  · simp [RuleMatch.nextStack, toMatch, hstay]

/-- What trying the rules of a context finds, one of them finds. -/
theorem Grammar.exists_finds_of_tryRules {grammar : Grammar} (hresolved : grammar.Resolved)
    {index : Nat} {context : Context} (hcontext : grammar.contexts[index]? = some context)
    {cursor : Cursor} {trial : Trial} {matched : RuleMatch}
    (htrial : grammar.tryRules context.rules cursor = .ok trial)
    (hfound : trial.found = some matched) :
    ∃ rule ∈ context.rules, Finds grammar rule cursor matched := by
  have hwithin := hresolved.contexts context (List.mem_of_getElem? hcontext)
  obtain ⟨other, hother, hfinds⟩ := tryRules_finds hresolved context.rules cursor hwithin.rules
  rw [htrial] at hother
  cases hother
  exact hfinds matched hfound

/-- Where nothing is found none of the rules finds anything. -/
theorem FirstMatch.misses {grammar : Grammar} {rules : List Rule} {cursor : Cursor}
    {found : Option RuleMatch} (h : FirstMatch grammar cursor rules found)
    (hmissed : found.isNone = true) :
    ∀ rule ∈ rules, ∃ trial, grammar.tryRule rule cursor = .ok trial ∧
      trial.found.isNone = true := by
  induction h with
  | none =>
    intro rule hrule
    cases hrule
  | hit => cases hmissed
  | skip trial_eq misses first ih =>
    rintro rule (_ | ⟨_, hrule⟩)
    · exact ⟨_, trial_eq, Option.isNone_iff_eq_none.2 misses⟩
    · exact ih hmissed rule hrule

/-- A keyword stands at the start of the text. -/
theorem KeywordRule.exists_word_of_length? {rule : KeywordRule} {cursor : Cursor} {length : Nat}
    (hcase : rule.caseSensitive = true) (h : rule.length? cursor = some length) :
    ∃ word ∈ rule.words, word ≠ [] ∧ word <+: cursor.rest := by
  unfold KeywordRule.length? at h
  split at h
  · split at h
    · cases h
    · next word hword =>
      obtain ⟨hne, hrun⟩ := Cursor.word?_eq_some hword
      simp only [Option.ite_none_right_eq_some] at h
      refine ⟨word, List.contains_iff_mem.1 h.1, hne, ?_⟩
      rw [hrun]
      exact List.takeWhile_prefix _
  · cases h

/-! ## Stacks along a line -/

/-- A step changes the stack by the switch of what was found, by the fallthrough switch or not at
all, and only a match goes on a line. -/
theorem Scan.Follows.stack_cases {scan next : Scan} {context : Context}
    {found : Option RuleMatch} (h : scan.Follows context found next) :
    (∃ matched, found = some matched ∧ next.stack = matched.nextStack scan.stack ∧
        (next.lineContinue = scan.lineContinue ∨ next.lineContinue = matched.lineContinue)) ∨
      next.stack = context.fallthrough.apply scan.stack none ∧
        next.lineContinue = scan.lineContinue ∨
      next.stack = scan.stack ∧ next.lineContinue = false := by
  obtain ⟨move, moved, notices, hdecides, hperforms, rfl⟩ := h
  cases hdecides with
  | consume found_eq length =>
    cases hperforms
    exact .inl ⟨_, found_eq, rfl, .inr rfl⟩
  | divert found_eq length changes limit =>
    cases hperforms
    exact .inl ⟨_, found_eq, rfl, .inl rfl⟩
  | fallThrough consumes diverts changes limit =>
    cases hperforms
    exact .inr (.inl ⟨rfl, rfl⟩)
  | pass consumes diverts fallsThrough =>
    cases hperforms
    exact .inr (.inr ⟨rfl, rfl⟩)

/-- Where nothing is found and the fallthrough switch stays, a step leaves one character to the
context. -/
theorem Scan.Follows.of_none {scan next : Scan} {context : Context}
    (h : scan.Follows context none next) (hstay : context.fallthrough.isStay = true) {c : Char}
    {rest : List Char} (hrest : scan.rest = c :: rest) :
    next.rest = rest ∧ next.stack = scan.stack ∧ next.offset = scan.offset + c.utf8Size ∧
      next.lineContinue = false := by
  obtain ⟨move, moved, notices, hdecides, hperforms, rfl⟩ := h
  cases hdecides with
  | fallThrough consumes diverts changes =>
    exact absurd (Switch.apply_of_isStay hstay scan.stack none) changes
  | pass =>
    cases hperforms with
    | pass rest_eq =>
      rw [hrest] at rest_eq
      cases rest_eq
      exact ⟨rfl, rfl, rfl, rfl⟩
  | consume found_eq => cases found_eq
  | divert found_eq => cases found_eq

/-- What a step does that takes the text of a match. -/
theorem Scan.Follows.of_consumed {scan next : Scan} {context : Context} {matched : RuleMatch}
    (h : scan.Follows context (some matched) next) (hpos : 0 < matched.length)
    {taken rest : List Char} (hrest : scan.rest = taken ++ rest)
    (hlength : byteLength taken = matched.length) :
    next.rest = rest ∧ next.stack = matched.nextStack scan.stack ∧
      next.offset = scan.offset + matched.length ∧ next.lineContinue = matched.lineContinue ∧
      next.pending = next.offset ∧
      next.spans = ⟨scan.offset, scan.offset + matched.length,
        matched.style.getD context.style⟩ :: (scan.flush context.style).spans := by
  obtain ⟨move, moved, notices, hdecides, hperforms, rfl⟩ := h
  cases hdecides with
  | consume found_eq =>
    cases found_eq
    cases hperforms with
    | consume rest_eq length_eq =>
      have hcut := splitAtByte?_eq_some_iff.2 ⟨hrest, hlength⟩
      rw [splitAtByte?_eq_some_iff.2 ⟨rest_eq, length_eq⟩] at hcut
      cases hcut
      exact ⟨rfl, rfl, rfl, rfl, rfl, rfl⟩
  | divert found_eq length =>
    cases found_eq
    omega
  | fallThrough consumes => exact absurd ⟨matched, rfl, hpos⟩ consumes
  | pass consumes => exact absurd ⟨matched, rfl, hpos⟩ consumes

/-- The pending text gets the style that it is flushed with. -/
theorem Scan.styles_flush {p : Style → Prop} {scan : Scan} {style : Style} (hstyle : p style)
    (hspans : ∀ span ∈ scan.spans, p span.style) :
    ∀ span ∈ (scan.flush style).spans, p span.style := by
  unfold Scan.flush
  split
  · exact List.forall_mem_cons.2 ⟨hstyle, hspans⟩
  · exact hspans

/-- The spans that a step adds have the style of the context or that of the match. -/
theorem Scan.Follows.styles {p : Style → Prop} {scan next : Scan} {context : Context}
    {found : Option RuleMatch} (h : scan.Follows context found next) (hcontext : p context.style)
    (hfound : ∀ matched, found = some matched → p (matched.style.getD context.style))
    (hspans : ∀ span ∈ scan.spans, p span.style) : ∀ span ∈ next.spans, p span.style := by
  obtain ⟨move, moved, notices, hdecides, hperforms, rfl⟩ := h
  cases hperforms with
  | consume =>
    cases hdecides with
    | consume found_eq =>
      exact List.forall_mem_cons.2 ⟨hfound _ found_eq, scan.styles_flush hcontext hspans⟩
  | divert => exact scan.styles_flush hcontext hspans
  | pass => exact hspans

theorem Scan.suffix_flush (scan : Scan) (style : Style) :
    scan.spans <:+ (scan.flush style).spans := by
  unfold Scan.flush
  split
  · exact List.suffix_cons ..
  · exact List.suffix_refl _

/-- A step keeps the spans that are there. -/
theorem Scan.Follows.suffix_spans {scan next : Scan} {context : Context}
    {found : Option RuleMatch} (h : scan.Follows context found next) :
    scan.spans <:+ next.spans := by
  obtain ⟨move, moved, notices, -, hperforms, rfl⟩ := h
  cases hperforms with
  | consume => exact (scan.suffix_flush context.style).trans (List.suffix_cons ..)
  | divert => exact scan.suffix_flush context.style
  | pass => exact List.suffix_refl _

theorem Scan.Reaches.suffix_spans {grammar : Grammar} (hresolved : grammar.Resolved)
    {leading count : Nat} {scan last : Scan} (h : Scan.Reaches grammar leading count scan last)
    (hstack : scan.stack.Within grammar.contexts.length) : scan.spans <:+ last.spans := by
  induction h with
  | refl scan => exact List.suffix_refl _
  | head rest step_eq reaches ih =>
    obtain ⟨context, trial, -, -, hfollows, hwithin⟩ :=
      Scan.follows_of_step hresolved hstack rest step_eq
    exact hfollows.suffix_spans.trans (ih hwithin)

/-- What a step can make of the stack in a context whose rules neither include others nor have
rules behind them. -/
inductive Context.Leads (context : Context) (cursor : Cursor) (stack : Stack) : Stack → Prop
  /-- A rule finds something, and its switch is taken. -/
  | matched {rule : Rule} {attempt : Attempt (Nat × Option Captures)} {length : Nat}
      {captures : Option Captures} (member : rule ∈ context.rules)
      (detect : rule.detect cursor = .ok attempt)
      (found : attempt.found = some (length, captures)) :
      Leads context cursor stack (rule.switch.apply stack captures)
  | fallThrough : Leads context cursor stack (context.fallthrough.apply stack none)
  | stay : Leads context cursor stack stack

/-- Among such rules a step does not continue the line. -/
theorem Scan.Follows.leads {grammar : Grammar} (hresolved : grammar.Resolved)
    {scan next : Scan} {context : Context} {trial : Trial} {cursor : Cursor} {index : Nat}
    (h : scan.Follows context trial.found next)
    (hcontext : grammar.contexts[index]? = some context)
    (hsimple : context.rules.all Rule.isSimple = true)
    (htrial : grammar.tryRules context.rules cursor = .ok trial)
    (hended : scan.lineContinue = false) :
    context.Leads cursor scan.stack next.stack ∧ next.lineContinue = false := by
  rcases h.stack_cases with ⟨matched, hfound, hstack, hline⟩ | ⟨hstack, hline⟩ | ⟨hstack, hline⟩
  · obtain ⟨rule, hrule, hfinds⟩ :=
      Grammar.exists_finds_of_tryRules hresolved hcontext htrial hfound
    obtain ⟨hplain, hchildren, hmarker⟩ :=
      Rule.isSimple_iff.1 (List.all_eq_true.1 hsimple rule hrule)
    obtain ⟨-, attempt, length, captures, hdetect, hattempt, rfl⟩ :=
      hfinds.detect_of_childless hplain hchildren
    rw [hstack, rule.nextStack_toMatch]
    refine ⟨.matched hrule hdetect hattempt, ?_⟩
    rcases hline with hline | hline
    · rw [hline, hended]
    · rw [hline]
      exact hmarker
  · rw [hstack]
    exact ⟨.fallThrough, hline.trans hended⟩
  · rw [hstack]
    exact ⟨.stay, hline⟩

/-- The switch that pops takes the top away. -/
theorem Switch.apply_pop (stack : Stack) (captures : Option Captures) :
    Switch.apply ⟨1, none⟩ stack captures = stack.pop :=
  stack.popMany_one

/-- A context whose switches all pop is left by a step, or the step stays. -/
theorem Context.Leads.eq_of_popping {context : Context} {cursor : Cursor} {stack next : Stack}
    {place : Nat} {data : Option Captures} (h : context.Leads cursor (stack.push place data) next)
    (hrules : ∀ rule ∈ context.rules, rule.switch = ⟨1, none⟩)
    (hfallthrough : context.fallthrough = ⟨1, none⟩ ∨ context.fallthrough.isStay = true) :
    next = stack ∨ next = stack.push place data := by
  cases h with
  | matched member detect found =>
    rw [hrules _ member, Switch.apply_pop]
    exact .inl (stack.pop_push place data)
  | fallThrough =>
    rcases hfallthrough with hpop | hstay
    · rw [hpop, Switch.apply_pop]
      exact .inl (stack.pop_push place data)
    · exact .inr (Switch.apply_of_isStay hstay ..)
  | stay => exact .inr rfl

/-- What every step along a line keeps that follows the rules of its context holds of every scan
that is reached. -/
theorem Scan.Reaches.keeps {grammar : Grammar} (hresolved : grammar.Resolved) {p : Scan → Prop}
    {line : List Char} {count : Nat} {scan last : Scan}
    (h : Scan.Reaches grammar (leadingBlanks line) count scan last) (hat : scan.At line)
    (hwithin : scan.stack.Within grammar.contexts.length) (hscan : p scan)
    (hstep : ∀ {scan next : Scan} {context : Context} {trial : Trial}, scan.At line →
      scan.rest ≠ [] → grammar.contexts[scan.stack.current]? = some context →
      grammar.tryRules context.rules (scan.cursor grammar (leadingBlanks line)) = .ok trial →
      scan.Follows context trial.found next → p scan → p next) : last.At line ∧ p last := by
  induction h with
  | refl scan => exact ⟨hat, hscan⟩
  | head rest step_eq reaches ih =>
    obtain ⟨context, trial, hcontext, htrial, hfollows, hnext⟩ :=
      Scan.follows_of_step hresolved hwithin rest step_eq
    have hget := Grammar.getElem?_of_context hcontext
    exact ih (hfollows.at hat) hnext (hstep hat rest hget htrial hfollows hscan)

/-- Where something holds no more that once held, some step has ended it. -/
theorem Scan.Reaches.exists_exit {grammar : Grammar} {p : Scan → Prop} {leading count : Nat}
    {scan last : Scan} (h : Scan.Reaches grammar leading count scan last) (hscan : p scan)
    (hlast : ¬p last) :
    ∃ before middle next later, Scan.Reaches grammar leading before scan middle ∧ p middle ∧
      middle.rest ≠ [] ∧ middle.step grammar leading = .ok next ∧ ¬p next ∧
      Scan.Reaches grammar leading later next last := by
  induction h with
  | refl scan => exact absurd hscan hlast
  | @head count scan next last rest step_eq reaches ih =>
    by_cases hnext : p next
    · obtain ⟨before, middle, behind, later, hbefore, hmiddle⟩ := ih hnext hlast
      exact ⟨before + 1, middle, behind, later, .head rest step_eq hbefore, hmiddle⟩
    · exact ⟨0, scan, next, count, .refl scan, hscan, rest, step_eq, hnext, reaches⟩

/-- What holds of a scan on the way along a line and is kept by every step that follows the rules of
its context holds at the end of the line. -/
theorem exists_highlightLine_preserves {grammar : Grammar} (hresolved : grammar.Resolved)
    {p : Scan → Prop} {line : List Char} {stack : Stack}
    (hstack : stack.Within grammar.contexts.length) {count : Nat} {middle : Scan}
    (hmiddle : Scan.Reaches grammar (leadingBlanks line) count (Scan.start line stack) middle)
    (hholds : p middle)
    (hstep : ∀ {scan next : Scan} {context : Context} {trial : Trial}, scan.At line →
      scan.rest ≠ [] → grammar.contexts[scan.stack.current]? = some context →
      grammar.tryRules context.rules (scan.cursor grammar (leadingBlanks line)) = .ok trial →
      scan.Follows context trial.found next → p scan → p next) :
    ∃ result last, highlightLine grammar line stack = .ok result ∧
      last.At line ∧ last.rest = [] ∧ p last ∧ last.Closes grammar result := by
  obtain ⟨result, total, last, hline, hreaches, hend, hcloses, -⟩ :=
    exists_highlightLine hresolved line hstack
  obtain ⟨hat, hwithin⟩ :=
    hmiddle.invariant hresolved (Scan.at_start line stack) hstack
  obtain ⟨more, other, hbehind, hrun, -⟩ :=
    Scan.exists_run hresolved (leadingBlanks line) middle hwithin
  obtain rfl : other = last := by
    have hsame := hmiddle.run_eq.symm.trans (hreaches.run_eq.trans (Scan.run_of_rest_eq_nil hend))
    rw [hrun] at hsame
    exact Except.ok.inj hsame
  obtain ⟨hatLast, hlast⟩ := hbehind.keeps hresolved hat hwithin hholds hstep
  exact ⟨result, other, hline, hatLast, hend, hlast, hcloses⟩

/-- Where the first match takes the whole line, that is its one span, and the line ends with the
stack of the match. -/
theorem exists_highlightLine_of_whole {grammar : Grammar} (hresolved : grammar.Resolved)
    {line : List Char} {stack : Stack} (hstack : stack.Within grammar.contexts.length)
    {context : Context} (hcontext : grammar.contexts[stack.current]? = some context)
    {matched : RuleMatch}
    (hfirst : FirstMatch grammar ((Scan.start line stack).cursor grammar (leadingBlanks line))
      context.rules (some matched))
    (hline : line ≠ []) (hlength : matched.length = byteLength line)
    (hended : matched.lineContinue = false) :
    ∃ result notices, highlightLine grammar line stack = .ok result ∧
      result.spans = [⟨0, byteLength line, matched.style.getD context.style⟩] ∧
      nextLineStack grammar (matched.nextStack stack) = .ok (result.endStack, notices) := by
  obtain ⟨result, count, last, hresult, hreaches, hend, hcloses, -⟩ :=
    exists_highlightLine hresolved line hstack
  cases hreaches with
  | refl => exact absurd hend hline
  | head rest step_eq reaches =>
    obtain ⟨found, trial, hfound, htrial, hfollows, -⟩ :=
      Scan.follows_of_step hresolved hstack rest step_eq
    obtain rfl : context = found :=
      Option.some.inj (hcontext.symm.trans (Grammar.getElem?_of_context hfound))
    have hmatched : trial.found = some matched := (firstMatch_of_tryRules htrial).unique hfirst
    rw [hmatched] at hfollows
    have hpos : 0 < byteLength line :=
      Nat.pos_of_ne_zero fun hzero => hline (byteLength_eq_zero_iff.1 hzero)
    obtain ⟨hrest, hnextStack, hoffset, hcontinue, hpending, hspansNext⟩ :=
      hfollows.of_consumed (by omega)
        (show (Scan.start line stack).rest = line ++ [] from (List.append_nil line).symm)
        hlength.symm
    cases reaches with
    | refl =>
      obtain ⟨top, -, hspans⟩ := hcloses.spans
      obtain ⟨notices, hnext⟩ := hcloses.ended (hcontinue.trans hended)
      rw [hnextStack] at hnext
      refine ⟨result, notices, hresult, ?_, hnext⟩
      rw [hspans, ← hlength]
      simp [Scan.flush, hpending, hspansNext, hoffset, Scan.start]
    | head rest => exact absurd hrest rest

/-- A context that stays at the end of a line settles there. -/
theorem settleLineEnd_of_stay {grammar : Grammar} {stack : Stack} {context : Context}
    (hcontext : grammar.contexts[stack.current]? = some context)
    (hend : context.lineEnd.isStay = true) (limit : Nat) :
    settleLineEnd grammar (limit + 1) stack = .ok (stack, []) := by
  refine settleLineEnd_succ_eq_ok_iff.2 ⟨context, Grammar.context_eq_ok hcontext, ?_⟩
  rw [if_pos (Switch.apply_of_isStay hend stack none)]
  exact ⟨rfl, (Switch.notices_of_isStay hend stack).symm⟩

/-- If it stays at the beginning of a line too, it keeps the stack. -/
theorem nextLineStack_of_stay {grammar : Grammar} {stack : Stack} {context : Context}
    (hcontext : grammar.contexts[stack.current]? = some context)
    (hend : context.lineEnd.isStay = true) (hbegin : context.lineBegin.isStay = true) :
    nextLineStack grammar stack = .ok (stack, []) := by
  refine nextLineStack_eq_ok_iff.2 ⟨stack, [], context, settleLineEnd_of_stay hcontext hend _,
    Grammar.context_eq_ok hcontext, ?_, ?_⟩
  · exact (Switch.apply_of_isStay hbegin stack none).symm
  · exact (Switch.notices_of_isStay hbegin stack).symm

/-- A context that leads at the end of a line to such a one leaves the stack of that. -/
theorem nextLineStack_of_leave {grammar : Grammar} {stack next : Stack} {context under : Context}
    (hcontext : grammar.contexts[stack.current]? = some context)
    (happly : context.lineEnd.apply stack none = next) (hchanges : next ≠ stack)
    (hunder : grammar.contexts[next.current]? = some under)
    (hend : under.lineEnd.isStay = true) (hbegin : under.lineBegin.isStay = true) :
    nextLineStack grammar stack = .ok (next, context.lineEnd.notices stack) := by
  refine nextLineStack_eq_ok_iff.2 ⟨next, context.lineEnd.notices stack, under, ?_,
    Grammar.context_eq_ok hunder, ?_, ?_⟩
  · refine settleLineEnd_succ_eq_ok_iff.2 ⟨context, Grammar.context_eq_ok hcontext, ?_⟩
    rw [happly, if_neg hchanges]
    exact ⟨[], settleLineEnd_of_stay hunder hend _, (List.append_nil _).symm⟩
  · exact (Switch.apply_of_isStay hbegin next none).symm
  · rw [Switch.notices_of_isStay hbegin, List.append_nil]

/-! ## Documents -/

/-- The stack behind the lines of a document that started with a stack. -/
def stackAfter (stack : Stack) (entries : List LineEntry) : Stack :=
  entries.foldl (fun _ entry => entry.endStack) stack

@[simp] theorem stackAfter_cons (stack : Stack) (entry : LineEntry) (entries : List LineEntry) :
    stackAfter stack (entry :: entries) = stackAfter entry.endStack entries := rfl

@[simp] theorem stackAfter_append (stack : Stack) (first second : List LineEntry) :
    stackAfter stack (first ++ second) = stackAfter (stackAfter stack first) second :=
  List.foldl_append

/-- The lines of a document can be highlighted in two parts. -/
theorem highlightDocument_append {grammar : Grammar} {stack : Stack} {lines more : List (List Char)}
    {entries later : List LineEntry} (h : highlightDocument grammar stack lines = .ok entries)
    (hlater : highlightDocument grammar (stackAfter stack entries) more = .ok later) :
    highlightDocument grammar stack (lines ++ more) = .ok (entries ++ later) := by
  induction lines generalizing stack entries with
  | nil =>
    cases h
    exact hlater
  | cons line lines ih =>
    simp only [highlightDocument, bind, Except.bind] at h
    split at h
    · cases h
    · next result hresult =>
      split at h
      · cases h
      · next rest hrest =>
        cases h
        exact highlightDocument_cons hresult (ih hrest hlater)

/-- Lines that keep the stack one after the other keep it together. -/
theorem exists_highlightDocument_keeps {grammar : Grammar} {stack : Stack}
    {lines : List (List Char)}
    (h : ∀ line ∈ lines, ∃ result, highlightLine grammar line stack = .ok result ∧
      result.endStack = stack) :
    ∃ entries, highlightDocument grammar stack lines = .ok entries ∧
      entries.length = lines.length ∧ (∀ entry ∈ entries, entry.endStack = stack) ∧
      stackAfter stack entries = stack := by
  induction lines with
  | nil =>
    refine ⟨[], rfl, rfl, ?_, rfl⟩
    intro entry hentry
    cases hentry
  | cons line lines ih =>
    obtain ⟨result, hresult, hend⟩ := h line List.mem_cons_self
    obtain ⟨entries, hentries, hlength, hkept, hafter⟩ :=
      ih fun other hother => h other (List.mem_cons_of_mem _ hother)
    refine ⟨result.entry :: entries, highlightDocument_cons hresult (by rwa [hend]), ?_, ?_, ?_⟩
    · rw [List.length_cons, List.length_cons, hlength]
    · rintro entry (_ | ⟨_, hentry⟩)
      · exact hend
      · exact hkept entry hentry
    · rw [stackAfter_cons, show result.entry.endStack = stack from hend, hafter]

end Highlight
