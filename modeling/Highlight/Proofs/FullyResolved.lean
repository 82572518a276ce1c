import Highlight.Proofs.Provenance
import Mathlib.Logic.Relation

/-!
# Built grammars are fully resolved

Matching looks nothing up by name and compiles no pattern that was known before: it relies on the
numbers, words and patterns that building left in the grammar.  `Grammar.Resolves` says what they
have to be for a description, and `resolves_of_build` says that they are that in every grammar that
is built.

* Inclusions.  `Graph.mem_reach_iff` reads what the search for cycles computes as paths of edges, so
  that "no context includes itself" is a statement about `Grammar.Includes`.
* What descriptions resolve to.  One predicate for each part of a grammar says what the part of the
  description that it comes from makes of it.  `Rule.Resolves` follows the rules that extend a
  number to any depth.
* Resolving.  One lemma for each function of the resolver gives the predicate of its result.
-/

namespace Highlight

/-! ## Inclusions -/

namespace Graph

/-- An edge between vertices of the graph. -/
def Edge (graph : Graph) (source target : Nat) : Prop :=
  target ∈ graph.targets source ∧ target < graph.size

/-- What is reached is what a path of edges leads to. -/
theorem mem_reach_iff {graph : Graph} {v w : Nat} :
    w ∈ graph.reach v ↔ Relation.TransGen graph.Edge v w := by
  constructor
  · refine collect_subset ?_ (by simp) ?_ w
    · intro u hu w hw hsize
      exact .tail hu ⟨hw, hsize⟩
    · intro u hu hsize
      exact .single ⟨hu, hsize⟩
  · intro h
    induction h with
    | single hedge => exact mem_reach_of_edge hedge.1 hedge.2
    | tail _ hedge ih => exact graph.closed_reach v _ ih _ hedge.1 hedge.2

end Graph

/-- A context has a rule that includes the rules of another. -/
def Grammar.Includes (grammar : Grammar) (source target : Nat) : Prop :=
  ∃ context, grammar.contexts[source]? = some context ∧
    ∃ rule ∈ context.rules, ∃ inclusion, rule.kind = .inclusion inclusion ∧
      inclusion.target = target

theorem mem_includedContexts_iff {rules : List Rule} {target : Nat} :
    target ∈ includedContexts rules ↔
      ∃ rule ∈ rules, ∃ inclusion, rule.kind = .inclusion inclusion ∧
        inclusion.target = target := by
  simp only [includedContexts, List.mem_filterMap]
  refine exists_congr fun rule => and_congr_right fun _ => ?_
  unfold Rule.includedContext?
  split
  · next inclusion hkind => simp [hkind]
  · next hkind =>
    constructor
    · rintro ⟨⟩
    · rintro ⟨inclusion, heq, -⟩
      exact absurd heq (hkind inclusion)

theorem mem_targets_includeGraph {contexts : List Context} {source target : Nat} :
    target ∈ (includeGraph contexts).targets source ↔
      ∃ context, contexts[source]? = some context ∧ ∃ rule ∈ context.rules, ∃ inclusion,
        rule.kind = .inclusion inclusion ∧ inclusion.target = target := by
  simp only [includeGraph]
  cases contexts[source]? with
  | none => simp
  | some context => simp [mem_includedContexts_iff]

/-- In a built grammar no context reaches itself by inclusions. -/
theorem Grammar.Built.not_includes_itself {grammar : Grammar} (h : grammar.Built) (index : Nat) :
    ¬Relation.TransGen grammar.Includes index index := by
  have hedge : ∀ source target, grammar.Includes source target →
      (includeGraph grammar.contexts).Edge source target := by
    rintro source target hincludes
    refine ⟨mem_targets_includeGraph.2 hincludes, ?_⟩
    obtain ⟨context, hcontext, rule, hrule, inclusion, hkind, rfl⟩ := hincludes
    have hwithin := h.resolved.contexts context (List.mem_of_getElem? hcontext)
    exact (hwithin.rules rule hrule).included (by rw [Rule.includedContext?, hkind])
  intro hincludes
  have hcycle := Relation.TransGen.mono hedge _ _ hincludes
  obtain ⟨target, -, hlast⟩ := Relation.TransGen.tail'_iff.1 hcycle
  exact grammar.acyclic index hlast.2 (Graph.mem_reach_iff.2 hcycle)

/-! ## What descriptions resolve to -/

/-- A switch is the one that a text stands for: it pops as often as the text says and pushes the
context of the name in the text, with that context's flag. -/
structure Switch.Resolves (contexts : List Context) (operation : String) (switch : Switch) :
    Prop where
  parsed : (SwitchOp.parse operation).result = .ok ⟨switch.pops, switch.target.map Target.name⟩
  target : ∀ target, switch.target = some target →
    ∃ context, contexts[target.context]? = some context ∧ context.name = target.name ∧
      context.dynamic = target.dynamic

/-- A pattern is split from the anchors it starts with, and compiled unless it is dynamic. -/
structure RegexRule.Resolves (pattern : List Char) (options : RuleOptions) (regex : RegexRule) :
    Prop where
  anchors : RegexRule.splitAnchors false false pattern =
    (regex.text, regex.wordStart, regex.lineStart)
  caseless : regex.caseless = options.caseless
  minimal : regex.minimal = options.minimal
  dynamic : options.dynamic = true → regex.compiled = none
  compiled : options.dynamic = false → ∃ compiled, regex.compiled = some compiled ∧
    Regex.compile regex.text regex.caseless regex.minimal = .ok compiled

/-- A keyword rule has the words of the last list of its name. -/
structure KeywordRule.Resolves (description : GrammarDef) (keyword : KeywordRule) : Prop where
  caseSensitive : keyword.caseSensitive = description.caseSensitive
  words : ∃ before words after, description.lists = before ++ (keyword.list, words) :: after ∧
    (∀ later ∈ after, later.1 ≠ keyword.list) ∧
    keyword.words = words.map fun word =>
      if description.caseSensitive then word.toList else lowercaseKey word

/-- Whether a kind of rule refers to something, or has a pattern to compile. -/
def RuleDefKind.needsResolving : RuleDefKind → Bool
  | regex _ | keyword _ | .inclusion _ => true
  | _ => false

/-- What a kind of rule refers to is what was written. -/
def RuleKind.Resolves (description : GrammarDef) (contexts : List Context) (options : RuleOptions)
    (written : RuleDefKind) : RuleKind → Prop
  | regex rule => ∃ pattern, written = .regex pattern ∧ rule.Resolves pattern options
  | keyword rule => written = .keyword rule.list ∧ rule.Resolves description
  | .inclusion included => written = .inclusion included.name ∧
      ∃ context, contexts[included.target]? = some context ∧ context.name = included.name
  | _ => written.needsResolving = false

/-- What was written as an inclusion is one. -/
theorem RuleKind.exists_inclusion_of_resolves {description : GrammarDef} {contexts : List Context}
    {options : RuleOptions} {name : String} {kind : RuleKind}
    (h : kind.Resolves description contexts options (.inclusion name)) :
    ∃ included, kind = .inclusion included ∧
      ∃ context, contexts[included.target]? = some context ∧ context.name = name := by
  cases kind with
  | inclusion included =>
    obtain ⟨heq, hcontext⟩ := h
    cases heq
    exact ⟨included, rfl, hcontext⟩
  | regex rule =>
    obtain ⟨pattern, heq, -⟩ := h
    cases heq
  | keyword rule => cases h.1
  | _ => cases h

/-- A rule is what was written, also in the rules that extend a number. -/
inductive Rule.Resolves (description : GrammarDef) (contexts : List Context) :
    RuleDef → Rule → Prop
  | intro {written : RuleDef} {rule : Rule}
      (kind : rule.kind.Resolves description contexts written.options written.kind)
      (dynamic : rule.dynamic = written.options.dynamic)
      (switch : rule.switch.Resolves contexts written.options.switch)
      (children : List.Forall₂ (Rule.Resolves description contexts)
        (if written.kind.isNumber then written.children else []) rule.children) :
      Rule.Resolves description contexts written rule

/-- A context is what was written. -/
structure Context.Resolves (description : GrammarDef) (contexts : List Context)
    (written : ContextDef) (context : Context) : Prop where
  name : context.name = written.name
  dynamic : context.dynamic = written.dynamic
  rules : List.Forall₂ (Rule.Resolves description contexts) written.rules context.rules
  lineEnd : context.lineEnd.Resolves contexts written.lineEnd
  lineBegin : context.lineBegin.Resolves contexts written.lineBegin
  fallthrough : context.fallthrough.Resolves contexts written.fallthrough

/-- Every reference of a description is resolved in a grammar. -/
structure Grammar.Resolves (description : GrammarDef) (grammar : Grammar) : Prop where
  distinct : (grammar.contexts.map Context.name).Nodup
  index : ∀ name index, grammar.contextIndex? name = some index ↔
    ∃ context, grammar.contexts[index]? = some context ∧ context.name = name
  contexts : List.Forall₂ (Context.Resolves description grammar.contexts) description.contexts
    grammar.contexts
  acyclic : ∀ index, ¬Relation.TransGen grammar.Includes index index

/-! ## Resolving -/

/-- What stands on the right of a relation between lists has something on the left. -/
theorem exists_mem_left_of_forall₂ {α β : Type} {R : α → β → Prop} {as : List α} {bs : List β}
    (h : List.Forall₂ R as bs) {b : β} (hb : b ∈ bs) : ∃ a ∈ as, R a b := by
  obtain ⟨index, hindex, rfl⟩ := List.mem_iff_getElem.1 hb
  have hlt : index < as.length := by rw [h.length_eq]; exact hindex
  exact ⟨as[index], List.getElem_mem hlt, h.get hlt hindex⟩

/-- The last value of a key is the one that no entry of the key follows. -/
theorem lookupLast_eq_some_iff {α β : Type} [BEq α] [LawfulBEq α] {key : α}
    {entries : List (α × β)} {value : β} :
    lookupLast key entries = some value ↔
      ∃ before after, entries = before ++ (key, value) :: after ∧
        ∀ later ∈ after, later.1 ≠ key := by
  rw [lookupLast, List.lookup_eq_some_iff]
  constructor
  · rintro ⟨after, before, hentries, hafter⟩
    refine ⟨before.reverse, after.reverse, ?_, ?_⟩
    · rw [← List.reverse_reverse entries, hentries]
      simp
    · intro later hlater
      exact (bne_iff_ne.1 (hafter later (List.mem_reverse.1 hlater))).symm
  · rintro ⟨before, after, rfl, hafter⟩
    refine ⟨after.reverse, before.reverse, by simp, ?_⟩
    intro later hlater
    exact bne_iff_ne.2 (hafter later (List.mem_reverse.1 hlater)).symm

/-- The names and flags of contexts, as references look them up. -/
def contextTable (contexts : List Context) : ContextTable :=
  contexts.map fun context => (context.name, context.dynamic)

theorem exists_of_getElem?_contextTable {contexts : List Context} {index : Nat} {name : String}
    {dynamic : Bool} (h : (contextTable contexts)[index]? = some (name, dynamic)) :
    ∃ context, contexts[index]? = some context ∧ context.name = name ∧
      context.dynamic = dynamic := by
  rw [contextTable, List.getElem?_map, Option.map_eq_some_iff] at h
  obtain ⟨context, hcontext, heq⟩ := h
  cases heq
  exact ⟨context, hcontext, rfl, rfl⟩

namespace Resolver

variable {resolver : Resolver} {description : GrammarDef} {contexts : List Context}

theorem resolves_switch (htable : resolver.contexts = contextTable contexts)
    {context operation : String} {switch : Switch}
    (h : (resolver.switch context operation).result = .ok switch) :
    switch.Resolves contexts operation := by
  have hdeclared := declared_switch h
  rw [htable] at hdeclared
  obtain ⟨parsed, hparsed, hresolve⟩ := Reported.andThen_eq_ok_iff.1 h
  refine ⟨?_, fun target htarget => exists_of_getElem?_contextTable (hdeclared target htarget)⟩
  rw [hparsed]
  obtain ⟨pops, target⟩ := parsed
  unfold SwitchOp.resolve at hresolve
  split at hresolve
  · next hnone =>
    cases hresolve
    cases hnone
    rfl
  · next name hname =>
    split at hresolve
    · cases hresolve
    · cases hresolve
      cases hname
      rfl

theorem resolves_regex {context : String} {pattern : List Char} {options : RuleOptions}
    {kind : RuleKind} (h : (regex context pattern options).result = .ok kind) :
    ∃ rule, kind = .regex rule ∧ rule.Resolves pattern options := by
  unfold regex at h
  dsimp only at h
  split at h
  · next hdynamic =>
    cases h
    refine ⟨_, rfl, rfl, rfl, rfl, fun _ => rfl, fun hstatic => ?_⟩
    rw [hdynamic] at hstatic
    cases hstatic
  · next hdynamic =>
    split at h
    · next compiled hcompiled =>
      cases h
      exact ⟨_, rfl, rfl, rfl, rfl, fun heq => absurd heq hdynamic,
        fun _ => ⟨compiled, rfl, hcompiled⟩⟩
    · cases h

theorem resolves_kind (htable : resolver.contexts = contextTable contexts)
    (hlists : resolver.lists = description.words)
    (hcase : resolver.caseSensitive = description.caseSensitive) {context : String}
    {options : RuleOptions} {written : RuleDefKind} {kind : RuleKind}
    (h : (resolver.kind context options written).result = .ok kind) :
    kind.Resolves description contexts options written := by
  cases written with
  | regex pattern =>
    obtain ⟨rule, rfl, hrule⟩ := resolves_regex h
    exact ⟨pattern, rfl, hrule⟩
  | keyword list =>
    obtain ⟨words, hwords, hdone⟩ := Reported.andThen_eq_ok_iff.1 h
    rw [Reported.require_eq_ok_iff, hlists, lookupLast_eq_some_iff] at hwords
    cases hdone
    refine ⟨rfl, hcase, ?_⟩
    obtain ⟨before, after, hentries, hafter⟩ := hwords
    obtain ⟨first, others, hlists, rfl, hothers⟩ := List.map_eq_append_iff.1 hentries
    obtain ⟨⟨name, given⟩, last, rfl, hentry, rfl⟩ := List.map_eq_cons_iff.1 hothers
    cases hentry
    refine ⟨first, given, last, hlists, ?_, rfl⟩
    intro later hlater
    exact hafter _ (List.mem_map_of_mem hlater)
  | inclusion name =>
    obtain ⟨⟨target, dynamic⟩, hfound, hdone⟩ := Reported.andThen_eq_ok_iff.1 h
    rw [Reported.require_eq_ok_iff, htable] at hfound
    cases hdone
    obtain ⟨included, hincluded, hname, -⟩ :=
      exists_of_getElem?_contextTable (ContextTable.getElem?_of_find? hfound)
    exact ⟨rfl, included, hincluded, hname⟩
  | _ =>
    cases h
    rfl

-- As in the resolver, a rule is followed into the rules that extend it.
mutual

theorem resolves_rule (htable : resolver.contexts = contextTable contexts)
    (hlists : resolver.lists = description.words)
    (hcase : resolver.caseSensitive = description.caseSensitive) {context : String}
    {contextStyle : Style} (written : RuleDef) {rule : Rule}
    (h : (resolver.rule context contextStyle written).result = .ok rule) :
    rule.Resolves description contexts written := by
  match written with
  | ⟨kind, options, children⟩ =>
    rw [Resolver.rule] at h
    obtain ⟨resolved, hkind, h⟩ := Reported.andThen_eq_ok_iff.1 h
    obtain ⟨extending, hchildren, h⟩ := Reported.andThen_eq_ok_iff.1 h
    obtain ⟨style, -, h⟩ := Reported.andThen_eq_ok_iff.1 h
    obtain ⟨switch, hswitch, h⟩ := Reported.andThen_eq_ok_iff.1 h
    cases h
    refine .intro (resolves_kind htable hlists hcase hkind) rfl (resolves_switch htable hswitch) ?_
    split at hchildren
    · next hnumber =>
      simp only [hnumber, if_true]
      exact resolves_rules htable hlists hcase children hchildren
    · next hnumber =>
      cases hchildren
      simp only [hnumber]
      exact .nil

theorem resolves_rules (htable : resolver.contexts = contextTable contexts)
    (hlists : resolver.lists = description.words)
    (hcase : resolver.caseSensitive = description.caseSensitive) {context : String}
    {contextStyle : Style} (written : List RuleDef) {rules : List Rule}
    (h : (resolver.rules context contextStyle written).result = .ok rules) :
    List.Forall₂ (Rule.Resolves description contexts) written rules := by
  match written with
  | [] =>
    rw [Resolver.rules] at h
    cases h
    exact .nil
  | first :: rest =>
    rw [Resolver.rules] at h
    obtain ⟨head, hhead, h⟩ := Reported.andThen_eq_ok_iff.1 h
    obtain ⟨tail, htail, h⟩ := Reported.andThen_eq_ok_iff.1 h
    cases h
    exact .cons (resolves_rule htable hlists hcase first hhead)
      (resolves_rules htable hlists hcase rest htail)

end

theorem resolves_context (htable : resolver.contexts = contextTable contexts)
    (hlists : resolver.lists = description.words)
    (hcase : resolver.caseSensitive = description.caseSensitive) {written : ContextDef}
    {context : Context} (h : (resolver.context written).result = .ok context) :
    context.Resolves description contexts written := by
  obtain ⟨style, -, h⟩ := Reported.andThen_eq_ok_iff.1 h
  obtain ⟨fallthrough, hfallthrough, h⟩ := Reported.andThen_eq_ok_iff.1 h
  obtain ⟨rules, hrules, h⟩ := Reported.andThen_eq_ok_iff.1 h
  obtain ⟨lineEnd, hlineEnd, h⟩ := Reported.andThen_eq_ok_iff.1 h
  obtain ⟨lineBegin, hlineBegin, h⟩ := Reported.andThen_eq_ok_iff.1 h
  cases h
  exact ⟨rfl, rfl, resolves_rules htable hlists hcase _ hrules, resolves_switch htable hlineEnd,
    resolves_switch htable hlineBegin, resolves_switch htable hfallthrough⟩

end Resolver

/-! ## Built grammars -/

/-- A list in which nothing stands a second time. -/
theorem firstDuplicate?_eq_none_iff {met names : List String} :
    firstDuplicate? met names = none ↔ names.Nodup ∧ ∀ name ∈ names, name ∉ met := by
  induction names generalizing met with
  | nil => simp [firstDuplicate?]
  | cons name rest ih =>
    rw [firstDuplicate?]
    by_cases hmet : name ∈ met
    · simp [hmet]
    · simp only [List.contains_eq_mem, hmet, decide_false, Bool.false_eq_true, if_false, ih,
        List.nodup_cons, List.mem_cons, not_or]
      constructor
      · rintro ⟨hnodup, hrest⟩
        refine ⟨⟨fun hname => (hrest name hname).1 rfl, hnodup⟩, ?_⟩
        rintro other (rfl | hother)
        · exact hmet
        · exact (hrest other hother).2
      · rintro ⟨⟨hname, hnodup⟩, hall⟩
        refine ⟨hnodup, fun other hother => ⟨?_, hall other (.inr hother)⟩⟩
        rintro rfl
        exact hname hother

/-- Where names are distinct, a context is found under its name. -/
theorem Grammar.contextIndex?_eq_some_iff {grammar : Grammar}
    (h : (grammar.contexts.map Context.name).Nodup) (name : String) (index : Nat) :
    grammar.contextIndex? name = some index ↔
      ∃ context, grammar.contexts[index]? = some context ∧ context.name = name := by
  rw [contextIndex?, List.findIdx?_eq_some_iff_getElem]
  constructor
  · rintro ⟨hindex, hname, -⟩
    exact ⟨_, List.getElem?_eq_getElem hindex, eq_of_beq hname⟩
  · rintro ⟨context, hcontext, rfl⟩
    obtain ⟨hindex, rfl⟩ := List.getElem?_eq_some_iff.1 hcontext
    refine ⟨hindex, beq_self_eq_true _, ?_⟩
    intro earlier hearlier heq
    have hne := List.pairwise_iff_getElem.1 h earlier index (by simp; omega) (by simpa) hearlier
    simp only [List.getElem_map] at hne
    exact hne (eq_of_beq heq)

section

variable {description : GrammarDef} {styles : List (List Char × Style)} {contexts : List Context}

/-- The names and flags that references look up are those of the contexts that are resolved. -/
theorem GrammarDef.contextTable_eq (h : List.Forall₂
    (fun written context => ((description.resolver styles).context written).result = .ok context)
    description.contexts contexts) :
    description.contextTable = Highlight.contextTable contexts := by
  have hentries : List.Forall₂ Eq description.contextTable (Highlight.contextTable contexts) := by
    unfold GrammarDef.contextTable Highlight.contextTable
    rw [List.forall₂_map_left_iff, List.forall₂_map_right_iff]
    refine h.imp fun written context hcontext => ?_
    obtain ⟨style, -, hcontext⟩ := Reported.andThen_eq_ok_iff.1 hcontext
    obtain ⟨fallthrough, -, hcontext⟩ := Reported.andThen_eq_ok_iff.1 hcontext
    obtain ⟨rules, -, hcontext⟩ := Reported.andThen_eq_ok_iff.1 hcontext
    obtain ⟨lineEnd, -, hcontext⟩ := Reported.andThen_eq_ok_iff.1 hcontext
    obtain ⟨lineBegin, -, hcontext⟩ := Reported.andThen_eq_ok_iff.1 hcontext
    cases hcontext
    rfl
  rwa [List.forall₂_eq_eq_eq] at hentries

/-- Contexts are resolved against each other. -/
theorem GrammarDef.resolves_contexts (h : List.Forall₂
    (fun written context => ((description.resolver styles).context written).result = .ok context)
    description.contexts contexts) :
    List.Forall₂ (Context.Resolves description contexts) description.contexts contexts :=
  h.imp fun _ _ hcontext =>
    Resolver.resolves_context (GrammarDef.contextTable_eq h) rfl rfl hcontext

end

/-- What is built from a description is what was written. -/
theorem GrammarDef.grammar_resolves {description : GrammarDef} {grammar : Grammar}
    (h : description.build.result = .ok grammar) : grammar.Resolves description := by
  obtain ⟨-, hdistinct, styles, -, hcontexts, -⟩ := GrammarDef.build_eq_ok h
  have hnames : (grammar.contexts.map Context.name).Nodup := by
    rw [(GrammarDef.declared_of_build h).1]
    exact (firstDuplicate?_eq_none_iff.1 hdistinct).1
  exact ⟨hnames, Grammar.contextIndex?_eq_some_iff hnames,
    GrammarDef.resolves_contexts hcontexts, Grammar.Built.not_includes_itself ⟨description, h⟩⟩

/-- Every grammar that is built has all references of its description resolved. -/
theorem resolves_of_build {description : GrammarDef} {grammar : Grammar}
    (h : description.build.result = .ok grammar) : grammar.Resolves description :=
  GrammarDef.grammar_resolves h

/-- A small language with something of every kind to resolve: a list that is given twice, a suffix
that extends a number, an inclusion, and a dynamic context with a dynamic pattern. -/
def numberedText : GrammarDef where
  name := "Numbered text"
  caseSensitive := false
  lists := [("types", ["byte"]), ("types", ["Int", "Long"])]
  contexts :=
    [{ name := "Text"
       rules :=
        [{ kind := .int
           children := [{ kind := .text ['u', 'l'], options := { switch := "Comment" } }] },
          { kind := .keyword "types" }, { kind := .inclusion "Comment" }] },
      { name := "Comment", dynamic := true, lineEnd := "#pop"
        rules := [{ kind := .regex ['^', '%', '1'], options := { dynamic := true } }] }]

namespace NumberedText

def suffix : Rule :=
  { RuleKind.toRule (.text ['u', 'l'] false) with switch := ⟨0, some ⟨1, "Comment", true⟩⟩ }

def number : Rule :=
  { RuleKind.toRule .int with children := [suffix] }

def types : Rule :=
  RuleKind.toRule (.keyword ⟨"types", [['i', 'n', 't'], ['l', 'o', 'n', 'g']], false⟩)

def text : Context :=
  .ofRules "Text" [number, types, RuleKind.toRule (.inclusion ⟨"Comment", 1, false⟩)]

def placeholder : Rule :=
  { RuleKind.toRule (.regex ⟨['%', '1'], none, false, false, false, true⟩) with dynamic := true }

def comment : Context :=
  { Context.ofRules "Comment" [placeholder] with dynamic := true, lineEnd := ⟨1, none⟩ }

theorem exists_build : ∃ grammar, numberedText.build.result = .ok grammar ∧
    grammar.contexts = [text, comment] := by
  have hacyclic : (includeGraph [text, comment]).firstCycle? = none :=
    Graph.firstCycle?_of_increasing (by decide)
  obtain ⟨grammar, hbuild, hcontexts, -⟩ :=
    @GrammarDef.exists_build_of_acyclic numberedText [] [text, comment] (by simp [numberedText])
      (by decide) rfl rfl hacyclic
  exact ⟨grammar, hbuild, hcontexts⟩

end NumberedText

/-- The parts of the small language are what was written. -/
theorem resolves_numberedText :
    ∃ grammar, numberedText.build.result = .ok grammar ∧
      grammar.contexts = [NumberedText.text, NumberedText.comment] ∧
      grammar.Resolves numberedText := by
  obtain ⟨grammar, hbuild, hcontexts⟩ := NumberedText.exists_build
  exact ⟨grammar, hbuild, hcontexts, resolves_of_build hbuild⟩

end Highlight
