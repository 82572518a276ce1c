import Highlight.Grammar.Build
import Mathlib.Data.List.Forall2

/-!
# Built grammars are resolved

Highlighting looks contexts up by number.  A grammar is resolved when every number in it is the
place of one of its contexts, and every grammar that was built from a description is
(`resolved_of_build`).

There are four groups.

* Results with notices.  `andThen_eq_ok_iff` and `each_eq_ok_iff` take the result of a resolution
  apart; every proof about building starts with them.
* References.  `Switch.Within`, `Rule.Within` and `Context.Within` say that the targets in a part
  of a grammar are below a number of contexts.  A rule is followed into the rules that extend it.
* Building.  Each function of the resolver gives parts whose targets are in its table, and
  `exists_build` puts successful phases together.  `quotedText` is a small language that the later
  modules use where they need one, and `RuleKind.toRule` and `Context.ofRules` write down the parts
  of other small languages.
* Stacks of a grammar.  `Stack.Within` says that the contexts on a stack are below a number, and
  the operations on stacks keep that.
-/

namespace Highlight

/-! ## Results with notices -/

namespace Reported

theorem andThen_eq_ok_iff {α β : Type} {first : Reported α} {next : α → Reported β} {b : β} :
    (first.andThen next).result = .ok b ↔
      ∃ a, first.result = .ok a ∧ (next a).result = .ok b := by
  unfold andThen
  cases hfirst : first.result with
  | error error => simp
  | ok a => simp

theorem require_eq_ok_iff {α : Type} {error : GrammarError} {found : Option α} {a : α} :
    (require error found).result = .ok a ↔ found = some a := by
  cases found with
  | none => simp [require, fail]
  | some b => simp [require, done]

/-- Handling a list succeeds if every member is handled, and gives the values in order. -/
theorem each_eq_ok_iff {α β : Type} {f : α → Reported β} {as : List α} {bs : List β} :
    (each f as).result = .ok bs ↔ List.Forall₂ (fun a b => (f a).result = .ok b) as bs := by
  induction as generalizing bs with
  | nil =>
    rw [List.forall₂_nil_left_iff]
    simp [each, done, eq_comm]
  | cons a rest ih =>
    rw [each, andThen_eq_ok_iff, List.forall₂_cons_left_iff]
    simp only [andThen_eq_ok_iff, ih]
    constructor
    · rintro ⟨b, hb, bs', hbs, hdone⟩
      cases hdone
      exact ⟨b, bs', hb, hbs, rfl⟩
    · rintro ⟨b, bs', hb, hbs, rfl⟩
      exact ⟨b, hb, bs', hbs, rfl⟩

end Reported

/-! ## References -/

/-- The context that a switch pushes is one of the first `size`. -/
def Switch.Within (size : Nat) (switch : Switch) : Prop :=
  ∀ target, switch.target = some target → target.context < size

/-- The contexts that a rule names are among the first `size`, also those that the rules which
extend it name. -/
inductive Rule.Within (size : Nat) : Rule → Prop
  | intro {rule : Rule} (switch : rule.switch.Within size)
      (included : ∀ target, rule.includedContext? = some target → target < size)
      (children : ∀ child ∈ rule.children, Rule.Within size child) : Rule.Within size rule

theorem Rule.Within.switch {size : Nat} {rule : Rule} (h : rule.Within size) :
    rule.switch.Within size := by
  cases h with
  | intro switch included children => exact switch

theorem Rule.Within.included {size : Nat} {rule : Rule} (h : rule.Within size) {target : Nat}
    (htarget : rule.includedContext? = some target) : target < size := by
  cases h with
  | intro switch included children => exact included target htarget

theorem Rule.Within.children {size : Nat} {rule : Rule} (h : rule.Within size) :
    ∀ child ∈ rule.children, child.Within size := by
  cases h with
  | intro switch included children => exact children

/-- The contexts that a context names are among the first `size`. -/
structure Context.Within (size : Nat) (context : Context) : Prop where
  rules : ∀ rule ∈ context.rules, rule.Within size
  lineEnd : context.lineEnd.Within size
  lineBegin : context.lineBegin.Within size
  fallthrough : context.fallthrough.Within size

/-- A grammar has a context to start with, and every context that it names. -/
structure Grammar.Resolved (grammar : Grammar) : Prop where
  nonempty : 0 < grammar.contexts.length
  contexts : ∀ context ∈ grammar.contexts, context.Within grammar.contexts.length

/-- In a resolved grammar the look-up of a context by a number below their count succeeds. -/
theorem Grammar.exists_context {grammar : Grammar} {index : Nat}
    (hresolved : grammar.Resolved) (hindex : index < grammar.contexts.length) :
    ∃ context, grammar.context index = .ok context ∧
      grammar.contexts[index]? = some context ∧
      context.Within grammar.contexts.length := by
  have hget : grammar.contexts[index]? = some grammar.contexts[index] :=
    List.getElem?_eq_getElem hindex
  refine ⟨grammar.contexts[index], ?_, hget, ?_⟩
  · rw [Grammar.context, hget, orFault]
  · exact hresolved.contexts _ (List.getElem_mem hindex)

theorem Grammar.getElem?_of_context {grammar : Grammar} {index : Nat} {context : Context}
    (h : grammar.context index = .ok context) : grammar.contexts[index]? = some context := by
  unfold Grammar.context at h
  cases hget : grammar.contexts[index]? with
  | none =>
    rw [hget] at h
    cases h
  | some found =>
    rw [hget] at h
    cases h
    rfl

/-! ## Building -/

theorem ContextTable.find?_lt {table : ContextTable} {name : String} {context : Nat}
    {dynamic : Bool} (h : table.find? name = some (context, dynamic)) :
    context < table.length := by
  obtain ⟨index, hindex, hget⟩ := Option.bind_eq_some_iff.1 h
  obtain ⟨entry, hentry, heq⟩ := Option.map_eq_some_iff.1 hget
  cases heq
  exact (List.getElem?_eq_some_iff.1 hentry).1

theorem SwitchOp.within_resolve {operation : SwitchOp} {owner : String} {table : ContextTable}
    {switch : Switch} (h : (operation.resolve owner table).result = .ok switch) :
    switch.Within table.length := by
  unfold SwitchOp.resolve at h
  split at h
  · cases h
    intro target htarget
    cases htarget
  · next name hname =>
    split at h
    · cases h
    · next context dynamic hfound =>
      cases h
      intro target htarget
      cases htarget
      exact ContextTable.find?_lt hfound

namespace Resolver

variable {resolver : Resolver}

theorem within_switch {context operation : String} {switch : Switch}
    (h : (resolver.switch context operation).result = .ok switch) :
    switch.Within resolver.contexts.length := by
  obtain ⟨parsed, -, hresolve⟩ := Reported.andThen_eq_ok_iff.1 h
  exact SwitchOp.within_resolve hresolve

/-- A kind that includes a context includes one of the table. -/
theorem target_lt_of_kind {context : String} {options : RuleOptions} {written : RuleDefKind}
    {inclusion : Inclusion}
    (h : (resolver.kind context options written).result = .ok (.inclusion inclusion)) :
    inclusion.target < resolver.contexts.length := by
  cases written with
  | inclusion name =>
    obtain ⟨⟨target, dynamic⟩, hfound, hdone⟩ := Reported.andThen_eq_ok_iff.1 h
    rw [Reported.require_eq_ok_iff] at hfound
    cases hdone
    exact ContextTable.find?_lt hfound
  | keyword list =>
    obtain ⟨words, -, hdone⟩ := Reported.andThen_eq_ok_iff.1 h
    cases hdone
  | regex pattern =>
    simp only [kind, regex] at h
    split at h
    · cases h
    · split at h
      · cases h
      · cases h
  | _ => cases h

-- The induction is on the description: a rule is followed into the rules that extend it.
mutual

theorem within_rule {context : String} {contextStyle : Style} (written : RuleDef) {rule : Rule}
    (h : (resolver.rule context contextStyle written).result = .ok rule) :
    rule.Within resolver.contexts.length := by
  match written with
  | ⟨kind, options, children⟩ =>
    rw [Resolver.rule] at h
    obtain ⟨resolved, hkind, h⟩ := Reported.andThen_eq_ok_iff.1 h
    obtain ⟨extending, hchildren, h⟩ := Reported.andThen_eq_ok_iff.1 h
    obtain ⟨style, -, h⟩ := Reported.andThen_eq_ok_iff.1 h
    obtain ⟨switch, hswitch, h⟩ := Reported.andThen_eq_ok_iff.1 h
    cases h
    refine .intro (within_switch hswitch) ?_ ?_
    · intro target htarget
      simp only [Rule.includedContext?] at htarget
      split at htarget
      · next inclusion =>
        cases htarget
        exact target_lt_of_kind hkind
      · cases htarget
    · split at hchildren
      · exact within_rules children hchildren
      · cases hchildren
        intro child hchild
        cases hchild

theorem within_rules {context : String} {contextStyle : Style} (written : List RuleDef)
    {rules : List Rule} (h : (resolver.rules context contextStyle written).result = .ok rules) :
    ∀ rule ∈ rules, rule.Within resolver.contexts.length := by
  match written with
  | [] =>
    rw [Resolver.rules] at h
    cases h
    intro rule hrule
    cases hrule
  | first :: rest =>
    rw [Resolver.rules] at h
    obtain ⟨head, hhead, h⟩ := Reported.andThen_eq_ok_iff.1 h
    obtain ⟨tail, htail, h⟩ := Reported.andThen_eq_ok_iff.1 h
    cases h
    intro rule hrule
    rcases List.mem_cons.1 hrule with rfl | hrule
    · exact within_rule first hhead
    · exact within_rules rest htail rule hrule

end

theorem within_context {written : ContextDef} {context : Context}
    (h : (resolver.context written).result = .ok context) :
    context.Within resolver.contexts.length := by
  obtain ⟨style, -, h⟩ := Reported.andThen_eq_ok_iff.1 h
  obtain ⟨fallthrough, hfallthrough, h⟩ := Reported.andThen_eq_ok_iff.1 h
  obtain ⟨rules, hrules, h⟩ := Reported.andThen_eq_ok_iff.1 h
  obtain ⟨lineEnd, hlineEnd, h⟩ := Reported.andThen_eq_ok_iff.1 h
  obtain ⟨lineBegin, hlineBegin, h⟩ := Reported.andThen_eq_ok_iff.1 h
  cases h
  exact ⟨within_rules _ hrules, within_switch hlineEnd, within_switch hlineBegin,
    within_switch hfallthrough⟩

end Resolver

/-- The phases of building that succeed. -/
theorem GrammarDef.build_eq_ok {description : GrammarDef} {grammar : Grammar}
    (h : description.build.result = .ok grammar) :
    description.contexts ≠ [] ∧
      firstDuplicate? [] (description.contexts.map ContextDef.name) = none ∧
      ∃ styles, description.styles.result = .ok styles ∧
        List.Forall₂
          (fun written context =>
            ((description.resolver styles).context written).result = .ok context)
          description.contexts grammar.contexts ∧
        (description.assemble grammar.contexts).result = .ok grammar := by
  unfold GrammarDef.build at h
  split at h
  · cases h
  · next hempty =>
    split at h
    · cases h
    · next hdistinct =>
      obtain ⟨styles, hstyles, h⟩ := Reported.andThen_eq_ok_iff.1 h
      obtain ⟨contexts, hcontexts, hassemble⟩ := Reported.andThen_eq_ok_iff.1 h
      have hsame : grammar.contexts = contexts := by
        unfold GrammarDef.assemble at hassemble
        split at hassemble
        · cases hassemble
        · cases hassemble
          rfl
      rw [hsame]
      refine ⟨?_, hdistinct, styles, hstyles, Reported.each_eq_ok_iff.1 hcontexts, hassemble⟩
      simpa using hempty

/-- A grammar that was built from some description. -/
def Grammar.Built (grammar : Grammar) : Prop :=
  ∃ description : GrammarDef, description.build.result = .ok grammar

/-- Every number of a context in a built grammar is the place of one of its contexts. -/
theorem Grammar.Built.resolved {grammar : Grammar} (h : grammar.Built) : grammar.Resolved := by
  obtain ⟨description, hbuild⟩ := h
  obtain ⟨hne, -, styles, -, hcontexts, -⟩ := GrammarDef.build_eq_ok hbuild
  have hlength : description.contexts.length = grammar.contexts.length := hcontexts.length_eq
  have htable : (description.resolver styles).contexts.length = grammar.contexts.length := by
    simp only [GrammarDef.resolver, GrammarDef.contextTable, List.length_map, hlength]
  refine ⟨?_, ?_⟩
  · have hpos := List.length_pos_iff.2 hne
    omega
  · intro context hcontext
    obtain ⟨index, hindex, rfl⟩ := List.mem_iff_getElem.1 hcontext
    have hresult := hcontexts.get (by omega) hindex
    rw [← htable]
    exact Resolver.within_context hresult

/-- In a graph whose edges all lead to vertices of lower rank no vertex reaches itself. -/
theorem Graph.firstCycle?_of_ranked {graph : Graph} (rank : Nat → Nat)
    (h : ∀ v < graph.size, ∀ w ∈ graph.targets v, rank w < rank v) :
    graph.firstCycle? = none := by
  rw [firstCycle?, List.find?_eq_none]
  intro v hv
  rw [List.mem_range] at hv
  have hlower : ∀ w ∈ graph.reach v, rank w < rank v ∧ w < graph.size := by
    refine collect_subset ?_ (by simp) fun w hw hsize => ⟨h v hv w hw, hsize⟩
    intro u hu w hw hsize
    exact ⟨Nat.lt_trans (h u hu.2 w hw) hu.1, hsize⟩
  simp only [List.contains_iff_mem]
  intro hcycle
  exact Nat.lt_irrefl (rank v) (hlower v hcycle).1

/-- Nor does one in a graph whose edges all lead to greater vertices. -/
theorem Graph.firstCycle?_of_increasing {graph : Graph}
    (h : ∀ v < graph.size, ∀ w ∈ graph.targets v, v < w) : graph.firstCycle? = none := by
  refine firstCycle?_of_ranked (graph.size - ·) ?_
  intro v hv w hw
  have hless := h v hv w hw
  omega

/-- Building succeeds if its phases do and no context leads back to itself by inclusions. -/
theorem GrammarDef.exists_build_of_acyclic {description : GrammarDef}
    {styles : List (List Char × Style)} {contexts : List Context}
    (hne : description.contexts ≠ [])
    (hdistinct : firstDuplicate? [] (description.contexts.map ContextDef.name) = none)
    (hstyles : description.styles.result = .ok styles)
    (hcontexts : (Reported.each (description.resolver styles).context
      description.contexts).result = .ok contexts)
    (hacyclic : (includeGraph contexts).firstCycle? = none) :
    ∃ grammar, description.build.result = .ok grammar ∧ grammar.contexts = contexts ∧
      grammar.name = description.name := by
  have hassemble : ∃ grammar, (description.assemble contexts).result = .ok grammar ∧
      grammar.contexts = contexts ∧ grammar.name = description.name := by
    unfold assemble
    split
    · next index hcycle =>
      rw [hacyclic] at hcycle
      cases hcycle
    · exact ⟨_, rfl, rfl, rfl⟩
  obtain ⟨grammar, hgrammar, hsame⟩ := hassemble
  refine ⟨grammar, ?_, hsame⟩
  have hempty : description.contexts.isEmpty = false := by
    rw [List.isEmpty_eq_false_iff]
    exact hne
  unfold build
  rw [hempty, if_neg Bool.false_ne_true]
  split
  · next name hduplicate =>
    rw [hdistinct] at hduplicate
    cases hduplicate
  · rw [Reported.andThen_eq_ok_iff]
    refine ⟨styles, hstyles, ?_⟩
    rw [Reported.andThen_eq_ok_iff]
    exact ⟨contexts, hcontexts, hgrammar⟩

/-- Building succeeds if its phases do and no context includes another. -/
theorem GrammarDef.exists_build {description : GrammarDef} {styles : List (List Char × Style)}
    {contexts : List Context} (hne : description.contexts ≠ [])
    (hdistinct : firstDuplicate? [] (description.contexts.map ContextDef.name) = none)
    (hstyles : description.styles.result = .ok styles)
    (hcontexts : (Reported.each (description.resolver styles).context
      description.contexts).result = .ok contexts)
    (hplain : ∀ context ∈ contexts, includedContexts context.rules = []) :
    ∃ grammar, description.build.result = .ok grammar ∧ grammar.contexts = contexts ∧
      grammar.name = description.name := by
  refine exists_build_of_acyclic hne hdistinct hstyles hcontexts ?_
  apply Graph.firstCycle?_of_increasing
  intro v hv w hw
  have hget : contexts[v]? = some contexts[v] := List.getElem?_eq_getElem hv
  simp only [includeGraph, hget, Option.map_some, Option.getD_some,
    hplain _ (List.getElem_mem hv)] at hw
  cases hw

/-- A resolved rule that has nothing but a kind. -/
def RuleKind.toRule (kind : RuleKind) : Rule where
  kind := kind
  attributeName := none
  style := none
  switch := .stay
  lookAhead := false
  firstNonSpace := false
  column := none
  dynamic := false
  children := []

/-- A resolved context that has nothing but a name and rules. -/
def Context.ofRules (name : String) (rules : List Rule) : Context where
  name := name
  attributeName := none
  style := {}
  dynamic := false
  rules := rules
  lineEnd := .stay
  lineBegin := .stay
  fallthrough := .stay

/-- A small language: a quote begins a quoted part, and another one ends it. -/
def quotedText : GrammarDef where
  name := "Quoted text"
  contexts :=
    [{ name := "Text", rules := [{ kind := .char '"', options := { switch := "Quoted" } }] },
      { name := "Quoted", attributeName := "Quote"
        rules := [{ kind := .char '"', options := { switch := "#pop" } }] }]
  items := [{ name := "Quote", defaultStyle := "dsString" }]

/-- The contexts of the small language, resolved. -/
def quotedTextContexts : List Context :=
  let quote (switch : Switch) : Rule :=
    { kind := .char (.literal '"'), attributeName := none, style := none, switch
      lookAhead := false, firstNonSpace := false, column := none, dynamic := false
      children := [] }
  [{ name := "Text", attributeName := none, style := {}, dynamic := false
     rules := [quote ⟨0, some ⟨1, "Quoted", false⟩⟩]
     lineEnd := .stay, lineBegin := .stay, fallthrough := .stay },
    { name := "Quoted", attributeName := "Quote"
      style := DefaultStyle.string.styleFor "Quote", dynamic := false
      rules := [quote ⟨1, none⟩]
      lineEnd := .stay, lineBegin := .stay, fallthrough := .stay }]

theorem quotedText_build : ∃ grammar, quotedText.build.result = .ok grammar ∧
    grammar.contexts = quotedTextContexts ∧ grammar.name = quotedText.name := by
  have hstyles : quotedText.styles.result =
      .ok [("quote".toList, DefaultStyle.string.styleFor "Quote")] := rfl
  refine GrammarDef.exists_build ?_ ?_ hstyles ?_ ?_
  · simp [quotedText]
  · decide
  · rfl
  · intro context hcontext
    simp only [quotedTextContexts, List.mem_cons, List.not_mem_nil, or_false] at hcontext
    rcases hcontext with rfl | rfl
    · rfl
    · rfl

/-! ## Stacks of a grammar -/

/-- Every context on a stack is one of the first `size`. -/
def Stack.Within (size : Nat) (stack : Stack) : Prop :=
  ∀ frame ∈ stack.frames, frame.context < size

namespace Stack

variable {size : Nat}

theorem Within.current_lt {stack : Stack} (h : stack.Within size) : stack.current < size := by
  apply h stack.top
  simp [frames]

theorem within_single {context : Nat} (h : context < size) : (single context).Within size := by
  intro frame hframe
  rw [frames_single, List.mem_singleton] at hframe
  rw [hframe]
  exact h

theorem Within.push {stack : Stack} (h : stack.Within size) {context : Nat}
    (hcontext : context < size) (data : Option Captures) :
    (stack.push context data).Within size := by
  intro frame hframe
  rw [frames_push, List.mem_append, List.mem_singleton] at hframe
  rcases hframe with hframe | rfl
  · exact h frame hframe
  · exact hcontext

theorem Within.popMany {stack : Stack} (h : stack.Within size) (count : Nat) :
    (stack.popMany count).Within size := by
  intro frame hframe
  rw [frames_popMany] at hframe
  exact h frame (List.mem_of_mem_take hframe)

/-- A switch leads from a stack of a grammar to a stack of that grammar. -/
theorem Within.apply {stack : Stack} (h : stack.Within size) {switch : Switch}
    (hswitch : switch.Within size) (data : Option Captures) :
    (switch.apply stack data).Within size := by
  unfold Switch.apply
  split
  · exact h.popMany switch.pops
  · next target htarget => exact (h.popMany switch.pops).push (hswitch target htarget) _

end Stack

theorem Grammar.Resolved.within_initialStack {grammar : Grammar} (h : grammar.Resolved) :
    Grammar.initialStack.Within grammar.contexts.length :=
  Stack.within_single h.nonempty

end Highlight
