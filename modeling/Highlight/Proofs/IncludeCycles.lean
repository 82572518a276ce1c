import Highlight.Proofs.FullyResolved

/-!
# Contexts that include themselves

A context that comes back to itself along inclusions has no rules that it could stand for, so it is
refused.  The search behind that is started anew from every context, and it may meet the same context
along several ways.  This module says that it refuses exactly the lists of contexts with a cycle,
and names the first context that is on one (`GrammarDef.assemble_rejects_cycles`): a context that
only leads to a cycle is not named, and neither is one that two others include.

There are two groups.

* Cycles.  `OnCycle` is said about the rules of the contexts alone, and it is what the search for
  vertices that reach themselves finds (`mem_reach_self_iff`).
* Searching.  The first of these vertices is the first context on a cycle
  (`firstCycle?_includeGraph_eq_some_iff`).
-/

namespace Highlight

/-! ## Cycles -/

/-- A context of a list has a rule that includes the rules of another. -/
def DirectlyIncludes (contexts : List Context) (source target : Nat) : Prop :=
  ∃ context, contexts[source]? = some context ∧ ∃ rule ∈ context.rules, ∃ inclusion,
    rule.kind = .inclusion inclusion ∧ inclusion.target = target

/-- Inclusions lead from a context back to it. -/
def OnCycle (contexts : List Context) (index : Nat) : Prop :=
  Relation.TransGen (DirectlyIncludes contexts) index index

/-- Every context that is included is in the list. -/
def InclusionsResolved (contexts : List Context) : Prop :=
  ∀ source target, DirectlyIncludes contexts source target → target < contexts.length

variable {contexts : List Context}

theorem DirectlyIncludes.source_lt {source target : Nat}
    (h : DirectlyIncludes contexts source target) : source < contexts.length := by
  obtain ⟨context, hcontext, -⟩ := h
  exact (List.getElem?_eq_some_iff.1 hcontext).1

/-- A context on a cycle includes another itself, so it is one of the list. -/
theorem OnCycle.index_lt {index : Nat} (h : OnCycle contexts index) : index < contexts.length := by
  obtain ⟨next, hfirst, -⟩ := Relation.TransGen.head'_iff.1 h
  exact hfirst.source_lt

theorem edge_includeGraph_iff (hresolved : InclusionsResolved contexts) {source target : Nat} :
    (includeGraph contexts).Edge source target ↔ DirectlyIncludes contexts source target := by
  constructor
  · rintro ⟨htarget, -⟩
    exact mem_targets_includeGraph.1 htarget
  · intro h
    exact ⟨mem_targets_includeGraph.2 h, hresolved source target h⟩

/-- A vertex of the graph of inclusions reaches itself exactly if its context is on a cycle. -/
theorem mem_reach_self_iff (hresolved : InclusionsResolved contexts) {index : Nat} :
    index ∈ (includeGraph contexts).reach index ↔ OnCycle contexts index := by
  have hedge : (includeGraph contexts).Edge = DirectlyIncludes contexts := by
    funext source target
    exact propext (edge_includeGraph_iff hresolved)
  rw [Graph.mem_reach_iff, hedge, OnCycle]

/-! ## Searching -/

/-- The search finds the first context that is on a cycle. -/
theorem firstCycle?_includeGraph_eq_some_iff (hresolved : InclusionsResolved contexts)
    {index : Nat} :
    (includeGraph contexts).firstCycle? = some index ↔
      OnCycle contexts index ∧ ∀ earlier < index, ¬OnCycle contexts earlier := by
  have hcontains : ∀ v, ((includeGraph contexts).reach v).contains v = true ↔
      OnCycle contexts v := by
    intro v
    rw [List.contains_iff_mem, mem_reach_self_iff hresolved]
  simp only [Graph.firstCycle?, List.find?_range_eq_some, hcontains, List.mem_range,
    Bool.not_eq_true', Bool.eq_false_iff, ne_eq]
  constructor
  · rintro ⟨hcycle, -, hearlier⟩
    exact ⟨hcycle, hearlier⟩
  · rintro ⟨hcycle, hearlier⟩
    exact ⟨hcycle, hcycle.index_lt, hearlier⟩

/-- It finds nothing only where there is no cycle. -/
theorem firstCycle?_includeGraph_eq_none_iff (hresolved : InclusionsResolved contexts) :
    (includeGraph contexts).firstCycle? = none ↔ ∀ index, ¬OnCycle contexts index := by
  constructor
  · intro hnone index hcycle
    have hacyclic := Graph.acyclic_of_firstCycle? hnone index hcycle.index_lt
    exact hacyclic ((mem_reach_self_iff hresolved).2 hcycle)
  · intro hacyclic
    cases hfirst : (includeGraph contexts).firstCycle? with
    | none => rfl
    | some index =>
      have hcycle := (firstCycle?_includeGraph_eq_some_iff hresolved).1 hfirst
      exact absurd hcycle.1 (hacyclic index)

namespace GrammarDef

/-- The grammar of some contexts, or the error that names the context where the search ends. -/
theorem assemble_result (description : GrammarDef) (contexts : List Context) :
    (∃ grammar, (includeGraph contexts).firstCycle? = none ∧ grammar.contexts = contexts ∧
        description.assemble contexts = .done grammar) ∨
      ∃ index, (includeGraph contexts).firstCycle? = some index ∧
        description.assemble contexts =
          .fail (.recursiveInclude ((contexts[index]?.map Context.name).getD "")) := by
  unfold assemble
  split
  · next index hcycle => exact .inr ⟨index, hcycle, rfl⟩
  · next hnone => exact .inl ⟨_, hnone, rfl, rfl⟩

/-- Contexts are refused exactly if some of them are on a cycle of inclusions.  The error names the
first one that is, and without a cycle the contexts are those of the grammar that they make. -/
theorem assemble_rejects_cycles (description : GrammarDef) {contexts : List Context}
    (hresolved : InclusionsResolved contexts) :
    (description.assemble contexts).notices = [] ∧
      ((∃ name, (description.assemble contexts).result = .error (.recursiveInclude name)) ↔
        ∃ index, OnCycle contexts index) ∧
      (∀ error, (description.assemble contexts).result = .error error ↔
        ∃ index context, contexts[index]? = some context ∧
          error = .recursiveInclude context.name ∧ OnCycle contexts index ∧
          ∀ earlier < index, ¬OnCycle contexts earlier) ∧
      ((∀ index, ¬OnCycle contexts index) →
        ∃ grammar, (description.assemble contexts).result = .ok grammar ∧
          grammar.contexts = contexts) := by
  rcases description.assemble_result contexts with
    ⟨grammar, hnone, hcontexts, hdone⟩ | ⟨index, hsome, hfail⟩
  · have hacyclic := (firstCycle?_includeGraph_eq_none_iff hresolved).1 hnone
    rw [hdone]
    refine ⟨rfl, ?_, ?_, fun _ => ⟨grammar, rfl, hcontexts⟩⟩
    · constructor
      · rintro ⟨name, ⟨⟩⟩
      · rintro ⟨index, hcycle⟩
        exact absurd hcycle (hacyclic index)
    · intro error
      constructor
      · rintro ⟨⟩
      · rintro ⟨index, context, -, -, hcycle, -⟩
        exact absurd hcycle (hacyclic index)
  · obtain ⟨hcycle, hearlier⟩ := (firstCycle?_includeGraph_eq_some_iff hresolved).1 hsome
    obtain ⟨first, hcontext⟩ : ∃ first, contexts[index]? = some first :=
      ⟨_, List.getElem?_eq_getElem hcycle.index_lt⟩
    rw [hcontext] at hfail
    rw [hfail]
    refine ⟨rfl, ⟨fun _ => ⟨index, hcycle⟩, fun _ => ⟨_, rfl⟩⟩, ?_, ?_⟩
    · intro error
      constructor
      · rintro ⟨⟩
        exact ⟨index, first, hcontext, rfl, hcycle, hearlier⟩
      · rintro ⟨other, context, hother, rfl, hotherCycle, hotherEarlier⟩
        -- There is only one first context on a cycle.
        have hsame : (includeGraph contexts).firstCycle? = some other :=
          (firstCycle?_includeGraph_eq_some_iff hresolved).2 ⟨hotherCycle, hotherEarlier⟩
        rw [hsome] at hsame
        cases hsame
        rw [hcontext] at hother
        cases hother
        rfl
    · intro hacyclic
      exact absurd hcycle (hacyclic index)

/-- Two contexts that include a third one, which includes the first of them again. -/
def crossedContexts : List Context :=
  [.ofRules "Text" [RuleKind.toRule (.inclusion ⟨"Marks", 1, false⟩),
      RuleKind.toRule (.inclusion ⟨"Signs", 2, false⟩)],
    .ofRules "Marks" [RuleKind.toRule (.inclusion ⟨"Tags", 3, false⟩)],
    .ofRules "Signs" [RuleKind.toRule (.inclusion ⟨"Tags", 3, false⟩)],
    .ofRules "Tags" [RuleKind.toRule (.inclusion ⟨"Marks", 1, false⟩)]]

theorem crossedContexts_includes {source target : Nat}
    (h : DirectlyIncludes crossedContexts source target) : 0 < target ∧ target < 4 := by
  have htargets : ∀ source < 4, ∀ target ∈ (includeGraph crossedContexts).targets source,
      0 < target ∧ target < 4 := by
    decide
  exact htargets source h.source_lt target (mem_targets_includeGraph.2 h)

/-- The first context of the list leads to the cycle and is not on it. -/
theorem assemble_rejects_cycles_crossed :
    InclusionsResolved crossedContexts ∧
      (assemble { name := "Crossed text", contexts := [] } crossedContexts).result =
        .error (.recursiveInclude "Marks") := by
  have hresolved : InclusionsResolved crossedContexts :=
    fun _ _ h => (crossedContexts_includes h).2
  have hfirst : DirectlyIncludes crossedContexts 1 3 := mem_targets_includeGraph.1 (by decide)
  have hback : DirectlyIncludes crossedContexts 3 1 := mem_targets_includeGraph.1 (by decide)
  obtain ⟨-, -, hnamed, -⟩ :=
    assemble_rejects_cycles { name := "Crossed text", contexts := [] } hresolved
  refine ⟨hresolved, (hnamed _).2 ⟨1, _, rfl, rfl, .tail (.single hfirst) hback, ?_⟩⟩
  intro earlier hearlier hcycle
  obtain rfl : earlier = 0 := by omega
  obtain ⟨last, -, hlast⟩ := Relation.TransGen.tail'_iff.1 hcycle
  exact Nat.lt_irrefl 0 (crossedContexts_includes hlast).1

end GrammarDef

end Highlight
