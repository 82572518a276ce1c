import Highlight.Proofs.BrokenDescriptions
import Highlight.Proofs.Directives
import Highlight.Proofs.Renumbering
import Mathlib.Logic.Equiv.Basic

/-!
# The order of declarations

The contexts behind the first can be declared in any order.  The two descriptions build or fail
together, and what is built from them highlights every document alike
(`highlightDocument_reordered`).

There are four groups.

* Places.  `exists_renumbering` numbers the members of a reordered list by their old places.  Where
  names are distinct, a table of contexts finds each name at its new place.
* Resolving.  One lemma for each function of the resolver: where the contexts are found at new
  places, what is resolved is renumbered, and nothing else about it changes.
* Sound descriptions.  Nothing that `GrammarDef.Sound` asks for depends on the order.
* Documents.  The grammar of the one description is that of the other, renumbered, and
  `Grammar.Renumbers` carries that to documents.
-/

namespace Highlight

/-! ## Places -/

/-- A renumbering of all places but the first, which stays. -/
def renumberBehindFirst (f : Nat → Nat) : Nat → Nat
  | 0 => 0
  | place + 1 => f place + 1

theorem injective_renumberBehindFirst {f : Nat → Nat} (hf : Function.Injective f) :
    Function.Injective (renumberBehindFirst f) := by
  intro first second h
  cases first with
  | zero =>
    cases second with
    | zero => rfl
    | succ second => cases h
  | succ first =>
    cases second with
    | zero => cases h
    | succ second => rw [hf (Nat.succ.inj h)]

/-- The members of a list, renumbered, are found in each reordering of it. -/
theorem exists_renumbering {α : Type} {as bs : List α} (h : as.Perm bs) :
    ∃ f : Nat → Nat, Function.Injective f ∧ ∀ place, bs[f place]? = as[place]? := by
  induction h with
  | nil => exact ⟨id, Function.injective_id, fun _ => rfl⟩
  | cons a h ih =>
    obtain ⟨f, hf, hplaces⟩ := ih
    refine ⟨renumberBehindFirst f, injective_renumberBehindFirst hf, ?_⟩
    intro place
    cases place with
    | zero => rfl
    | succ place => simpa [renumberBehindFirst] using hplaces place
  | swap a b as =>
    refine ⟨Equiv.swap 0 1, (Equiv.swap 0 1).injective, ?_⟩
    intro place
    match place with
    | 0 => simp
    | 1 => simp
    | place + 2 =>
      rw [Equiv.swap_apply_of_ne_of_ne (by omega) (by omega)]
      simp
  | trans _ _ ihfirst ihsecond =>
    obtain ⟨f, hf, hfirst⟩ := ihfirst
    obtain ⟨g, hg, hsecond⟩ := ihsecond
    refine ⟨g ∘ f, hg.comp hf, ?_⟩
    intro place
    rw [Function.comp_apply, hsecond, hfirst]

namespace ContextTable

/-- Another table finds every name of a table at the new place. -/
def Renumbers (f : Nat → Nat) (table other : ContextTable) : Prop :=
  ∀ name index dynamic, table.find? name = some (index, dynamic) →
    other.find? name = some (f index, dynamic)

/-- Where names are distinct, each is found at the place where it stands. -/
theorem find?_of_getElem? {table : ContextTable} (hdistinct : (table.map Prod.fst).Nodup)
    {index : Nat} {name : String} {dynamic : Bool} (h : table[index]? = some (name, dynamic)) :
    table.find? name = some (index, dynamic) := by
  obtain ⟨hindex, hget⟩ := List.getElem?_eq_some_iff.1 h
  have hfirst : (table.findIdx? fun entry => entry.1 == name) = some index := by
    rw [List.findIdx?_eq_some_iff_getElem]
    refine ⟨hindex, by simp [hget], ?_⟩
    intro earlier hearlier hname
    have hne := List.pairwise_iff_getElem.1 hdistinct earlier index (by simp; omega) (by simpa)
      hearlier
    rw [List.getElem_map, List.getElem_map, hget] at hne
    exact hne (eq_of_beq hname)
  rw [find?, hfirst, Option.bind_some, h, Option.map_some]

theorem renumbers_of_places {f : Nat → Nat} {table other : ContextTable}
    (hdistinct : (other.map Prod.fst).Nodup) (h : ∀ place, other[f place]? = table[place]?) :
    table.Renumbers f other := by
  intro name index dynamic hfound
  apply find?_of_getElem? hdistinct
  rw [h, getElem?_of_find? hfound]

end ContextTable

/-! ## Resolving -/

theorem SwitchOp.resolve_renumber {f : Nat → Nat} {table other : ContextTable}
    (h : table.Renumbers f other) {operation : SwitchOp} {owner : String} {switch : Switch}
    (hswitch : (operation.resolve owner table).result = .ok switch) :
    (operation.resolve owner other).result = .ok (switch.renumber f) := by
  unfold resolve at hswitch ⊢
  split at hswitch
  · cases hswitch
    rfl
  · next name hname =>
    split at hswitch
    · cases hswitch
    · next index dynamic hfound =>
      cases hswitch
      simp only [h name index dynamic hfound]
      rfl

namespace Resolver

variable {f : Nat → Nat} {resolver : Resolver} {table : ContextTable}

theorem switch_renumber (h : resolver.contexts.Renumbers f table) {context operation : String}
    {switch : Switch} (hswitch : (resolver.switch context operation).result = .ok switch) :
    (Resolver.switch { resolver with contexts := table } context operation).result =
      .ok (switch.renumber f) := by
  obtain ⟨parsed, hparsed, hresolve⟩ := Reported.andThen_eq_ok_iff.1 hswitch
  exact Reported.andThen_eq_ok_iff.2 ⟨parsed, hparsed, SwitchOp.resolve_renumber h hresolve⟩

theorem kind_renumber (h : resolver.contexts.Renumbers f table) {context : String}
    {options : RuleOptions} {written : RuleDefKind} {kind : RuleKind}
    (hkind : (resolver.kind context options written).result = .ok kind) :
    (Resolver.kind { resolver with contexts := table } context options written).result =
      .ok (kind.renumber f) := by
  cases written with
  | inclusion name =>
    obtain ⟨⟨index, dynamic⟩, hfound, hdone⟩ := Reported.andThen_eq_ok_iff.1 hkind
    rw [Reported.require_eq_ok_iff] at hfound
    cases hdone
    refine Reported.andThen_eq_ok_iff.2 ⟨(f index, dynamic), ?_, rfl⟩
    exact Reported.require_eq_ok_iff.2 (h name index dynamic hfound)
  | keyword list =>
    obtain ⟨words, hwords, hdone⟩ := Reported.andThen_eq_ok_iff.1 hkind
    cases hdone
    exact Reported.andThen_eq_ok_iff.2 ⟨words, hwords, rfl⟩
  | regex pattern =>
    obtain ⟨rule, rfl, -⟩ := resolves_regex hkind
    exact hkind
  | _ =>
    cases hkind
    rfl

-- As in the resolver, a rule is followed into the rules that extend it.
mutual

theorem rule_renumber (h : resolver.contexts.Renumbers f table) {context : String}
    {contextStyle : Style} (written : RuleDef) {rule : Rule}
    (hrule : (resolver.rule context contextStyle written).result = .ok rule) :
    (Resolver.rule { resolver with contexts := table } context contextStyle written).result =
      .ok (rule.renumber f) := by
  match written with
  | ⟨kind, options, children⟩ =>
    rw [Resolver.rule] at hrule ⊢
    obtain ⟨resolved, hkind, hrule⟩ := Reported.andThen_eq_ok_iff.1 hrule
    obtain ⟨extending, hchildren, hrule⟩ := Reported.andThen_eq_ok_iff.1 hrule
    obtain ⟨style, hstyle, hrule⟩ := Reported.andThen_eq_ok_iff.1 hrule
    obtain ⟨switch, hswitch, hrule⟩ := Reported.andThen_eq_ok_iff.1 hrule
    cases hrule
    refine Reported.andThen_eq_ok_iff.2 ⟨_, kind_renumber h hkind, ?_⟩
    refine Reported.andThen_eq_ok_iff.2 ⟨extending.map (Rule.renumber f), ?_, ?_⟩
    · split at hchildren
      · next hnumber =>
        rw [if_pos hnumber]
        exact rules_renumber h children hchildren
      · next hnumber =>
        cases hchildren
        rw [if_neg hnumber]
        rfl
    · refine Reported.andThen_eq_ok_iff.2 ⟨style, hstyle, ?_⟩
      refine Reported.andThen_eq_ok_iff.2 ⟨_, switch_renumber h hswitch, ?_⟩
      rw [Rule.renumber_eq]
      rfl

theorem rules_renumber (h : resolver.contexts.Renumbers f table) {context : String}
    {contextStyle : Style} (written : List RuleDef) {rules : List Rule}
    (hrules : (resolver.rules context contextStyle written).result = .ok rules) :
    (Resolver.rules { resolver with contexts := table } context contextStyle written).result =
      .ok (rules.map (Rule.renumber f)) := by
  match written with
  | [] =>
    rw [Resolver.rules] at hrules ⊢
    cases hrules
    rfl
  | first :: rest =>
    rw [Resolver.rules] at hrules ⊢
    obtain ⟨head, hhead, hrules⟩ := Reported.andThen_eq_ok_iff.1 hrules
    obtain ⟨tail, htail, hrules⟩ := Reported.andThen_eq_ok_iff.1 hrules
    cases hrules
    refine Reported.andThen_eq_ok_iff.2 ⟨_, rule_renumber h first hhead, ?_⟩
    exact Reported.andThen_eq_ok_iff.2 ⟨_, rules_renumber h rest htail, rfl⟩

end

theorem context_renumber (h : resolver.contexts.Renumbers f table) {written : ContextDef}
    {context : Context} (hcontext : (resolver.context written).result = .ok context) :
    (Resolver.context { resolver with contexts := table } written).result =
      .ok (context.renumber f) := by
  obtain ⟨style, hstyle, hcontext⟩ := Reported.andThen_eq_ok_iff.1 hcontext
  obtain ⟨fallthrough, hfallthrough, hcontext⟩ := Reported.andThen_eq_ok_iff.1 hcontext
  obtain ⟨rules, hrules, hcontext⟩ := Reported.andThen_eq_ok_iff.1 hcontext
  obtain ⟨lineEnd, hlineEnd, hcontext⟩ := Reported.andThen_eq_ok_iff.1 hcontext
  obtain ⟨lineBegin, hlineBegin, hcontext⟩ := Reported.andThen_eq_ok_iff.1 hcontext
  cases hcontext
  refine Reported.andThen_eq_ok_iff.2 ⟨style, hstyle, ?_⟩
  refine Reported.andThen_eq_ok_iff.2 ⟨_, switch_renumber h hfallthrough, ?_⟩
  refine Reported.andThen_eq_ok_iff.2 ⟨_, rules_renumber h _ hrules, ?_⟩
  refine Reported.andThen_eq_ok_iff.2 ⟨_, switch_renumber h hlineEnd, ?_⟩
  exact Reported.andThen_eq_ok_iff.2 ⟨_, switch_renumber h hlineBegin, rfl⟩

end Resolver

/-! ## Sound descriptions -/

/-- The other description declares the same contexts in another order with the same one first, and
is the same in everything else. -/
structure GrammarDef.Reorders (description other : GrammarDef) : Prop where
  contexts : other.contexts.Perm description.contexts
  first : other.contexts.head? = description.contexts.head?
  rest : other = { description with contexts := other.contexts }

/-- A context stays sound where all that it can refer to is still there. -/
theorem ContextDef.Sound.mono {description other : GrammarDef} {written : ContextDef}
    (h : written.Sound description)
    (hdeclares : ∀ name, description.Declares name → other.Declares name)
    (hitems : other.items = description.items) (hlists : other.lists = description.lists)
    (hstrict : other.strict = description.strict) : written.Sound other := by
  have hswitches : ∀ operation, description.Switches operation → other.Switches operation := by
    rintro operation ⟨parsed, hparsed, htarget⟩
    exact ⟨parsed, hparsed, fun name hname => hdeclares name (htarget name hname)⟩
  have hdefines : ∀ attributeName, description.Defines attributeName →
      other.Defines attributeName := by
    simp only [GrammarDef.Defines, hitems]
    exact fun _ => id
  have hhas : ∀ list, description.HasList list → other.HasList list := by
    simp only [GrammarDef.HasList, hlists]
    exact fun _ => id
  refine ⟨fun operation hoperation => hswitches operation (h.switches operation hoperation), ?_, ?_⟩
  · rw [hstrict]
    exact fun hstrict name hname => hdefines name (h.defined hstrict name hname)
  · intro rule hrule
    obtain ⟨switch, hinclusion, hkeyword, hpattern, hdefined⟩ := h.rules rule hrule
    refine ⟨hswitches _ switch, fun name hname => hdeclares name (hinclusion name hname),
      fun list hlist => hhas list (hkeyword list hlist), hpattern, ?_⟩
    rw [hstrict]
    exact fun hstrict name hname => hdefines name (hdefined hstrict name hname)

namespace GrammarDef.Reorders

variable {description other : GrammarDef}

theorem symm (h : description.Reorders other) : other.Reorders description := by
  refine ⟨h.contexts.symm, h.first.symm, ?_⟩
  rw [h.rest]

theorem declares (h : description.Reorders other) {name : String}
    (hdeclares : description.Declares name) : other.Declares name := by
  obtain ⟨context, hcontext, hname⟩ := hdeclares
  exact ⟨context, h.contexts.mem_iff.2 hcontext, hname⟩

theorem includes (h : description.Reorders other) {source target : String}
    (hincludes : other.Includes source target) : description.Includes source target := by
  obtain ⟨context, hcontext, hsource⟩ := hincludes
  exact ⟨context, h.contexts.mem_iff.1 hcontext, hsource⟩

/-- A description is as sound in any order. -/
theorem sound (h : description.Reorders other) (hsound : description.Sound) : other.Sound := by
  have hitems : other.items = description.items := by rw [h.rest]
  refine ⟨?_, ?_, ?_, ?_, ?_⟩
  · intro hempty
    have hperm := h.contexts
    rw [hempty] at hperm
    exact hsound.nonempty hperm.nil_eq.symm
  · exact (h.contexts.map ContextDef.name).nodup_iff.2 hsound.distinct
  · rw [hitems]
    exact hsound.items
  · intro written hwritten
    refine (hsound.contexts written (h.contexts.mem_iff.1 hwritten)).mono
      (fun name => h.declares) hitems ?_ ?_
    · rw [h.rest]
    · rw [h.rest]
  · intro name hcycle
    exact hsound.acyclic name (Relation.TransGen.mono (fun _ _ => h.includes) _ _ hcycle)

/-- If one of the descriptions builds, so does the other. -/
theorem exists_build (h : description.Reorders other) {grammar : Grammar}
    (hbuild : description.build.result = .ok grammar) :
    ∃ grammar, other.build.result = .ok grammar := by
  have hsound := h.sound (sound_of_build hbuild)
  cases hother : other.build.result with
  | ok grammar => exact ⟨grammar, rfl⟩
  | error error => exact absurd (holds_of_build hother) (hsound.not_holds error)

/-- The first context is at the first place in both descriptions, and the others are renumbered. -/
theorem exists_renumbering (h : description.Reorders other) (hne : description.contexts ≠ []) :
    ∃ f : Nat → Nat, Function.Injective f ∧ f Grammar.defaultContext = Grammar.defaultContext ∧
      ∀ place, other.contexts[f place]? = description.contexts[place]? := by
  obtain ⟨first, rest, hcontexts⟩ := List.exists_cons_of_ne_nil hne
  have hfirst := h.first
  rw [hcontexts, List.head?_cons, List.head?_eq_some_iff] at hfirst
  obtain ⟨others, hothers⟩ := hfirst
  have hperm := h.contexts
  rw [hcontexts, hothers, List.perm_cons] at hperm
  obtain ⟨f, hf, hplaces⟩ := Highlight.exists_renumbering hperm.symm
  refine ⟨renumberBehindFirst f, injective_renumberBehindFirst hf, rfl, ?_⟩
  intro place
  rw [hcontexts, hothers]
  cases place with
  | zero => rfl
  | succ place => simpa [renumberBehindFirst] using hplaces place

end GrammarDef.Reorders

/-! ## Documents -/

namespace GrammarDef.Reorders

variable {description other : GrammarDef} {grammar reordered : Grammar}

/-- What is built from the one description is what is built from the other, renumbered. -/
theorem renumbers (h : description.Reorders other)
    (hbuild : description.build.result = .ok grammar)
    (hother : other.build.result = .ok reordered) : ∃ f, grammar.Renumbers f reordered := by
  obtain ⟨hne, -, styles, hstyles, hcontexts, -⟩ := build_eq_ok hbuild
  obtain ⟨f, hf, hfirst, hplaces⟩ := h.exists_renumbering hne
  refine ⟨f, hf, hfirst, ?_, ?_⟩
  · have htable : description.contextTable.Renumbers f other.contextTable := by
      apply ContextTable.renumbers_of_places
      · have hdistinct := (sound_of_build hother).distinct
        simpa [contextTable, Function.comp_def] using hdistinct
      · intro place
        rw [contextTable, contextTable, List.getElem?_map, List.getElem?_map, hplaces]
    have hresolver : other.resolver styles =
        { description.resolver styles with contexts := other.contextTable } := by
      rw [h.rest]
      rfl
    have hstylesOther : other.styles.result = .ok styles := by
      rw [h.rest]
      exact hstyles
    intro index context hcontext
    obtain ⟨hindex, rfl⟩ := List.getElem?_eq_some_iff.1 hcontext
    have hwritten : index < description.contexts.length := hcontexts.length_eq ▸ hindex
    have hresult := hcontexts.get hwritten hindex
    refine context_of_build hother hstylesOther
      ((hplaces index).trans (List.getElem?_eq_getElem hwritten)) ?_
    rw [hresolver]
    exact Resolver.context_renumber htable hresult
  · rw [delimiters_of_build hbuild, delimiters_of_build hother, h.rest]

end GrammarDef.Reorders

/-- Highlighting lines succeeds, and no stack on the way has a context that there is not. -/
theorem exists_highlightDocument_within {grammar : Grammar} (hresolved : grammar.Resolved)
    {start : Stack} (hstart : start.Within grammar.contexts.length) (lines : List (List Char)) :
    ∃ entries, highlightDocument grammar start lines = .ok entries ∧
      ∀ entry ∈ entries, entry.endStack.Within grammar.contexts.length := by
  induction lines generalizing start with
  | nil => exact ⟨[], rfl, by simp⟩
  | cons line lines ih =>
    obtain ⟨result, -, -, hline, -, -, -, hend⟩ := exists_highlightLine hresolved line hstart
    obtain ⟨entries, hentries, hwithin⟩ := ih hend
    exact ⟨_, highlightDocument_cons hline hentries, List.forall_mem_cons.2 ⟨hend, hwithin⟩⟩

/-- The frames of two grammars are for contexts of one name, and have the same data. -/
structure Frame.Corresponds (grammar other : Grammar) (frame twin : Frame) : Prop where
  context : ∃ context renamed, grammar.contexts[frame.context]? = some context ∧
    other.contexts[twin.context]? = some renamed ∧ context.name = renamed.name
  data : frame.data = twin.data

/-- What two grammars make of a line looks the same, and their stacks correspond frame by frame. -/
structure LineEntry.Corresponds (grammar other : Grammar) (entry twin : LineEntry) : Prop where
  spans : entry.spans = twin.spans
  lineContinue : entry.lineContinue = twin.lineContinue
  frames : List.Forall₂ (Frame.Corresponds grammar other) entry.endStack.frames
    twin.endStack.frames

theorem Grammar.Renumbers.corresponds {f : Nat → Nat} {grammar other : Grammar}
    (h : grammar.Renumbers f other) {entry : LineEntry}
    (hwithin : entry.endStack.Within grammar.contexts.length) :
    entry.Corresponds grammar other (entry.renumber f) := by
  refine ⟨rfl, rfl, ?_⟩
  simp only [LineEntry.renumber, Stack.frames_renumber]
  rw [List.forall₂_map_right_iff, List.forall₂_same]
  intro frame hframe
  obtain ⟨context, hcontext⟩ : ∃ context, grammar.contexts[frame.context]? = some context :=
    ⟨_, List.getElem?_eq_getElem (hwithin frame hframe)⟩
  exact ⟨⟨context, _, hcontext, h.contexts _ context hcontext, rfl⟩, rfl⟩

/-- Two descriptions that differ in the order of the contexts behind the first build or fail
together.  Every document is highlighted alike by what is built from them: the spans and the
continuation of each line are the same, and the stacks correspond frame by frame. -/
theorem highlightDocument_reordered {description other : GrammarDef}
    (h : description.Reorders other) :
    ((∃ grammar, description.build.result = .ok grammar) ↔
      ∃ reordered, other.build.result = .ok reordered) ∧
    ∀ grammar reordered, description.build.result = .ok grammar →
      other.build.result = .ok reordered →
      ∀ lines, ∃ entries twins,
        highlightDocument grammar Grammar.initialStack lines = .ok entries ∧
        highlightDocument reordered Grammar.initialStack lines = .ok twins ∧
        List.Forall₂ (LineEntry.Corresponds grammar reordered) entries twins := by
  refine ⟨⟨?_, ?_⟩, ?_⟩
  · rintro ⟨grammar, hbuild⟩
    exact h.exists_build hbuild
  · rintro ⟨reordered, hother⟩
    exact h.symm.exists_build hother
  · intro grammar reordered hbuild hother lines
    obtain ⟨f, hrenumbers⟩ := h.renumbers hbuild hother
    have hresolved : grammar.Resolved := Grammar.Built.resolved ⟨description, hbuild⟩
    obtain ⟨entries, hentries, hwithin⟩ :=
      exists_highlightDocument_within hresolved hresolved.within_initialStack lines
    have htwins := hrenumbers.highlightDocument_renumber hentries
    have hinitial : Grammar.initialStack.renumber f = Grammar.initialStack := by
      simp only [Grammar.initialStack, Stack.single, Stack.renumber, Frame.renumber,
        hrenumbers.first, List.map_nil]
    rw [hinitial] at htwins
    refine ⟨entries, _, hentries, htwins, ?_⟩
    rw [List.forall₂_map_right_iff, List.forall₂_same]
    exact fun entry hentry => hrenumbers.corresponds (hwithin entry hentry)

/-- The description with the contexts behind the first in reverse. -/
def GrammarDef.backwards (description : GrammarDef) : GrammarDef :=
  { description with
    contexts := description.contexts.take 1 ++ (description.contexts.drop 1).reverse }

/-- The contexts of C can be declared backwards. -/
theorem highlightDocument_reordered_backwards :
    Language.C.grammar.Reorders Language.C.grammar.backwards ∧
      Language.C.grammar.backwards.contexts.map ContextDef.name ≠
        Language.C.grammar.contexts.map ContextDef.name ∧
      ∃ grammar reordered, Language.C.grammar.build.result = .ok grammar ∧
        Language.C.grammar.backwards.build.result = .ok reordered ∧
        ∀ lines, ∃ entries twins,
          highlightDocument grammar Grammar.initialStack lines = .ok entries ∧
          highlightDocument reordered Grammar.initialStack lines = .ok twins ∧
          List.Forall₂ (LineEntry.Corresponds grammar reordered) entries twins := by
  have hreorders : Language.C.grammar.Reorders Language.C.grammar.backwards := by
    refine ⟨?_, rfl, rfl⟩
    have hsplit := List.take_append_drop 1 Language.C.grammar.contexts
    exact ((List.reverse_perm _).append_left _).trans (.of_eq hsplit)
  refine ⟨hreorders, by decide, ?_⟩
  obtain ⟨hbuilds, hdocuments⟩ := highlightDocument_reordered hreorders
  obtain ⟨grammar, hbuild⟩ := Language.C.exists_build
  obtain ⟨reordered, hother⟩ := hbuilds.1 ⟨grammar, hbuild⟩
  exact ⟨grammar, reordered, hbuild, hother, hdocuments grammar reordered hbuild hother⟩

end Highlight
