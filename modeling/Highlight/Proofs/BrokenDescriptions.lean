import Highlight.Proofs.FullyResolved
import Mathlib.Data.List.Duplicate

/-!
# Which descriptions are broken

`GrammarDef.Sound` says what has to be right in a description, and `GrammarError.Holds` says what an
error tells about it.  Both speak about the description alone, by its names.  Building fails with an
error that holds (`GrammarDef.holds_of_build`), nothing that an error tells holds in a sound
description (`GrammarDef.Sound.not_holds`), and what is built is sound (`GrammarDef.sound_of_build`).
Together these say that building rejects the broken descriptions and no others
(`build_rejects_broken`).

For each function of the resolver there are two lemmas: one for its success, which gives the part of
`Sound` that it checks, and one for its failure, which gives `GrammarError.HoldsIn` for the context
that is being resolved.  A rule is followed into the rules that extend it by `RuleDef.Covers`, which
leaves the children of other kinds than numbers alone, as building does.
-/

namespace Highlight

/-! ## What a description writes -/

/-- A rule is another one or extends it, as a child of a number. -/
inductive RuleDef.Covers : RuleDef → RuleDef → Prop
  | self {rule : RuleDef} : Covers rule rule
  | child {rule child other : RuleDef} (number : rule.kind.isNumber = true)
      (mem : child ∈ rule.children) (covers : Covers child other) : Covers rule other

namespace ContextDef

/-- A rule of the context, or one that extends a number of the context. -/
def HasRule (context : ContextDef) (rule : RuleDef) : Prop :=
  ∃ top ∈ context.rules, top.Covers rule

/-- The text of a switch of the context or of one of its rules. -/
def HasOperation (context : ContextDef) (operation : String) : Prop :=
  operation ∈ [context.fallthrough, context.lineEnd, context.lineBegin] ∨
    ∃ rule, context.HasRule rule ∧ rule.options.switch = operation

/-- A name that a switch or an inclusion in the context refers to. -/
def Refers (context : ContextDef) (name : String) : Prop :=
  (∃ operation parsed, context.HasOperation operation ∧
    (SwitchOp.parse operation).result = .ok parsed ∧ parsed.target = some name) ∨
  ∃ rule, context.HasRule rule ∧ rule.kind = .inclusion name

/-- An attribute that the context or one of its rules has, with the words that name the owner. -/
def Mentions (context : ContextDef) (owner attributeName : String) : Prop :=
  (owner = s!"Context '{context.name}'" ∧ context.attributeName = some attributeName) ∨
    (owner = s!"Rule in context '{context.name}'" ∧
      ∃ rule, context.HasRule rule ∧ rule.options.attributeName = some attributeName)

end ContextDef

namespace GrammarDef

/-- A context of the name is declared. -/
def Declares (description : GrammarDef) (name : String) : Prop :=
  ∃ context ∈ description.contexts, context.name = name

/-- An item defines the attribute; case does not count. -/
def Defines (description : GrammarDef) (attributeName : String) : Prop :=
  ∃ item ∈ description.items, lowercaseKey item.name = lowercaseKey attributeName

/-- There is a keyword list of the name. -/
def HasList (description : GrammarDef) (list : String) : Prop :=
  ∃ words, (list, words) ∈ description.lists

/-- A context includes the rules of another by one of its own rules. -/
def Includes (description : GrammarDef) (source target : String) : Prop :=
  ∃ context ∈ description.contexts, context.name = source ∧
    ∃ rule ∈ context.rules, rule.kind = .inclusion target

end GrammarDef

/-! ## Sound descriptions -/

/-- The text of a switch can be read, and the context that it names is declared. -/
def GrammarDef.Switches (description : GrammarDef) (operation : String) : Prop :=
  ∃ parsed, (SwitchOp.parse operation).result = .ok parsed ∧
    ∀ name, parsed.target = some name → description.Declares name

/-- All that a rule refers to is there, and its pattern compiles. -/
structure RuleDef.Sound (description : GrammarDef) (rule : RuleDef) : Prop where
  switch : description.Switches rule.options.switch
  inclusion : ∀ name, rule.kind = .inclusion name → description.Declares name
  keyword : ∀ list, rule.kind = .keyword list → description.HasList list
  pattern : ∀ text, rule.kind = .regex text → rule.options.dynamic = false →
    ∃ regex, Regex.compile (RegexRule.splitAnchors false false text).1 rule.options.caseless
      rule.options.minimal = .ok regex
  defined : description.strict = true → ∀ attributeName,
    rule.options.attributeName = some attributeName → description.Defines attributeName

/-- All that a context and its rules refer to is there. -/
structure ContextDef.Sound (description : GrammarDef) (context : ContextDef) : Prop where
  switches : ∀ operation ∈ [context.fallthrough, context.lineEnd, context.lineBegin],
    description.Switches operation
  defined : description.strict = true → ∀ attributeName,
    context.attributeName = some attributeName → description.Defines attributeName
  rules : ∀ rule, context.HasRule rule → rule.Sound description

/-- Nothing is wrong with a description. -/
structure GrammarDef.Sound (description : GrammarDef) : Prop where
  nonempty : description.contexts ≠ []
  distinct : (description.contexts.map ContextDef.name).Nodup
  items : ∀ item ∈ description.items, ∃ style : DefaultStyle, style.name = item.defaultStyle
  contexts : ∀ context ∈ description.contexts, context.Sound description
  acyclic : ∀ name, ¬Relation.TransGen description.Includes name name

/-! ## What errors say -/

/-- What an error says about a context fails there. -/
def GrammarError.HoldsIn (description : GrammarDef) (written : ContextDef) : GrammarError → Prop
  | unknownContext context reference =>
    context = written.name ∧ written.Refers reference ∧ ¬description.Declares reference
  | unknownAttribute owner attributeName =>
    description.strict = true ∧ written.Mentions owner attributeName ∧
      ¬description.Defines attributeName
  | unknownList context list =>
    context = written.name ∧ (∃ rule, written.HasRule rule ∧ rule.kind = .keyword list) ∧
      ¬description.HasList list
  | invalidPattern context pattern =>
    context = written.name ∧ ∃ rule text, written.HasRule rule ∧ rule.kind = .regex text ∧
      rule.options.dynamic = false ∧ (RegexRule.splitAnchors false false text).1 = pattern ∧
      ∀ regex, Regex.compile pattern rule.options.caseless rule.options.minimal ≠ .ok regex
  | invalidOperation operation =>
    written.HasOperation operation ∧ ∀ parsed, (SwitchOp.parse operation).result ≠ .ok parsed
  | _ => False

/-- What an error says about a description fails there. -/
def GrammarError.Holds (description : GrammarDef) : GrammarError → Prop
  | noContexts language => language = description.name ∧ description.contexts = []
  | duplicateContext name => (description.contexts.map ContextDef.name).Duplicate name
  | unknownDefaultStyle attributeName style =>
    ∃ item ∈ description.items, item.name = attributeName ∧ item.defaultStyle = style ∧
      ∀ known : DefaultStyle, known.name ≠ style
  | recursiveInclude context => Relation.TransGen description.Includes context context
  | error => ∃ written ∈ description.contexts, error.HoldsIn description written

/-! ## Results with errors -/

namespace Reported

theorem andThen_eq_error_iff {α β : Type} {first : Reported α} {next : α → Reported β}
    {error : GrammarError} :
    (first.andThen next).result = .error error ↔
      first.result = .error error ∨
        ∃ a, first.result = .ok a ∧ (next a).result = .error error := by
  unfold andThen
  cases first.result with
  | error other => simp
  | ok a => simp

theorem require_eq_error_iff {α : Type} {missing error : GrammarError} {found : Option α} :
    (require missing found).result = .error error ↔ found = none ∧ missing = error := by
  cases found with
  | none => simp [require, fail]
  | some a => simp [require, done]

/-- Handling a list fails at one of its members. -/
theorem exists_of_each_eq_error {α β : Type} {f : α → Reported β} {as : List α}
    {error : GrammarError} (h : (each f as).result = .error error) :
    ∃ a ∈ as, (f a).result = .error error := by
  induction as with
  | nil => cases h
  | cons a rest ih =>
    rw [each, andThen_eq_error_iff] at h
    rcases h with h | ⟨b, -, h⟩
    · exact ⟨a, List.mem_cons_self, h⟩
    · rw [andThen_eq_error_iff] at h
      rcases h with h | ⟨bs, -, h⟩
      · obtain ⟨other, hother, hfails⟩ := ih h
        exact ⟨other, List.mem_cons_of_mem _ hother, hfails⟩
      · cases h

end Reported

/-! ## Look-ups -/

theorem ContextTable.find?_eq_none_iff {table : ContextTable} {name : String} :
    table.find? name = none ↔ ∀ entry ∈ table, entry.1 ≠ name := by
  rw [find?, Option.bind_eq_none_iff]
  constructor
  · intro h entry hentry hname
    cases hindex : table.findIdx? fun entry => entry.1 == name with
    | none =>
      have hne := List.findIdx?_eq_none_iff.1 hindex entry hentry
      simp [hname] at hne
    | some index =>
      obtain ⟨hlt, -⟩ := List.findIdx?_eq_some_iff_getElem.1 hindex
      have hget := h index hindex
      rw [List.getElem?_eq_getElem hlt] at hget
      cases hget
  · intro h index hindex
    obtain ⟨hlt, hname, -⟩ := List.findIdx?_eq_some_iff_getElem.1 hindex
    exact absurd (eq_of_beq hname) (h _ (List.getElem_mem hlt))

theorem lookupLast_eq_none_iff {α β : Type} [BEq α] [LawfulBEq α] {key : α}
    {entries : List (α × β)} :
    lookupLast key entries = none ↔ ∀ entry ∈ entries, entry.1 ≠ key := by
  rw [lookupLast, List.lookup_eq_none_iff]
  constructor
  · intro h entry hentry
    exact (bne_iff_ne.1 (h entry (List.mem_reverse.2 hentry))).symm
  · intro h entry hentry
    exact bne_iff_ne.2 (h entry (List.mem_reverse.1 hentry)).symm

theorem DefaultStyle.mem_all (style : DefaultStyle) : style ∈ all := by
  cases style <;> decide

theorem DefaultStyle.ofName?_eq_none_iff {name : String} :
    ofName? name = none ↔ ∀ style : DefaultStyle, style.name ≠ name := by
  simp [ofName?, List.find?_eq_none, mem_all]

namespace GrammarDef

variable {description : GrammarDef}

theorem find?_contextTable_eq_none_iff {name : String} :
    description.contextTable.find? name = none ↔ ¬description.Declares name := by
  simp [ContextTable.find?_eq_none_iff, contextTable, Declares]

theorem lookupLast_words_eq_none_iff {list : String} :
    lookupLast list description.words = none ↔ ¬description.HasList list := by
  rw [lookupLast_eq_none_iff, words, List.forall_mem_map]
  constructor
  · rintro h ⟨words, hwords⟩
    exact h _ hwords rfl
  · rintro h ⟨name, words⟩ hentry rfl
    exact h ⟨words, hentry⟩

/-- The styles have the names of the items. -/
theorem lookupLast_styles_eq_none_iff {styles : List (List Char × Style)}
    (h : description.styles.result = .ok styles) {attributeName : String} :
    lookupLast (lowercaseKey attributeName) styles = none ↔ ¬description.Defines attributeName := by
  have hnames : List.Forall₂ Eq (description.items.map fun item => lowercaseKey item.name)
      (styles.map Prod.fst) := by
    rw [List.forall₂_map_left_iff, List.forall₂_map_right_iff]
    refine (Reported.each_eq_ok_iff.1 h).imp fun item entry hitem => ?_
    obtain ⟨style, -, hdone⟩ := Reported.andThen_eq_ok_iff.1 hitem
    cases hdone
    rfl
  rw [List.forall₂_eq_eq_eq] at hnames
  have hall : (∀ entry ∈ styles, entry.1 ≠ lowercaseKey attributeName) ↔
      ∀ name ∈ styles.map Prod.fst, name ≠ lowercaseKey attributeName := by
    rw [List.forall_mem_map]
  rw [lookupLast_eq_none_iff, hall, ← hnames, List.forall_mem_map, Defines]
  simp

end GrammarDef

/-! ## Switches -/

namespace SwitchOp

/-- A text that cannot be read is named in the error. -/
theorem eq_invalidOperation_of_parse {operation : String} {error : GrammarError}
    (h : (parse operation).result = .error error) : error = .invalidOperation operation := by
  unfold parse at h
  dsimp only at h
  split at h
  · cases h
  · split at h
    · cases h
      rfl
    · cases h
  · split at h
    · split at h
      · cases h
      · cases h
    · split at h
      · cases h
        rfl
      · cases h

end SwitchOp

/-- The tables of a resolver are those of a description. -/
structure Resolver.Of (description : GrammarDef) (resolver : Resolver) : Prop where
  contexts : resolver.contexts = description.contextTable
  lists : resolver.lists = description.words
  strict : resolver.strict = description.strict
  styles : ∀ attributeName, lookupLast (lowercaseKey attributeName) resolver.styles = none ↔
    ¬description.Defines attributeName

namespace Resolver

variable {description : GrammarDef} {resolver : Resolver}

theorem switches_of_switch (hof : resolver.Of description) {context operation : String}
    {switch : Switch} (h : (resolver.switch context operation).result = .ok switch) :
    description.Switches operation := by
  obtain ⟨parsed, hparsed, hresolve⟩ := Reported.andThen_eq_ok_iff.1 h
  refine ⟨parsed, hparsed, ?_⟩
  intro name hname
  by_contra hmissing
  rw [← GrammarDef.find?_contextTable_eq_none_iff, ← hof.contexts] at hmissing
  rw [SwitchOp.resolve, hname] at hresolve
  simp only [hmissing] at hresolve
  cases hresolve

theorem holdsIn_of_switch (hof : resolver.Of description) {written : ContextDef}
    {operation : String} (hoperation : written.HasOperation operation) {error : GrammarError}
    (h : (resolver.switch written.name operation).result = .error error) :
    error.HoldsIn description written := by
  rcases Reported.andThen_eq_error_iff.1 h with hparse | ⟨parsed, hparsed, hresolve⟩
  · obtain rfl := SwitchOp.eq_invalidOperation_of_parse hparse
    refine ⟨hoperation, ?_⟩
    intro parsed hparsed
    rw [hparse] at hparsed
    cases hparsed
  · unfold SwitchOp.resolve at hresolve
    split at hresolve
    · cases hresolve
    · next name hname =>
      split at hresolve
      · next hmissing =>
        cases hresolve
        rw [hof.contexts, GrammarDef.find?_contextTable_eq_none_iff] at hmissing
        exact ⟨rfl, .inl ⟨operation, parsed, hoperation, hparsed, hname⟩, hmissing⟩
      · cases hresolve

theorem holdsIn_of_regex {written : ContextDef} {rule : RuleDef} (hrule : written.HasRule rule)
    {text : List Char} (hkind : rule.kind = .regex text) {error : GrammarError}
    (h : (regex written.name text rule.options).result = .error error) :
    error.HoldsIn description written := by
  unfold regex at h
  dsimp only at h
  split at h
  · cases h
  · next hdynamic =>
    split at h
    · cases h
    · next hcompile =>
      cases h
      refine ⟨rfl, rule, text, hrule, hkind, by simpa using hdynamic, rfl, ?_⟩
      intro regex hregex
      rw [hcompile] at hregex
      cases hregex

theorem holdsIn_of_kind (hof : resolver.Of description) {written : ContextDef} {rule : RuleDef}
    (hrule : written.HasRule rule) {error : GrammarError}
    (h : (resolver.kind written.name rule.options rule.kind).result = .error error) :
    error.HoldsIn description written := by
  cases hkind : rule.kind with
  | regex text =>
    rw [hkind] at h
    exact holdsIn_of_regex hrule hkind h
  | keyword list =>
    rw [hkind] at h
    rcases Reported.andThen_eq_error_iff.1 h with hmissing | ⟨words, -, hdone⟩
    · obtain ⟨hnone, rfl⟩ := Reported.require_eq_error_iff.1 hmissing
      rw [hof.lists, GrammarDef.lookupLast_words_eq_none_iff] at hnone
      exact ⟨rfl, ⟨rule, hrule, hkind⟩, hnone⟩
    · cases hdone
  | inclusion name =>
    rw [hkind] at h
    rcases Reported.andThen_eq_error_iff.1 h with hmissing | ⟨target, -, hdone⟩
    · obtain ⟨hnone, rfl⟩ := Reported.require_eq_error_iff.1 hmissing
      rw [hof.contexts, GrammarDef.find?_contextTable_eq_none_iff] at hnone
      exact ⟨rfl, .inr ⟨rule, hrule, hkind⟩, hnone⟩
    · cases hdone
  | _ =>
    rw [hkind] at h
    cases h

/-! ## Rules and contexts -/

theorem eq_unknownAttribute_of_style (hof : resolver.Of description)
    {owner attributeName : String} {fallback : Style} {error : GrammarError}
    (h : (resolver.style owner attributeName fallback).result = .error error) :
    error = .unknownAttribute owner attributeName ∧ description.strict = true ∧
      ¬description.Defines attributeName := by
  unfold style at h
  split at h
  · cases h
  · next hmissing =>
    split at h
    · next hstrict =>
      cases h
      exact ⟨rfl, hof.strict ▸ hstrict, (hof.styles attributeName).1 hmissing⟩
    · cases h

theorem defines_of_style (hof : resolver.Of description) {owner attributeName : String}
    {fallback style : Style} (h : (resolver.style owner attributeName fallback).result = .ok style)
    (hstrict : description.strict = true) : description.Defines attributeName := by
  by_contra hmissing
  rw [← hof.styles] at hmissing
  rw [Resolver.style, hmissing] at h
  simp only [hof.strict, hstrict, if_true] at h
  cases h

theorem eq_unknownAttribute_of_ruleStyle (hof : resolver.Of description) {context : String}
    {fallback : Style} {mentioned : Option String} {error : GrammarError}
    (h : (resolver.ruleStyle context fallback mentioned).result = .error error) :
    ∃ attributeName, mentioned = some attributeName ∧
      error = .unknownAttribute s!"Rule in context '{context}'" attributeName ∧
      description.strict = true ∧ ¬description.Defines attributeName := by
  unfold ruleStyle at h
  split at h
  · cases h
  · next attributeName =>
    rcases Reported.andThen_eq_error_iff.1 h with hstyle | ⟨style, -, hdone⟩
    · exact ⟨attributeName, rfl, eq_unknownAttribute_of_style hof hstyle⟩
    · cases hdone

theorem sound_of_kind (hof : resolver.Of description) {context : String} {options : RuleOptions}
    {written : RuleDefKind} {kind : RuleKind}
    (h : (resolver.kind context options written).result = .ok kind) :
    (∀ name, written = .inclusion name → description.Declares name) ∧
      (∀ list, written = .keyword list → description.HasList list) ∧
      ∀ text, written = .regex text → options.dynamic = false →
        ∃ regex, Regex.compile (RegexRule.splitAnchors false false text).1 options.caseless
          options.minimal = .ok regex := by
  refine ⟨?_, ?_, ?_⟩
  · rintro name rfl
    obtain ⟨target, hfound, -⟩ := Reported.andThen_eq_ok_iff.1 h
    rw [Reported.require_eq_ok_iff, hof.contexts] at hfound
    by_contra hmissing
    rw [← GrammarDef.find?_contextTable_eq_none_iff, hfound] at hmissing
    cases hmissing
  · rintro list rfl
    obtain ⟨words, hfound, -⟩ := Reported.andThen_eq_ok_iff.1 h
    rw [Reported.require_eq_ok_iff, hof.lists] at hfound
    by_contra hmissing
    rw [← GrammarDef.lookupLast_words_eq_none_iff, hfound] at hmissing
    cases hmissing
  · rintro text rfl hdynamic
    obtain ⟨rule, -, hrule⟩ := resolves_regex h
    obtain ⟨regex, -, hcompile⟩ := hrule.compiled hdynamic
    refine ⟨regex, ?_⟩
    rw [hrule.anchors, ← hrule.caseless, ← hrule.minimal]
    exact hcompile

-- As in the resolver, a rule is followed into the rules that extend it.
mutual

theorem sound_of_rule (hof : resolver.Of description) {context : String} {contextStyle : Style}
    (written : RuleDef) {rule : Rule}
    (h : (resolver.rule context contextStyle written).result = .ok rule) :
    ∀ other, written.Covers other → other.Sound description := by
  match written with
  | ⟨kind, options, children⟩ =>
    rw [Resolver.rule] at h
    obtain ⟨resolved, hkind, h⟩ := Reported.andThen_eq_ok_iff.1 h
    obtain ⟨extending, hchildren, h⟩ := Reported.andThen_eq_ok_iff.1 h
    obtain ⟨style, hstyle, h⟩ := Reported.andThen_eq_ok_iff.1 h
    obtain ⟨switch, hswitch, -⟩ := Reported.andThen_eq_ok_iff.1 h
    intro other hcovers
    cases hcovers with
    | self =>
      obtain ⟨hinclusion, hkeyword, hpattern⟩ := sound_of_kind hof hkind
      refine ⟨switches_of_switch hof hswitch, hinclusion, hkeyword, hpattern, ?_⟩
      intro hstrict attributeName hattribute
      simp only at hattribute
      rw [hattribute] at hstyle
      obtain ⟨style, hstyle, -⟩ := Reported.andThen_eq_ok_iff.1 hstyle
      exact defines_of_style hof hstyle hstrict
    | child hnumber hchild hcovers =>
      simp only at hnumber
      rw [if_pos hnumber] at hchildren
      exact sound_of_rules hof children hchildren _ hchild other hcovers

theorem sound_of_rules (hof : resolver.Of description) {context : String} {contextStyle : Style}
    (written : List RuleDef) {rules : List Rule}
    (h : (resolver.rules context contextStyle written).result = .ok rules) :
    ∀ top ∈ written, ∀ other, top.Covers other → other.Sound description := by
  match written with
  | [] =>
    intro top htop
    cases htop
  | first :: rest =>
    rw [Resolver.rules] at h
    obtain ⟨head, hhead, h⟩ := Reported.andThen_eq_ok_iff.1 h
    obtain ⟨tail, htail, h⟩ := Reported.andThen_eq_ok_iff.1 h
    intro top htop
    rcases List.mem_cons.1 htop with heq | htop
    · rw [heq]
      exact sound_of_rule hof first hhead
    · exact sound_of_rules hof rest htail top htop

end

-- The rules of a context that can fail are those that it has, so both inductions carry that along.
mutual

theorem holdsIn_of_rule (hof : resolver.Of description) {within : ContextDef}
    {contextStyle : Style} (written : RuleDef)
    (hhas : ∀ other, written.Covers other → within.HasRule other) {error : GrammarError}
    (h : (resolver.rule within.name contextStyle written).result = .error error) :
    error.HoldsIn description within := by
  match written with
  | ⟨kind, options, children⟩ =>
    rw [Resolver.rule] at h
    rcases Reported.andThen_eq_error_iff.1 h with hkind | ⟨resolved, -, h⟩
    · exact holdsIn_of_kind hof (hhas _ .self) hkind
    rcases Reported.andThen_eq_error_iff.1 h with hchildren | ⟨extending, -, h⟩
    · split at hchildren
      · next hnumber =>
        refine holdsIn_of_rules hof children ?_ hchildren
        intro child hchild other hcovers
        exact hhas other (.child hnumber hchild hcovers)
      · cases hchildren
    rcases Reported.andThen_eq_error_iff.1 h with hstyle | ⟨style, -, h⟩
    · obtain ⟨attributeName, hattribute, rfl, hstrict, hmissing⟩ :=
        eq_unknownAttribute_of_ruleStyle hof hstyle
      exact ⟨hstrict, .inr ⟨rfl, _, hhas _ .self, hattribute⟩, hmissing⟩
    rcases Reported.andThen_eq_error_iff.1 h with hswitch | ⟨switch, -, hdone⟩
    · exact holdsIn_of_switch hof (.inr ⟨_, hhas _ .self, rfl⟩) hswitch
    · cases hdone

theorem holdsIn_of_rules (hof : resolver.Of description) {within : ContextDef}
    {contextStyle : Style} (written : List RuleDef)
    (hhas : ∀ top ∈ written, ∀ other, top.Covers other → within.HasRule other)
    {error : GrammarError}
    (h : (resolver.rules within.name contextStyle written).result = .error error) :
    error.HoldsIn description within := by
  match written with
  | [] =>
    rw [Resolver.rules] at h
    cases h
  | first :: rest =>
    rw [Resolver.rules] at h
    rcases Reported.andThen_eq_error_iff.1 h with hfirst | ⟨head, -, h⟩
    · exact holdsIn_of_rule hof first (hhas first List.mem_cons_self) hfirst
    rcases Reported.andThen_eq_error_iff.1 h with hrest | ⟨tail, -, hdone⟩
    · exact holdsIn_of_rules hof rest (fun top htop => hhas top (List.mem_cons_of_mem _ htop)) hrest
    · cases hdone

end

/-- A context that is resolved is sound. -/
theorem sound_of_context (hof : resolver.Of description) {written : ContextDef} {context : Context}
    (h : (resolver.context written).result = .ok context) : written.Sound description := by
  obtain ⟨style, hstyle, h⟩ := Reported.andThen_eq_ok_iff.1 h
  obtain ⟨fallthrough, hfallthrough, h⟩ := Reported.andThen_eq_ok_iff.1 h
  obtain ⟨rules, hrules, h⟩ := Reported.andThen_eq_ok_iff.1 h
  obtain ⟨lineEnd, hlineEnd, h⟩ := Reported.andThen_eq_ok_iff.1 h
  obtain ⟨lineBegin, hlineBegin, -⟩ := Reported.andThen_eq_ok_iff.1 h
  refine ⟨?_, ?_, ?_⟩
  · simp only [List.forall_mem_cons]
    exact ⟨switches_of_switch hof hfallthrough, switches_of_switch hof hlineEnd,
      switches_of_switch hof hlineBegin, by simp⟩
  · intro hstrict attributeName hattribute
    rw [contextStyle, hattribute] at hstyle
    exact defines_of_style hof hstyle hstrict
  · rintro rule ⟨top, htop, hcovers⟩
    exact sound_of_rules hof written.rules hrules top htop rule hcovers

/-- What the error says about a context that is not resolved fails there. -/
theorem holdsIn_of_context (hof : resolver.Of description) {written : ContextDef}
    {error : GrammarError} (h : (resolver.context written).result = .error error) :
    error.HoldsIn description written := by
  rcases Reported.andThen_eq_error_iff.1 h with hstyle | ⟨style, -, h⟩
  · unfold contextStyle at hstyle
    split at hstyle
    · cases hstyle
    · next attributeName hattribute =>
      obtain ⟨rfl, hstrict, hmissing⟩ := eq_unknownAttribute_of_style hof hstyle
      exact ⟨hstrict, .inl ⟨rfl, hattribute⟩, hmissing⟩
  rcases Reported.andThen_eq_error_iff.1 h with hfallthrough | ⟨fallthrough, -, h⟩
  · exact holdsIn_of_switch hof (.inl (by simp)) hfallthrough
  rcases Reported.andThen_eq_error_iff.1 h with hrules | ⟨rules, -, h⟩
  · exact holdsIn_of_rules hof written.rules (fun top htop other hcovers => ⟨top, htop, hcovers⟩)
      hrules
  rcases Reported.andThen_eq_error_iff.1 h with hlineEnd | ⟨lineEnd, -, h⟩
  · exact holdsIn_of_switch hof (.inl (by simp)) hlineEnd
  rcases Reported.andThen_eq_error_iff.1 h with hlineBegin | ⟨lineBegin, -, hdone⟩
  · exact holdsIn_of_switch hof (.inl (by simp)) hlineBegin
  · cases hdone

end Resolver

/-! ## Inclusions by name -/

theorem exists_mem_right_of_forall₂ {α β : Type} {R : α → β → Prop} {as : List α} {bs : List β}
    (h : List.Forall₂ R as bs) {a : α} (ha : a ∈ as) : ∃ b ∈ bs, R a b :=
  exists_mem_left_of_forall₂ h.flip ha

namespace GrammarDef

variable {description : GrammarDef} {contexts : List Context}

/-- The name of the context at a place. -/
def nameAt (contexts : List Context) (index : Nat) : String :=
  (contexts[index]?.map Context.name).getD ""

/-- Where resolved contexts include each other, the description says so by their names. -/
theorem includes_of_edge (hresolves : List.Forall₂ (Context.Resolves description contexts)
    description.contexts contexts) {source target : Nat}
    (h : (includeGraph contexts).Edge source target) :
    description.Includes (nameAt contexts source) (nameAt contexts target) := by
  obtain ⟨context, hcontext, rule, hrule, inclusion, hkind, rfl⟩ := mem_targets_includeGraph.1 h.1
  obtain ⟨written, hwritten, hof⟩ :=
    exists_mem_left_of_forall₂ hresolves (List.mem_of_getElem? hcontext)
  obtain ⟨given, hgiven, ⟨hresolved, -, -, -⟩⟩ := exists_mem_left_of_forall₂ hof.rules hrule
  rw [hkind] at hresolved
  obtain ⟨hinclusion, included, hincluded, hname⟩ := hresolved
  refine ⟨written, hwritten, ?_, given, hgiven, ?_⟩
  · simp [nameAt, hcontext, hof.name]
  · simp [nameAt, hincluded, hname, hinclusion]

/-- Where a description includes rules by name, so does a grammar that resolves it. -/
theorem grammarIncludes_of_includes {grammar : Grammar} (hresolves : grammar.Resolves description)
    {source target : String} (h : description.Includes source target) :
    grammar.Includes ((grammar.contextIndex? source).getD 0)
      ((grammar.contextIndex? target).getD 0) := by
  obtain ⟨written, hwritten, rfl, given, hgiven, hkind⟩ := h
  obtain ⟨context, hcontext, hof⟩ := exists_mem_right_of_forall₂ hresolves.contexts hwritten
  obtain ⟨rule, hrule, ⟨hresolved, -, -, -⟩⟩ := exists_mem_right_of_forall₂ hof.rules hgiven
  rw [hkind] at hresolved
  obtain ⟨inclusion, hinclusion, included, hincluded, hname⟩ :=
    RuleKind.exists_inclusion_of_resolves hresolved
  obtain ⟨index, hindex⟩ := List.getElem?_of_mem hcontext
  rw [(hresolves.index _ index).2 ⟨context, hindex, hof.name⟩,
    (hresolves.index _ _).2 ⟨included, hincluded, hname⟩]
  exact ⟨context, hindex, rule, hrule, inclusion, hinclusion, rfl⟩

end GrammarDef

/-! ## Errors and sound descriptions -/

namespace ContextDef.Sound

variable {description : GrammarDef} {written : ContextDef}

theorem switches_of_hasOperation (h : written.Sound description) {operation : String}
    (hoperation : written.HasOperation operation) : description.Switches operation := by
  rcases hoperation with hoperation | ⟨rule, hrule, rfl⟩
  · exact h.switches operation hoperation
  · exact (h.rules rule hrule).switch

theorem declares_of_refers (h : written.Sound description) {name : String}
    (hrefers : written.Refers name) : description.Declares name := by
  rcases hrefers with ⟨operation, parsed, hoperation, hparsed, hname⟩ | ⟨rule, hrule, hkind⟩
  · obtain ⟨other, hother, hdeclared⟩ := h.switches_of_hasOperation hoperation
    rw [hparsed] at hother
    cases hother
    exact hdeclared name hname
  · exact (h.rules rule hrule).inclusion name hkind

theorem defines_of_mentions (h : written.Sound description) (hstrict : description.strict = true)
    {owner attributeName : String} (hmentions : written.Mentions owner attributeName) :
    description.Defines attributeName := by
  rcases hmentions with ⟨-, hattribute⟩ | ⟨-, rule, hrule, hattribute⟩
  · exact h.defined hstrict attributeName hattribute
  · exact (h.rules rule hrule).defined hstrict attributeName hattribute

/-- Nothing that an error says about a context fails in a sound one. -/
theorem not_holdsIn (h : written.Sound description) (error : GrammarError) :
    ¬error.HoldsIn description written := by
  cases error with
  | unknownContext context reference =>
    rintro ⟨-, hrefers, hmissing⟩
    exact hmissing (h.declares_of_refers hrefers)
  | unknownAttribute owner attributeName =>
    rintro ⟨hstrict, hmentions, hmissing⟩
    exact hmissing (h.defines_of_mentions hstrict hmentions)
  | unknownList context list =>
    rintro ⟨-, ⟨rule, hrule, hkind⟩, hmissing⟩
    exact hmissing ((h.rules rule hrule).keyword list hkind)
  | invalidPattern context pattern =>
    rintro ⟨-, rule, text, hrule, hkind, hdynamic, rfl, hinvalid⟩
    obtain ⟨regex, hregex⟩ := (h.rules rule hrule).pattern text hkind hdynamic
    exact hinvalid regex hregex
  | invalidOperation operation =>
    rintro ⟨hoperation, hmalformed⟩
    obtain ⟨parsed, hparsed, -⟩ := h.switches_of_hasOperation hoperation
    exact hmalformed parsed hparsed
  | _ => exact id

end ContextDef.Sound

/-- Nothing that an error says fails in a sound description. -/
theorem GrammarDef.Sound.not_holds {description : GrammarDef} (h : description.Sound)
    (error : GrammarError) : ¬error.Holds description := by
  cases error with
  | noContexts language =>
    rintro ⟨-, hempty⟩
    exact h.nonempty hempty
  | duplicateContext name => exact fun hduplicate => hduplicate.not_nodup h.distinct
  | unknownDefaultStyle attributeName style =>
    rintro ⟨item, hitem, -, rfl, hmissing⟩
    obtain ⟨known, hknown⟩ := h.items item hitem
    exact hmissing known hknown
  | recursiveInclude context => exact h.acyclic context
  | _ =>
    rintro ⟨written, hwritten, hholds⟩
    exact (h.contexts written hwritten).not_holdsIn _ hholds

/-! ## Building -/

theorem duplicate_of_firstDuplicate? {met names : List String} {name : String}
    (h : firstDuplicate? met names = some name) :
    name ∈ met ∧ name ∈ names ∨ names.Duplicate name := by
  induction names generalizing met with
  | nil => cases h
  | cons first rest ih =>
    rw [firstDuplicate?] at h
    split at h
    · next hmet =>
      cases h
      exact .inl ⟨by simpa using hmet, List.mem_cons_self⟩
    · rcases ih h with ⟨hmet, hrest⟩ | hduplicate
      · rcases List.mem_cons.1 hmet with rfl | hmet
        · exact .inr (.cons_mem hrest)
        · exact .inl ⟨hmet, List.mem_cons_of_mem _ hrest⟩
      · exact .inr (hduplicate.duplicate_cons first)

namespace GrammarDef

variable {description : GrammarDef} {styles : List (List Char × Style)}

theorem of_resolver (h : description.styles.result = .ok styles) :
    (description.resolver styles).Of description :=
  ⟨rfl, rfl, rfl, fun _ => lookupLast_styles_eq_none_iff h⟩

theorem exists_of_styles_eq_error {error : GrammarError}
    (h : description.styles.result = .error error) :
    ∃ item ∈ description.items, error = .unknownDefaultStyle item.name item.defaultStyle ∧
      ∀ known : DefaultStyle, known.name ≠ item.defaultStyle := by
  obtain ⟨item, hitem, hfails⟩ := Reported.exists_of_each_eq_error h
  refine ⟨item, hitem, ?_⟩
  rcases Reported.andThen_eq_error_iff.1 hfails with hstyle | ⟨style, -, hdone⟩
  · rcases Reported.andThen_eq_error_iff.1 hstyle with hmissing | ⟨base, -, hdone⟩
    · obtain ⟨hnone, rfl⟩ := Reported.require_eq_error_iff.1 hmissing
      exact ⟨rfl, DefaultStyle.ofName?_eq_none_iff.1 hnone⟩
    · cases hdone
  · cases hdone

theorem exists_style_of_styles (h : description.styles.result = .ok styles) :
    ∀ item ∈ description.items, ∃ style : DefaultStyle, style.name = item.defaultStyle := by
  intro item hitem
  obtain ⟨entry, -, hentry⟩ := exists_mem_right_of_forall₂ (Reported.each_eq_ok_iff.1 h) hitem
  obtain ⟨style, hstyle, -⟩ := Reported.andThen_eq_ok_iff.1 hentry
  obtain ⟨base, hbase, -⟩ := Reported.andThen_eq_ok_iff.1 hstyle
  rw [Reported.require_eq_ok_iff] at hbase
  by_contra hmissing
  rw [DefaultStyle.ofName?_eq_none_iff.2 (by simpa using hmissing)] at hbase
  cases hbase

/-- A description that a grammar is built from is sound. -/
theorem sound_of_build {grammar : Grammar} (h : description.build.result = .ok grammar) :
    description.Sound := by
  obtain ⟨hnonempty, hdistinct, styles, hstyles, hcontexts, -⟩ := build_eq_ok h
  refine ⟨hnonempty, (firstDuplicate?_eq_none_iff.1 hdistinct).1, exists_style_of_styles hstyles,
    ?_, ?_⟩
  · intro written hwritten
    obtain ⟨context, -, hcontext⟩ := exists_mem_right_of_forall₂ hcontexts hwritten
    exact Resolver.sound_of_context (of_resolver hstyles) hcontext
  · intro name hcycle
    have hlift := Relation.TransGen.lift (fun name => (grammar.contextIndex? name).getD 0)
      fun _ _ hincludes => grammarIncludes_of_includes (GrammarDef.grammar_resolves h) hincludes
    exact (GrammarDef.grammar_resolves h).acyclic _ (hlift name name hcycle)

/-- What is said about contexts that include each other fails in their description. -/
theorem holds_of_assemble {contexts : List Context} (hresolves : List.Forall₂
    (Context.Resolves description contexts) description.contexts contexts) {error : GrammarError}
    (h : (description.assemble contexts).result = .error error) : error.Holds description := by
  unfold assemble at h
  split at h
  · next index hcycle =>
    cases h
    have hreach := List.find?_some hcycle
    rw [List.contains_eq_mem, decide_eq_true_iff, Graph.mem_reach_iff] at hreach
    have hlift := Relation.TransGen.lift (nameAt contexts) fun _ _ => includes_of_edge hresolves
    exact hlift index index hreach
  · cases h

/-- What the error says about a description that cannot be built fails there. -/
theorem holds_of_build {error : GrammarError} (h : description.build.result = .error error) :
    error.Holds description := by
  unfold build at h
  split at h
  · next hempty =>
    cases h
    exact ⟨rfl, List.isEmpty_iff.1 hempty⟩
  split at h
  · next name hduplicate =>
    cases h
    rcases duplicate_of_firstDuplicate? hduplicate with ⟨hmet, -⟩ | hduplicate
    · cases hmet
    · exact hduplicate
  rcases Reported.andThen_eq_error_iff.1 h with hstyles | ⟨styles, hstyles, h⟩
  · obtain ⟨item, hitem, rfl, hmissing⟩ := exists_of_styles_eq_error hstyles
    exact ⟨item, hitem, rfl, rfl, hmissing⟩
  rcases Reported.andThen_eq_error_iff.1 h with hcontexts | ⟨contexts, hcontexts, hassemble⟩
  · obtain ⟨written, hwritten, hcontext⟩ := Reported.exists_of_each_eq_error hcontexts
    have hholds := Resolver.holdsIn_of_context (of_resolver hstyles) hcontext
    cases error with
    | noContexts | duplicateContext | unknownDefaultStyle | recursiveInclude => exact hholds.elim
    | _ => exact ⟨written, hwritten, hholds⟩
  · exact holds_of_assemble (resolves_contexts (Reported.each_eq_ok_iff.1 hcontexts)) hassemble

end GrammarDef

/-- Building succeeds for the sound descriptions, and for the others the error says what is wrong
with them. -/
theorem build_rejects_broken (description : GrammarDef) :
    ((∃ grammar, description.build.result = .ok grammar) ↔ description.Sound) ∧
      ∀ error, description.build.result = .error error → error.Holds description := by
  refine ⟨⟨?_, ?_⟩, fun error => GrammarDef.holds_of_build⟩
  · rintro ⟨grammar, hbuild⟩
    exact GrammarDef.sound_of_build hbuild
  · intro hsound
    cases hbuild : description.build.result with
    | ok grammar => exact ⟨grammar, rfl⟩
    | error error => exact absurd (GrammarDef.holds_of_build hbuild) (hsound.not_holds error)

/-- A description with a mistake that is deep inside: a suffix of a suffix of a number leads to a
context that is not declared. -/
def misspelledText : GrammarDef where
  name := "Misspelled text"
  contexts :=
    [{ name := "Text"
       rules :=
        [{ kind := .int
           children :=
            [{ kind := .float
               children := [{ kind := .char 'f', options := { switch := "#pop!Suffx" } }] }] }] },
      { name := "Suffix" }]

/-- The mistake is found and named. -/
theorem misspelledText_broken :
    misspelledText.build.result = .error (.unknownContext "Text" "Suffx") ∧
      (GrammarError.unknownContext "Text" "Suffx").Holds misspelledText ∧
      ¬misspelledText.Sound := by
  have hfails : misspelledText.build.result = .error (.unknownContext "Text" "Suffx") := rfl
  refine ⟨hfails, (build_rejects_broken misspelledText).2 _ hfails, ?_⟩
  rw [← (build_rejects_broken misspelledText).1, hfails]
  rintro ⟨grammar, hbuild⟩
  cases hbuild

end Highlight
