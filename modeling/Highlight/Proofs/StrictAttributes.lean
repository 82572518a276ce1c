import Highlight.Proofs.KnownContexts

/-!
# Strict and lenient building

A description can ask for all of its attributes to be defined.  Such a strict build does what the
lenient one does up to the first attribute that is not, and ends there with an error in place of the
notice (`GrammarDef.build_strict`).

There are two groups.

* Reports.  `Reported.tighten` makes a strict report of a lenient one.  It goes through a sequence
  of steps part by part (`tighten_andThen`), so an equation for each step is one for the whole.
* Building.  One equation for each function of the resolver.  Attributes are looked up in one place,
  and all other functions are sequences of steps that either leave attributes alone or come to that
  place.
-/

namespace Highlight

/-! ## Reports -/

/-- What a notice about an attribute that no item defines is where all of them have to be. -/
def Notice.attributeError? : Notice → Option GrammarError
  | .unknownAttribute owner attributeName => some (.unknownAttribute owner attributeName)
  | _ => none

theorem Notice.attributeError?_eq_none_iff {notice : Notice} :
    notice.attributeError? = none ↔
      ∀ owner attributeName, notice ≠ .unknownAttribute owner attributeName := by
  cases notice with
  | unknownAttribute owner attributeName =>
    simp only [attributeError?, reduceCtorEq, false_iff]
    exact fun h => h owner attributeName rfl
  | _ => simp [attributeError?]

namespace Reported

variable {α β : Type}

/-- The report as far as all attributes are defined: the first notice about one that is not becomes
the error. -/
def tighten (report : Reported α) : Reported α :=
  match report.notices.findSome? Notice.attributeError? with
  | none => report
  | some error =>
    ⟨report.notices.takeWhile fun notice => notice.attributeError?.isNone, .error error⟩

/-- No notice is about an attribute that no item defines. -/
def Defined (report : Reported α) : Prop :=
  ∀ notice ∈ report.notices, notice.attributeError? = none

theorem defined_iff {report : Reported α} : report.Defined ↔
    ∀ owner attributeName, .unknownAttribute owner attributeName ∉ report.notices := by
  simp only [Defined, Notice.attributeError?_eq_none_iff]
  constructor
  · exact fun h owner attributeName hnotice => h _ hnotice owner attributeName rfl
  · rintro h notice hnotice owner attributeName rfl
    exact h owner attributeName hnotice

theorem tighten_of_defined {report : Reported α} (h : report.Defined) :
    report.tighten = report := by
  rw [tighten, List.findSome?_eq_none_iff.2 h]

theorem tighten_of_first {notices before after : List Notice} {notice : Notice}
    {result : Except GrammarError α} {error : GrammarError}
    (hsplit : notices = before ++ notice :: after)
    (hbefore : ∀ earlier ∈ before, earlier.attributeError? = none)
    (hnotice : notice.attributeError? = some error) :
    tighten ⟨notices, result⟩ = ⟨before, .error error⟩ := by
  have hfirst : notices.findSome? Notice.attributeError? = some error := by
    rw [hsplit, List.findSome?_append, List.findSome?_eq_none_iff.2 hbefore, List.findSome?_cons,
      hnotice]
    rfl
  have hcut : (notices.takeWhile fun notice => notice.attributeError?.isNone) = before := by
    have hkept : ∀ earlier ∈ before, earlier.attributeError?.isNone = true := by
      intro earlier hearlier
      rw [hbefore earlier hearlier]
      rfl
    rw [hsplit, List.takeWhile_append_of_pos hkept,
      List.takeWhile_cons_of_neg (by simp [hnotice]), List.append_nil]
  simp only [tighten, hfirst, hcut]

theorem tighten_eq_ok_iff {report : Reported α} {a : α} :
    report.tighten.result = .ok a ↔ report.result = .ok a ∧ report.Defined := by
  constructor
  · intro h
    cases hfirst : report.notices.findSome? Notice.attributeError? with
    | none =>
      have hdefined : report.Defined := List.findSome?_eq_none_iff.1 hfirst
      rw [tighten_of_defined hdefined] at h
      exact ⟨h, hdefined⟩
    | some error =>
      simp only [tighten, hfirst] at h
      cases h
  · rintro ⟨hresult, hdefined⟩
    rw [tighten_of_defined hdefined]
    exact hresult

/-- A report of two parts is tightened part by part: what comes after the first undefined attribute
is not reached. -/
theorem tighten_andThen (first : Reported α) (next : α → Reported β) :
    (first.andThen next).tighten = first.tighten.andThen fun a => (next a).tighten := by
  obtain ⟨notices, result⟩ := first
  cases hfirst : notices.findSome? Notice.attributeError? with
  | some error =>
    obtain ⟨before, notice, after, hsplit, hnotice, hbefore⟩ := List.findSome?_eq_some_iff.1 hfirst
    rw [tighten_of_first hsplit hbefore hnotice]
    cases result with
    | error other => exact tighten_of_first hsplit hbefore hnotice
    | ok a =>
      have happend : notices ++ (next a).notices =
          before ++ notice :: (after ++ (next a).notices) := by
        rw [hsplit, List.append_assoc, List.cons_append]
      exact tighten_of_first happend hbefore hnotice
  | none =>
    have hdefined := List.findSome?_eq_none_iff.1 hfirst
    have hfirstDefined : (⟨notices, result⟩ : Reported α).Defined := hdefined
    rw [tighten_of_defined hfirstDefined]
    cases result with
    | error other => exact tighten_of_defined hdefined
    | ok a =>
      have hcut : (notices ++ (next a).notices).takeWhile
          (fun notice => notice.attributeError?.isNone) =
            notices ++ (next a).notices.takeWhile fun notice => notice.attributeError?.isNone :=
        List.takeWhile_append_of_pos fun notice hnotice => by rw [hdefined notice hnotice]; rfl
      simp only [andThen, tighten, List.findSome?_append, hfirst, Option.none_or, hcut]
      cases (next a).notices.findSome? Notice.attributeError? with
      | none => rfl
      | some error => rfl

theorem tighten_done (a : α) : (done a).tighten = done a := rfl

theorem tighten_require (error : GrammarError) (found : Option α) :
    (require error found).tighten = require error found := by
  cases found with
  | none => rfl
  | some a => rfl

/-- A list is handled strictly when each of its members is. -/
theorem tighten_each (f : α → Reported β) (as : List α) :
    (each f as).tighten = each (fun a => (f a).tighten) as := by
  induction as with
  | nil => rfl
  | cons a rest ih => simp only [each, tighten_andThen, tighten_done, ih]

end Reported

/-! ## Building -/

/-- Reading the text of a switch has nothing to say about attributes. -/
theorem SwitchOp.tighten_parse (operation : String) :
    (SwitchOp.parse operation).tighten = SwitchOp.parse operation := by
  refine Reported.tighten_of_defined fun notice hnotice => ?_
  simp only [SwitchOp.parse] at hnotice
  split at hnotice
  · cases hnotice
  · split at hnotice
    · cases hnotice
    · cases hnotice
  · split at hnotice
    · split at hnotice
      · cases hnotice
      · rw [List.mem_singleton.1 hnotice]
        rfl
    · split at hnotice
      · cases hnotice
      · cases hnotice

theorem SwitchOp.tighten_resolve (operation : SwitchOp) (owner : String) (table : ContextTable) :
    (operation.resolve owner table).tighten = operation.resolve owner table := by
  unfold SwitchOp.resolve
  split
  · rfl
  · split
    · rfl
    · rfl

theorem Switch.tighten_ofText (owner : String) (table : ContextTable) (operation : String) :
    (Switch.ofText owner table operation).tighten = Switch.ofText owner table operation := by
  simp only [Switch.ofText, Reported.tighten_andThen, SwitchOp.tighten_parse,
    SwitchOp.tighten_resolve]

theorem ItemDef.tighten_style (item : ItemDef) : item.style.tighten = item.style := by
  simp only [ItemDef.style, Reported.tighten_andThen, Reported.tighten_require,
    Reported.tighten_done]

namespace Resolver

/-- The tables, with all attributes demanded to be defined. -/
def strictly (resolver : Resolver) : Resolver :=
  { resolver with strict := true }

/-- The tables, with fallbacks for attributes that are not defined. -/
def leniently (resolver : Resolver) : Resolver :=
  { resolver with strict := false }

variable (resolver : Resolver)

/-- Here the two ways of building part. -/
theorem style_strictly (owner attributeName : String) (fallback : Style) :
    resolver.strictly.style owner attributeName fallback =
      (resolver.leniently.style owner attributeName fallback).tighten := by
  simp only [style, strictly, leniently]
  cases lookupLast (lowercaseKey attributeName) resolver.styles with
  | some style => rfl
  | none => rfl

theorem switch_strictly (context operation : String) :
    resolver.strictly.switch context operation =
      (resolver.leniently.switch context operation).tighten :=
  (Switch.tighten_ofText context resolver.contexts operation).symm

theorem tighten_regex (context : String) (text : List Char) (options : RuleOptions) :
    (regex context text options).tighten = regex context text options := by
  simp only [regex]
  split
  · rfl
  · split
    · rfl
    · rfl

theorem kind_strictly (context : String) (options : RuleOptions) (written : RuleDefKind) :
    resolver.strictly.kind context options written =
      (resolver.leniently.kind context options written).tighten := by
  cases written with
  | regex pattern => exact (tighten_regex context pattern options).symm
  | keyword list =>
    simp only [kind, Reported.tighten_andThen, Reported.tighten_require, Reported.tighten_done]
    rfl
  | inclusion name =>
    simp only [kind, Reported.tighten_andThen, Reported.tighten_require, Reported.tighten_done]
    rfl
  | _ => rfl

theorem ruleStyle_strictly (context : String) (contextStyle : Style)
    (attributeName : Option String) :
    resolver.strictly.ruleStyle context contextStyle attributeName =
      (resolver.leniently.ruleStyle context contextStyle attributeName).tighten := by
  cases attributeName with
  | none => rfl
  | some attributeName =>
    simp only [ruleStyle, style_strictly, Reported.tighten_andThen, Reported.tighten_done]

-- The induction is on the description: a rule is followed into the rules that extend it.
mutual

theorem rule_strictly (context : String) (contextStyle : Style) (written : RuleDef) :
    resolver.strictly.rule context contextStyle written =
      (resolver.leniently.rule context contextStyle written).tighten := by
  match written with
  | ⟨kind, options, children⟩ =>
    have hchildren :
        (if kind.isNumber then resolver.strictly.rules context contextStyle children
          else .done []) =
        (if kind.isNumber then resolver.leniently.rules context contextStyle children
          else .done []).tighten := by
      split
      · exact rules_strictly context contextStyle children
      · rfl
    simp only [rule, kind_strictly, hchildren, ruleStyle_strictly, switch_strictly,
      Reported.tighten_andThen, Reported.tighten_done]

theorem rules_strictly (context : String) (contextStyle : Style) (written : List RuleDef) :
    resolver.strictly.rules context contextStyle written =
      (resolver.leniently.rules context contextStyle written).tighten := by
  match written with
  | [] => rfl
  | first :: rest =>
    simp only [rules, rule_strictly context contextStyle first,
      rules_strictly context contextStyle rest, Reported.tighten_andThen, Reported.tighten_done]

end

theorem contextStyle_strictly (written : ContextDef) :
    resolver.strictly.contextStyle written = (resolver.leniently.contextStyle written).tighten := by
  unfold contextStyle
  split
  · rfl
  · exact resolver.style_strictly _ _ _

theorem context_strictly (written : ContextDef) :
    resolver.strictly.context written = (resolver.leniently.context written).tighten := by
  simp only [context, contextStyle_strictly, switch_strictly, rules_strictly,
    Reported.tighten_andThen, Reported.tighten_done]

end Resolver

namespace GrammarDef

/-- The description, with all attributes demanded to be defined. -/
def strictly (description : GrammarDef) : GrammarDef :=
  { description with strict := true }

/-- The description, with fallbacks for attributes that are not defined. -/
def leniently (description : GrammarDef) : GrammarDef :=
  { description with strict := false }

variable (description : GrammarDef)

theorem tighten_styles : description.styles.tighten = description.styles := by
  simp only [styles, Reported.tighten_each, Reported.tighten_andThen, ItemDef.tighten_style,
    Reported.tighten_done]

theorem tighten_assemble (contexts : List Context) :
    (description.assemble contexts).tighten = description.assemble contexts := by
  unfold assemble
  split
  · rfl
  · rfl

/-- A strict build is the lenient one up to the first attribute that is not defined. -/
theorem build_strictly : description.strictly.build = description.leniently.build.tighten := by
  have hstyles : description.leniently.styles.tighten = description.strictly.styles :=
    description.tighten_styles
  have hcontext : ∀ styles, (description.strictly.resolver styles).context =
      fun written => ((description.leniently.resolver styles).context written).tighten :=
    fun styles => funext (description.resolver styles).context_strictly
  have hassemble : description.strictly.assemble =
      fun contexts => (description.leniently.assemble contexts).tighten :=
    funext fun contexts => (description.tighten_assemble contexts).symm
  have hcontexts : description.strictly.contexts = description.leniently.contexts := rfl
  simp only [build, hcontexts]
  split
  · rfl
  · split
    · rfl
    · simp only [Reported.tighten_andThen, Reported.tighten_each, hstyles, hcontext, hassemble]

/-- Putting a grammar together has nothing to add to the notices of its parts. -/
theorem notices_build {description : GrammarDef} {grammar : Grammar}
    (h : description.build.result = .ok grammar) {styles : List (List Char × Style)}
    (hstyles : description.styles.result = .ok styles) :
    description.build.notices = description.styles.notices ++
      (Reported.each (description.resolver styles).context description.contexts).notices := by
  have hassemble : ∀ contexts, (description.assemble contexts).notices = [] := by
    intro contexts
    unfold assemble
    split
    · rfl
    · rfl
  unfold build at h ⊢
  split at h
  · cases h
  · next hdeclared =>
    split at h
    · cases h
    · obtain ⟨others, hothers, hrest⟩ := Reported.andThen_eq_ok_iff.1 h
      obtain rfl : styles = others := Except.ok.inj (hstyles.symm.trans hothers)
      obtain ⟨contexts, hcontexts, -⟩ := Reported.andThen_eq_ok_iff.1 hrest
      rw [if_neg hdeclared]
      simp only [Reported.andThen, hstyles, hcontexts, hassemble, List.append_nil]

/-- What builds strictly builds either way, and to the same grammar. -/
theorem build_of_strictly {description : GrammarDef} {grammar : Grammar}
    (h : description.strictly.build.result = .ok grammar) (strict : Bool) :
    { description with strict }.build.result = .ok grammar := by
  cases strict with
  | true => exact h
  | false =>
    rw [build_strictly, Reported.tighten_eq_ok_iff] at h
    exact h.1

end GrammarDef

/-- Where attributes are defined, both builds give one grammar.  In general a strict build succeeds
if the lenient one does so without a notice about an attribute, and otherwise its error is that of
the first such notice. -/
theorem strict_build_agrees (description : GrammarDef) :
    (∀ grammar, description.strictly.build.result = .ok grammar ↔
      description.leniently.build.result = .ok grammar ∧
        ∀ owner attributeName,
          .unknownAttribute owner attributeName ∉ description.leniently.build.notices) ∧
    (∀ strict lenient, description.strictly.build.result = .ok strict →
      description.leniently.build.result = .ok lenient →
        strict = lenient ∧ ∀ start lines,
          highlightDocument strict start lines = highlightDocument lenient start lines) ∧
    ∀ grammar before owner attributeName after,
      description.leniently.build.result = .ok grammar →
      description.leniently.build.notices =
        before ++ .unknownAttribute owner attributeName :: after →
      (∀ other name, .unknownAttribute other name ∉ before) →
      description.strictly.build.result = .error (.unknownAttribute owner attributeName) := by
  have hstrict : ∀ grammar, description.strictly.build.result = .ok grammar ↔
      description.leniently.build.result = .ok grammar ∧ description.leniently.build.Defined :=
    fun grammar => by rw [description.build_strictly, Reported.tighten_eq_ok_iff]
  refine ⟨fun grammar => ?_, fun strict lenient hfirst hsecond => ?_, ?_⟩
  · rw [hstrict, Reported.defined_iff]
  · obtain rfl : strict = lenient :=
      Except.ok.inj (((hstrict strict).1 hfirst).1.symm.trans hsecond)
    exact ⟨rfl, fun start lines => rfl⟩
  · intro grammar before owner attributeName after _ hnotices hbefore
    have hearlier : ∀ earlier ∈ before, earlier.attributeError? = none :=
      fun earlier hmem => Notice.attributeError?_eq_none_iff.2
        fun other name hsame => hbefore other name (hsame ▸ hmem)
    rw [description.build_strictly]
    exact congrArg Reported.result (Reported.tighten_of_first hnotices hearlier rfl)

/-- A small language where neither a number nor what extends it has an attribute that is defined. -/
def undefinedText : GrammarDef where
  name := "Undefined"
  items := [{ name := "Plain", defaultStyle := "dsNormal" }]
  contexts :=
    [{ name := "Text", attributeName := "Plain"
       rules :=
        [{ kind := .int, options := { attributeName := "Number" }
           children := [{ kind := .char 'u', options := { attributeName := "Suffix" } }] }] }]

/-- The strict build fails for the extension, which is resolved before the number's own style. -/
theorem strict_build_agrees_undefinedText :
    (∃ grammar, undefinedText.leniently.build.result = .ok grammar) ∧
    undefinedText.leniently.build.notices =
      [.unknownAttribute "Rule in context 'Text'" "Suffix",
        .unknownAttribute "Rule in context 'Text'" "Number"] ∧
    undefinedText.strictly.build.result =
      .error (.unknownAttribute "Rule in context 'Text'" "Suffix") := by
  obtain ⟨grammar, hgrammar⟩ : ∃ grammar, undefinedText.leniently.build.result = .ok grammar :=
    GrammarDef.exists_build_of_ranked (fun _ => 0) (by decide +kernel)
  have hnotices : undefinedText.leniently.build.notices =
      [.unknownAttribute "Rule in context 'Text'" "Suffix",
        .unknownAttribute "Rule in context 'Text'" "Number"] := by
    rw [GrammarDef.notices_build hgrammar rfl]
    decide +kernel
  exact ⟨⟨grammar, hgrammar⟩, hnotices,
    (strict_build_agrees undefinedText).2.2 grammar [] _ _ _ hgrammar hnotices
      fun other name hmem => by cases hmem⟩

end Highlight
