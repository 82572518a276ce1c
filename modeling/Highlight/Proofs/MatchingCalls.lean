import Highlight.Proofs.FullyResolved
import Mathlib.Logic.Function.Iterate

/-!
# The calls of matching

Matching is a recursion without a structure of its own: a context tries its rules, a rule that
includes a context tries that one, and a number tries the rules that extend it, which may lead back
to its own context.  This module takes the recursion apart.  `Grammar.unroll` is one level of it,
with the answers to the calls that it makes as a parameter, and `Call.Makes` lists those calls.

There are four groups.

* Calls.  `unroll_congr` says that a level asks for the calls that `Makes` lists and for no others,
  and `answer_eq` that matching is what its levels are when they are put together.
* Heights.  Each call has a number, and the calls that it makes have lower ones
  (`Makes.height_lt`): a number is tried with less text behind it, and what is included ranks lower
  in the graph of inclusions.
* Contexts.  `Grammar.Enters` follows the calls from one context to the next.  A context is entered
  through an inclusion among the top rules of another, or with less text (`Enters.descends`).
* Ending.  However the recursion is cut off below the height of a call, the answer is the same
  (`iterate_unroll`), so that it ends on its own (`matching_terminates`).
-/

namespace Highlight

/-! ## Calls -/

/-- A call of matching at a cursor: of one rule, or of a context, which tries its rules. -/
inductive Call where
  | rule (rule : Rule) (cursor : Cursor)
  | context (index : Nat) (cursor : Cursor)

/-- The answer of the first of some rules that finds something, when each of them is answered by
`attempt`. -/
def firstAnswer (attempt : Rule → Except Fault Trial) : List Rule → Except Fault Trial
  | [] => .ok {}
  | rule :: rest =>
    match attempt rule with
    | .error fault => .error fault
    | .ok trial =>
      if trial.found.isSome then .ok trial
      else (firstAnswer attempt rest).map fun later => later.after trial.broken

namespace Grammar

variable (grammar : Grammar)

/-- What matching does for one call, when `recurse` answers the calls that it makes. -/
def unroll (recurse : Call → Except Fault Trial) : Call → Except Fault Trial
  | .context index cursor =>
    match grammar.contexts[index]? with
    | none => .error (.noContext index)
    | some context => firstAnswer (fun rule => recurse (.rule rule cursor)) context.rules
  | .rule rule cursor =>
    if rule.allows cursor then
      match rule.kind with
      | .inclusion inclusion =>
        match grammar.contexts[inclusion.target]? with
        | none => .error (.noContext inclusion.target)
        | some context =>
          (recurse (.context inclusion.target cursor)).map fun trial =>
            if inclusion.withStyle then trial.withStyle context.style else trial
      | _ =>
        match rule.detect cursor with
        | .error fault => .error fault
        | .ok ⟨broken, none⟩ => .ok ⟨broken, none⟩
        | .ok ⟨broken, some (length, captures)⟩ =>
          if rule.children ≠ [] ∧ length < byteLength cursor.rest then
            match cursor.advance? length with
            | none => .error (.splitsCharacter length)
            | some behind =>
              (firstAnswer (fun child => recurse (.rule child behind)) rule.children).map
                fun trial =>
                  ⟨broken ++ trial.broken, some (rule.toMatch
                    (length + (trial.found.map RuleMatch.length).getD 0) captures)⟩
          else .ok ⟨broken, some (rule.toMatch length captures)⟩
    else .ok {}

/-- What matching answers to a call. -/
def answer : Call → Except Fault Trial
  | .context index cursor =>
    match grammar.contexts[index]? with
    | none => .error (.noContext index)
    | some context => grammar.tryRules context.rules cursor
  | .rule rule cursor => grammar.tryRule rule cursor

end Grammar

namespace Call

/-- The calls that a call makes. -/
inductive Makes (grammar : Grammar) : Call → Call → Prop
  /-- A context tries its rules. -/
  | member {index : Nat} {cursor : Cursor} {context : Context} {rule : Rule}
      (context_eq : grammar.contexts[index]? = some context) (mem : rule ∈ context.rules) :
      Makes grammar (.context index cursor) (.rule rule cursor)
  /-- An inclusion tries its context at the same cursor. -/
  | inclusion {rule : Rule} {cursor : Cursor} {inclusion : Inclusion} {context : Context}
      (allows : rule.allows cursor = true) (kind : rule.kind = .inclusion inclusion)
      (context_eq : grammar.contexts[inclusion.target]? = some context) :
      Makes grammar (.rule rule cursor) (.context inclusion.target cursor)
  /-- A rule that has taken some text tries the rules that extend it behind that text. -/
  | child {rule child : Rule} {cursor behind : Cursor} {broken : List (List Char)} {length : Nat}
      {captures : Option Captures} (allows : rule.allows cursor = true)
      (detect : rule.detect cursor = .ok ⟨broken, some (length, captures)⟩)
      (advance : cursor.advance? length = some behind) (mem : child ∈ rule.children) :
      Makes grammar (.rule rule cursor) (.rule child behind)

end Call

theorem firstAnswer_congr {first second : Rule → Except Fault Trial} {rules : List Rule}
    (h : ∀ rule ∈ rules, first rule = second rule) :
    firstAnswer first rules = firstAnswer second rules := by
  induction rules with
  | nil => rfl
  | cons rule rest ih =>
    have hrest := ih fun other hother => h other (List.mem_cons_of_mem _ hother)
    simp only [firstAnswer, h rule List.mem_cons_self, hrest]

namespace Grammar

variable {grammar : Grammar}

/-- A call asks for nothing but the calls that it makes. -/
theorem unroll_congr {first second : Call → Except Fault Trial} {call : Call}
    (h : ∀ next, call.Makes grammar next → first next = second next) :
    grammar.unroll first call = grammar.unroll second call := by
  cases call with
  | context index cursor =>
    simp only [unroll]
    cases hcontext : grammar.contexts[index]? with
    | none => rfl
    | some context => exact firstAnswer_congr fun rule hrule => h _ (.member hcontext hrule)
  | rule rule cursor =>
    simp only [unroll]
    by_cases hallows : rule.allows cursor = true
    · rw [if_pos hallows, if_pos hallows]
      split
      · next inclusion hkind =>
        cases hcontext : grammar.contexts[inclusion.target]? with
        | none => rfl
        | some context => simp only [h _ (.inclusion hallows hkind hcontext)]
      · split
        · rfl
        · rfl
        · next broken length captures hdetect =>
          split
          · split
            · rfl
            · next behind hadvance =>
              rw [firstAnswer_congr fun child hchild =>
                h _ (.child hallows hdetect hadvance hchild)]
          · rfl
    · rw [if_neg hallows, if_neg hallows]

theorem tryRules_eq_firstAnswer (rules : List Rule) (cursor : Cursor) :
    grammar.tryRules rules cursor =
      firstAnswer (fun rule => grammar.answer (.rule rule cursor)) rules := by
  induction rules with
  | nil => rw [tryRules, firstAnswer]
  | cons rule rest ih =>
    rw [tryRules, firstAnswer, answer]
    cases grammar.tryRule rule cursor with
    | error fault => rfl
    | ok trial =>
      simp only
      split
      · rfl
      · rw [ih]
        cases firstAnswer (fun rule => grammar.answer (.rule rule cursor)) rest with
        | error fault => rfl
        | ok later => rfl

/-- Matching is one level of it whose calls are answered by matching. -/
theorem answer_eq (call : Call) : grammar.answer call = grammar.unroll grammar.answer call := by
  cases call with
  | context index cursor =>
    rw [answer, unroll]
    cases hcontext : grammar.contexts[index]? with
    | none => rfl
    | some context => exact tryRules_eq_firstAnswer context.rules cursor
  | rule rule cursor =>
    rw [answer, unroll]
    by_cases hallows : rule.allows cursor = true
    · rw [if_pos hallows]
      split
      · next inclusion hkind =>
        cases hcontext : grammar.contexts[inclusion.target]? with
        | none => exact tryRule_of_missing hallows hkind hcontext
        | some context =>
          rw [tryRule_inclusion hallows hkind hcontext, answer, hcontext]
      · next hkind =>
        rw [tryRule, if_pos hallows]
        split
        · next inclusion hinclusion => exact absurd hinclusion (hkind inclusion)
        · obtain ⟨⟨broken, found⟩, hdetect, hadvances⟩ := rule.detect_advances cursor
          simp only [hdetect]
          cases found with
          | none => rfl
          | some taken =>
            obtain ⟨length, captures⟩ := taken
            have hpositive : 0 < length := (hadvances length captures rfl).1
            simp only [hpositive, true_and]
            by_cases hextend : rule.children ≠ [] ∧ length < byteLength cursor.rest
            · rw [dif_pos hextend, if_pos hextend]
              split
              · next hnone => simp only [hnone]
              · next behind hbehind =>
                simp only [hbehind, ← tryRules_eq_firstAnswer]
                cases grammar.tryRules rule.children behind with
                | error fault => rfl
                | ok trial => rfl
            · rw [dif_neg hextend, if_neg hextend]
    · rw [if_neg hallows, tryRule_of_not_allows hallows]

end Grammar

/-! ## Heights -/

theorem Graph.rank_le_size (graph : Graph) (v : Nat) : graph.rank v ≤ graph.size := by
  have hcount := List.countP_le_length (p := fun u => (graph.reach v).contains u)
    (l := List.range graph.size)
  rwa [List.length_range] at hcount

namespace Grammar

theorem ruleRank_le (grammar : Grammar) (rule : Rule) :
    grammar.ruleRank rule ≤ grammar.contexts.length + 1 := by
  unfold ruleRank
  split
  · next target htarget =>
    split
    · exact Nat.succ_le_succ (Graph.rank_le_size _ _)
    · exact Nat.zero_le _
  · exact Nat.zero_le _

theorem ruleRank_le_rulesRank {grammar : Grammar} {rule : Rule} {rules : List Rule}
    (h : rule ∈ rules) : grammar.ruleRank rule ≤ grammar.rulesRank rules := by
  induction rules with
  | nil => cases h
  | cons first rest ih =>
    rw [rulesRank]
    rcases List.mem_cons.1 h with rfl | h
    · exact Nat.le_max_left _ _
    · exact Nat.le_trans (ih h) (Nat.le_max_right _ _)

end Grammar

namespace Call

/-- The cursor of a call. -/
def cursor : Call → Cursor
  | .rule _ place | .context _ place => place

/-- The height of a call: the text that is left counts most, then the rank in the graph of
inclusions, and a context is above its rules. -/
def height (grammar : Grammar) : Call → Nat
  | .rule tried place =>
    2 * (place.rest.length * (grammar.contexts.length + 2) + grammar.ruleRank tried)
  | .context index place =>
    2 * (place.rest.length * (grammar.contexts.length + 2) +
      (includeGraph grammar.contexts).rank index) + 1

variable {grammar : Grammar}

/-- The rules that extend a number are tried with less text. -/
theorem Makes.length_rest_lt {rule child : Rule} {cursor behind : Cursor}
    (h : Makes grammar (.rule rule cursor) (.rule child behind)) :
    behind.rest.length < cursor.rest.length := by
  cases h with
  | child allows detect advance mem =>
    obtain ⟨attempt, hattempt, hadvances⟩ := rule.detect_advances cursor
    rw [detect] at hattempt
    cases hattempt
    exact Cursor.length_rest_lt_of_advance? (hadvances _ _ rfl).1 advance

/-- A call is higher than the calls that it makes. -/
theorem Makes.height_lt {call next : Call} (h : call.Makes grammar next) :
    next.height grammar < call.height grammar := by
  cases h with
  | @member index cursor context rule context_eq mem =>
    have hrule : grammar.ruleRank rule ≤ grammar.rulesRank context.rules :=
      Grammar.ruleRank_le_rulesRank mem
    have hrules := Grammar.rulesRank_le_rank context_eq
    simp only [height]
    omega
  | @inclusion rule cursor inclusion context allows kind context_eq =>
    have hsize : inclusion.target < grammar.contexts.length :=
      (List.getElem?_eq_some_iff.1 context_eq).1
    have hrank : grammar.ruleRank rule =
        (includeGraph grammar.contexts).rank inclusion.target + 1 := by
      simp only [Grammar.ruleRank, Rule.includedContext?, kind, hsize, if_true]
    simp only [height, hrank]
    omega
  | @child rule child cursor behind broken length captures allows detect advance mem =>
    have hmakes : Makes grammar (.rule rule cursor) (.rule child behind) :=
      .child allows detect advance mem
    have hless := hmakes.length_rest_lt
    have hrank := grammar.ruleRank_le child
    have hweight : behind.rest.length * (grammar.contexts.length + 2) +
        (grammar.contexts.length + 2) ≤ cursor.rest.length * (grammar.contexts.length + 2) := by
      rw [← Nat.succ_mul]
      exact Nat.mul_le_mul_right _ hless
    simp only [height]
    omega

/-- Every chain of calls comes to an end. -/
theorem wellFounded_makes (grammar : Grammar) :
    WellFounded fun next call : Call => call.Makes grammar next :=
  Subrelation.wf (fun h => h.height_lt) (measure (height grammar)).wf

theorem height_lt (grammar : Grammar) (call : Call) : call.height grammar <
    2 * (call.cursor.rest.length + 1) * (grammar.contexts.length + 2) := by
  rw [Nat.mul_assoc, Nat.add_mul call.cursor.rest.length 1, Nat.one_mul]
  cases call with
  | rule rule cursor =>
    have hrank := grammar.ruleRank_le rule
    simp only [height, Call.cursor]
    omega
  | context index cursor =>
    have hrank : (includeGraph grammar.contexts).rank index ≤ grammar.contexts.length :=
      Graph.rank_le_size _ _
    simp only [height, Call.cursor]
    omega

end Call

/-! ## Contexts -/

/-- A rule enters a context at a cursor: it includes the context, or one of the rules that extend it
enters it behind the text that was taken. -/
inductive Grammar.Enters (grammar : Grammar) : Rule → Cursor → Nat → Cursor → Prop
  | inclusion {rule : Rule} {cursor : Cursor} {target : Nat}
      (makes : Call.Makes grammar (.rule rule cursor) (.context target cursor)) :
      Enters grammar rule cursor target cursor
  | child {rule child : Rule} {cursor middle behind : Cursor} {target : Nat}
      (makes : Call.Makes grammar (.rule rule cursor) (.rule child middle))
      (enters : Enters grammar child middle target behind) :
      Enters grammar rule cursor target behind

namespace Grammar.Enters

variable {grammar : Grammar} {rule : Rule} {cursor behind : Cursor} {target : Nat}

theorem length_rest_le (h : grammar.Enters rule cursor target behind) :
    behind.rest.length ≤ cursor.rest.length := by
  induction h with
  | inclusion makes => exact Nat.le_refl _
  | child makes enters ih => exact Nat.le_trans ih (Nat.le_of_lt makes.length_rest_lt)

/-- A top rule of a context enters another one with the same text only by including it, which leads
down the graph of inclusions.  All other contexts are entered with less text. -/
theorem descends {source : Nat} {context : Context}
    (h : grammar.Enters rule cursor target behind)
    (hcontext : grammar.contexts[source]? = some context) (hrule : rule ∈ context.rules) :
    (behind = cursor ∧ grammar.Includes source target ∧
      (includeGraph grammar.contexts).rank target < (includeGraph grammar.contexts).rank source) ∨
      behind.rest.length < cursor.rest.length := by
  cases h with
  | inclusion makes =>
    cases makes with
    | @inclusion _ _ inclusion included allows kind context_eq =>
      have hincludes : grammar.Includes source inclusion.target :=
        ⟨context, hcontext, rule, hrule, inclusion, kind, rfl⟩
      refine .inl ⟨rfl, hincludes, ?_⟩
      exact Graph.rank_lt_of_edge grammar.acyclic (mem_targets_includeGraph.2 hincludes)
        (List.getElem?_eq_some_iff.1 context_eq).1
  | child makes enters =>
    exact .inr (Nat.lt_of_le_of_lt enters.length_rest_le makes.length_rest_lt)

end Grammar.Enters

/-! ## Ending -/

/-- The rule is in a context of the grammar, at the top or among the rules that extend a number. -/
inductive Grammar.HasRule (grammar : Grammar) : Rule → Prop
  | top {context : Context} {rule : Rule} (context_mem : context ∈ grammar.contexts)
      (mem : rule ∈ context.rules) : HasRule grammar rule
  | child {rule child : Rule} (parent : HasRule grammar rule) (mem : child ∈ rule.children) :
      HasRule grammar child

/-- The call is of a rule or a context of the grammar. -/
def Call.Of (grammar : Grammar) : Call → Prop
  | .rule tried _ => grammar.HasRule tried
  | .context index _ => index < grammar.contexts.length

namespace Grammar

variable {grammar : Grammar}

theorem HasRule.within (hresolved : grammar.Resolved) {rule : Rule} (h : grammar.HasRule rule) :
    rule.Within grammar.contexts.length := by
  induction h with
  | top context_mem mem => exact (hresolved.contexts _ context_mem).rules _ mem
  | child parent mem ih => exact ih.children _ mem

/-- Matching meets no fault with the rules and contexts of a resolved grammar. -/
theorem exists_answer (hresolved : grammar.Resolved) {call : Call} (h : call.Of grammar) :
    ∃ trial, grammar.answer call = .ok trial := by
  cases call with
  | rule rule cursor =>
    have hwithin : rule.Within grammar.contexts.length := HasRule.within hresolved h
    obtain ⟨trial, htrial, -⟩ := tryRules_finds hresolved [rule] cursor (by simpa using hwithin)
    rw [tryRules] at htrial
    rw [answer]
    cases hrule : grammar.tryRule rule cursor with
    | error fault =>
      rw [hrule] at htrial
      cases htrial
    | ok trial => exact ⟨trial, rfl⟩
  | context index cursor =>
    obtain ⟨context, -, hcontext, hwithin⟩ := exists_context hresolved h
    obtain ⟨trial, htrial, -⟩ := exists_tryRules hresolved hwithin cursor
    refine ⟨trial, ?_⟩
    simp only [answer, hcontext, htrial]

/-- Where more levels of matching are unrolled than a call is high, what stands for the levels below
is not asked. -/
theorem iterate_unroll {call : Call} {depth : Nat} (h : call.height grammar < depth)
    (cut : Call → Except Fault Trial) :
    (grammar.unroll^[depth] cut) call = grammar.answer call := by
  induction depth generalizing call with
  | zero => exact absurd h (Nat.not_lt_zero _)
  | succ depth ih =>
    rw [Function.iterate_succ_apply', answer_eq]
    refine unroll_congr fun next hnext => ih ?_
    have hless := hnext.height_lt
    omega

end Grammar

/-- Matching ends in every built grammar, also where rules that extend a number lead back to their
own context.  It asks for the calls that `Makes` lists, of which there is no endless chain: a call
for the rules that extend a number has less text, and a context is entered from another one with
less text, or with the same text through an inclusion among the top rules, which leads down the
graph of inclusions.  For every rule and context of the grammar a number of levels of the recursion,
which grows with the text and the number of contexts, gives an answer on its own. -/
theorem matching_terminates {description : GrammarDef} {grammar : Grammar}
    (hbuild : description.build.result = .ok grammar) :
    (∀ (first second : Call → Except Fault Trial) (call : Call),
      (∀ next, call.Makes grammar next → first next = second next) →
        grammar.unroll first call = grammar.unroll second call) ∧
    (WellFounded fun next call : Call => call.Makes grammar next) ∧
    (∀ rule cursor child behind, Call.Makes grammar (.rule rule cursor) (.rule child behind) →
      behind.rest.length < cursor.rest.length) ∧
    (∀ source context rule cursor target behind, grammar.contexts[source]? = some context →
      rule ∈ context.rules → grammar.Enters rule cursor target behind →
        (behind = cursor ∧ grammar.Includes source target ∧
          (includeGraph grammar.contexts).rank target <
            (includeGraph grammar.contexts).rank source) ∨
          behind.rest.length < cursor.rest.length) ∧
    ∀ call : Call, call.Of grammar → ∃ trial, grammar.answer call = .ok trial ∧
      ∀ cut depth, 2 * (call.cursor.rest.length + 1) * (grammar.contexts.length + 2) ≤ depth →
        (grammar.unroll^[depth] cut) call = .ok trial := by
  have hresolved : grammar.Resolved := Grammar.Built.resolved ⟨description, hbuild⟩
  refine ⟨fun first second call => Grammar.unroll_congr, Call.wellFounded_makes grammar,
    fun rule cursor child behind => Call.Makes.length_rest_lt, ?_, ?_⟩
  · intro source context rule cursor target behind hcontext hrule henters
    exact henters.descends hcontext hrule
  · intro call hcall
    obtain ⟨trial, htrial⟩ := Grammar.exists_answer hresolved hcall
    refine ⟨trial, htrial, ?_⟩
    intro cut depth hdepth
    rw [Grammar.iterate_unroll (Nat.lt_of_lt_of_le (call.height_lt grammar) hdepth) cut, htrial]

/-- A small language in which a number is extended by the rules of the context that it stands in. -/
def chainedNumbers : GrammarDef where
  name := "Chained numbers"
  contexts :=
    [{ name := "Text"
       rules :=
        [{ kind := .int, children := [{ kind := .inclusion "Text" }] }, { kind := .char '_' }] }]

namespace ChainedNumbers

def extension : Rule :=
  RuleKind.toRule (.inclusion ⟨"Text", 0, false⟩)

def number : Rule :=
  { RuleKind.toRule .int with children := [extension] }

def text : Context :=
  .ofRules "Text" [number, RuleKind.toRule (.char (.literal '_'))]

theorem exists_build : ∃ grammar, chainedNumbers.build.result = .ok grammar ∧
    grammar.contexts = [text] := by
  obtain ⟨grammar, hbuild, hcontexts, -⟩ :=
    @GrammarDef.exists_build chainedNumbers [] [text] (by simp [chainedNumbers]) (by decide) rfl
      rfl (by simp [text, Context.ofRules, number, extension, includedContexts,
        Rule.includedContext?, RuleKind.toRule])
  exact ⟨grammar, hbuild, hcontexts⟩

/-- The cursor at the start of the line `1_2`. -/
def start : Cursor :=
  { before := none, rest := ['1', '_', '2'], offset := 0, column := 0, firstNonSpace := true
    data := none, delimiters := .standard }

/-- The number enters its own context behind its digit. -/
theorem exists_enters {grammar : Grammar} (hcontexts : grammar.contexts = [text]) :
    ∃ behind, grammar.Enters number start 0 behind := by
  have hcontext : grammar.contexts[0]? = some text := by
    rw [hcontexts]
    rfl
  have hincludes (cursor : Cursor) : grammar.Enters extension cursor 0 cursor :=
    .inclusion (@Call.Makes.inclusion grammar extension _ ⟨"Text", 0, false⟩ _ rfl rfl hcontext)
  exact ⟨_, .child (.child rfl rfl rfl List.mem_cons_self) (hincludes _)⟩

end ChainedNumbers

/-- The number leads back to its own context, with less text, and matching ends. -/
theorem matching_terminates_chainedNumbers :
    ∃ grammar, chainedNumbers.build.result = .ok grammar ∧
      (∃ behind, grammar.Enters ChainedNumbers.number ChainedNumbers.start 0 behind ∧
        behind.rest.length < ChainedNumbers.start.rest.length) ∧
      ∃ trial, grammar.tryRule ChainedNumbers.number ChainedNumbers.start = .ok trial ∧
        ∀ cut, (grammar.unroll^[24] cut) (.rule ChainedNumbers.number ChainedNumbers.start) =
          .ok trial := by
  obtain ⟨grammar, hbuild, hcontexts⟩ := ChainedNumbers.exists_build
  obtain ⟨-, -, -, hdescends, hends⟩ := matching_terminates hbuild
  obtain ⟨behind, henters⟩ := ChainedNumbers.exists_enters hcontexts
  have hcontext : grammar.contexts[0]? = some ChainedNumbers.text := by
    rw [hcontexts]
    rfl
  have hnumber : ChainedNumbers.number ∈ ChainedNumbers.text.rules := List.mem_cons_self
  have hmember : ChainedNumbers.text ∈ grammar.contexts := List.mem_of_getElem? hcontext
  obtain ⟨trial, htrial, hcut⟩ :=
    hends (.rule ChainedNumbers.number ChainedNumbers.start) (.top hmember hnumber)
  refine ⟨grammar, hbuild, ⟨behind, henters, ?_⟩, trial, htrial, fun cut => hcut cut 24 ?_⟩
  · rcases hdescends 0 _ _ _ 0 behind hcontext hnumber henters with ⟨-, -, hless⟩ | hless
    · exact absurd hless (Nat.lt_irrefl _)
    · exact hless
  · rw [hcontexts]
    decide

end Highlight
