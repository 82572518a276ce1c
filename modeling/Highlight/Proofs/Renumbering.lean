import Highlight.Proofs.Enclosing
import Highlight.Proofs.Incremental
import Highlight.Proofs.MatchingCalls

/-!
# Renumbered grammars

Contexts are known by their places, and a place means nothing but the context that stands there.  So
a grammar can be renumbered: its contexts are put at other places, and every reference is changed
with them.  A document is then highlighted as before, with the contexts of its stacks renumbered.

There are four groups.

* Renumbering.  The parts of a grammar that hold places of contexts, with each place `i` replaced by
  `f i`.  `Grammar.Renumbers` says that another grammar has all contexts of a grammar, renumbered, at
  their new places.
* Matching.  What a rule takes by itself does not depend on places (`Rule.detect_renumber`), so
  trying rules finds the same in both grammars (`Renumbers.tryRules_renumber`).
* Stacks.  A switch does on a renumbered stack what it did before (`Switch.apply_renumber`).  Where
  `f` is injective, two stacks are equal exactly when they were before (`Stack.renumber_inj`), so
  that the question whether a switch changes the stack has one answer.
* Lines.  A step, a run, the end of a line and a document, each from the lemma before it.
-/

namespace Highlight

/-! ## Renumbering -/

section

variable (f : Nat → Nat)

/-- The target with its context renumbered. -/
def Target.renumber (target : Target) : Target :=
  { target with context := f target.context }

/-- The switch with its target renumbered. -/
def Switch.renumber (switch : Switch) : Switch :=
  { switch with target := switch.target.map (Target.renumber f) }

/-- The kind of a rule with the context that it includes renumbered. -/
def RuleKind.renumber : RuleKind → RuleKind
  | .inclusion included => .inclusion { included with target := f included.target }
  | kind => kind

/-- The rule with all contexts renumbered that it names, and that the rules which extend it name. -/
def Rule.renumber : Rule → Rule
  | ⟨kind, attributeName, style, switch, lookAhead, firstNonSpace, column, dynamic, children⟩ =>
    { kind := kind.renumber f, attributeName, style, switch := switch.renumber f, lookAhead
      firstNonSpace, column, dynamic, children := children.map Rule.renumber }

/-- The context with all contexts renumbered that it names. -/
def Context.renumber (context : Context) : Context :=
  { context with
    rules := context.rules.map (Rule.renumber f)
    lineEnd := context.lineEnd.renumber f
    lineBegin := context.lineBegin.renumber f
    fallthrough := context.fallthrough.renumber f }

/-- The match with its switch renumbered. -/
def RuleMatch.renumber (found : RuleMatch) : RuleMatch :=
  { found with switch := found.switch.map (Switch.renumber f) }

/-- The trial with its match renumbered. -/
def Trial.renumber (trial : Trial) : Trial :=
  { trial with found := trial.found.map (RuleMatch.renumber f) }

/-- The frame with its context renumbered. -/
def Frame.renumber (frame : Frame) : Frame :=
  { frame with context := f frame.context }

/-- The stack with the contexts of all frames renumbered. -/
def Stack.renumber (stack : Stack) : Stack :=
  { top := stack.top.renumber f
    below := stack.below.map (Frame.renumber f)
    depth := stack.depth
    depth_eq := by rw [stack.depth_eq, List.length_map] }

/-- What is kept of a line, with the stack that it ends with renumbered. -/
def LineEntry.renumber (entry : LineEntry) : LineEntry :=
  { entry with endStack := entry.endStack.renumber f }

end

/-- The other grammar has the contexts of a grammar at their new places, and the first one is still
the one that documents start in. -/
structure Grammar.Renumbers (f : Nat → Nat) (grammar other : Grammar) : Prop where
  injective : Function.Injective f
  first : f Grammar.defaultContext = Grammar.defaultContext
  contexts : ∀ index context, grammar.contexts[index]? = some context →
    other.contexts[f index]? = some (context.renumber f)
  delimiters : other.delimiters = grammar.delimiters

/-! ## Matching -/

section

variable (f : Nat → Nat)

@[simp] theorem Switch.isStay_renumber (switch : Switch) :
    (switch.renumber f).isStay = switch.isStay := by
  simp [isStay, renumber]

@[simp] theorem Switch.pushesDynamic_renumber (switch : Switch) :
    (switch.renumber f).pushesDynamic = switch.pushesDynamic := by
  simp only [pushesDynamic, renumber]
  cases switch.target with
  | none => rfl
  | some target => rfl

namespace Rule

variable (rule : Rule)

theorem renumber_eq : rule.renumber f =
    { rule with
      kind := rule.kind.renumber f
      switch := rule.switch.renumber f
      children := rule.children.map (renumber f) } := by
  cases rule
  rw [renumber]

@[simp] theorem allows_renumber (cursor : Cursor) :
    (rule.renumber f).allows cursor = rule.allows cursor := by
  rw [renumber_eq]
  rfl

/-- What a rule takes by itself does not depend on the places of contexts. -/
@[simp] theorem detect_renumber (cursor : Cursor) :
    (rule.renumber f).detect cursor = rule.detect cursor := by
  simp only [detect, length?, renumber_eq]
  cases rule.kind with
  | regex regex => simp only [RuleKind.renumber, Switch.pushesDynamic_renumber]
  | _ => rfl

theorem toMatch_renumber (length : Nat) (captures : Option Captures) :
    (rule.renumber f).toMatch length captures = (rule.toMatch length captures).renumber f := by
  have hcontinue : (rule.renumber f).isLineContinue = rule.isLineContinue := by
    simp only [isLineContinue, renumber_eq]
    cases rule.kind with
    | _ => rfl
  simp only [toMatch, RuleMatch.renumber, hcontinue]
  simp only [renumber_eq, Switch.isStay_renumber]
  cases rule.switch.isStay with
  | false => rfl
  | true => rfl

end Rule

end

/-- A style that is lent to a match stays when its switch is renumbered. -/
theorem Trial.renumber_ite (f : Nat → Nat) (trial : Trial) (lends : Bool) (style : Style) :
    (if lends then trial.withStyle style else trial).renumber f =
      if lends then (trial.renumber f).withStyle style else trial.renumber f := by
  cases lends with
  | false => rfl
  | true => simp [withStyle, renumber, RuleMatch.renumber, Function.comp_def]

/-- The call of the renumbered rule or context. -/
def Call.renumber (f : Nat → Nat) : Call → Call
  | .rule tried cursor => .rule (tried.renumber f) cursor
  | .context index cursor => .context (f index) cursor

/-- What is made of a renumbered trial is what was made of the trial, renumbered. -/
theorem Trial.map_renumber {f : Nat → Nat} {first second : Except Fault Trial}
    {change changeOther : Trial → Trial} {trial : Trial}
    (hsecond : ∀ found, first = .ok found → second = .ok (found.renumber f))
    (hchange : ∀ found, changeOther (found.renumber f) = (change found).renumber f)
    (htrial : first.map change = .ok trial) :
    second.map changeOther = .ok (trial.renumber f) := by
  cases first with
  | error fault => cases htrial
  | ok found =>
    cases htrial
    rw [hsecond found rfl]
    exact congrArg Except.ok (hchange found)

theorem firstAnswer_renumber {f : Nat → Nat} {first second : Rule → Except Fault Trial}
    {rules : List Rule} {trial : Trial}
    (h : ∀ rule ∈ rules, ∀ found, first rule = .ok found →
      second (rule.renumber f) = .ok (found.renumber f))
    (htrial : firstAnswer first rules = .ok trial) :
    firstAnswer second (rules.map (Rule.renumber f)) = .ok (trial.renumber f) := by
  induction rules generalizing trial with
  | nil =>
    cases htrial
    rfl
  | cons rule rest ih =>
    have hrest : ∀ later, firstAnswer first rest = .ok later →
        firstAnswer second (rest.map (Rule.renumber f)) = .ok (later.renumber f) :=
      fun _ => ih fun other hother => h other (List.mem_cons_of_mem _ hother)
    simp only [firstAnswer] at htrial
    split at htrial
    · cases htrial
    · next found hfound =>
      have hrenumbered := h rule List.mem_cons_self found hfound
      have hsome : (found.renumber f).found.isSome = found.found.isSome := Option.isSome_map
      simp only [List.map_cons, firstAnswer, hrenumbered, hsome]
      split at htrial
      · next hhit =>
        cases htrial
        rw [if_pos hhit]
      · next hmiss =>
        rw [if_neg hmiss]
        exact Trial.map_renumber hrest (fun _ => rfl) htrial

/-- A rule that includes no context is one that includes none when it is renumbered. -/
theorem Rule.kind_renumber_ne {f : Nat → Nat} {rule : Rule}
    (h : ∀ inclusion, rule.kind ≠ .inclusion inclusion) (inclusion : Inclusion) :
    (rule.renumber f).kind ≠ .inclusion inclusion := by
  rw [renumber_eq]
  cases hkind : rule.kind with
  | inclusion other => exact absurd hkind (h other)
  | _ => simp [RuleKind.renumber]

namespace Grammar.Renumbers

variable {f : Nat → Nat} {grammar other : Grammar}

section

variable {first second : Call → Except Fault Trial} {rule : Rule} {cursor : Cursor} {trial : Trial}
  (h : grammar.Renumbers f other)
  (hcalls : ∀ next, Call.Makes grammar (.rule rule cursor) next → ∀ found,
    first next = .ok found → second (next.renumber f) = .ok (found.renumber f))
  (hallows : rule.allows cursor = true)
  (htrial : grammar.unroll first (.rule rule cursor) = .ok trial)

include h hcalls hallows htrial

theorem unroll_inclusion_renumber {inclusion : Inclusion}
    (hkind : rule.kind = .inclusion inclusion) :
    other.unroll second (.rule (rule.renumber f) cursor) = .ok (trial.renumber f) := by
  have hrenumbered : (rule.renumber f).kind =
      .inclusion { inclusion with target := f inclusion.target } := by
    rw [Rule.renumber_eq, hkind]
    rfl
  simp only [unroll, hallows, if_true, hkind] at htrial
  split at htrial
  · cases htrial
  · next context hcontext =>
    simp only [unroll, Rule.allows_renumber, hallows, if_true, hrenumbered,
      h.contexts _ _ hcontext]
    exact Trial.map_renumber (hcalls _ (.inclusion hallows hkind hcontext))
      (fun found => (Trial.renumber_ite f found _ _).symm) htrial

omit h in
theorem unroll_detect_renumber (hkind : ∀ inclusion, rule.kind ≠ .inclusion inclusion) :
    other.unroll second (.rule (rule.renumber f) cursor) = .ok (trial.renumber f) := by
  have hchildren : (rule.renumber f).children = rule.children.map (Rule.renumber f) := by
    rw [Rule.renumber_eq]
  have hempty : rule.children.map (Rule.renumber f) ≠ [] ↔ rule.children ≠ [] := by
    rw [ne_eq, List.map_eq_nil_iff]
  simp only [unroll, Rule.allows_renumber, hallows, if_true] at htrial ⊢
  split
  · next inclusion hinclusion => exact absurd hinclusion (Rule.kind_renumber_ne hkind inclusion)
  rw [Rule.detect_renumber]
  split at htrial
  · cases htrial
  · cases htrial
    rfl
  · next broken length captures hdetect =>
    simp only [hchildren, hempty]
    split at htrial
    · next hextend =>
      rw [if_pos hextend]
      split at htrial
      · cases htrial
      · next behind hadvance =>
        have hextension : ∀ found,
            firstAnswer (fun child => first (.rule child behind)) rule.children = .ok found →
            firstAnswer (fun child => second (.rule child behind))
              (rule.children.map (Rule.renumber f)) = .ok (found.renumber f) :=
          fun found => firstAnswer_renumber fun child hchild =>
            hcalls _ (.child hallows hdetect hadvance hchild)
        refine Trial.map_renumber hextension ?_ htrial
        intro found
        rw [Rule.toMatch_renumber]
        simp only [Trial.renumber, Option.map_some, Option.map_map]
        rfl
    · next hextend =>
      rw [if_neg hextend]
      cases htrial
      rw [Rule.toMatch_renumber]
      rfl

end

/-- One level of matching does the same in both grammars, if the calls that it makes do. -/
theorem unroll_renumber (h : grammar.Renumbers f other)
    {first second : Call → Except Fault Trial} {call : Call} {trial : Trial}
    (hcalls : ∀ next, call.Makes grammar next → ∀ found, first next = .ok found →
      second (next.renumber f) = .ok (found.renumber f))
    (htrial : grammar.unroll first call = .ok trial) :
    other.unroll second (call.renumber f) = .ok (trial.renumber f) := by
  cases call with
  | context index cursor =>
    simp only [unroll, Call.renumber] at htrial ⊢
    split at htrial
    · cases htrial
    · next context hcontext =>
      rw [h.contexts index context hcontext]
      exact firstAnswer_renumber (fun rule hrule => hcalls _ (.member hcontext hrule)) htrial
  | rule rule cursor =>
    by_cases hallows : rule.allows cursor = true
    · by_cases hinclusion : ∃ inclusion, rule.kind = .inclusion inclusion
      · obtain ⟨inclusion, hkind⟩ := hinclusion
        exact h.unroll_inclusion_renumber hcalls hallows htrial hkind
      · exact unroll_detect_renumber hcalls hallows htrial (not_exists.1 hinclusion)
    · simp only [unroll, Call.renumber, Rule.allows_renumber, if_neg hallows] at htrial ⊢
      cases htrial
      rfl

/-- Matching finds the same in both grammars. -/
theorem answer_renumber (h : grammar.Renumbers f other) (call : Call) {trial : Trial}
    (htrial : grammar.answer call = .ok trial) :
    other.answer (call.renumber f) = .ok (trial.renumber f) := by
  induction call using (Call.wellFounded_makes grammar).induction generalizing trial with
  | h call ih =>
    rw [answer_eq] at htrial ⊢
    exact h.unroll_renumber (fun next hnext found => ih next hnext) htrial

/-- Trying the rules of a context finds the same in both grammars. -/
theorem tryRules_renumber (h : grammar.Renumbers f other) {index : Nat} {context : Context}
    (hcontext : grammar.context index = .ok context) {cursor : Cursor} {trial : Trial}
    (htrial : grammar.tryRules context.rules cursor = .ok trial) :
    other.tryRules (context.renumber f).rules cursor = .ok (trial.renumber f) := by
  have hget := getElem?_of_context hcontext
  have hanswer : grammar.answer (.context index cursor) = .ok trial := by
    simp only [answer, hget, htrial]
  have hother := h.answer_renumber _ hanswer
  simp only [Call.renumber, answer, h.contexts index context hget] at hother
  exact hother

theorem context_renumber (h : grammar.Renumbers f other) {index : Nat} {context : Context}
    (hcontext : grammar.context index = .ok context) :
    other.context (f index) = .ok (context.renumber f) := by
  rw [Grammar.context, h.contexts index context (getElem?_of_context hcontext)]
  rfl

end Grammar.Renumbers

/-! ## Stacks -/

namespace Stack

variable (f : Nat → Nat)

@[simp] theorem frames_renumber (stack : Stack) :
    (stack.renumber f).frames = stack.frames.map (Frame.renumber f) := by
  simp [frames, renumber]

theorem renumber_inj {f : Nat → Nat} (hf : Function.Injective f) {first second : Stack} :
    first.renumber f = second.renumber f ↔ first = second := by
  constructor
  · intro h
    have hframe : Function.Injective (Frame.renumber f) := by
      rintro ⟨context, data⟩ ⟨other, otherData⟩ heq
      simp only [Frame.renumber, Frame.mk.injEq] at heq
      rw [hf heq.1, heq.2]
    have hframes := congrArg frames h
    rw [frames_renumber, frames_renumber] at hframes
    exact ext_frames (hframe.list_map hframes)
  · rintro rfl
    rfl

theorem push_renumber (stack : Stack) (context : Nat) (data : Option Captures) :
    (stack.renumber f).push (f context) data = (stack.push context data).renumber f := by
  apply ext_frames
  simp [Frame.renumber]

theorem popMany_renumber (stack : Stack) (count : Nat) :
    (stack.renumber f).popMany count = (stack.popMany count).renumber f := by
  have hdepth : (stack.renumber f).depth = stack.depth := rfl
  apply ext_frames
  rw [frames_renumber, frames_popMany, frames_popMany, frames_renumber, hdepth, List.map_take]

end Stack

namespace Switch

variable (f : Nat → Nat) (switch : Switch) (stack : Stack)

/-- A renumbered switch does on a renumbered stack what it did before. -/
theorem apply_renumber (data : Option Captures) :
    (switch.renumber f).apply (stack.renumber f) data = (switch.apply stack data).renumber f := by
  simp only [apply, renumber, Stack.popMany_renumber]
  cases switch.target with
  | none => rfl
  | some target => exact Stack.push_renumber f _ _ _

theorem notices_renumber :
    (switch.renumber f).notices (stack.renumber f) = switch.notices stack := rfl

end Switch

namespace RuleMatch

variable (f : Nat → Nat) (found : RuleMatch) (stack : Stack)

theorem nextStack_renumber :
    (found.renumber f).nextStack (stack.renumber f) = (found.nextStack stack).renumber f := by
  simp only [nextStack, renumber]
  cases found.switch with
  | none => rfl
  | some switch => exact Switch.apply_renumber f switch stack found.captures

theorem notices_renumber :
    (found.renumber f).notices (stack.renumber f) = found.notices stack := by
  simp only [notices, renumber]
  cases found.switch with
  | none => rfl
  | some switch => rfl

end RuleMatch

/-! ## Lines -/

/-- The move of a scan with a renumbered stack. -/
def Move.renumber (f : Nat → Nat) : Move → Move
  | .consume found stack => .consume (found.renumber f) (stack.renumber f)
  | .divert stack => .divert (stack.renumber f)
  | .pass => .pass

namespace Scan

/-- The scan with its stack renumbered. -/
def renumber (f : Nat → Nat) (scan : Scan) : Scan :=
  { scan with stack := scan.stack.renumber f }

variable {f : Nat → Nat} {scan next : Scan} {context : Context}

theorem fallThrough_renumber (hf : Function.Injective f) :
    (scan.renumber f).fallThrough (context.renumber f) =
      ((scan.fallThrough context).1.renumber f, (scan.fallThrough context).2) := by
  simp only [fallThrough, renumber, Context.renumber, Switch.isStay_renumber,
    Switch.apply_renumber, Switch.notices_renumber, Stack.renumber_inj hf]
  split
  · split
    · rfl
    · split
      · rfl
      · rfl
  · rfl

theorem chooseMove_renumber (hf : Function.Injective f) (found : Option RuleMatch) :
    (scan.renumber f).chooseMove (context.renumber f) (found.map (RuleMatch.renumber f)) =
      ((scan.chooseMove context found).1.renumber f, (scan.chooseMove context found).2) := by
  cases found with
  | none => exact fallThrough_renumber hf
  | some matched =>
    have hnext : (matched.renumber f).nextStack (scan.renumber f).stack =
        (matched.nextStack scan.stack).renumber f := RuleMatch.nextStack_renumber f matched _
    have hnotices : (matched.renumber f).notices (scan.renumber f).stack =
        matched.notices scan.stack := RuleMatch.notices_renumber f matched _
    have hstack : (scan.renumber f).stack = scan.stack.renumber f := rfl
    have hcount : (scan.renumber f).zeroWidth = scan.zeroWidth := rfl
    have hlength : (matched.renumber f).length = matched.length := rfl
    have hswitch : (matched.renumber f).switch.isSome = matched.switch.isSome :=
      Option.isSome_map
    simp only [Option.map_some, chooseMove, hnext, hnotices, hcount, hlength, hswitch,
      fallThrough_renumber hf]
    rw [hstack]
    simp only [ne_eq, Stack.renumber_inj hf]
    split
    · rfl
    · split
      · rfl
      · rfl

theorem perform_renumber {move : Move} (h : scan.perform context move = .ok next) :
    (scan.renumber f).perform (context.renumber f) (move.renumber f) =
      .ok (next.renumber f) := by
  cases move with
  | consume found stack =>
    simp only [perform, Move.renumber, renumber, RuleMatch.renumber] at h ⊢
    split at h
    · cases h
    · cases h
      rfl
  | divert stack =>
    cases h
    rfl
  | pass =>
    simp only [perform, Move.renumber, renumber] at h ⊢
    split at h
    · cases h
      rfl
    · cases h
      rfl

variable {grammar other : Grammar} {leading : Nat}

/-- A step with a renumbered stack in the other grammar. -/
theorem step_renumber (hrenumbers : grammar.Renumbers f other)
    (h : scan.step grammar leading = .ok next) :
    (scan.renumber f).step other leading = .ok (next.renumber f) := by
  obtain ⟨context, trial, moved, hcontext, htrial, hmoved, rfl⟩ := exists_of_step h
  have hcontextOther : other.context (scan.renumber f).stack.current = .ok (context.renumber f) :=
    hrenumbers.context_renumber hcontext
  have hcursor : (scan.renumber f).cursor other leading = scan.cursor grammar leading := by
    simp only [cursor, hrenumbers.delimiters]
    rfl
  have htrialOther := hrenumbers.tryRules_renumber hcontext htrial
  rw [← hcursor] at htrialOther
  have hfound : (trial.renumber f).found = trial.found.map (RuleMatch.renumber f) := rfl
  simp only [step, hcontextOther, htrialOther, hfound, chooseMove_renumber hrenumbers.injective,
    perform_renumber hmoved, bind, Except.bind]
  rfl

/-- A run with a renumbered stack in the other grammar. -/
theorem run_renumber (hrenumbers : grammar.Renumbers f other) {last : Scan}
    (h : scan.run grammar leading = .ok last) :
    (scan.renumber f).run other leading = .ok (last.renumber f) := by
  fun_induction run grammar leading scan with
  | case1 scan hrest =>
    cases h
    exact run_of_rest_eq_nil hrest
  | case2 scan hrest fault hfault => cases h
  | case3 scan hrest next hnext ih =>
    have hreaches : Reaches other leading 1 (scan.renumber f) (next.renumber f) :=
      .head hrest (step_renumber hrenumbers hnext) (.refl _)
    rw [hreaches.run_eq]
    exact ih h

end Scan

namespace Grammar.Renumbers

variable {f : Nat → Nat} {grammar other : Grammar} (h : grammar.Renumbers f other)

include h

theorem settleLineEnd_renumber {limit : Nat} {stack settled : Stack} {notices : List Notice}
    (hsettled : settleLineEnd grammar limit stack = .ok (settled, notices)) :
    settleLineEnd other limit (stack.renumber f) = .ok (settled.renumber f, notices) := by
  induction limit generalizing stack notices with
  | zero =>
    obtain ⟨context, hcontext, rfl, rfl⟩ := settleLineEnd_zero_eq_ok_iff.1 hsettled
    exact settleLineEnd_zero_eq_ok_iff.2 ⟨_, h.context_renumber hcontext, rfl, rfl⟩
  | succ limit ih =>
    obtain ⟨context, hcontext, hswitch⟩ := settleLineEnd_succ_eq_ok_iff.1 hsettled
    refine settleLineEnd_succ_eq_ok_iff.2 ⟨_, h.context_renumber hcontext, ?_⟩
    simp only [Context.renumber, Switch.apply_renumber, Switch.notices_renumber,
      Stack.renumber_inj h.injective]
    split at hswitch
    · next hsame =>
      obtain ⟨rfl, rfl⟩ := hswitch
      rw [if_pos hsame]
      exact ⟨rfl, rfl⟩
    · next hchanges =>
      obtain ⟨more, hlater, rfl⟩ := hswitch
      rw [if_neg hchanges]
      exact ⟨more, ih hlater, rfl⟩

theorem nextLineStack_renumber {stack next : Stack} {notices : List Notice}
    (hnext : nextLineStack grammar stack = .ok (next, notices)) :
    nextLineStack other (stack.renumber f) = .ok (next.renumber f, notices) := by
  obtain ⟨settled, first, context, hsettled, hcontext, rfl, rfl⟩ := nextLineStack_eq_ok_iff.1 hnext
  refine nextLineStack_eq_ok_iff.2 ⟨_, first, _, h.settleLineEnd_renumber hsettled,
    h.context_renumber hcontext, ?_, ?_⟩
  · exact (Switch.apply_renumber f _ _ _).symm
  · rw [Context.renumber, Switch.notices_renumber]

/-- A line is highlighted in the other grammar as it is in the first. -/
theorem highlightLine_renumber {line : List Char} {stack : Stack} {result : Highlighted}
    (hline : highlightLine grammar line stack = .ok result) :
    highlightLine other line (stack.renumber f) =
      .ok { result with endStack := result.endStack.renumber f } := by
  have hstart : Scan.start line (stack.renumber f) = (Scan.start line stack).renumber f := rfl
  simp only [highlightLine, bind, Except.bind] at hline ⊢
  rw [hstart]
  split at hline
  · cases hline
  · next last hlast =>
    split at hline
    · cases hline
    · next context hcontext =>
      have hcontextOther : other.context (last.renumber f).stack.current =
          .ok (context.renumber f) := h.context_renumber hcontext
      have hcontinue : (last.renumber f).lineContinue = last.lineContinue := rfl
      simp only [Scan.run_renumber h hlast, hcontextOther, hcontinue]
      split at hline
      · next hcontinued =>
        cases hline
        rw [if_pos hcontinued]
        rfl
      · next hended =>
        rw [if_neg hended]
        split at hline
        · cases hline
        · next next hnext =>
          cases hline
          have hstack : (last.renumber f).stack = last.stack.renumber f := rfl
          simp only [hstack, h.nextLineStack_renumber hnext]
          rfl

/-- A document is highlighted in the other grammar as it is in the first. -/
theorem highlightDocument_renumber {start : Stack} {lines : List (List Char)}
    {entries : List LineEntry} (hentries : highlightDocument grammar start lines = .ok entries) :
    highlightDocument other (start.renumber f) lines =
      .ok (entries.map (LineEntry.renumber f)) := by
  induction lines generalizing start entries with
  | nil =>
    cases hentries
    rfl
  | cons line lines ih =>
    simp only [highlightDocument, bind, Except.bind] at hentries ⊢
    split at hentries
    · cases hentries
    · next result hresult =>
      split at hentries
      · cases hentries
      · next later hlater =>
        cases hentries
        simp only [h.highlightLine_renumber hresult, ih hlater]
        rfl

end Grammar.Renumbers

end Highlight
