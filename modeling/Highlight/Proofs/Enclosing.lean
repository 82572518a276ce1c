import Highlight.Proofs.Scanning

/-!
# Enclosing frames

Highlighting looks at the top of the stack only, and a switch pops no deeper than it says.  So what
lies under the frames that a line starts with has no part in the line, as long as no switch asks for
more pops than those frames allow.

There are three groups.

* Stacks on other frames.  `Stack.above` puts frames under a stack.  A switch that pops no more than
  the stack allows does on both stacks the same (`Switch.apply_above`), and two stacks on the same
  frames are equal exactly when they were before (`Stack.above_inj`), so that the question whether a
  switch changes the stack has one answer.
* Notices.  A switch that pops too much leaves a notice behind.  `Unclamped` says that there is none,
  and notices are never taken back (`Scan.suffix_of_run`), so it holds all along a line if it holds
  at the end.
* Lines.  A step, a run and the end of a line on enclosing frames, each from the lemma before it.
-/

namespace Highlight

/-! ## Stacks on other frames -/

namespace Stack

/-- The stack with some frames under all of its own, the base of the new stack first. -/
def above (stack : Stack) (enclosing : List Frame) : Stack :=
  { top := stack.top
    below := stack.below ++ enclosing.reverse
    depth := stack.depth + enclosing.length
    depth_eq := by
      rw [stack.depth_eq, List.length_append, List.length_reverse]
      omega }

variable (enclosing : List Frame)

@[simp] theorem frames_above (stack : Stack) :
    (stack.above enclosing).frames = enclosing ++ stack.frames := by
  simp [above, frames]

@[simp] theorem current_above (stack : Stack) : (stack.above enclosing).current = stack.current :=
  rfl

@[simp] theorem currentData_above (stack : Stack) :
    (stack.above enclosing).currentData = stack.currentData := rfl

theorem above_inj {first second : Stack} :
    first.above enclosing = second.above enclosing ↔ first = second := by
  constructor
  · intro h
    apply ext_frames
    have hframes := congrArg frames h
    rwa [frames_above, frames_above, List.append_cancel_left_eq] at hframes
  · rintro rfl
    rfl

theorem push_above (stack : Stack) (context : Nat) (data : Option Captures) :
    (stack.above enclosing).push context data = (stack.push context data).above enclosing := by
  apply ext_frames
  simp

/-- What is popped off a stack comes from above the enclosing frames. -/
theorem popMany_above {stack : Stack} {count : Nat} (h : stack.popsTooMany count = false) :
    (stack.above enclosing).popMany count = (stack.popMany count).above enclosing := by
  have hpos := stack.depth_eq
  have hcount : count ≤ stack.depth - 1 := by simpa [popsTooMany] using h
  have hdepth : (stack.above enclosing).depth = stack.depth + enclosing.length := rfl
  apply ext_frames
  rw [frames_above, frames_popMany, frames_popMany, frames_above, hdepth, List.take_append,
    List.take_of_length_le (by omega)]
  congr 2
  omega

theorem popsTooMany_above {stack : Stack} {count : Nat} (h : stack.popsTooMany count = false) :
    (stack.above enclosing).popsTooMany count = false := by
  have hcount : count ≤ stack.depth - 1 := by simpa [popsTooMany] using h
  have hdepth : (stack.above enclosing).depth = stack.depth + enclosing.length := rfl
  simp only [popsTooMany, hdepth, decide_eq_false_iff_not]
  omega

end Stack

/-! ## Notices -/

/-- None of the notices says that a switch popped too much. -/
def Unclamped (notices : List Notice) : Prop :=
  ∀ depth pops, .popTooBig depth pops ∉ notices

theorem unclamped_append {first second : List Notice} :
    Unclamped (first ++ second) ↔ Unclamped first ∧ Unclamped second := by
  simp only [Unclamped, List.mem_append, not_or, forall_and]

theorem unclamped_reverse {notices : List Notice} :
    Unclamped notices.reverse ↔ Unclamped notices := by
  simp only [Unclamped, List.mem_reverse]

namespace Switch

variable (enclosing : List Frame) {switch : Switch} {stack : Stack}

theorem popsTooMany_eq_false (h : Unclamped (switch.notices stack)) :
    stack.popsTooMany switch.pops = false := by
  rw [Bool.eq_false_iff]
  intro hpops
  simp only [notices, hpops, if_true] at h
  exact h _ _ List.mem_cons_self

/-- A switch that does not pop too much does the same above enclosing frames. -/
theorem apply_above (h : Unclamped (switch.notices stack)) (data : Option Captures) :
    switch.apply (stack.above enclosing) data = (switch.apply stack data).above enclosing := by
  have hpops := popsTooMany_eq_false h
  unfold apply
  rw [Stack.popMany_above enclosing hpops]
  split
  · rfl
  · rw [Stack.push_above]

theorem notices_above (h : Unclamped (switch.notices stack)) :
    switch.notices (stack.above enclosing) = switch.notices stack := by
  have hpops := popsTooMany_eq_false h
  have hpopsAbove := Stack.popsTooMany_above enclosing hpops
  simp only [notices, hpops, hpopsAbove, Bool.false_eq_true, if_false]

end Switch

namespace RuleMatch

variable (enclosing : List Frame) {found : RuleMatch} {stack : Stack}

theorem nextStack_above (h : Unclamped (found.notices stack)) :
    found.nextStack (stack.above enclosing) = (found.nextStack stack).above enclosing := by
  unfold nextStack
  unfold notices at h
  split
  · next switch hswitch =>
    rw [hswitch] at h
    exact Switch.apply_above enclosing h found.captures
  · rfl

theorem notices_above (h : Unclamped (found.notices stack)) :
    found.notices (stack.above enclosing) = found.notices stack := by
  unfold notices at h ⊢
  split
  · next switch hswitch =>
    rw [hswitch] at h
    exact Switch.notices_above enclosing h
  · rfl

end RuleMatch

/-! ## Lines -/

/-- The move of a scan above enclosing frames. -/
def Move.above (enclosing : List Frame) : Move → Move
  | .consume found stack => .consume found (stack.above enclosing)
  | .divert stack => .divert (stack.above enclosing)
  | .pass => .pass

namespace Scan

/-- The scan with enclosing frames under its stack. -/
def above (scan : Scan) (enclosing : List Frame) : Scan :=
  { scan with stack := scan.stack.above enclosing }

variable (enclosing : List Frame) {scan next : Scan}

theorem fallThrough_above {context : Context}
    (h : Unclamped (scan.fallThrough context).2) :
    (scan.above enclosing).fallThrough context =
      ((scan.fallThrough context).1.above enclosing, (scan.fallThrough context).2) := by
  unfold fallThrough at h ⊢
  by_cases hlimit : scan.zeroWidth < zeroWidthLimit
  · have hlimitAbove : (scan.above enclosing).zeroWidth < zeroWidthLimit := hlimit
    rw [if_pos hlimit] at h ⊢
    rw [if_pos hlimitAbove]
    split at h
    · next hstay =>
      rw [if_pos hstay, if_pos hstay]
      rfl
    · next hmoves =>
      rw [if_neg hmoves, if_neg hmoves]
      have hnext : context.fallthrough.apply (scan.above enclosing).stack none =
          (context.fallthrough.apply scan.stack none).above enclosing :=
        Switch.apply_above enclosing h none
      have hnotices : context.fallthrough.notices (scan.above enclosing).stack =
          context.fallthrough.notices scan.stack := Switch.notices_above enclosing h
      have hstack : (scan.above enclosing).stack = scan.stack.above enclosing := rfl
      simp only [hnext, hnotices]
      rw [hstack]
      simp only [Stack.above_inj]
      split
      · rfl
      · rfl
  · have hlimitAbove : ¬(scan.above enclosing).zeroWidth < zeroWidthLimit := hlimit
    rw [if_neg hlimit, if_neg hlimitAbove]
    rfl

theorem chooseMove_above {context : Context} {found : Option RuleMatch}
    (h : Unclamped (scan.chooseMove context found).2) :
    (scan.above enclosing).chooseMove context found =
      ((scan.chooseMove context found).1.above enclosing, (scan.chooseMove context found).2) := by
  cases found with
  | none => exact fallThrough_above enclosing h
  | some matched =>
    have hmatched : Unclamped (matched.notices scan.stack) := by
      simp only [chooseMove] at h
      split at h
      · exact h
      · split at h
        · exact h
        · exact (unclamped_append.1 h).1
    have hnext : matched.nextStack (scan.above enclosing).stack =
        (matched.nextStack scan.stack).above enclosing := RuleMatch.nextStack_above enclosing hmatched
    have hnotices : matched.notices (scan.above enclosing).stack = matched.notices scan.stack :=
      RuleMatch.notices_above enclosing hmatched
    have hstack : (scan.above enclosing).stack = scan.stack.above enclosing := rfl
    have hcount : (scan.above enclosing).zeroWidth = scan.zeroWidth := rfl
    simp only [chooseMove, hnext, hnotices, hcount] at h ⊢
    rw [hstack]
    simp only [ne_eq, Stack.above_inj]
    split
    · rfl
    · next hlength =>
      rw [if_neg hlength] at h
      split
      · rfl
      · next hrefused =>
        have hfall : Unclamped (scan.fallThrough context).2 := by
          simp only [ne_eq] at h
          rw [if_neg hrefused] at h
          exact (unclamped_append.1 h).2
        rw [fallThrough_above enclosing hfall]

theorem perform_above {context : Context} {move : Move}
    (h : scan.perform context move = .ok next) :
    (scan.above enclosing).perform context (move.above enclosing) = .ok (next.above enclosing) := by
  cases move with
  | consume found stack =>
    have hrest : (scan.above enclosing).rest = scan.rest := rfl
    simp only [perform, Move.above, hrest] at h ⊢
    split at h
    · cases h
    · cases h
      rfl
  | divert stack =>
    cases h
    rfl
  | pass =>
    have hrest : (scan.above enclosing).rest = scan.rest := rfl
    simp only [perform, Move.above, hrest] at h ⊢
    split at h
    · cases h
      rfl
    · cases h
      rfl

/-- The parts of a step. -/
theorem exists_of_step {grammar : Grammar} {leading : Nat}
    (h : scan.step grammar leading = .ok next) :
    ∃ context trial moved, grammar.context scan.stack.current = .ok context ∧
      grammar.tryRules context.rules (scan.cursor grammar leading) = .ok trial ∧
      scan.perform context (scan.chooseMove context trial.found).1 = .ok moved ∧
      next = moved.note
        (trial.broken.map .brokenPattern ++ (scan.chooseMove context trial.found).2) := by
  simp only [step, bind, Except.bind] at h
  split at h
  · cases h
  · next context hcontext =>
    split at h
    · cases h
    · next trial htrial =>
      split at h
      · cases h
      · next moved hmoved =>
        cases h
        exact ⟨context, trial, moved, hcontext, htrial, hmoved, rfl⟩

theorem notices_perform {context : Context} {move : Move}
    (h : scan.perform context move = .ok next) : next.notices = scan.notices := by
  cases move with
  | consume found stack =>
    simp only [perform] at h
    split at h
    · cases h
    · cases h
      rfl
  | divert stack =>
    cases h
    rfl
  | pass =>
    simp only [perform] at h
    split at h
    · cases h
      rfl
    · cases h
      rfl

variable {grammar : Grammar} {leading : Nat}

/-- A step adds notices to those before it. -/
theorem suffix_of_step (h : scan.step grammar leading = .ok next) :
    scan.notices <:+ next.notices := by
  obtain ⟨context, trial, moved, -, -, hmoved, rfl⟩ := exists_of_step h
  rw [← notices_perform hmoved]
  exact List.suffix_append _ _

theorem suffix_of_run {last : Scan} (h : scan.run grammar leading = .ok last) :
    scan.notices <:+ last.notices := by
  fun_induction run grammar leading scan with
  | case1 scan hrest =>
    cases h
    exact List.suffix_refl _
  | case2 scan hrest fault hfault => cases h
  | case3 scan hrest next hnext ih => exact (suffix_of_step hnext).trans (ih h)

/-- A step above enclosing frames. -/
theorem step_above (h : scan.step grammar leading = .ok next) (hnotices : Unclamped next.notices) :
    (scan.above enclosing).step grammar leading = .ok (next.above enclosing) := by
  obtain ⟨context, trial, moved, hcontext, htrial, hmoved, rfl⟩ := exists_of_step h
  have hmove : Unclamped (scan.chooseMove context trial.found).2 := by
    have hadded := (unclamped_append.1 hnotices).1
    exact (unclamped_append.1 (unclamped_reverse.1 hadded)).2
  have hcontextAbove : grammar.context (scan.above enclosing).stack.current = .ok context :=
    hcontext
  have htrialAbove : grammar.tryRules context.rules
      ((scan.above enclosing).cursor grammar leading) = .ok trial := htrial
  have hmovedAbove := perform_above enclosing hmoved
  simp only [step, hcontextAbove, htrialAbove, chooseMove_above enclosing hmove, hmovedAbove, bind,
    Except.bind]
  rfl

/-- A run above enclosing frames. -/
theorem run_above {last : Scan} (h : scan.run grammar leading = .ok last)
    (hnotices : Unclamped last.notices) :
    (scan.above enclosing).run grammar leading = .ok (last.above enclosing) := by
  fun_induction run grammar leading scan with
  | case1 scan hrest =>
    cases h
    exact run_of_rest_eq_nil hrest
  | case2 scan hrest fault hfault => cases h
  | case3 scan hrest next hnext ih =>
    obtain ⟨added, hadded⟩ := suffix_of_run h
    have hkept : Unclamped next.notices := by
      rw [← hadded] at hnotices
      exact (unclamped_append.1 hnotices).2
    have hstep := step_above enclosing hnext hkept
    have hreaches : Reaches grammar leading 1 (scan.above enclosing) (next.above enclosing) :=
      .head hrest hstep (.refl _)
    rw [hreaches.run_eq]
    exact ih h

end Scan

variable {grammar : Grammar} (enclosing : List Frame)

theorem settleLineEnd_above {limit : Nat} {stack settled : Stack} {notices : List Notice}
    (h : settleLineEnd grammar limit stack = .ok (settled, notices)) (hnotices : Unclamped notices) :
    settleLineEnd grammar limit (stack.above enclosing) =
      .ok (settled.above enclosing, notices) := by
  induction limit generalizing stack notices with
  | zero =>
    obtain ⟨context, hcontext, rfl, rfl⟩ := settleLineEnd_zero_eq_ok_iff.1 h
    rw [← settled.current_above enclosing] at hcontext
    exact settleLineEnd_zero_eq_ok_iff.2 ⟨context, hcontext, rfl, rfl⟩
  | succ limit ih =>
    obtain ⟨context, hcontext, hswitch⟩ := settleLineEnd_succ_eq_ok_iff.1 h
    rw [← stack.current_above enclosing] at hcontext
    refine settleLineEnd_succ_eq_ok_iff.2 ⟨context, hcontext, ?_⟩
    split at hswitch
    · next hsame =>
      obtain ⟨rfl, rfl⟩ := hswitch
      rw [Switch.apply_above enclosing hnotices, Switch.notices_above enclosing hnotices, hsame,
        if_pos rfl]
      exact ⟨rfl, rfl⟩
    · next hchanges =>
      obtain ⟨more, hlater, rfl⟩ := hswitch
      obtain ⟨hfirst, hmore⟩ := unclamped_append.1 hnotices
      rw [Switch.apply_above enclosing hfirst, Switch.notices_above enclosing hfirst,
        if_neg (mt (Stack.above_inj enclosing).1 hchanges)]
      exact ⟨more, ih hlater hmore, rfl⟩

theorem nextLineStack_above {stack next : Stack} {notices : List Notice}
    (h : nextLineStack grammar stack = .ok (next, notices)) (hnotices : Unclamped notices) :
    nextLineStack grammar (stack.above enclosing) = .ok (next.above enclosing, notices) := by
  obtain ⟨settled, first, context, hsettled, hcontext, rfl, rfl⟩ := nextLineStack_eq_ok_iff.1 h
  obtain ⟨hfirst, hmore⟩ := unclamped_append.1 hnotices
  have hsettledAbove := settleLineEnd_above enclosing hsettled hfirst
  rw [← settled.current_above enclosing] at hcontext
  refine nextLineStack_eq_ok_iff.2 ⟨_, first, context, hsettledAbove, hcontext, ?_, ?_⟩
  · rw [Switch.apply_above enclosing hmore]
  · rw [Switch.notices_above enclosing hmore]

/-- A line above enclosing frames is highlighted as it is without them. -/
theorem highlightLine_above {line : List Char} {stack : Stack} {result : Highlighted}
    (h : highlightLine grammar line stack = .ok result) (hnotices : Unclamped result.notices) :
    highlightLine grammar line (stack.above enclosing) =
      .ok { result with endStack := result.endStack.above enclosing } := by
  have hstart : Scan.start line (stack.above enclosing) =
      (Scan.start line stack).above enclosing := rfl
  simp only [highlightLine, bind, Except.bind] at h ⊢
  rw [hstart]
  split at h
  · cases h
  · next last hlast =>
    split at h
    · cases h
    · next context hcontext =>
      split at h
      · next hcontinued =>
        cases h
        rw [Scan.run_above enclosing hlast (unclamped_reverse.1 hnotices)]
        simp only [Scan.above, Stack.current_above, hcontext, hcontinued, if_true]
        rfl
      · next hended =>
        split at h
        · cases h
        · next next hnext =>
          cases h
          obtain ⟨hscan, hend⟩ := unclamped_append.1 hnotices
          rw [Scan.run_above enclosing hlast (unclamped_reverse.1 hscan)]
          simp only [Scan.above, Stack.current_above, hcontext, hended, Bool.false_eq_true, if_false,
            nextLineStack_above enclosing hnext hend]
          rfl

/-- Highlighting a line with a stack of a built grammar pops no frame that is not there, or leaves a
notice.  In the first case, frames under all of the stack's own change nothing: the line has the same
spans and the same notices, is continued or not as before, and ends with the same stack on top of
those frames. -/
theorem highlightLine_enclosed {description : GrammarDef}
    (hbuild : description.build.result = .ok grammar) (line : List Char) {stack : Stack}
    (hstack : stack.Within grammar.contexts.length) :
    ∃ result, highlightLine grammar line stack = .ok result ∧
      ((∀ depth pops, .popTooBig depth pops ∉ result.notices) →
        ∀ (enclosing : List Frame) (enclosed : Stack),
          enclosed.frames = enclosing ++ stack.frames →
          ∃ other, highlightLine grammar line enclosed = .ok other ∧
            other.spans = result.spans ∧ other.lineContinue = result.lineContinue ∧
            other.notices = result.notices ∧
            other.endStack.frames = enclosing ++ result.endStack.frames) := by
  have hresolved : grammar.Resolved := Grammar.Built.resolved ⟨description, hbuild⟩
  obtain ⟨result, -, -, hresult, -⟩ := exists_highlightLine hresolved line hstack
  refine ⟨result, hresult, ?_⟩
  intro hnotices enclosing enclosed hframes
  have habove : enclosed = stack.above enclosing :=
    Stack.ext_frames (by rw [hframes, Stack.frames_above])
  refine ⟨{ result with endStack := result.endStack.above enclosing }, ?_, rfl, rfl, rfl, ?_⟩
  · rw [habove]
    exact highlightLine_above enclosing hresult hnotices
  · exact Stack.frames_above enclosing result.endStack

/-- The quote that ends a quoted part pops its frame and nothing more. -/
theorem exists_highlightLine_unquote (hcontexts : grammar.contexts = quotedTextContexts) :
    ∃ result, highlightLine grammar ['"'] ((Stack.single 0).push 1 none) = .ok result ∧
      result.endStack = .single 0 ∧ result.notices = [] := by
  have htext : grammar.context (Stack.single 0).current = .ok quotedTextContexts[0] := by
    rw [Grammar.context, hcontexts]
    rfl
  have hquoted : grammar.context ((Stack.single 0).push 1 none).current =
      .ok quotedTextContexts[1] := by
    rw [Grammar.context, hcontexts]
    rfl
  have htrial : ∀ cursor : Cursor, cursor.rest = ['"'] →
      grammar.tryRules quotedTextContexts[1].rules cursor =
        .ok ⟨[], some ⟨1, none, some ⟨1, none⟩, false, none⟩⟩ := by
    intro cursor hrest
    simp only [quotedTextContexts, List.getElem_cons_succ, List.getElem_cons_zero]
    rw [Grammar.tryRules, Grammar.tryRule]
    simp [Rule.allows, Rule.detect, Rule.length?, hrest, Rule.toMatch, bind, Except.bind,
      Rule.isLineContinue, Switch.isStay]
    decide
  have hstep : (Scan.start ['"'] ((Stack.single 0).push 1 none)).step grammar
      (leadingBlanks ['"']) = .ok ⟨some '"', [], 1, 1, 1, .single 0, 0, false,
        [⟨0, 1, DefaultStyle.string.styleFor "Quote"⟩], []⟩ := by
    have hcontext : grammar.context
        (Scan.start ['"'] ((Stack.single 0).push 1 none)).stack.current =
      .ok quotedTextContexts[1] := hquoted
    simp only [Scan.step, hcontext, bind, Except.bind]
    rw [htrial _ rfl]
    rfl
  have hreaches := Scan.Reaches.head (by simp [Scan.start]) hstep (.refl _)
  have hrun := hreaches.run_eq.trans (Scan.run_of_rest_eq_nil rfl)
  have hnext : nextLineStack grammar (.single 0) = .ok (.single 0, []) := by
    have hsettled : settleLineEnd grammar lineEndLimit (.single 0) = .ok (.single 0, []) := by
      rw [lineEndLimit, settleLineEnd, htext]
      rfl
    simp only [nextLineStack, hsettled, htext, bind, Except.bind]
    rfl
  have hline : highlightLine grammar ['"'] ((Stack.single 0).push 1 none) =
      .ok ⟨[⟨0, 1, DefaultStyle.string.styleFor "Quote"⟩], .single 0, false, []⟩ := by
    simp only [highlightLine, hrun, htext, hnext, bind, Except.bind, Bool.false_eq_true, if_false]
    rfl
  exact ⟨_, hline, rfl, rfl⟩

/-- The end of a quoted part on top of two frames, one of which has captured groups. -/
theorem highlightLine_enclosed_quotedText :
    ∃ grammar, quotedText.build.result = .ok grammar ∧
      ∃ other, highlightLine grammar ['"']
          ((((Stack.single 0).push 1 (some [['x']])).push 0 none).push 1 none) = .ok other ∧
        other.notices = [] ∧ other.endStack.frames = [⟨0, none⟩, ⟨1, some [['x']]⟩, ⟨0, none⟩] := by
  obtain ⟨grammar, hbuild, hcontexts, -⟩ := quotedText_build
  have hstack : ((Stack.single 0).push 1 none).Within grammar.contexts.length := by
    rw [hcontexts]
    exact (Stack.within_single (by decide)).push (by decide) none
  obtain ⟨plain, hplain, hend, hnotices⟩ := exists_highlightLine_unquote hcontexts
  obtain ⟨result, hresult, hrest⟩ := highlightLine_enclosed hbuild ['"'] hstack
  obtain rfl : plain = result := by
    rw [hplain] at hresult
    exact Except.ok.inj hresult
  have hunclamped : ∀ depth pops, .popTooBig depth pops ∉ plain.notices := by
    simp [hnotices]
  obtain ⟨other, hother, -, -, hsame, hframes⟩ :=
    hrest hunclamped [⟨0, none⟩, ⟨1, some [['x']]⟩]
      ((((Stack.single 0).push 1 (some [['x']])).push 0 none).push 1 none) rfl
  refine ⟨grammar, hbuild, other, hother, ?_, ?_⟩
  · rw [hsame, hnotices]
  · rw [hframes, hend]
    rfl

end Highlight
