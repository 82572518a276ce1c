import Highlight.Proofs.Coverage
import Highlight.Proofs.Directives
import Highlight.Proofs.StepBound
import Highlight.Proofs.WholeWords

/-!
# Block comments of C

A block comment ends with the first mark of a line, whatever stands before it.  The rules of its
context are the one for the mark and the included ones for alerts, and both characters of the mark
end words, so that an alert neither reaches into a mark nor begins in one (`CommentFinds`).

There are three steps.

* What the rules find is what a step does (`step_comment`): it takes the mark, or text that is one
  character or has none of the mark in it.
* Such a step stays before the first mark or takes it (`Before.step`), also in `**/`, where the
  first star is one character of the comment.
* A line has a first mark or none.  Up to it nothing changes the stack (`stack_eq_of_offset_le`),
  and a run that comes to the end of the line has taken it (`exists_ending`).
-/

namespace Highlight.Language.C

/-! ## Marks -/

/-- The mark that ends a comment. -/
def endMark : List Char :=
  ['*', '/']

/-- A text in which the mark stands has a first one. -/
theorem exists_first_endMark {text : List Char} (h : endMark <:+: text) :
    ∃ front back, text = front ++ endMark ++ back ∧ ¬endMark <:+: front ++ ['*'] := by
  induction text with
  | nil => cases List.infix_nil.1 h
  | cons c rest ih =>
    rw [List.infix_cons_iff] at h
    by_cases hstart : endMark <+: c :: rest
    · obtain ⟨back, hback⟩ := hstart
      exact ⟨[], back, hback.symm, by decide⟩
    · obtain ⟨front, back, rfl, hfirst⟩ := ih (h.resolve_left hstart)
      refine ⟨c :: front, back, rfl, ?_⟩
      rw [List.cons_append, List.infix_cons_iff]
      rintro (hstart' | hmark)
      · obtain ⟨rfl, hslash⟩ := List.cons_prefix_cons.1 hstart'
        refine hstart (List.cons_prefix_cons.2 ⟨rfl, hslash.trans ⟨'/' :: back, ?_⟩⟩)
        simp [endMark]
      · exact hfirst hmark

/-! ## The context -/

def commentStyle : Style :=
  DefaultStyle.comment.styleFor "Comment"

def alertStyle : Style :=
  DefaultStyle.alert.styleFor "Alert"

/-- The rule for the mark. -/
def commentEnd : Rule :=
  { RuleKind.toRule (.twoChars '*' '/') with
    attributeName := "Comment", style := commentStyle, switch := ⟨1, none⟩ }

def commentContext : Context :=
  { Context.ofRules "Block Comment" [commentEnd, includedAlerts] with
    attributeName := "Comment", style := commentStyle }

/-- The styles of text in a comment. -/
def InComment (style : Style) : Prop :=
  style = commentStyle ∨ style = alertStyle

section

variable {built : Grammar} (hbuild : grammar.build.result = .ok built)

include hbuild

theorem context_comment : built.contexts[4]? = some commentContext :=
  GrammarDef.context_of_build hbuild rfl rfl rfl

/-- Both characters of the mark end a word. -/
theorem delimiters_endMark : ∀ c ∈ endMark, built.delimiters.contains c = true := by
  rw [GrammarDef.delimiters_of_build hbuild]
  exact List.all_eq_true.1 (by decide)

end

/-- What the rules of the context find in a text. -/
inductive CommentFinds (text : List Char) : Option RuleMatch → Prop
  /-- The mark, which ends the comment. -/
  | ending {back : List Char} (text_eq : text = endMark ++ back) :
      CommentFinds text (some (commentEnd.toMatch 2 none))
  /-- An alert, which has no character of the mark. -/
  | alert {word rest : List Char} (text_eq : text = word ++ rest) (word_ne : word ≠ [])
      (apart : ∀ c ∈ word, c ∉ endMark) :
      CommentFinds text (some (alert.toMatch (byteLength word) none))
  | nothing (apart : ¬endMark <+: text) : CommentFinds text none

theorem length?_commentEnd (cursor : Cursor) :
    commentEnd.length? cursor = .ok (if endMark <+: cursor.rest then some 2 else none) := by
  cases hrest : cursor.rest with
  | nil =>
    rw [if_neg (by simp [endMark])]
    simp only [Rule.length?, hrest]
  | cons c rest =>
    have hmark : endMark <+: c :: rest ↔ (c == '*' && rest.head? == some '/') = true := by
      rw [endMark, List.cons_prefix_cons, Bool.and_eq_true, beq_iff_eq, beq_iff_eq, eq_comm]
      cases rest <;> simp [eq_comm]
    simp only [hmark, Rule.length?, hrest]
    rfl

theorem tryRule_alert (built : Grammar) (cursor : Cursor) : built.tryRule alert cursor = .ok
    { found := (alertKeywords.length? cursor).map fun length => alert.toMatch length none } :=
  built.tryRule_of_length? (fun regex h => by cases h) rfl rfl rfl
    (Rule.length?_of_keyword rfl cursor)

theorem commentFinds_of_tryRules {built : Grammar} (hbuild : grammar.build.result = .ok built)
    {cursor : Cursor} (hdelimiters : cursor.delimiters = built.delimiters) {trial : Trial}
    (htrial : built.tryRules commentContext.rules cursor = .ok trial) :
    CommentFinds cursor.rest trial.found := by
  have hend := built.tryRule_of_length? (fun regex h => by cases h) rfl rfl rfl
    (length?_commentEnd cursor)
  have hincluded : built.tryRule includedAlerts cursor = built.tryRule alert cursor := by
    rw [Grammar.tryRule_inclusion rfl rfl (context_alerts hbuild),
      show alertsContext.rules = [alert] from rfl,
      Grammar.tryRules_cons (tryRule_alert built cursor), tryRule_alert]
    cases alertKeywords.length? cursor with
    | none => rw [Grammar.tryRules]; rfl
    | some length => rfl
  rw [tryRule_alert] at hincluded
  rw [show commentContext.rules = [commentEnd, includedAlerts] from rfl,
    Grammar.tryRules_cons hend] at htrial
  by_cases hmark : endMark <+: cursor.rest
  · rw [if_pos hmark] at htrial
    cases htrial
    obtain ⟨back, hback⟩ := hmark
    exact .ending hback.symm
  · rw [if_neg hmark, if_neg (by simp), Grammar.tryRules_cons hincluded] at htrial
    cases hlength : alertKeywords.length? cursor with
    | none =>
      rw [hlength, if_neg (by simp), Grammar.tryRules] at htrial
      cases htrial
      exact .nothing hmark
    | some length =>
      rw [hlength, if_pos (by simp)] at htrial
      cases htrial
      obtain ⟨-, word, hword, -, rfl⟩ := KeywordRule.length?_eq_some_iff.1 hlength
      obtain ⟨hne, hrun⟩ := Cursor.word?_eq_some_iff.1 hword
      obtain ⟨rest, hrest, hwhole, -⟩ := takeWhile_eq_iff.1 hrun
      refine .alert hrest hne fun c hc hmarkChar => ?_
      have hplain := hwhole c hc
      rw [hdelimiters, delimiters_endMark hbuild c hmarkChar] at hplain
      cases hplain

/-! ## Steps -/

/-- What a step in a comment does: it takes the mark and leaves the comment, or it takes text that
does not reach into a mark and stays. -/
inductive CommentStep (scan next : Scan) : Prop
  | ending {back : List Char} (rest_eq : scan.rest = endMark ++ back) (next_rest : next.rest = back)
      (next_stack : next.stack = scan.stack.pop) (next_offset : next.offset = scan.offset + 2)
      (next_spans : next.spans =
        ⟨scan.offset, scan.offset + 2, commentStyle⟩ :: (scan.flush commentStyle).spans)
  | inside {taken back : List Char} (rest_eq : scan.rest = taken ++ back) (taken_ne : taken ≠ [])
      (short : (∃ c, taken = [c]) ∨ ∀ c ∈ taken, c ∉ endMark) (apart : ¬endMark <+: scan.rest)
      (next_rest : next.rest = back) (next_stack : next.stack = scan.stack)
      (next_offset : next.offset = scan.offset + byteLength taken)

section

variable {built : Grammar} (hbuild : grammar.build.result = .ok built)

include hbuild

theorem step_comment {scan next : Scan} {trial : Trial} {leading : Nat} (hrest : scan.rest ≠ [])
    (htrial : built.tryRules commentContext.rules (scan.cursor built leading) = .ok trial)
    (hfollows : scan.Follows commentContext trial.found next) : CommentStep scan next := by
  have hfinds : CommentFinds scan.rest trial.found := commentFinds_of_tryRules hbuild rfl htrial
  generalize trial.found = found at hfinds hfollows
  cases hfinds with
  | ending text_eq =>
    obtain ⟨hnext, hstack, hoffset, -, -, hspans⟩ :=
      hfollows.of_consumed (show 0 < 2 by decide) text_eq rfl
    rw [commentEnd.nextStack_toMatch, show commentEnd.switch = ⟨1, none⟩ from rfl,
      Switch.apply_pop] at hstack
    exact .ending text_eq hnext hstack hoffset hspans
  | @alert word back text_eq word_ne apart =>
    have hpos : 0 < byteLength word :=
      Nat.pos_of_ne_zero fun hzero => word_ne (byteLength_eq_zero_iff.1 hzero)
    obtain ⟨hnext, hstack, hoffset, -⟩ := hfollows.of_consumed hpos text_eq rfl
    rw [alert.nextStack_toMatch, Switch.apply_of_isStay rfl] at hstack
    refine .inside text_eq word_ne (.inr apart) ?_ hnext hstack hoffset
    obtain ⟨c, chars, rfl⟩ := List.exists_cons_of_ne_nil word_ne
    rw [text_eq]
    intro hmark
    obtain ⟨rfl, -⟩ := List.cons_prefix_cons.1 hmark
    exact apart '*' List.mem_cons_self (by decide)
  | nothing apart =>
    obtain ⟨c, back, htext⟩ := List.exists_cons_of_ne_nil hrest
    obtain ⟨hnext, hstack, hoffset, -⟩ := hfollows.of_none rfl htext
    have htaken : scan.rest = [c] ++ back := htext
    exact .inside htaken (by simp) (.inl ⟨c, rfl⟩) apart hnext hstack hoffset

theorem styles_comment {scan next : Scan} {trial : Trial} {leading : Nat}
    (htrial : built.tryRules commentContext.rules (scan.cursor built leading) = .ok trial)
    (hfollows : scan.Follows commentContext trial.found next)
    (hspans : ∀ span ∈ scan.spans, InComment span.style) :
    ∀ span ∈ next.spans, InComment span.style := by
  refine hfollows.styles (.inl rfl) (fun matched hmatched => ?_) hspans
  have hfinds := commentFinds_of_tryRules hbuild rfl htrial
  rw [hmatched] at hfinds
  cases hfinds with
  | ending => exact .inl rfl
  | alert => exact .inr rfl

end

/-! ## Before the mark -/

/-- Where the text up to a mark has none in it, not even with the first character of that one, no
mark begins at its start. -/
theorem not_endMark_isPrefix {gap back : List Char} (hne : gap ≠ [])
    (hgap : ¬endMark <:+: gap ++ ['*']) : ¬endMark <+: gap ++ endMark ++ back := by
  intro hmark
  have hsplit : gap ++ endMark ++ back = (gap ++ ['*']) ++ '/' :: back := by simp [endMark]
  rw [hsplit] at hmark
  have hlength : endMark.length ≤ (gap ++ ['*']).length := by
    have hpos := List.length_pos_iff.2 hne
    rw [List.length_append]
    show 2 ≤ gap.length + 1
    omega
  exact hgap (List.prefix_of_prefix_length_le hmark (List.prefix_append _ _) hlength).isInfix

/-- What is short of a mark and stands before one is in the text before it. -/
theorem exists_gap_of_short {taken gap back behind : List Char}
    (htext : gap ++ endMark ++ behind = taken ++ back) (hne : gap ≠ [])
    (hshort : (∃ c, taken = [c]) ∨ ∀ c ∈ taken, c ∉ endMark) :
    ∃ left, gap = taken ++ left ∧ back = left ++ endMark ++ behind := by
  rw [List.append_assoc] at htext
  rcases List.append_eq_append_iff.1 htext with ⟨more, htaken, hmark⟩ | ⟨left, hgap, hback⟩
  · cases more with
    | nil => exact ⟨[], by rw [htaken, List.append_nil, List.append_nil], hmark.symm⟩
    | cons c more =>
      rcases hshort with ⟨d, rfl⟩ | hapart
      · -- One character of a text before the mark is none of the mark.
        have hlength := congrArg List.length htaken
        have hpos := List.length_pos_iff.2 hne
        rw [List.length_singleton, List.length_append, List.length_cons] at hlength
        omega
      · obtain ⟨hc, -⟩ := List.cons.inj hmark
        refine absurd (show c ∈ endMark from ?_) (hapart c ?_)
        · rw [← hc]
          exact List.mem_cons_self
        · rw [htaken]
          exact List.mem_append_right _ List.mem_cons_self
  · exact ⟨left, hgap, by rw [hback, List.append_assoc]⟩

/-- A scan in a comment. -/
structure Inside (stack : Stack) (scan : Scan) : Prop where
  stack_eq : scan.stack = stack
  styles : ∀ span ∈ scan.spans, InComment span.style

theorem inside_start (line : List Char) (stack : Stack) : Inside stack (Scan.start line stack) :=
  ⟨rfl, fun span hspan => by cases hspan⟩

/-- A scan in a comment that ends at the mark behind a part of the line. -/
structure Before (stack : Stack) (front back : List Char) (scan : Scan) : Prop
    extends Inside stack scan where
  rest_eq : ∃ done gap, front = done ++ gap ∧ scan.offset = byteLength done ∧
    scan.rest = gap ++ endMark ++ back

/-- A step takes the mark behind a part of the line and leaves the comment. -/
structure Ends (stack : Stack) (front back : List Char) (scan next : Scan) : Prop where
  start : scan.offset = byteLength front
  stop : next.offset = byteLength front + 2
  rest_eq : next.rest = back
  stack_eq : next.stack = stack.pop
  spans : next.spans = ⟨byteLength front, byteLength front + 2, commentStyle⟩ ::
    (scan.flush commentStyle).spans

/-- What is done before the mark: a step stays before it, or takes it. -/
theorem Before.step {stack : Stack} {front back : List Char} {scan next : Scan}
    (h : Before stack front back scan) (hfirst : ¬endMark <:+: front ++ ['*'])
    (hstep : CommentStep scan next) (hstyles : ∀ span ∈ next.spans, InComment span.style) :
    Before stack front back next ∨ Ends stack front back scan next := by
  obtain ⟨done, gap, rfl, hoffset, hrest⟩ := h.rest_eq
  have hgap : gap ≠ [] → ¬endMark <+: scan.rest := by
    intro hne
    rw [hrest]
    refine not_endMark_isPrefix hne fun hmark => hfirst (hmark.trans ?_)
    rw [List.append_assoc]
    exact (List.suffix_append done _).isInfix
  cases hstep with
  | @ending behind rest_eq next_rest next_stack next_offset next_spans =>
    have hmark : endMark <+: scan.rest := ⟨behind, rest_eq.symm⟩
    obtain rfl : gap = [] := by
      by_contra hne
      exact hgap hne hmark
    have hstart : scan.offset = byteLength (done ++ []) := by rw [List.append_nil, hoffset]
    rw [List.nil_append, rest_eq] at hrest
    rw [List.append_cancel_left hrest] at next_rest
    rw [h.stack_eq] at next_stack
    rw [hstart] at next_offset next_spans
    exact .inr ⟨hstart, next_offset, next_rest, next_stack, next_spans⟩
  | @inside taken behind rest_eq taken_ne short apart next_rest next_stack next_offset =>
    have hne : gap ≠ [] := by
      rintro rfl
      exact apart ⟨back, hrest.symm⟩
    obtain ⟨left, rfl, hleft⟩ := exists_gap_of_short (hrest.symm.trans rest_eq) hne short
    refine .inl ⟨⟨next_stack.trans h.stack_eq, hstyles⟩, done ++ taken, left, ?_, ?_, ?_⟩
    · rw [List.append_assoc]
    · rw [next_offset, hoffset, byteLength_append]
    · rw [next_rest, hleft]

/-! ## Lines -/

section

variable {built : Grammar} (hbuild : grammar.build.result = .ok built) {stack : Stack}
  (hstack : stack.Within built.contexts.length)
  (hcomment : built.contexts[stack.current]? = some commentContext)

include hbuild hstack hcomment

/-- A line without a mark is in the comment. -/
theorem exists_highlightLine_unmarked {line : List Char} (hline : ¬endMark <:+: line) :
    ∃ result, highlightLine built line stack = .ok result ∧
      (∀ span ∈ result.spans, InComment span.style) ∧ result.endStack = stack := by
  have hresolved : built.Resolved := Grammar.Built.resolved ⟨grammar, hbuild⟩
  obtain ⟨result, last, hresult, -, -, hlast, hcloses⟩ :=
    exists_highlightLine_preserves hresolved hstack (.refl _) (inside_start line stack)
      fun {scan next context trial} hat hrest hcontext htrial hfollows hinside => by
        rw [hinside.stack_eq, hcomment] at hcontext
        cases hcontext
        refine ⟨?_, styles_comment hbuild htrial hfollows hinside.styles⟩
        cases step_comment hbuild hrest htrial hfollows with
        | @ending back rest_eq =>
          obtain ⟨done, hdone, -⟩ := hat
          rw [rest_eq] at hdone
          exact absurd ⟨done, back, by rw [hdone, List.append_assoc]⟩ hline
        | inside rest_eq taken_ne short apart next_rest next_stack =>
          exact next_stack.trans hinside.stack_eq
  obtain ⟨context, hcontext, hspans⟩ := hcloses.spans
  have hget := Grammar.getElem?_of_context hcontext
  rw [hlast.stack_eq, hcomment] at hget
  cases hget
  refine ⟨result, hresult, ?_, ?_⟩
  · intro span hspan
    rw [hspans, List.mem_reverse] at hspan
    exact last.styles_flush (.inl rfl) hlast.styles span hspan
  · cases hended : last.lineContinue with
    | true => rw [hcloses.continued hended, hlast.stack_eq]
    | false =>
      obtain ⟨notices, hnext⟩ := hcloses.ended hended
      rw [hlast.stack_eq, nextLineStack_of_stay hcomment rfl rfl] at hnext
      cases hnext
      rfl

variable {line front back : List Char} (hline : line = front ++ endMark ++ back)
  (hfirst : ¬endMark <:+: front ++ ['*'])

include hline hfirst

/-- A run that is not before the mark any more has taken it. -/
theorem exists_ending {count : Nat} {last : Scan}
    (hreaches : Scan.Reaches built (leadingBlanks line) count (Scan.start line stack) last)
    (hlast : ¬Before stack front back last) :
    ∃ steps ending behind more,
      Scan.Reaches built (leadingBlanks line) steps (Scan.start line stack) ending ∧
      Before stack front back ending ∧ ending.step built (leadingBlanks line) = .ok behind ∧
      Ends stack front back ending behind ∧ behind.stack.Within built.contexts.length ∧
      Scan.Reaches built (leadingBlanks line) more behind last := by
  have hresolved : built.Resolved := Grammar.Built.resolved ⟨grammar, hbuild⟩
  have hstart : Before stack front back (Scan.start line stack) :=
    ⟨inside_start line stack, [], front, rfl, rfl, hline⟩
  obtain ⟨steps, ending, behind, more, hbefore, hending, hrest, hstep, hbehind, hmore⟩ :=
    hreaches.exists_exit hstart hlast
  obtain ⟨-, hwithin⟩ := hbefore.invariant hresolved (Scan.at_start line stack) hstack
  obtain ⟨context, trial, hcontext, htrial, hfollows, hpopped⟩ :=
    Scan.follows_of_step hresolved hwithin hrest hstep
  have hget := Grammar.getElem?_of_context hcontext
  rw [hending.stack_eq, hcomment] at hget
  cases hget
  have hends := hending.step hfirst (step_comment hbuild hrest htrial hfollows)
    (styles_comment hbuild htrial hfollows hending.styles)
  exact ⟨steps, ending, behind, more, hbefore, hending, hstep, hends.resolve_left hbehind, hpopped,
    hmore⟩

/-- The stack is kept up to the mark. -/
theorem stack_eq_of_offset_le {count : Nat} {scan : Scan}
    (hreaches : Scan.Reaches built (leadingBlanks line) count (Scan.start line stack) scan)
    (hoffset : scan.offset ≤ byteLength front) : scan.stack = stack := by
  have hresolved : built.Resolved := Grammar.Built.resolved ⟨grammar, hbuild⟩
  by_contra hchanged
  have hbehind : ¬Before stack front back scan := fun h => hchanged h.stack_eq
  obtain ⟨steps, ending, behind, more, -, -, -, hends, hwithin, hmore⟩ :=
    exists_ending hbuild hstack hcomment hline hfirst hreaches hbehind
  have hle := hmore.offset_le hresolved hwithin
  have hstop := hends.stop
  omega

/-- What becomes of a line with a mark. -/
theorem exists_highlightLine_marked :
    ∃ result, highlightLine built line stack = .ok result ∧
      (∃ steps ending behind,
        Scan.Reaches built (leadingBlanks line) steps (Scan.start line stack) ending ∧
          ending.step built (leadingBlanks line) = .ok behind ∧
          Ends stack front back ending behind) ∧
      ∃ first later, result.spans =
          first ++ ⟨byteLength front, byteLength front + 2, commentStyle⟩ :: later ∧
        (∀ span ∈ first, span.stop ≤ byteLength front ∧ InComment span.style) ∧
        ∀ span ∈ later, byteLength front + 2 ≤ span.start := by
  have hresolved : built.Resolved := Grammar.Built.resolved ⟨grammar, hbuild⟩
  obtain ⟨result, count, last, hresult, hreaches, hend, hcloses, -⟩ :=
    exists_highlightLine hresolved line hstack
  have hlast : ¬Before stack front back last := by
    intro hbefore
    obtain ⟨done, gap, -, -, hrest⟩ := hbefore.rest_eq
    rw [hend] at hrest
    simp [endMark] at hrest
  obtain ⟨steps, ending, behind, more, hbefore, hending, hstep, hends, hwithin, hmore⟩ :=
    exists_ending hbuild hstack hcomment hline hfirst hreaches hlast
  refine ⟨result, hresult, ⟨steps, ending, behind, hbefore, hstep, hends⟩, ?_⟩
  -- The spans at the end of the line are those behind the mark and newer ones, the last one first.
  obtain ⟨context, -, hspans⟩ := hcloses.spans
  obtain ⟨newer, hkept⟩ : behind.spans <:+ (last.flush context.style).spans :=
    (hmore.suffix_spans hresolved hwithin).trans (last.suffix_flush context.style)
  have hsplit : result.spans = (ending.flush commentStyle).spans.reverse ++
      ⟨byteLength front, byteLength front + 2, commentStyle⟩ :: newer.reverse := by
    rw [hspans, ← hkept, hends.spans]
    simp
  obtain ⟨other, hother, htiles, -⟩ := exists_covering_spans hbuild line hstack
  obtain rfl : result = other := Except.ok.inj (hresult.symm.trans hother)
  rw [hsplit] at htiles
  obtain ⟨hbelow, habove⟩ := htiles.apart_of_append
  refine ⟨_, _, hsplit, fun span hspan => ⟨hbelow span hspan, ?_⟩, habove⟩
  exact ending.styles_flush (.inl rfl) hending.styles span (List.mem_reverse.1 hspan)

end

/-- A block comment ends with the first mark of a line and with nothing else.  A line without one is
in the styles of comments and alerts and keeps the stack.  On another line the stack is kept up to
the mark, the text before it is in these styles, the mark is one span of the comment, and scanning
goes on behind it with the top taken from the stack. -/
theorem blockComment_ends_at_first_mark {built : Grammar}
    (hbuild : grammar.build.result = .ok built) {stack : Stack}
    (hstack : stack.Within built.contexts.length)
    (hname : (built.contexts[stack.current]?).map Context.name = some "Block Comment")
    (line : List Char) :
    ∃ result, highlightLine built line stack = .ok result ∧
      ((¬endMark <:+: line ∧ (∀ span ∈ result.spans, InComment span.style) ∧
          result.endStack = stack) ∨
        ∃ front back, line = front ++ endMark ++ back ∧ ¬endMark <:+: front ++ ['*'] ∧
          (∀ steps scan,
            Scan.Reaches built (leadingBlanks line) steps (Scan.start line stack) scan →
              scan.offset ≤ byteLength front → scan.stack = stack) ∧
          (∃ steps ending behind,
            Scan.Reaches built (leadingBlanks line) steps (Scan.start line stack) ending ∧
              ending.step built (leadingBlanks line) = .ok behind ∧
              Ends stack front back ending behind) ∧
          ∃ first later, result.spans =
              first ++ ⟨byteLength front, byteLength front + 2, commentStyle⟩ :: later ∧
            (∀ span ∈ first, span.stop ≤ byteLength front ∧ InComment span.style) ∧
            ∀ span ∈ later, byteLength front + 2 ≤ span.start) := by
  have hcomment := GrammarDef.context_of_name hbuild (context_comment hbuild) hname
  by_cases hmark : endMark <:+: line
  · obtain ⟨front, back, hline, hfirst⟩ := exists_first_endMark hmark
    obtain ⟨result, hresult, hending, hspans⟩ :=
      exists_highlightLine_marked hbuild hstack hcomment hline hfirst
    refine ⟨result, hresult, .inr ⟨front, back, hline, hfirst, fun steps scan hreaches => ?_,
      hending, hspans⟩⟩
    exact stack_eq_of_offset_le hbuild hstack hcomment hline hfirst hreaches
  · obtain ⟨result, hresult, hstyles, hend⟩ :=
      exists_highlightLine_unmarked hbuild hstack hcomment hmark
    exact ⟨result, hresult, .inl ⟨hmark, hstyles, hend⟩⟩

/-- The first of two stars is in the comment, and the second is in the mark. -/
theorem blockComment_ends_at_first_mark_stars :
    ∃ built, grammar.build.result = .ok built ∧
      ((Stack.single 0).push 4 none).Within built.contexts.length ∧
      (built.contexts[4]?).map Context.name = some "Block Comment" ∧
      ∃ result, highlightLine built ['*', '*', '/'] ((Stack.single 0).push 4 none) = .ok result ∧
        ∃ first later, result.spans = first ++ ⟨1, 3, commentStyle⟩ :: later ∧
          ∀ span ∈ first, span.stop ≤ 1 ∧ InComment span.style := by
  obtain ⟨built, hbuild⟩ := exists_build
  have hcontext := context_comment hbuild
  have hlength : 4 < built.contexts.length := (List.getElem?_eq_some_iff.1 hcontext).1
  have hstack : ((Stack.single 0).push 4 none).Within built.contexts.length :=
    (Stack.within_single (by omega)).push hlength none
  have hname : (built.contexts[4]?).map Context.name = some "Block Comment" := by
    rw [hcontext]
    rfl
  obtain ⟨result, hresult, hcases⟩ :=
    blockComment_ends_at_first_mark hbuild hstack hname ['*', '*', '/']
  rcases hcases with ⟨hmark, -⟩ | ⟨front, back, hline, -, -, -, first, later, hspans, hfirst, -⟩
  · exact absurd ⟨['*'], [], rfl⟩ hmark
  · obtain rfl : front = ['*'] := by
      rcases front with _ | ⟨c, _ | ⟨d, _ | ⟨e, front⟩⟩⟩
      · cases hline
      · cases hline
        rfl
      · cases hline
      · simp [endMark] at hline
    exact ⟨built, hbuild, hstack, hname, result, hresult, first, later, hspans,
      fun span hspan => hfirst span hspan⟩

end Highlight.Language.C
