import Highlight.Proofs.Scanning
import Highlight.Proofs.Splicing
import Mathlib.Logic.Function.Iterate

/-!
# Between two lines

A line is continued in the next one if its last character is the marker of a rule that says so.  All
other lines are followed by the switches for the end of the line, until the context on top stays,
and by one switch for the beginning of a line.

There are three groups.

* Markers.  A rule that continues the line finds its marker only as the last character
  (`rest_eq_of_takesMarker`), so the flag that it sets is never carried on to another step
  (`Scan.Reaches.not_continued`).
* The last step.  The flag of a line is that of its last step (`Scan.Reaches.lineContinue_iff`), and
  the span of that step is the last one.
* The end of a line.  `Grammar.SettlesAt` says how many switches are taken there, and
  `highlightLine_boundary` puts the parts together.
-/

namespace Highlight

/-! ## Markers -/

theorem Rule.isLineContinue_eq_true_iff {rule : Rule} :
    rule.isLineContinue = true ↔ ∃ marker, rule.kind = .lineContinue marker := by
  unfold Rule.isLineContinue
  split
  · next marker hkind => simp [hkind]
  · next hkind => simpa using fun marker => hkind marker

/-- A rule that continues the line finds its marker only where nothing follows it. -/
theorem Rule.rest_eq_of_detect {rule : Rule} {cursor : Cursor} {marker : Char}
    {attempt : Attempt (Nat × Option Captures)} {length : Nat} {captures : Option Captures}
    (hkind : rule.kind = .lineContinue marker) (h : rule.detect cursor = .ok attempt)
    (hfound : attempt.found = some (length, captures)) : cursor.rest = [marker] := by
  cases hrest : cursor.rest with
  | nil =>
    simp only [Rule.detect, hkind, Rule.length?, hrest, bind, Except.bind, Option.map_none] at h
    cases h
    cases hfound
  | cons c rest =>
    simp only [Rule.detect, hkind, Rule.length?, hrest, bind, Except.bind] at h
    split at h
    · next hmarker =>
      simp only [Bool.and_eq_true, beq_iff_eq, List.isEmpty_iff] at hmarker
      rw [hmarker.1, hmarker.2]
    · cases h
      cases hfound

/-- Of some rules, with what they include in its place, a rule is the first that finds something. -/
def Spliced.FindsFirst (grammar : Grammar) (cursor : Cursor) (rules : List Rule)
    (spliced : Spliced) (matched : RuleMatch) : Prop :=
  ∃ front back, grammar.flatten rules = front ++ spliced :: back ∧
    (∀ other ∈ front, other.finds grammar cursor = none) ∧
    spliced.finds grammar cursor = some matched

namespace Spliced.FindsFirst

variable {grammar : Grammar} {cursor : Cursor} {rules : List Rule} {spliced : Spliced}
  {matched : RuleMatch}

theorem plain (h : FindsFirst grammar cursor rules spliced matched) :
    spliced.rule.includedContext? = none := by
  obtain ⟨front, back, hflat, -, -⟩ := h
  have hmember : spliced ∈ grammar.flatten rules := by
    rw [hflat]
    exact List.mem_append_right _ List.mem_cons_self
  exact (Grammar.mem_of_mem_flatten hmember).1

theorem lineContinue_eq (h : FindsFirst grammar cursor rules spliced matched) :
    matched.lineContinue = spliced.rule.isLineContinue := by
  obtain ⟨front, back, -, -, hfinds⟩ := id h
  obtain ⟨attempt, length, -, -, -, hcontinue⟩ := exists_detect_of_finds h.plain hfinds
  exact hcontinue

/-- What trying some rules finds is found by the first of them that finds something. -/
theorem exists_iff {trial : Trial} (htrial : grammar.tryRules rules cursor = .ok trial) :
    (∃ spliced, FindsFirst grammar cursor rules spliced matched) ↔ trial.found = some matched := by
  rw [(firstMatch_of_tryRules htrial).eq_findSome?, List.findSome?_eq_some_iff]
  constructor
  · rintro ⟨spliced, front, back, hflat, hfront, hfinds⟩
    exact ⟨front, spliced, back, hflat, hfinds, hfront⟩
  · rintro ⟨front, spliced, back, hflat, hfinds, hfront⟩
    exact ⟨spliced, front, back, hflat, hfront, hfinds⟩

end Spliced.FindsFirst

namespace Scan

/-- At a scan the marker of a rule that continues the line is taken: the rule is the first of the
context on top that finds something, and what it finds is text. -/
def TakesMarker (grammar : Grammar) (leading : Nat) (scan : Scan) (marker : Char) : Prop :=
  ∃ context spliced matched, grammar.contexts[scan.stack.current]? = some context ∧
    Spliced.FindsFirst grammar (scan.cursor grammar leading) context.rules spliced matched ∧
    spliced.rule.kind = .lineContinue marker ∧ 0 < matched.length

variable {grammar : Grammar} {leading : Nat}

/-- The marker is taken exactly where trying the rules finds text that continues the line. -/
theorem takesMarker_iff {scan : Scan} {context : Context} {trial : Trial}
    (hcontext : grammar.context scan.stack.current = .ok context)
    (htrial : grammar.tryRules context.rules (scan.cursor grammar leading) = .ok trial) :
    (∃ marker, scan.TakesMarker grammar leading marker) ↔
      ∃ matched, trial.found = some matched ∧ 0 < matched.length ∧
        matched.lineContinue = true := by
  have hget := Grammar.getElem?_of_context hcontext
  constructor
  · rintro ⟨marker, other, spliced, matched, hother, hfirst, hkind, hlength⟩
    rw [hget] at hother
    cases hother
    refine ⟨matched, (Spliced.FindsFirst.exists_iff htrial).1 ⟨spliced, hfirst⟩, hlength, ?_⟩
    rw [hfirst.lineContinue_eq]
    exact Rule.isLineContinue_eq_true_iff.2 ⟨marker, hkind⟩
  · rintro ⟨matched, hfound, hlength, hcontinue⟩
    obtain ⟨spliced, hfirst⟩ := (Spliced.FindsFirst.exists_iff htrial).2 hfound
    rw [hfirst.lineContinue_eq] at hcontinue
    obtain ⟨marker, hkind⟩ := Rule.isLineContinue_eq_true_iff.1 hcontinue
    exact ⟨marker, context, spliced, matched, hget, hfirst, hkind, hlength⟩

/-- The marker that is taken is all that is left of the line. -/
theorem rest_eq_of_takesMarker {scan : Scan} {marker : Char}
    (h : scan.TakesMarker grammar leading marker) : scan.rest = [marker] := by
  obtain ⟨context, spliced, matched, -, hfirst, hkind, -⟩ := h
  obtain ⟨front, back, -, -, hfinds⟩ := id hfirst
  obtain ⟨attempt, length, hdetect, hfound, -, -⟩ :=
    Spliced.exists_detect_of_finds hfirst.plain hfinds
  exact Rule.rest_eq_of_detect hkind hdetect hfound

/-! ## The last step -/

section

variable (hresolved : grammar.Resolved) {scan next : Scan}
  (hstack : scan.stack.Within grammar.contexts.length) (hrest : scan.rest ≠ [])
  (hstep : scan.step grammar leading = .ok next)

include hresolved hstack hrest hstep

/-- A step sets the flag of the line exactly if it takes a marker. -/
theorem lineContinue_of_step (hbefore : scan.lineContinue = false) :
    next.lineContinue = true ↔ ∃ marker, scan.TakesMarker grammar leading marker := by
  obtain ⟨context, trial, hcontext, htrial, hfollows, -⟩ :=
    follows_of_step hresolved hstack hrest hstep
  rw [takesMarker_iff hcontext htrial]
  obtain ⟨move, moved, notices, hdecides, hperforms, rfl⟩ := hfollows
  cases hdecides with
  | @consume matched found_eq length =>
    cases hperforms
    constructor
    · intro hcontinue
      exact ⟨matched, found_eq, length, hcontinue⟩
    · rintro ⟨other, hother, -, hcontinue⟩
      rw [found_eq] at hother
      cases hother
      exact hcontinue
  | @divert matched found_eq length changes limit =>
    cases hperforms
    constructor
    · intro hcontinue
      exact absurd (hbefore.symm.trans hcontinue) Bool.false_ne_true
    · rintro ⟨other, hother, hpos, -⟩
      rw [found_eq] at hother
      cases hother
      omega
  | fallThrough consumes diverts changes limit =>
    cases hperforms
    constructor
    · intro hcontinue
      exact absurd (hbefore.symm.trans hcontinue) Bool.false_ne_true
    · rintro ⟨other, hother, hpos, -⟩
      exact absurd ⟨other, hother, hpos⟩ consumes
  | pass consumes diverts fallsThrough =>
    cases hperforms
    constructor
    · intro hcontinue
      cases hcontinue
    · rintro ⟨other, hother, hpos, -⟩
      exact absurd ⟨other, hother, hpos⟩ consumes

/-- A step that takes a marker comes to the end of the line, and its span is that of the marker. -/
theorem closes_of_takesMarker {marker : Char} (h : scan.TakesMarker grammar leading marker) :
    next.rest = [] ∧ next.pending = next.offset ∧
      next.offset = scan.offset + marker.utf8Size ∧
      ∃ style before, next.spans = ⟨scan.offset, next.offset, style⟩ :: before := by
  obtain ⟨context, trial, hcontext, htrial, hfollows, -⟩ :=
    follows_of_step hresolved hstack hrest hstep
  obtain ⟨matched, hfound, hlength, -⟩ := (takesMarker_iff hcontext htrial).1 ⟨marker, h⟩
  have hmarker := rest_eq_of_takesMarker h
  obtain ⟨move, moved, notices, hdecides, hperforms, rfl⟩ := hfollows
  cases hdecides with
  | @consume other found_eq length =>
    cases hperforms with
    | @consume _ _ taken left rest_eq length_eq =>
      have htaken : taken ≠ [] := by
        rintro rfl
        rw [byteLength_nil] at length_eq
        omega
      obtain ⟨c, more, rfl⟩ := List.exists_cons_of_ne_nil htaken
      rw [hmarker] at rest_eq
      obtain ⟨rfl, hmore⟩ := List.cons.inj rest_eq
      obtain ⟨rfl, rfl⟩ := List.append_eq_nil_iff.1 hmore.symm
      refine ⟨rfl, rfl, ?_, _, _, rfl⟩
      show scan.offset + other.length = _
      rw [← length_eq, byteLength_cons, byteLength_nil]
      rfl
  | @divert other found_eq length changes limit =>
    rw [found_eq] at hfound
    cases hfound
    omega
  | fallThrough consumes diverts changes limit => exact absurd ⟨matched, hfound, hlength⟩ consumes
  | pass consumes diverts fallsThrough => exact absurd ⟨matched, hfound, hlength⟩ consumes

end

/-- A run of some steps has a last one. -/
theorem Reaches.exists_last {count : Nat} {scan last : Scan}
    (h : Reaches grammar leading (count + 1) scan last) :
    ∃ before, Reaches grammar leading count scan before ∧ before.rest ≠ [] ∧
      before.step grammar leading = .ok last := by
  induction count generalizing scan with
  | zero =>
    cases h with
    | head rest step_eq reaches =>
      cases reaches
      exact ⟨scan, .refl scan, rest, step_eq⟩
  | succ count ih =>
    cases h with
    | head rest step_eq reaches =>
      obtain ⟨before, hreaches, hlast⟩ := ih reaches
      exact ⟨before, .head rest step_eq hreaches, hlast⟩

section

variable (hresolved : grammar.Resolved) {line : List Char} {stack : Stack}
  (hstack : stack.Within grammar.contexts.length)

include hresolved hstack

/-- As long as some text is left, no marker was taken in the line. -/
theorem Reaches.not_continued {count : Nat} {last : Scan}
    (h : Reaches grammar leading count (start line stack) last) (hrest : last.rest ≠ []) :
    last.lineContinue = false := by
  induction count generalizing last with
  | zero =>
    cases h
    rfl
  | succ count ih =>
    obtain ⟨before, hreaches, hbefore, hstep⟩ := h.exists_last
    obtain ⟨-, hwithin⟩ := hreaches.invariant hresolved (at_start line stack) hstack
    by_contra hcontinue
    rw [Bool.not_eq_false, lineContinue_of_step hresolved hwithin hbefore hstep
      (ih hreaches hbefore)] at hcontinue
    obtain ⟨marker, hmarker⟩ := hcontinue
    exact hrest (closes_of_takesMarker hresolved hwithin hbefore hstep hmarker).1

/-- The flag of a line is that of its last step. -/
theorem Reaches.lineContinue_iff {count : Nat} {last : Scan}
    (h : Reaches grammar leading count (start line stack) last) :
    last.lineContinue = true ↔ ∃ before scan marker, count = before + 1 ∧
      Reaches grammar leading before (start line stack) scan ∧ scan.rest ≠ [] ∧
      scan.step grammar leading = .ok last ∧ scan.TakesMarker grammar leading marker := by
  have hlast : ∀ before scan, Reaches grammar leading before (start line stack) scan →
      scan.rest ≠ [] → scan.step grammar leading = .ok last →
      (last.lineContinue = true ↔ ∃ marker, scan.TakesMarker grammar leading marker) := by
    intro before scan hreaches hrest hstep
    obtain ⟨-, hwithin⟩ := hreaches.invariant hresolved (at_start line stack) hstack
    exact lineContinue_of_step hresolved hwithin hrest hstep
      (hreaches.not_continued hresolved hstack hrest)
  constructor
  · intro hcontinue
    cases count with
    | zero =>
      cases h
      cases hcontinue
    | succ before =>
      obtain ⟨scan, hreaches, hrest, hstep⟩ := h.exists_last
      obtain ⟨marker, hmarker⟩ := (hlast before scan hreaches hrest hstep).1 hcontinue
      exact ⟨before, scan, marker, rfl, hreaches, hrest, hstep, hmarker⟩
  · rintro ⟨before, scan, marker, -, hreaches, hrest, hstep, hmarker⟩
    exact (hlast before scan hreaches hrest hstep).2 ⟨marker, hmarker⟩

end

end Scan

/-! ## The end of a line -/

namespace Grammar

/-- The stack that the context on top leaves behind at the end of a line. -/
def afterLineEnd (grammar : Grammar) (stack : Stack) : Stack :=
  match grammar.contexts[stack.current]? with
  | some context => context.lineEnd.apply stack none
  | none => stack

/-- The context on top stays at the end of a line, or its switch does not change the stack. -/
def Settled (grammar : Grammar) (stack : Stack) : Prop :=
  ∃ context, grammar.contexts[stack.current]? = some context ∧
    (context.lineEnd.isStay = true ∨ context.lineEnd.apply stack none = stack)

/-- The stack settles after `count` switches: it is the first one that is settled, or there is none
and the limit is reached. -/
structure SettlesAt (grammar : Grammar) (limit : Nat) (stack : Stack) (count : Nat) : Prop where
  count_le : count ≤ limit
  moves : ∀ earlier < count, ¬grammar.Settled (grammar.afterLineEnd^[earlier] stack)
  settled : count < limit → grammar.Settled (grammar.afterLineEnd^[count] stack)

variable {grammar : Grammar} {limit : Nat} {stack : Stack}

theorem settled_iff {context : Context}
    (hcontext : grammar.contexts[stack.current]? = some context) :
    grammar.Settled stack ↔ context.lineEnd.apply stack none = stack := by
  constructor
  · rintro ⟨other, hother, hstay | hsame⟩
    · rw [hcontext] at hother
      cases hother
      exact Switch.apply_of_isStay hstay stack none
    · rw [hcontext] at hother
      cases hother
      exact hsame
  · intro hsame
    exact ⟨context, hcontext, .inr hsame⟩

theorem afterLineEnd_eq {context : Context}
    (hcontext : grammar.contexts[stack.current]? = some context) :
    grammar.afterLineEnd stack = context.lineEnd.apply stack none := by
  rw [afterLineEnd, hcontext]

/-- There is one number of switches after which a stack settles. -/
theorem SettlesAt.unique {first second : Nat} (h : grammar.SettlesAt limit stack first)
    (hother : grammar.SettlesAt limit stack second) : first = second := by
  rcases Nat.lt_trichotomy first second with hless | hsame | hless
  · have hle := hother.count_le
    exact absurd (h.settled (by omega)) (hother.moves first hless)
  · exact hsame
  · have hle := h.count_le
    exact absurd (hother.settled (by omega)) (h.moves second hless)

/-- One more switch in front of a stack that settles. -/
theorem SettlesAt.succ {count : Nat} (hmoves : ¬grammar.Settled stack)
    (h : grammar.SettlesAt limit (grammar.afterLineEnd stack) count) :
    grammar.SettlesAt (limit + 1) stack (count + 1) := by
  refine ⟨Nat.succ_le_succ h.count_le, ?_, ?_⟩
  · intro earlier hearlier
    cases earlier with
    | zero => exact hmoves
    | succ earlier => exact h.moves earlier (Nat.lt_of_succ_lt_succ hearlier)
  · intro hless
    exact h.settled (Nat.lt_of_succ_lt_succ hless)

/-- The stack that is left at the end of a line is the one that settles. -/
theorem exists_settlesAt {settled : Stack} {notices : List Notice}
    (h : settleLineEnd grammar limit stack = .ok (settled, notices)) :
    ∃ count, grammar.SettlesAt limit stack count ∧
      settled = grammar.afterLineEnd^[count] stack := by
  induction limit generalizing stack notices with
  | zero =>
    obtain ⟨context, -, rfl, -⟩ := settleLineEnd_zero_eq_ok_iff.1 h
    refine ⟨0, ⟨Nat.le_refl 0, ?_, ?_⟩, rfl⟩
    · intro earlier hearlier
      cases hearlier
    · intro hless
      cases hless
  | succ limit ih =>
    obtain ⟨context, hcontext, hswitch⟩ := settleLineEnd_succ_eq_ok_iff.1 h
    have hget := getElem?_of_context hcontext
    split at hswitch
    · next hsame =>
      obtain ⟨rfl, -⟩ := hswitch
      refine ⟨0, ⟨Nat.zero_le _, ?_, fun _ => (settled_iff hget).2 hsame⟩, rfl⟩
      intro earlier hearlier
      cases hearlier
    · next hchanges =>
      obtain ⟨more, hlater, -⟩ := hswitch
      rw [← afterLineEnd_eq hget] at hlater
      obtain ⟨count, hsettles, rfl⟩ := ih hlater
      exact ⟨count + 1, hsettles.succ (mt (settled_iff hget).1 hchanges), rfl⟩

end Grammar

/-- What follows the scan of a line.  The line is continued exactly if its last step takes the marker
of a rule that says so; the marker is then the last character of the line and of its spans, and the
stack goes on as it is.  Otherwise the switches for the end of the line are taken until the stack
settles, or `1024` of them, and then the switch for the beginning of a line of the context that is
on top by then. -/
theorem highlightLine_boundary {description : GrammarDef} {grammar : Grammar}
    (hbuild : description.build.result = .ok grammar) (line : List Char) {stack : Stack}
    (hstack : stack.Within grammar.contexts.length) :
    ∃ result count last, highlightLine grammar line stack = .ok result ∧
      Scan.Reaches grammar (leadingBlanks line) count (Scan.start line stack) last ∧
      last.rest = [] ∧
      (result.lineContinue = true ↔ line ≠ [] ∧ ∃ before scan marker, count = before + 1 ∧
        Scan.Reaches grammar (leadingBlanks line) before (Scan.start line stack) scan ∧
        scan.step grammar (leadingBlanks line) = .ok last ∧
        scan.TakesMarker grammar (leadingBlanks line) marker) ∧
      (∀ before scan marker, count = before + 1 →
        Scan.Reaches grammar (leadingBlanks line) before (Scan.start line stack) scan →
        scan.step grammar (leadingBlanks line) = .ok last →
        scan.TakesMarker grammar (leadingBlanks line) marker →
        (∃ front style, line = front ++ [marker] ∧
          result.spans.getLast? = some ⟨byteLength front, byteLength line, style⟩) ∧
        result.endStack = last.stack) ∧
      (result.lineContinue = false → ∃ switches context,
        grammar.SettlesAt 1024 last.stack switches ∧
        (∀ other, grammar.SettlesAt 1024 last.stack other → other = switches) ∧
        grammar.contexts[(grammar.afterLineEnd^[switches] last.stack).current]? = some context ∧
        result.endStack =
          context.lineBegin.apply (grammar.afterLineEnd^[switches] last.stack) none) := by
  have hresolved : grammar.Resolved := Grammar.Built.resolved ⟨description, hbuild⟩
  obtain ⟨result, count, last, hresult, hreaches, hend, hcloses, -⟩ :=
    exists_highlightLine hresolved line hstack
  have hflag := hreaches.lineContinue_iff hresolved hstack
  refine ⟨result, count, last, hresult, hreaches, hend, ?_, ?_, ?_⟩
  · rw [hcloses.lineContinue, hflag]
    constructor
    · rintro ⟨before, scan, marker, hcount, hscan, hrest, hstep, hmarker⟩
      refine ⟨?_, before, scan, marker, hcount, hscan, hstep, hmarker⟩
      rintro rfl
      subst hcount
      cases hreaches with
      | head rest step_eq reaches => exact rest rfl
    · rintro ⟨-, before, scan, marker, hcount, hscan, hstep, hmarker⟩
      have hrest : scan.rest ≠ [] := by simp [Scan.rest_eq_of_takesMarker hmarker]
      exact ⟨before, scan, marker, hcount, hscan, hrest, hstep, hmarker⟩
  · intro before scan marker hcount hscan hstep hmarker
    have hleft := Scan.rest_eq_of_takesMarker hmarker
    have hrest : scan.rest ≠ [] := by simp [hleft]
    obtain ⟨hat, hwithin⟩ := hscan.invariant hresolved (Scan.at_start line stack) hstack
    obtain ⟨-, hpending, hoffset, style, spans, hspans⟩ :=
      Scan.closes_of_takesMarker hresolved hwithin hrest hstep hmarker
    refine ⟨?_, hcloses.continued
      (hflag.2 ⟨before, scan, marker, hcount, hscan, hrest, hstep, hmarker⟩)⟩
    obtain ⟨front, hline, hfront, -, -⟩ := hat
    rw [hleft] at hline
    obtain ⟨context, -, hresultSpans⟩ := hcloses.spans
    refine ⟨front, style, hline, ?_⟩
    have hstop : byteLength line = last.offset := by
      rw [hline, byteLength_append, hfront, hoffset, byteLength_cons, byteLength_nil]
      rfl
    rw [hresultSpans, List.getLast?_reverse, Scan.flush, hpending,
      if_neg (Nat.lt_irrefl last.offset), hspans, hfront, hstop]
    rfl
  · intro hended
    rw [hcloses.lineContinue] at hended
    obtain ⟨notices, hnext⟩ := hcloses.ended hended
    obtain ⟨settled, first, context, hsettled, hcontext, hlast, -⟩ :=
      nextLineStack_eq_ok_iff.1 hnext
    obtain ⟨switches, hsettles, rfl⟩ := Grammar.exists_settlesAt hsettled
    exact ⟨switches, context, hsettles, fun other hother => hother.unique hsettles,
      Grammar.getElem?_of_context hcontext, hlast⟩

/-- A small language with notes up to the end of a line, which a backslash continues. -/
def notedText : GrammarDef where
  name := "Noted text"
  contexts :=
    [{ name := "Text", rules := [{ kind := .char '#', options := { switch := "Note" } }] },
      { name := "Note", lineEnd := "#pop", rules := [{ kind := .lineContinue '\\' }] }]

def noteContext : Context :=
  { Context.ofRules "Note" [RuleKind.toRule (.lineContinue '\\')] with lineEnd := ⟨1, none⟩ }

/-- The context of plain text stays at both ends of a line. -/
theorem notedText_build : ∃ grammar text, notedText.build.result = .ok grammar ∧
    grammar.contexts = [text, noteContext] ∧ text.lineEnd = .stay ∧ text.lineBegin = .stay := by
  obtain ⟨grammar, hbuild, hcontexts, -⟩ :=
    @GrammarDef.exists_build notedText [] _ (by simp [notedText]) (by decide) rfl rfl (by decide)
  exact ⟨grammar, _, hbuild, hcontexts, rfl, rfl⟩

/-- The backslash of a note is taken as the marker of its rule. -/
theorem noteContext_takesMarker {grammar : Grammar}
    (hcontext : grammar.contexts[1]? = some noteContext) (leading : Nat) :
    (Scan.start ['\\'] ((Stack.single 0).push 1 none)).TakesMarker grammar leading '\\' := by
  have hflat : grammar.flatten noteContext.rules =
      [.plain (RuleKind.toRule (.lineContinue '\\'))] :=
    Grammar.flatten_of_plain rfl
  refine ⟨noteContext, .plain (RuleKind.toRule (.lineContinue '\\')), ⟨1, none, none, true, none⟩,
    hcontext, ⟨[], [], hflat, by simp, ?_⟩, rfl, Nat.one_pos⟩
  refine Spliced.finds_plain rfl
    (?_ : grammar.tryRule _ _ = .ok ⟨[], some ⟨1, none, none, true, none⟩⟩)
  rw [Grammar.tryRule]
  simp [Rule.allows, Rule.detect, Rule.length?, Rule.toMatch, RuleKind.toRule, Scan.cursor,
    Scan.start, bind, Except.bind, Rule.isLineContinue, Switch.isStay, Switch.stay]
  decide

/-- Without a marker a note ends with its line. -/
theorem noteContext_settlesAt {grammar : Grammar} {text : Context}
    (hcontexts : grammar.contexts = [text, noteContext]) (hstays : text.lineEnd = .stay) :
    grammar.afterLineEnd ((Stack.single 0).push 1 none) = Stack.single 0 ∧
      grammar.SettlesAt 1024 ((Stack.single 0).push 1 none) 1 := by
  have hnote : grammar.contexts[((Stack.single 0).push 1 none).current]? = some noteContext := by
    rw [hcontexts]
    rfl
  have htext : grammar.contexts[(Stack.single 0).current]? = some text := by
    rw [hcontexts]
    rfl
  have hafter : grammar.afterLineEnd ((Stack.single 0).push 1 none) = Stack.single 0 := by
    rw [Grammar.afterLineEnd_eq hnote]
    rfl
  have hmoves : ¬grammar.Settled ((Stack.single 0).push 1 none) := by
    rw [Grammar.settled_iff hnote]
    decide
  have hsettled : grammar.SettlesAt 1023 (Stack.single 0) 0 :=
    ⟨Nat.zero_le _, fun _ hearlier => absurd hearlier (Nat.not_lt_zero _),
      fun _ => ⟨text, htext, .inl (by rw [hstays]; rfl)⟩⟩
  rw [← hafter] at hsettled
  exact ⟨hafter, hsettled.succ hmoves⟩

/-- A note that is continued and one that ends with its line. -/
theorem highlightLine_boundary_notedText :
    ∃ grammar, notedText.build.result = .ok grammar ∧
      (∃ result, highlightLine grammar ['\\'] ((Stack.single 0).push 1 none) = .ok result ∧
        result.lineContinue = true ∧ ∃ style, result.spans.getLast? = some ⟨0, 1, style⟩) ∧
      ∃ result, highlightLine grammar [] ((Stack.single 0).push 1 none) = .ok result ∧
        result.lineContinue = false ∧ result.endStack = Stack.single 0 := by
  obtain ⟨grammar, text, hbuild, hcontexts, hlineEnd, hlineBegin⟩ := notedText_build
  have hresolved : grammar.Resolved := Grammar.Built.resolved ⟨notedText, hbuild⟩
  have hcontext : grammar.contexts[1]? = some noteContext := by
    rw [hcontexts]
    rfl
  have hstack : ((Stack.single 0).push 1 none).Within grammar.contexts.length := by
    rw [hcontexts]
    exact (Stack.within_single Nat.two_pos).push Nat.one_lt_two none
  refine ⟨grammar, hbuild, ?_, ?_⟩
  · obtain ⟨result, count, last, hresult, hreaches, hend, hflag, hcloses, -⟩ :=
      highlightLine_boundary hbuild ['\\'] hstack
    have hmarker := noteContext_takesMarker hcontext (leadingBlanks ['\\'])
    obtain ⟨rfl, hstep⟩ : count = 0 + 1 ∧
        (Scan.start ['\\'] ((Stack.single 0).push 1 none)).step grammar (leadingBlanks ['\\']) =
          .ok last := by
      cases hreaches with
      | refl => cases hend
      | head rest step_eq reaches =>
        obtain ⟨hnext, -⟩ := Scan.closes_of_takesMarker hresolved hstack rest step_eq hmarker
        cases reaches with
        | refl => exact ⟨rfl, step_eq⟩
        | head rest => exact absurd hnext rest
    obtain ⟨⟨front, style, hline, hspan⟩, -⟩ := hcloses 0 _ _ rfl (.refl _) hstep hmarker
    refine ⟨result, hresult, hflag.2 ⟨by simp, 0, _, _, rfl, .refl _, hstep, hmarker⟩, style, ?_⟩
    obtain rfl : front = [] := by
      cases front with
      | nil => rfl
      | cons c front => simp at hline
    exact hspan
  · obtain ⟨result, count, last, hresult, hreaches, -, hflag, -, hended⟩ :=
      highlightLine_boundary hbuild [] hstack
    have hcontinue : result.lineContinue = false := by
      rw [← Bool.not_eq_true, hflag]
      exact fun h => h.1 rfl
    obtain rfl : Scan.start [] ((Stack.single 0).push 1 none) = last := by
      cases hreaches with
      | refl => rfl
      | head rest => exact absurd rfl rest
    obtain ⟨hafter, hsettles⟩ := noteContext_settlesAt hcontexts hlineEnd
    obtain ⟨switches, context, -, hunique, hcurrent, hstackEnd⟩ := hended hcontinue
    -- One switch settles the stack, so it is the number of switches that were taken.
    obtain rfl : 1 = switches := hunique 1 hsettles
    have hstackAfter : grammar.afterLineEnd^[1]
        (Scan.start [] ((Stack.single 0).push 1 none)).stack = Stack.single 0 := hafter
    rw [hstackAfter, hcontexts] at hcurrent
    obtain rfl : text = context := Option.some.inj hcurrent
    refine ⟨result, hresult, hcontinue, ?_⟩
    rw [hstackEnd, hstackAfter, hlineBegin]
    rfl

end Highlight
