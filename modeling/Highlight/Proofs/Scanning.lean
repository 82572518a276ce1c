import Highlight.Line
import Highlight.Proofs.Matching

/-!
# Scanning a line in a resolved grammar

This module says once what a step of scanning does, and that scanning with a stack of a resolved
grammar always comes to the end of the line.

There are five groups.

* Conditions.  What scanning asks about a match and about the context: whether it takes text, and
  whether its switch may be taken.
* Places.  `Scan.At` says that a scan is at a place of a line: what it keeps of the text before the
  place is true of that text.  `At.cursor_eq` is what it is for: the cursor of the rules is the one
  that is built at the offset.
* Moves.  `Decides` lists the four ways in which a move is chosen, each with its condition, and
  `Performs` what each move makes of a scan.
* Steps and runs.  `exists_step` is the step lemma: a step succeeds, stays at a place of the line
  and keeps the stack in the grammar.  `Reaches` is a number of steps, and `exists_run` carries the
  step lemma along the whole run.
* The end of a line.  `settleLineEnd_succ_eq_ok_iff` says what one switch behind the text does,
  `exists_nextLineStack` follows all of them, and `exists_highlightLine` puts the run and the end of
  the line together.
-/

namespace Highlight

/-! ## Conditions -/

/-- What was found takes text. -/
def Consumes (found : Option RuleMatch) : Prop :=
  ∃ matched, found = some matched ∧ 0 < matched.length

/-- What was found takes no text, its switch changes the stack, and one more switch is allowed. -/
def Diverts (found : Option RuleMatch) (stack : Stack) (zeroWidth : Nat) : Prop :=
  ∃ matched, found = some matched ∧ matched.length = 0 ∧ matched.nextStack stack ≠ stack ∧
    zeroWidth < zeroWidthLimit

/-- The fallthrough switch of the context changes the stack, and one more switch is allowed. -/
def FallsThrough (context : Context) (stack : Stack) (zeroWidth : Nat) : Prop :=
  context.fallthrough.apply stack none ≠ stack ∧ zeroWidth < zeroWidthLimit

namespace Scan

/-! ## Places -/

/-- The scan has read a first part of the line, and what it keeps of that part is true. -/
def At (line : List Char) (scan : Scan) : Prop :=
  ∃ skipped, line = skipped ++ scan.rest ∧ byteLength skipped = scan.offset ∧
    skipped.getLast? = scan.before ∧ skipped.length = scan.column

theorem at_start (line : List Char) (stack : Stack) : (start line stack).At line :=
  ⟨[], rfl, rfl, rfl, rfl⟩

/-- The cursor that the rules are tried at is the cursor at the offset of the scan. -/
theorem At.cursor_eq {line : List Char} {scan : Scan} (h : scan.At line) (grammar : Grammar)
    (leading : Nat) :
    Cursor.at? line scan.offset scan.column leading scan.stack.currentData grammar.delimiters =
      some (scan.cursor grammar leading) := by
  obtain ⟨skipped, hline, hoffset, hbefore, -⟩ := h
  have hsplit : splitAtByte? scan.offset line = some (skipped, scan.rest) :=
    splitAtByte?_eq_some_iff.2 ⟨hline, hoffset⟩
  rw [Cursor.at?, hsplit, Option.map_some]
  simp only [hbefore, cursor]

theorem At.isBoundary {line : List Char} {scan : Scan} (h : scan.At line) :
    IsBoundary line scan.offset := by
  obtain ⟨skipped, hline, hoffset, -, -⟩ := h
  exact ⟨skipped, scan.rest, hline, hoffset⟩

/-- At the end of the line all of its bytes are behind the scan. -/
theorem At.offset_eq {line : List Char} {scan : Scan} (h : scan.At line)
    (hrest : scan.rest = []) : scan.offset = byteLength line := by
  obtain ⟨skipped, hline, hoffset, -, -⟩ := h
  rw [hline, hrest, List.append_nil, hoffset]

/-- A scan that has read some more text is at the place behind that text. -/
theorem At.advance {line : List Char} {scan next : Scan} (h : scan.At line)
    {taken : List Char} (hrest : scan.rest = taken ++ next.rest)
    (hbefore : next.before = lastChar scan.before taken)
    (hoffset : next.offset = scan.offset + byteLength taken)
    (hcolumn : next.column = scan.column + taken.length) : next.At line := by
  obtain ⟨skipped, hline, hskippedBytes, hlast, hlength⟩ := h
  refine ⟨skipped ++ taken, ?_, ?_, ?_, ?_⟩
  · rw [hline, hrest, List.append_assoc]
  · rw [byteLength_append, hskippedBytes, hoffset]
  · rw [hbefore, lastChar, ← hlast, List.getLast?_append]
  · rw [List.length_append, hlength, hcolumn]

/-! ## Moves -/

/-- The move that a scan makes in a context whose rules found something or nothing. -/
inductive Decides (scan : Scan) (context : Context) (found : Option RuleMatch) : Move → Prop
  /-- The text of the match is taken. -/
  | consume {matched : RuleMatch} (found_eq : found = some matched)
      (length : 0 < matched.length) :
      Decides scan context found (.consume matched (matched.nextStack scan.stack))
  /-- The switch of a match without text is taken. -/
  | divert {matched : RuleMatch} (found_eq : found = some matched)
      (length : matched.length = 0) (changes : matched.nextStack scan.stack ≠ scan.stack)
      (limit : scan.zeroWidth < zeroWidthLimit) :
      Decides scan context found (.divert (matched.nextStack scan.stack))
  /-- The fallthrough switch is taken. -/
  | fallThrough (consumes : ¬Consumes found)
      (diverts : ¬Diverts found scan.stack scan.zeroWidth)
      (changes : context.fallthrough.apply scan.stack none ≠ scan.stack)
      (limit : scan.zeroWidth < zeroWidthLimit) :
      Decides scan context found (.divert (context.fallthrough.apply scan.stack none))
  /-- The character is left to the context. -/
  | pass (consumes : ¬Consumes found) (diverts : ¬Diverts found scan.stack scan.zeroWidth)
      (fallsThrough : ¬FallsThrough context scan.stack scan.zeroWidth) :
      Decides scan context found .pass

theorem decides_fallThrough {scan : Scan} {context : Context} {found : Option RuleMatch}
    (hconsumes : ¬Consumes found) (hdiverts : ¬Diverts found scan.stack scan.zeroWidth) :
    scan.Decides context found (scan.fallThrough context).1 := by
  unfold fallThrough
  split
  · next hlimit =>
    split
    · next hstay =>
      refine .pass hconsumes hdiverts ?_
      rintro ⟨hchanges, -⟩
      exact hchanges (Switch.apply_of_isStay hstay scan.stack none)
    · simp only
      split
      · next hsame => exact .pass hconsumes hdiverts fun h => h.1 hsame
      · next hchanges => exact .fallThrough hconsumes hdiverts hchanges hlimit
  · next hlimit => exact .pass hconsumes hdiverts fun h => hlimit h.2

/-- A match without a switch leaves the stack alone. -/
theorem nextStack_of_switch_eq_none {found : RuleMatch} (h : found.switch = none)
    (stack : Stack) : found.nextStack stack = stack := by
  rw [RuleMatch.nextStack, h]

theorem decides_chooseMove (scan : Scan) (context : Context) (found : Option RuleMatch) :
    scan.Decides context found (scan.chooseMove context found).1 := by
  cases found with
  | none =>
    refine decides_fallThrough ?_ ?_
    · rintro ⟨matched, hmatched, -⟩
      cases hmatched
    · rintro ⟨matched, hmatched, -⟩
      cases hmatched
  | some matched =>
    simp only [chooseMove]
    split
    · next hlength => exact .consume rfl hlength
    · next hlength =>
      have hzero : matched.length = 0 := by omega
      split
      · next hdivert =>
        simp only [Bool.and_eq_true, decide_eq_true_eq] at hdivert
        exact .divert rfl hzero hdivert.1.2 hdivert.2
      · next hdivert =>
        refine decides_fallThrough ?_ ?_
        · rintro ⟨other, hother, hpos⟩
          cases hother
          exact hlength hpos
        · rintro ⟨other, hother, -, hchanges, hlimit⟩
          cases hother
          apply hdivert
          have hswitch : matched.switch.isSome = true := by
            cases hswitch : matched.switch with
            | none => exact absurd (nextStack_of_switch_eq_none hswitch scan.stack) hchanges
            | some switch => rfl
          simp [hswitch, hchanges, hlimit]

/-! ## Steps -/

/-- What a move makes of a scan. -/
inductive Performs (scan : Scan) (context : Context) : Move → Scan → Prop
  /-- The text is cut behind the match; what was pending before it is in a span. -/
  | consume {matched : RuleMatch} {stack : Stack} {taken left : List Char}
      (rest_eq : scan.rest = taken ++ left) (length_eq : byteLength taken = matched.length) :
      Performs scan context (.consume matched stack)
        { scan.flush context.style with
          before := lastChar scan.before taken
          rest := left
          offset := scan.offset + matched.length
          column := scan.column + taken.length
          pending := scan.offset + matched.length
          stack
          zeroWidth := 0
          lineContinue := matched.lineContinue
          spans :=
            ⟨scan.offset, scan.offset + matched.length, matched.style.getD context.style⟩ ::
              (scan.flush context.style).spans }
  /-- What was pending is in a span, and the scan goes on at the same place. -/
  | divert {stack : Stack} :
      Performs scan context (.divert stack)
        { scan.flush context.style with stack, zeroWidth := scan.zeroWidth + 1 }
  /-- The next character is pending. -/
  | pass {c : Char} {left : List Char} (rest_eq : scan.rest = c :: left) :
      Performs scan context .pass
        { scan with
          before := some c
          rest := left
          offset := scan.offset + c.utf8Size
          column := scan.column + 1
          zeroWidth := 0
          lineContinue := false }

/-- A move whose text is whole characters can be made while some text is left. -/
theorem exists_perform {scan : Scan} {context : Context} {found : Option RuleMatch} {move : Move}
    (hdecides : scan.Decides context found move) (hrest : scan.rest ≠ [])
    (hboundary : ∀ matched, found = some matched → IsBoundary scan.rest matched.length) :
    ∃ next, scan.perform context move = .ok next ∧ scan.Performs context move next := by
  cases hdecides with
  | @consume matched found_eq length =>
    obtain ⟨taken, left, hsplit⟩ := isBoundary_iff.1 (hboundary matched found_eq)
    obtain ⟨happend, hlength⟩ := splitAtByte?_eq_some_iff.1 hsplit
    refine ⟨_, ?_, .consume happend hlength⟩
    simp only [perform, hsplit]
  | divert found_eq length changes limit => exact ⟨_, rfl, .divert⟩
  | fallThrough consumes diverts changes limit => exact ⟨_, rfl, .divert⟩
  | pass consumes diverts fallsThrough =>
    cases hscan : scan.rest with
    | nil => exact absurd hscan hrest
    | cons c left =>
      refine ⟨_, ?_, .pass hscan⟩
      simp only [perform, hscan]

theorem Performs.at {line : List Char} {scan next : Scan} {context : Context} {move : Move}
    (h : scan.Performs context move next) (hat : scan.At line) : next.At line := by
  cases h with
  | @consume matched stack taken left rest_eq length_eq =>
    exact hat.advance rest_eq rfl (by rw [length_eq]) rfl
  | divert => exact hat
  | @pass c left rest_eq =>
    have htaken : scan.rest = [c] ++ left := rest_eq
    exact hat.advance htaken rfl (by simp) rfl

/-- A match of a grammar leads to a stack of that grammar. -/
theorem within_nextStack {size : Nat} {cursor : Cursor} {matched : RuleMatch}
    (h : matched.Fits size cursor) {stack : Stack} (hstack : stack.Within size) :
    (matched.nextStack stack).Within size := by
  unfold RuleMatch.nextStack
  split
  · next switch hswitch => exact hstack.apply (h.switch switch hswitch) matched.captures
  · exact hstack

/-- What a step does in a context whose rules found something or nothing: a move is chosen and
made, and notices are added. -/
def Follows (scan : Scan) (context : Context) (found : Option RuleMatch) (next : Scan) : Prop :=
  ∃ move moved notices, scan.Decides context found move ∧
    scan.Performs context move moved ∧ next = moved.note notices

theorem Follows.at {line : List Char} {scan next : Scan} {context : Context}
    {found : Option RuleMatch} (h : scan.Follows context found next) (hat : scan.At line) :
    next.At line := by
  obtain ⟨move, moved, notices, -, hperforms, rfl⟩ := h
  exact hperforms.at hat

theorem Follows.within {size : Nat} {scan next : Scan} {context : Context}
    {found : Option RuleMatch} {cursor : Cursor} (h : scan.Follows context found next)
    (hcontext : context.Within size) (hfits : ∀ matched, found = some matched →
      matched.Fits size cursor) (hstack : scan.stack.Within size) : next.stack.Within size := by
  obtain ⟨move, moved, notices, hdecides, hperforms, rfl⟩ := h
  cases hdecides with
  | consume found_eq length =>
    cases hperforms
    exact within_nextStack (hfits _ found_eq) hstack
  | divert found_eq length changes limit =>
    cases hperforms
    exact within_nextStack (hfits _ found_eq) hstack
  | fallThrough consumes diverts changes limit =>
    cases hperforms
    exact hstack.apply hcontext.fallthrough none
  | pass consumes diverts fallsThrough =>
    cases hperforms
    exact hstack

/-- The step lemma: in a resolved grammar a step finds its context, tries the rules at its cursor
and follows what they found. -/
theorem exists_step {grammar : Grammar} (hresolved : grammar.Resolved) (leading : Nat)
    {scan : Scan} (hstack : scan.stack.Within grammar.contexts.length) (hrest : scan.rest ≠ []) :
    ∃ context trial next, grammar.context scan.stack.current = .ok context ∧
      grammar.tryRules context.rules (scan.cursor grammar leading) = .ok trial ∧
      scan.step grammar leading = .ok next ∧ scan.Follows context trial.found next ∧
      next.stack.Within grammar.contexts.length := by
  obtain ⟨context, hcontext, -, hwithin⟩ := Grammar.exists_context hresolved hstack.current_lt
  obtain ⟨trial, htrial, hfits⟩ :=
    Grammar.exists_tryRules hresolved hwithin (scan.cursor grammar leading)
  have hdecides := scan.decides_chooseMove context trial.found
  obtain ⟨moved, hmoved, hperforms⟩ := exists_perform hdecides hrest
    fun matched hmatched => (hfits matched hmatched).boundary
  have hfollows : scan.Follows context trial.found (moved.note (trial.broken.map .brokenPattern ++
      (scan.chooseMove context trial.found).2)) :=
    ⟨_, moved, _, hdecides, hperforms, rfl⟩
  refine ⟨context, trial, _, hcontext, htrial, ?_, hfollows, ?_⟩
  · simp only [step, hcontext, htrial, hmoved, bind, Except.bind]
  · exact hfollows.within hwithin hfits hstack

/-- What a step of a scan in a resolved grammar has done. -/
theorem follows_of_step {grammar : Grammar} (hresolved : grammar.Resolved) {leading : Nat}
    {scan next : Scan} (hstack : scan.stack.Within grammar.contexts.length)
    (hrest : scan.rest ≠ []) (hstep : scan.step grammar leading = .ok next) :
    ∃ context trial, grammar.context scan.stack.current = .ok context ∧
      grammar.tryRules context.rules (scan.cursor grammar leading) = .ok trial ∧
      scan.Follows context trial.found next ∧ next.stack.Within grammar.contexts.length := by
  obtain ⟨context, trial, other, hcontext, htrial, hother, hfollows, hwithin⟩ :=
    exists_step hresolved leading hstack hrest
  rw [hstep] at hother
  cases hother
  exact ⟨context, trial, hcontext, htrial, hfollows, hwithin⟩

/-! ## Runs -/

/-- A scan comes to another by a number of steps. -/
inductive Reaches (grammar : Grammar) (leading : Nat) : Nat → Scan → Scan → Prop
  | refl (scan : Scan) : Reaches grammar leading 0 scan scan
  | head {count : Nat} {scan next last : Scan} (rest : scan.rest ≠ [])
      (step_eq : scan.step grammar leading = .ok next)
      (reaches : Reaches grammar leading count next last) :
      Reaches grammar leading (count + 1) scan last

section

variable {grammar : Grammar} {leading : Nat}

theorem run_of_rest_eq_nil {scan : Scan} (h : scan.rest = []) :
    scan.run grammar leading = .ok scan := by
  rw [run, dif_pos h]

/-- A run passes through every scan that its start comes to. -/
theorem Reaches.run_eq {count : Nat} {scan last : Scan}
    (h : Reaches grammar leading count scan last) :
    scan.run grammar leading = last.run grammar leading := by
  induction h with
  | refl scan => rfl
  | head rest step_eq reaches ih =>
    rw [run, dif_neg rest]
    split
    · next fault hfault =>
      rw [step_eq] at hfault
      cases hfault
    · next next hnext =>
      rw [step_eq] at hnext
      cases hnext
      exact ih

/-- What every step keeps holds of every scan on the way, which is at a place of the line and has
a stack of the grammar. -/
theorem Reaches.preserves {p : Scan → Prop} (hresolved : grammar.Resolved) {line : List Char}
    {count : Nat} {scan last : Scan} (h : Reaches grammar leading count scan last)
    (hat : scan.At line) (hstack : scan.stack.Within grammar.contexts.length) (hscan : p scan)
    (hstep : ∀ {scan next : Scan} {context : Context} {found : Option RuleMatch},
      scan.Follows context found next → scan.At line → p scan → p next) :
    last.At line ∧ last.stack.Within grammar.contexts.length ∧ p last := by
  induction h with
  | refl scan => exact ⟨hat, hstack, hscan⟩
  | @head count scan next last rest step_eq reaches ih =>
    obtain ⟨context, trial, -, -, hfollows, hwithin⟩ :=
      follows_of_step hresolved hstack rest step_eq
    exact ih (hfollows.at hat) hwithin (hstep hfollows hat hscan)

theorem Reaches.invariant (hresolved : grammar.Resolved) {line : List Char} {count : Nat}
    {scan last : Scan} (h : Reaches grammar leading count scan last) (hat : scan.At line)
    (hstack : scan.stack.Within grammar.contexts.length) :
    last.At line ∧ last.stack.Within grammar.contexts.length := by
  obtain ⟨hlast, hwithin, -⟩ :=
    h.preserves (p := fun _ => True) hresolved hat hstack trivial fun _ _ _ => trivial
  exact ⟨hlast, hwithin⟩

/-- The run lemma: in a resolved grammar scanning comes to the end of the line. -/
theorem exists_run (hresolved : grammar.Resolved) (leading : Nat) (scan : Scan)
    (hstack : scan.stack.Within grammar.contexts.length) :
    ∃ count last, Reaches grammar leading count scan last ∧
      scan.run grammar leading = .ok last ∧ last.rest = [] := by
  fun_induction run grammar leading scan with
  | case1 scan hrest => exact ⟨0, scan, .refl scan, rfl, hrest⟩
  | case2 scan hrest fault hfault =>
    obtain ⟨context, trial, next, -, -, hstep, -, -⟩ :=
      exists_step hresolved leading hstack hrest
    rw [hfault] at hstep
    cases hstep
  | case3 scan hrest next hnext ih =>
    obtain ⟨context, trial, -, -, -, hwithin⟩ := follows_of_step hresolved hstack hrest hnext
    obtain ⟨count, last, hreaches, hrun, hend⟩ := ih hwithin
    exact ⟨count + 1, last, .head hrest hnext hreaches, hrun, hend⟩

end

end Scan

/-! ## The end of a line -/

theorem Switch.notices_of_isStay {switch : Switch} (h : switch.isStay) (stack : Stack) :
    switch.notices stack = [] := by
  simp only [isStay, Bool.and_eq_true, beq_iff_eq] at h
  simp [notices, Stack.popsTooMany, h.1]

/-- Where no more switches for the end of a line are allowed, the stack stays. -/
theorem settleLineEnd_zero_eq_ok_iff {grammar : Grammar} {stack settled : Stack}
    {notices : List Notice} :
    settleLineEnd grammar 0 stack = .ok (settled, notices) ↔
      ∃ context, grammar.context stack.current = .ok context ∧ settled = stack ∧
        notices = [.lineEndUnsettled context.name] := by
  rw [settleLineEnd]
  cases grammar.context stack.current with
  | error fault => simp [bind, Except.bind]
  | ok context => simp [bind, Except.bind, eq_comm]

/-- The switch of the context on top is taken, and others follow unless it changes nothing. -/
theorem settleLineEnd_succ_eq_ok_iff {grammar : Grammar} {limit : Nat} {stack settled : Stack}
    {notices : List Notice} :
    settleLineEnd grammar (limit + 1) stack = .ok (settled, notices) ↔
      ∃ context, grammar.context stack.current = .ok context ∧
        if context.lineEnd.apply stack none = stack then
          settled = stack ∧ notices = context.lineEnd.notices stack
        else
          ∃ more, settleLineEnd grammar limit (context.lineEnd.apply stack none) =
              .ok (settled, more) ∧ notices = context.lineEnd.notices stack ++ more := by
  rw [settleLineEnd]
  cases grammar.context stack.current with
  | error fault => simp [bind, Except.bind]
  | ok context =>
    simp only [bind, Except.bind, Except.ok.injEq, exists_eq_left']
    by_cases hstay : context.lineEnd.isStay = true
    · rw [if_pos hstay, if_pos (Switch.apply_of_isStay hstay stack none),
        Switch.notices_of_isStay hstay]
      simp [eq_comm]
    · rw [if_neg hstay]
      by_cases hsame : context.lineEnd.apply stack none = stack
      · rw [if_pos hsame, if_pos hsame]
        simp [eq_comm]
      · rw [if_neg hsame, if_neg hsame]
        cases settleLineEnd grammar limit (context.lineEnd.apply stack none) with
        | error fault => simp
        | ok later => simp [Prod.ext_iff, eq_comm]

/-- The stack for the next line is what the switch for the beginning of a line makes of the stack
that settles. -/
theorem nextLineStack_eq_ok_iff {grammar : Grammar} {stack next : Stack}
    {notices : List Notice} :
    nextLineStack grammar stack = .ok (next, notices) ↔
      ∃ settled first context, settleLineEnd grammar lineEndLimit stack = .ok (settled, first) ∧
        grammar.context settled.current = .ok context ∧
        next = context.lineBegin.apply settled none ∧
        notices = first ++ context.lineBegin.notices settled := by
  simp only [nextLineStack, bind, Except.bind]
  cases settleLineEnd grammar lineEndLimit stack with
  | error fault => simp
  | ok found =>
    obtain ⟨settled, first⟩ := found
    simp only [Except.ok.injEq, Prod.mk.injEq]
    cases hcontext : grammar.context settled.current with
    | error fault =>
      simp only [reduceCtorEq, false_iff]
      rintro ⟨other, notices, context, ⟨rfl, -⟩, hother, -⟩
      rw [hcontext] at hother
      cases hother
    | ok context =>
      constructor
      · intro h
        cases h
        exact ⟨settled, first, context, ⟨rfl, rfl⟩, hcontext, rfl, rfl⟩
      · rintro ⟨other, notices, found, ⟨rfl, rfl⟩, hother, rfl, rfl⟩
        rw [hcontext] at hother
        cases hother
        rfl

theorem exists_settleLineEnd {grammar : Grammar} (hresolved : grammar.Resolved) (limit : Nat)
    {stack : Stack} (hstack : stack.Within grammar.contexts.length) :
    ∃ settled notices, settleLineEnd grammar limit stack = .ok (settled, notices) ∧
      settled.Within grammar.contexts.length := by
  induction limit generalizing stack with
  | zero =>
    obtain ⟨context, hcontext, -, -⟩ := Grammar.exists_context hresolved hstack.current_lt
    refine ⟨stack, [.lineEndUnsettled context.name], ?_, hstack⟩
    rw [settleLineEnd, hcontext]
    rfl
  | succ limit ih =>
    obtain ⟨context, hcontext, -, hwithin⟩ :=
      Grammar.exists_context hresolved hstack.current_lt
    rw [settleLineEnd, hcontext]
    simp only [bind, Except.bind]
    split
    · exact ⟨stack, [], rfl, hstack⟩
    · split
      · exact ⟨stack, _, rfl, hstack⟩
      · obtain ⟨settled, notices, hsettled, hlast⟩ := ih (hstack.apply hwithin.lineEnd none)
        rw [hsettled]
        exact ⟨settled, _, rfl, hlast⟩

theorem exists_nextLineStack {grammar : Grammar} (hresolved : grammar.Resolved) {stack : Stack}
    (hstack : stack.Within grammar.contexts.length) :
    ∃ next notices, nextLineStack grammar stack = .ok (next, notices) ∧
      next.Within grammar.contexts.length := by
  obtain ⟨settled, notices, hsettled, hwithin⟩ :=
    exists_settleLineEnd hresolved lineEndLimit hstack
  obtain ⟨context, hcontext, -, hcontextWithin⟩ :=
    Grammar.exists_context hresolved hwithin.current_lt
  refine ⟨context.lineBegin.apply settled none,
    notices ++ context.lineBegin.notices settled, ?_, ?_⟩
  · simp only [nextLineStack, hsettled, hcontext, bind, Except.bind]
  · exact hwithin.apply hcontextWithin.lineBegin none

/-- What a line gives whose scan came to its end: what was pending is in a span, and the stack goes
to the next line by way of the switches for the end of the line unless the line is continued. -/
structure Scan.Closes (grammar : Grammar) (last : Scan) (result : Highlighted) : Prop where
  spans : ∃ context, grammar.context last.stack.current = .ok context ∧
    result.spans = (last.flush context.style).spans.reverse
  lineContinue : result.lineContinue = last.lineContinue
  continued : last.lineContinue = true → result.endStack = last.stack
  ended : last.lineContinue = false →
    ∃ notices, nextLineStack grammar last.stack = .ok (result.endStack, notices)

/-- Highlighting a line in a resolved grammar scans it to its end and closes it there with a stack
of the grammar. -/
theorem exists_highlightLine {grammar : Grammar} (hresolved : grammar.Resolved)
    (line : List Char) {stack : Stack} (hstack : stack.Within grammar.contexts.length) :
    ∃ result count last, highlightLine grammar line stack = .ok result ∧
      Scan.Reaches grammar (leadingBlanks line) count (Scan.start line stack) last ∧
      last.rest = [] ∧ last.Closes grammar result ∧
      result.endStack.Within grammar.contexts.length := by
  obtain ⟨count, last, hreaches, hrun, hend⟩ :=
    Scan.exists_run hresolved (leadingBlanks line) (Scan.start line stack) hstack
  obtain ⟨-, hlast⟩ := hreaches.invariant hresolved (Scan.at_start line stack) hstack
  obtain ⟨context, hcontext, -, -⟩ := Grammar.exists_context hresolved hlast.current_lt
  obtain ⟨next, notices, hnext, hwithin⟩ := exists_nextLineStack hresolved hlast
  cases hcontinue : last.lineContinue with
  | true =>
    have hline : highlightLine grammar line stack =
        .ok ⟨(last.flush context.style).spans.reverse, last.stack, true,
          last.notices.reverse⟩ := by
      simp only [highlightLine, hrun, hcontext, hcontinue, bind, Except.bind, if_true]
    refine ⟨_, count, last, hline, hreaches, hend, ⟨⟨context, hcontext, rfl⟩, ?_, ?_, ?_⟩, hlast⟩
    · rw [hcontinue]
    · intro _
      rfl
    · intro hended
      rw [hcontinue] at hended
      cases hended
  | false =>
    have hline : highlightLine grammar line stack =
        .ok ⟨(last.flush context.style).spans.reverse, next, false,
          last.notices.reverse ++ notices⟩ := by
      simp only [highlightLine, hrun, hcontext, hcontinue, hnext, bind, Except.bind,
        Bool.false_eq_true, if_false]
    refine ⟨_, count, last, hline, hreaches, hend, ⟨⟨context, hcontext, rfl⟩, ?_, ?_, ?_⟩, hwithin⟩
    · rw [hcontinue]
    · intro hcontinued
      rw [hcontinue] at hcontinued
      cases hcontinued
    · intro _
      exact ⟨notices, hnext⟩

end Highlight
