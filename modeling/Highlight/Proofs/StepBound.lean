import Highlight.Proofs.Scanning

/-!
# How many steps a line takes

Contexts may push and pop each other in circles, so a stack alone does not bound what happens at one
offset.  The limit on switches without text does: between two characters that are read there are at
most `zeroWidthLimit` steps, each of which changes the stack, and so a line of `n` characters takes
at most `65 * n` steps.  Behind the text the number of switches is bounded as well.

There are three groups.

* Steps.  A step either reads some text or takes a counted switch (`Follows.reads_or_switches`).
* Runs.  `stepsLeft` is what a scan may still spend; every step spends some of it
  (`Reaches.count_add_stepsLeft_le`).
* The end of a line.  `Settles` follows the switches for the end of a line one by one and counts
  those that are applied, and `EndsLine` adds the one for the beginning of the next line.
-/

namespace Highlight

namespace Scan

/-! ## Steps -/

/-- A step that takes some text off the rest of the line. -/
def Reads (scan next : Scan) : Prop :=
  ∃ taken, taken ≠ [] ∧ scan.rest = taken ++ next.rest ∧
    next.offset = scan.offset + byteLength taken ∧ next.zeroWidth = 0

/-- A step that stays before the same text: it changes the stack and is counted. -/
structure Switches (scan next : Scan) : Prop where
  rest_eq : next.rest = scan.rest
  offset_eq : next.offset = scan.offset
  changes : next.stack ≠ scan.stack
  limit : scan.zeroWidth < zeroWidthLimit
  counted : next.zeroWidth = scan.zeroWidth + 1

theorem Reads.offset_lt {scan next : Scan} (h : scan.Reads next) : scan.offset < next.offset := by
  obtain ⟨taken, hne, -, hoffset, -⟩ := h
  have hbytes : byteLength taken ≠ 0 := fun hzero => hne (byteLength_eq_zero_iff.1 hzero)
  omega

/-- A match that is refused, for its switch changes nothing or for there were too many of them,
comes to one of these two as well: every step reads or switches. -/
theorem Follows.reads_or_switches {scan next : Scan} {context : Context}
    {found : Option RuleMatch} (h : scan.Follows context found next) :
    scan.Reads next ∨ scan.Switches next := by
  obtain ⟨move, moved, notices, hdecides, hperforms, rfl⟩ := h
  cases hdecides with
  | consume found_eq length =>
    cases hperforms with
    | @consume _ _ taken left rest_eq length_eq =>
      left
      refine ⟨taken, ?_, rest_eq, ?_, rfl⟩
      · rintro rfl
        rw [byteLength_nil] at length_eq
        omega
      · rw [length_eq]
        rfl
  | divert found_eq length changes limit =>
    cases hperforms
    exact .inr ⟨rfl, rfl, changes, limit, rfl⟩
  | fallThrough consumes diverts changes limit =>
    cases hperforms
    exact .inr ⟨rfl, rfl, changes, limit, rfl⟩
  | pass consumes diverts fallsThrough =>
    cases hperforms with
    | @pass c left rest_eq =>
      left
      refine ⟨[c], by simp, rest_eq, ?_, rfl⟩
      rw [byteLength_cons, byteLength_nil]
      rfl

/-! ## Runs -/

/-- How many steps a scan may take at most: at each character the switches and the step over the
character, less the switches that were taken at the first of them. -/
def stepsLeft (scan : Scan) : Nat :=
  (zeroWidthLimit + 1) * scan.rest.length - scan.zeroWidth

/-- Not more switches than allowed were taken at the offset of the scan. -/
def KeepsLimit (scan : Scan) : Prop :=
  scan.zeroWidth ≤ zeroWidthLimit

theorem Follows.keepsLimit {scan next : Scan} {context : Context} {found : Option RuleMatch}
    (h : scan.Follows context found next) : next.KeepsLimit := by
  unfold KeepsLimit
  rcases h.reads_or_switches with ⟨taken, -, -, -, hzero⟩ | hswitches
  · omega
  · have hlimit := hswitches.limit
    have hcounted := hswitches.counted
    omega

/-- Every step spends at least one of those that are left. -/
theorem Follows.stepsLeft_lt {scan next : Scan} {context : Context} {found : Option RuleMatch}
    (h : scan.Follows context found next) (hrest : scan.rest ≠ []) (hlimit : scan.KeepsLimit) :
    next.stepsLeft < scan.stepsLeft := by
  have hpos : 0 < scan.rest.length := List.length_pos_iff.2 hrest
  simp only [KeepsLimit, zeroWidthLimit] at hlimit
  simp only [stepsLeft, zeroWidthLimit]
  rcases h.reads_or_switches with ⟨taken, hne, happend, -, hzero⟩ | hswitches
  · have htaken : 0 < taken.length := List.length_pos_iff.2 hne
    have hlength : scan.rest.length = taken.length + next.rest.length := by
      rw [happend, List.length_append]
    omega
  · have hsame := hswitches.rest_eq
    have hcounted := hswitches.counted
    rw [hsame]
    omega

section

variable {grammar : Grammar} {leading : Nat}

/-- The steps that were taken and those that are left are together not more than were left before. -/
theorem Reaches.count_add_stepsLeft_le (hresolved : grammar.Resolved) {count : Nat}
    {scan last : Scan} (h : Reaches grammar leading count scan last)
    (hstack : scan.stack.Within grammar.contexts.length) (hlimit : scan.KeepsLimit) :
    count + last.stepsLeft ≤ scan.stepsLeft := by
  induction h with
  | refl scan => omega
  | @head count scan next last rest step_eq reaches ih =>
    obtain ⟨context, trial, -, -, hfollows, hwithin⟩ :=
      follows_of_step hresolved hstack rest step_eq
    have hless := hfollows.stepsLeft_lt rest hlimit
    have hlater := ih hwithin hfollows.keepsLimit
    omega

/-- The offset never goes back. -/
theorem Reaches.offset_le (hresolved : grammar.Resolved) {count : Nat} {scan last : Scan}
    (h : Reaches grammar leading count scan last)
    (hstack : scan.stack.Within grammar.contexts.length) : scan.offset ≤ last.offset := by
  induction h with
  | refl scan => exact Nat.le_refl _
  | @head count scan next last rest step_eq reaches ih =>
    obtain ⟨context, trial, -, -, hfollows, hwithin⟩ :=
      follows_of_step hresolved hstack rest step_eq
    have hlater := ih hwithin
    rcases hfollows.reads_or_switches with hreads | hswitches
    · have hless := hreads.offset_lt
      omega
    · have hsame := hswitches.offset_eq
      omega

/-- As long as the offset stays, every step is counted. -/
theorem Reaches.zeroWidth_eq (hresolved : grammar.Resolved) {count : Nat} {scan last : Scan}
    (h : Reaches grammar leading count scan last)
    (hstack : scan.stack.Within grammar.contexts.length) (hsame : last.offset = scan.offset) :
    last.zeroWidth = scan.zeroWidth + count := by
  induction h with
  | refl scan => rfl
  | @head count scan next last rest step_eq reaches ih =>
    obtain ⟨context, trial, -, -, hfollows, hwithin⟩ :=
      follows_of_step hresolved hstack rest step_eq
    have hle := reaches.offset_le hresolved hwithin
    rcases hfollows.reads_or_switches with hreads | hswitches
    · have hless := hreads.offset_lt
      omega
    · have hlater := ih hwithin (by rw [hsame, hswitches.offset_eq])
      rw [hlater, hswitches.counted]
      omega

end

end Scan

/-! ## The end of a line -/

/-- The switches for the end of a line, at most `limit`, with the number of those that are applied
and the stack that is left. -/
inductive Settles (grammar : Grammar) : (limit applied : Nat) → Stack → Stack → Prop
  /-- No more switches are allowed. -/
  | limit {stack : Stack} : Settles grammar 0 0 stack stack
  /-- The context on top stays. -/
  | stay {limit : Nat} {stack : Stack} {context : Context}
      (context_eq : grammar.context stack.current = .ok context)
      (stays : context.lineEnd.isStay = true) : Settles grammar (limit + 1) 0 stack stack
  /-- The switch of the context on top is applied and changes nothing. -/
  | idle {limit : Nat} {stack : Stack} {context : Context}
      (context_eq : grammar.context stack.current = .ok context)
      (moves : context.lineEnd.isStay = false)
      (same : context.lineEnd.apply stack none = stack) :
      Settles grammar (limit + 1) 1 stack stack
  /-- The switch of the context on top is applied and changes the stack. -/
  | switch {limit applied : Nat} {stack settled : Stack} {context : Context}
      (context_eq : grammar.context stack.current = .ok context)
      (changes : context.lineEnd.apply stack none ≠ stack)
      (settles : Settles grammar limit applied (context.lineEnd.apply stack none) settled) :
      Settles grammar (limit + 1) (applied + 1) stack settled

/-- What follows the text of a line that is not continued: the switches for the end of the line, and
the switch for the beginning of a line of the context that they lead to, unless it stays. -/
inductive EndsLine (grammar : Grammar) : (applied : Nat) → Stack → Stack → Prop
  | stay {applied : Nat} {stack settled : Stack} {context : Context}
      (settles : Settles grammar lineEndLimit applied stack settled)
      (context_eq : grammar.context settled.current = .ok context)
      (stays : context.lineBegin.isStay = true) : EndsLine grammar applied stack settled
  | switch {applied : Nat} {stack settled : Stack} {context : Context}
      (settles : Settles grammar lineEndLimit applied stack settled)
      (context_eq : grammar.context settled.current = .ok context)
      (moves : context.lineBegin.isStay = false) :
      EndsLine grammar (applied + 1) stack (context.lineBegin.apply settled none)

variable {grammar : Grammar}

theorem Settles.applied_le {limit applied : Nat} {stack settled : Stack}
    (h : Settles grammar limit applied stack settled) : applied ≤ limit := by
  induction h with
  | limit => exact Nat.le_refl _
  | stay context_eq stays => exact Nat.zero_le _
  | idle context_eq moves same => omega
  | switch context_eq changes settles ih => omega

theorem EndsLine.applied_le {applied : Nat} {stack next : Stack}
    (h : EndsLine grammar applied stack next) : applied ≤ lineEndLimit + 1 := by
  cases h with
  | stay settles context_eq stays =>
    have hle := settles.applied_le
    omega
  | switch settles context_eq moves =>
    have hle := settles.applied_le
    omega

/-- The stack that settles at the end of a line comes from the switches that `Settles` lists. -/
theorem exists_settles {limit : Nat} {stack settled : Stack} {notices : List Notice}
    (h : settleLineEnd grammar limit stack = .ok (settled, notices)) :
    ∃ applied, Settles grammar limit applied stack settled := by
  induction limit generalizing stack notices with
  | zero =>
    obtain ⟨context, -, rfl, -⟩ := settleLineEnd_zero_eq_ok_iff.1 h
    exact ⟨0, .limit⟩
  | succ limit ih =>
    obtain ⟨context, hcontext, hswitch⟩ := settleLineEnd_succ_eq_ok_iff.1 h
    split at hswitch
    · next hsame =>
      obtain ⟨rfl, -⟩ := hswitch
      cases hstay : context.lineEnd.isStay with
      | true => exact ⟨0, .stay hcontext hstay⟩
      | false => exact ⟨1, .idle hcontext hstay hsame⟩
    · next hchanges =>
      obtain ⟨more, hlater, -⟩ := hswitch
      obtain ⟨applied, hsettles⟩ := ih hlater
      exact ⟨applied + 1, .switch hcontext hchanges hsettles⟩

theorem exists_endsLine {stack next : Stack} {notices : List Notice}
    (h : nextLineStack grammar stack = .ok (next, notices)) :
    ∃ applied, EndsLine grammar applied stack next := by
  obtain ⟨settled, first, context, hsettled, hcontext, rfl, -⟩ := nextLineStack_eq_ok_iff.1 h
  obtain ⟨applied, hsettles⟩ := exists_settles hsettled
  cases hbegin : context.lineBegin.isStay with
  | true =>
    rw [Switch.apply_of_isStay hbegin]
    exact ⟨applied, .stay hsettles hcontext hbegin⟩
  | false => exact ⟨applied + 1, .switch hsettles hcontext hbegin⟩

/-- Highlighting a line with a stack of a built grammar takes at most `65` steps for each of its
characters.  Each step reads text or changes the stack, at most `zeroWidthLimit` follow each other
at one offset, and behind the text at most `lineEndLimit + 1` switches are applied. -/
theorem highlightLine_steps_le {description : GrammarDef}
    (hbuild : description.build.result = .ok grammar) (line : List Char) {stack : Stack}
    (hstack : stack.Within grammar.contexts.length) :
    ∃ result count last, highlightLine grammar line stack = .ok result ∧
      Scan.Reaches grammar (leadingBlanks line) count (Scan.start line stack) last ∧
      last.rest = [] ∧ count ≤ 65 * line.length ∧
      (∀ before scan next,
        Scan.Reaches grammar (leadingBlanks line) before (Scan.start line stack) scan →
        scan.rest ≠ [] → scan.step grammar (leadingBlanks line) = .ok next →
          scan.offset < next.offset ∨
            next.offset = scan.offset ∧ next.stack ≠ scan.stack) ∧
      (∀ before scan between later,
        Scan.Reaches grammar (leadingBlanks line) before (Scan.start line stack) scan →
        Scan.Reaches grammar (leadingBlanks line) between scan later →
        later.offset = scan.offset → between ≤ zeroWidthLimit) ∧
      (if result.lineContinue then result.endStack = last.stack
        else ∃ applied, EndsLine grammar applied last.stack result.endStack ∧
          applied ≤ lineEndLimit + 1) := by
  have hresolved : grammar.Resolved := Grammar.Built.resolved ⟨description, hbuild⟩
  have hstart := Scan.at_start line stack
  have hlimit : (Scan.start line stack).KeepsLimit := Nat.zero_le _
  obtain ⟨result, count, last, hresult, hreaches, hend, hcloses, -⟩ :=
    exists_highlightLine hresolved line hstack
  refine ⟨result, count, last, hresult, hreaches, hend, ?_, ?_, ?_, ?_⟩
  · have hcount := hreaches.count_add_stepsLeft_le hresolved hstack hlimit
    have hbudget : (Scan.start line stack).stepsLeft = 65 * line.length := rfl
    omega
  · intro before scan next hscan hrest hstep
    obtain ⟨-, hwithin⟩ := hscan.invariant hresolved hstart hstack
    obtain ⟨context, trial, -, -, hfollows, -⟩ :=
      Scan.follows_of_step hresolved hwithin hrest hstep
    rcases hfollows.reads_or_switches with hreads | hswitches
    · exact .inl hreads.offset_lt
    · exact .inr ⟨hswitches.offset_eq, hswitches.changes⟩
  · intro before scan between later hscan hlater hsame
    obtain ⟨hat, hwithin, hkeeps⟩ := hscan.preserves hresolved hstart hstack hlimit
      fun hfollows _ _ => hfollows.keepsLimit
    obtain ⟨-, -, hlaterKeeps⟩ := hlater.preserves hresolved hat hwithin hkeeps
      fun hfollows _ _ => hfollows.keepsLimit
    have hcounted := hlater.zeroWidth_eq hresolved hwithin hsame
    unfold Scan.KeepsLimit at hlaterKeeps
    omega
  · rw [hcloses.lineContinue]
    split
    · next hcontinued => exact hcloses.continued hcontinued
    · next hended =>
      obtain ⟨notices, hnext⟩ := hcloses.ended (by simpa using hended)
      obtain ⟨applied, hendsLine⟩ := exists_endsLine hnext
      exact ⟨applied, hendsLine, hendsLine.applied_le⟩

/-- A small language whose contexts push and pop each other wherever nothing else happens, and push
each other behind every line. -/
def swinging : GrammarDef where
  name := "Swinging"
  contexts :=
    [{ name := "Left", fallthrough := "Right", lineEnd := "Right" },
      { name := "Right", fallthrough := "#pop", lineEnd := "Left"
        rules := [{ kind := .char 'x', options := { switch := "#pop", lookAhead := true } }] }]

theorem swinging_build : ∃ grammar, swinging.build.result = .ok grammar ∧
    grammar.contexts.length = 2 := by
  obtain ⟨grammar, hbuild, hcontexts, -⟩ :=
    @GrammarDef.exists_build swinging [] _ (by simp [swinging]) (by decide) rfl rfl (by decide)
  refine ⟨grammar, hbuild, ?_⟩
  rw [hcontexts]
  rfl

/-- Two characters take at most 130 steps in the language whose contexts go in circles. -/
theorem highlightLine_steps_le_swinging :
    ∃ grammar, swinging.build.result = .ok grammar ∧
      ∃ result count last,
        highlightLine grammar ['x', 'é'] ((Stack.single 0).push 1 none) = .ok result ∧
        Scan.Reaches grammar 0 count (Scan.start ['x', 'é'] ((Stack.single 0).push 1 none)) last ∧
        last.rest = [] ∧ count ≤ 130 := by
  obtain ⟨grammar, hbuild, hlength⟩ := swinging_build
  have hstack : ((Stack.single 0).push 1 none).Within grammar.contexts.length := by
    rw [hlength]
    exact (Stack.within_single (by decide)).push (by decide) none
  obtain ⟨result, count, last, hresult, hreaches, hend, hcount, -⟩ :=
    highlightLine_steps_le hbuild ['x', 'é'] hstack
  exact ⟨grammar, hbuild, result, count, last, hresult, hreaches, hend, hcount⟩

end Highlight
