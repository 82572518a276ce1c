import Highlight.Proofs.Scanning
import Mathlib.Data.List.SplitBy

/-!
# The machine behind scanning

Scanning keeps unmatched text back and puts it into a span when something else happens.  The machine
of this module keeps nothing back: it goes from offset to offset, and each of its steps says at once
what it shows.  Scanning does the same steps, and its spans are what the machine shows with the
neighbouring steps over single characters joined.

There are three groups.

* The machine.  `Sees` is what the machine knows at an offset, `Step` lists its four kinds of step,
  and `Run` is a sequence of steps to the end of a line.  There is only one (`Run.unique`).
* What is shown.  `mergeRuns` joins the steps over single characters that are next to each other.
  `PassedRun` is such a group of steps while it grows.
* Simulation.  What scanning has pending is a group that is not closed yet; `exists_machineRun` is
  the induction along a run, and `highlightLine_refines_machine` the result for a line.
-/

namespace Highlight

/-! ## The machine -/

/-- A state of the machine: where it is, with which stack, and how many switches it has taken
there. -/
structure Machine where
  offset : Nat
  stack : Stack
  zeroWidth : Nat
  deriving Repr, DecidableEq, Inhabited

/-- What a step of the machine shows. -/
inductive Event where
  /-- The text of a match. -/
  | taken (span : Span)
  /-- A switch that takes no text. -/
  | switched
  /-- A character that no rule takes. -/
  | passed (span : Span)
  deriving Repr, DecidableEq, Inhabited

namespace Machine

/-- What the machine knows before the end of a line: the next character, the context on top, and
what the first rule of that context that matches finds at the cursor that is built there. -/
inductive Sees (grammar : Grammar) (line : List Char) (machine : Machine) :
    Char → Context → Option RuleMatch → Prop
  | intro {skipped rest : List Char} {c : Char} {context : Context} {cursor : Cursor}
      {found : Option RuleMatch} (line_eq : line = skipped ++ c :: rest)
      (offset_eq : byteLength skipped = machine.offset)
      (context_eq : grammar.contexts[machine.stack.current]? = some context)
      (cursor_eq : Cursor.at? line machine.offset skipped.length (leadingBlanks line)
        machine.stack.currentData grammar.delimiters = some cursor)
      (first : FirstMatch grammar cursor context.rules found) :
      Sees grammar line machine c context found

/-- One step of the machine. -/
inductive Step (grammar : Grammar) (line : List Char) (machine : Machine) :
    Event → Machine → Prop
  /-- A match that takes text is shown in its style, or else in the style of the context. -/
  | take {c : Char} {context : Context} {matched : RuleMatch}
      (sees : Sees grammar line machine c context (some matched)) (length : 0 < matched.length) :
      Step grammar line machine
        (.taken ⟨machine.offset, machine.offset + matched.length,
          matched.style.getD context.style⟩)
        ⟨machine.offset + matched.length, matched.nextStack machine.stack, 0⟩
  /-- A match that takes no text only has its switch taken. -/
  | divert {c : Char} {context : Context} {matched : RuleMatch}
      (sees : Sees grammar line machine c context (some matched)) (length : matched.length = 0)
      (changes : matched.nextStack machine.stack ≠ machine.stack)
      (limit : machine.zeroWidth < zeroWidthLimit) :
      Step grammar line machine .switched
        ⟨machine.offset, matched.nextStack machine.stack, machine.zeroWidth + 1⟩
  /-- In all other cases the fallthrough switch of the context is taken, without captured groups,
  if it changes the stack. -/
  | fallThrough {c : Char} {context : Context} {found : Option RuleMatch}
      (sees : Sees grammar line machine c context found) (consumes : ¬Consumes found)
      (diverts : ¬Diverts found machine.stack machine.zeroWidth)
      (changes : context.fallthrough.apply machine.stack none ≠ machine.stack)
      (limit : machine.zeroWidth < zeroWidthLimit) :
      Step grammar line machine .switched
        ⟨machine.offset, context.fallthrough.apply machine.stack none, machine.zeroWidth + 1⟩
  /-- If it does not, one character is shown in the style of the context. -/
  | pass {c : Char} {context : Context} {found : Option RuleMatch}
      (sees : Sees grammar line machine c context found) (consumes : ¬Consumes found)
      (diverts : ¬Diverts found machine.stack machine.zeroWidth)
      (fallsThrough : ¬FallsThrough context machine.stack machine.zeroWidth) :
      Step grammar line machine
        (.passed ⟨machine.offset, machine.offset + c.utf8Size, context.style⟩)
        ⟨machine.offset + c.utf8Size, machine.stack, 0⟩

/-- Steps of the machine up to the end of the line, with what they show. -/
inductive Run (grammar : Grammar) (line : List Char) : Machine → List Event → Machine → Prop
  | done {machine : Machine} (offset_eq : machine.offset = byteLength line) :
      Run grammar line machine [] machine
  | step {machine next last : Machine} {event : Event} {events : List Event}
      (step : Step grammar line machine event next) (run : Run grammar line next events last) :
      Run grammar line machine (event :: events) last

variable {grammar : Grammar} {line : List Char}

theorem Sees.unique {machine : Machine} {c d : Char} {context other : Context}
    {found otherFound : Option RuleMatch} (h : Sees grammar line machine c context found)
    (hother : Sees grammar line machine d other otherFound) :
    c = d ∧ context = other ∧ found = otherFound := by
  cases h with
  | intro line_eq offset_eq context_eq cursor_eq first =>
    cases hother with
    | intro line_eq' offset_eq' context_eq' cursor_eq' first' =>
      have hsplit := splitAtByte?_eq_some_iff.2 ⟨line_eq, offset_eq⟩
      rw [splitAtByte?_eq_some_iff.2 ⟨line_eq', offset_eq'⟩] at hsplit
      cases hsplit
      rw [context_eq] at context_eq'
      cases context_eq'
      rw [cursor_eq] at cursor_eq'
      cases cursor_eq'
      exact ⟨rfl, rfl, first.unique first'⟩

/-- There is text left where the machine sees something. -/
theorem Sees.offset_lt {machine : Machine} {c : Char} {context : Context}
    {found : Option RuleMatch} (h : Sees grammar line machine c context found) :
    machine.offset < byteLength line := by
  cases h with
  | intro line_eq offset_eq context_eq cursor_eq first =>
    have hpos := c.utf8Size_pos
    rw [line_eq, byteLength_append, byteLength_cons, offset_eq]
    omega

theorem Step.exists_sees {machine next : Machine} {event : Event}
    (h : Step grammar line machine event next) :
    ∃ c context found, Sees grammar line machine c context found := by
  cases h with
  | take sees length => exact ⟨_, _, _, sees⟩
  | divert sees length changes limit => exact ⟨_, _, _, sees⟩
  | fallThrough sees consumes diverts changes limit => exact ⟨_, _, _, sees⟩
  | pass sees consumes diverts fallsThrough => exact ⟨_, _, _, sees⟩

/-- The kinds of step exclude each other. -/
theorem Step.unique {machine next other : Machine} {event otherEvent : Event}
    (h : Step grammar line machine event next)
    (hother : Step grammar line machine otherEvent other) : event = otherEvent ∧ next = other := by
  cases h with
  | @take c context matched sees length =>
    cases hother with
    | take sees' length' =>
      obtain ⟨-, rfl, hfound⟩ := sees.unique sees'
      cases hfound
      exact ⟨rfl, rfl⟩
    | divert sees' length' changes' limit' =>
      obtain ⟨-, -, hfound⟩ := sees.unique sees'
      cases hfound
      omega
    | fallThrough sees' consumes' diverts' changes' limit' =>
      obtain ⟨-, -, rfl⟩ := sees.unique sees'
      exact absurd ⟨matched, rfl, length⟩ consumes'
    | pass sees' consumes' diverts' fallsThrough' =>
      obtain ⟨-, -, rfl⟩ := sees.unique sees'
      exact absurd ⟨matched, rfl, length⟩ consumes'
  | @divert c context matched sees length changes limit =>
    cases hother with
    | take sees' length' =>
      obtain ⟨-, -, hfound⟩ := sees.unique sees'
      cases hfound
      omega
    | divert sees' length' changes' limit' =>
      obtain ⟨-, -, hfound⟩ := sees.unique sees'
      cases hfound
      exact ⟨rfl, rfl⟩
    | fallThrough sees' consumes' diverts' changes' limit' =>
      obtain ⟨-, -, rfl⟩ := sees.unique sees'
      exact absurd ⟨matched, rfl, length, changes, limit⟩ diverts'
    | pass sees' consumes' diverts' fallsThrough' =>
      obtain ⟨-, -, rfl⟩ := sees.unique sees'
      exact absurd ⟨matched, rfl, length, changes, limit⟩ diverts'
  | @fallThrough c context found sees consumes diverts changes limit =>
    cases hother with
    | take sees' length' =>
      obtain ⟨-, -, rfl⟩ := sees.unique sees'
      exact absurd ⟨_, rfl, length'⟩ consumes
    | divert sees' length' changes' limit' =>
      obtain ⟨-, -, rfl⟩ := sees.unique sees'
      exact absurd ⟨_, rfl, length', changes', limit'⟩ diverts
    | fallThrough sees' consumes' diverts' changes' limit' =>
      obtain ⟨-, rfl, -⟩ := sees.unique sees'
      exact ⟨rfl, rfl⟩
    | pass sees' consumes' diverts' fallsThrough' =>
      obtain ⟨-, rfl, -⟩ := sees.unique sees'
      exact absurd ⟨changes, limit⟩ fallsThrough'
  | @pass c context found sees consumes diverts fallsThrough =>
    cases hother with
    | take sees' length' =>
      obtain ⟨-, -, rfl⟩ := sees.unique sees'
      exact absurd ⟨_, rfl, length'⟩ consumes
    | divert sees' length' changes' limit' =>
      obtain ⟨-, -, rfl⟩ := sees.unique sees'
      exact absurd ⟨_, rfl, length', changes', limit'⟩ diverts
    | fallThrough sees' consumes' diverts' changes' limit' =>
      obtain ⟨-, rfl, -⟩ := sees.unique sees'
      exact absurd ⟨changes', limit'⟩ fallsThrough
    | pass sees' consumes' diverts' fallsThrough' =>
      obtain ⟨rfl, rfl, -⟩ := sees.unique sees'
      exact ⟨rfl, rfl⟩

/-- The machine has one run from a state. -/
theorem Run.unique {machine last other : Machine} {events otherEvents : List Event}
    (h : Run grammar line machine events last)
    (hother : Run grammar line machine otherEvents other) :
    otherEvents = events ∧ other = last := by
  induction h generalizing otherEvents other with
  | done offset_eq =>
    cases hother with
    | done offset_eq' => exact ⟨rfl, rfl⟩
    | step step' run' =>
      obtain ⟨c, context, found, hsees⟩ := step'.exists_sees
      have hlt := hsees.offset_lt
      omega
  | step step run ih =>
    cases hother with
    | done offset_eq' =>
      obtain ⟨c, context, found, hsees⟩ := step.exists_sees
      have hlt := hsees.offset_lt
      omega
    | step step' run' =>
      obtain ⟨rfl, rfl⟩ := step.unique step'
      obtain ⟨rfl, rfl⟩ := ih run'
      exact ⟨rfl, rfl⟩

end Machine

/-! ## What is shown -/

/-- Whether two neighbouring events are shown as one. -/
def Event.joins : Event → Event → Bool
  | .passed _, .passed _ => true
  | _, _ => false

/-- A span that goes on to the end of an event. -/
def Span.extend (span : Span) : Event → Span
  | .passed next => { span with stop := next.stop }
  | _ => span

/-- The span of events that are shown as one. -/
def joinedSpan : List Event → List Span
  | .taken span :: _ => [span]
  | .passed span :: rest => [rest.foldl Span.extend span]
  | _ => []

/-- What is shown when every longest run of passed characters becomes one span. -/
def mergeRuns (events : List Event) : List Span :=
  (events.splitBy Event.joins).flatMap joinedSpan

/-- Whether a span shows another: it covers its text in its style. -/
def Span.Covers (shown span : Span) : Prop :=
  shown.start ≤ span.start ∧ span.stop ≤ shown.stop ∧ shown.style = span.style

/-- Two sequences of events between which nothing is joined. -/
theorem mergeRuns_append {events more : List Event}
    (h : ∀ last ∈ events.getLast?, ∀ next ∈ more.head?, last.joins next = false) :
    mergeRuns (events ++ more) = mergeRuns events ++ mergeRuns more := by
  rw [mergeRuns, List.splitBy_append h, List.flatMap_append]
  rfl

theorem mergeRuns_taken (span : Span) (events : List Event) :
    mergeRuns (.taken span :: events) = span :: mergeRuns events := by
  have happend : mergeRuns ([.taken span] ++ events) =
      mergeRuns [.taken span] ++ mergeRuns events :=
    mergeRuns_append (by simp [Event.joins])
  exact happend

theorem mergeRuns_switched (events : List Event) :
    mergeRuns (.switched :: events) = mergeRuns events := by
  have happend : mergeRuns ([.switched] ++ events) =
      mergeRuns [.switched] ++ mergeRuns events :=
    mergeRuns_append (by simp [Event.joins])
  exact happend

/-- Characters in one style that the machine passes one after the other. -/
inductive PassedRun (style : Style) (start : Nat) : Nat → List Event → Prop
  | nil : PassedRun style start start []
  | concat {middle stop : Nat} {events : List Event} (run : PassedRun style start middle events)
      (nonempty : middle < stop) :
      PassedRun style start stop (events ++ [.passed ⟨middle, stop, style⟩])

namespace PassedRun

variable {style : Style} {start stop : Nat} {events : List Event}

theorem start_le_stop (h : PassedRun style start stop events) : start ≤ stop := by
  induction h with
  | nil => exact Nat.le_refl start
  | concat run nonempty ih => omega

theorem eq_passed (h : PassedRun style start stop events) :
    ∀ event ∈ events, ∃ span, event = .passed span ∧ start ≤ span.start ∧ span.stop ≤ stop ∧
      span.style = style ∧ start < stop := by
  induction h with
  | nil =>
    intro event hevent
    cases hevent
  | @concat middle stop events run nonempty ih =>
    have hle := run.start_le_stop
    intro event hevent
    rcases List.mem_append.1 hevent with hevent | hevent
    · obtain ⟨span, hspan, hstart, hstop, hstyle, -⟩ := ih event hevent
      exact ⟨span, hspan, hstart, by omega, hstyle, by omega⟩
    · rw [List.mem_singleton] at hevent
      exact ⟨⟨middle, stop, style⟩, hevent, hle, Nat.le_refl stop, rfl, by omega⟩

theorem joinedSpan_eq (h : PassedRun style start stop events) (hlt : start < stop) :
    joinedSpan events = [⟨start, stop, style⟩] := by
  induction h with
  | nil => omega
  | @concat middle stop events run nonempty ih =>
    by_cases hrun : start < middle
    · have hjoined := ih hrun
      cases events with
      | nil => cases hjoined
      | cons first rest =>
        obtain ⟨span, rfl, -⟩ := run.eq_passed first List.mem_cons_self
        simp only [joinedSpan, List.cons.injEq, and_true] at hjoined
        simp only [List.cons_append, joinedSpan, List.foldl_append, hjoined]
        rfl
    · cases run with
      | nil => rfl
      | concat run' nonempty' =>
        have hle := run'.start_le_stop
        omega

theorem eq_nil (h : PassedRun style start stop events) (hempty : ¬start < stop) :
    events = [] := by
  cases h with
  | nil => rfl
  | concat run nonempty =>
    have hle := run.start_le_stop
    omega

/-- A run is shown as one span, unless it is empty. -/
theorem mergeRuns_eq (h : PassedRun style start stop events) :
    mergeRuns events = if start < stop then [⟨start, stop, style⟩] else [] := by
  by_cases hlt : start < stop
  · have hjoined := h.joinedSpan_eq hlt
    have hne : events ≠ [] := by
      rintro rfl
      cases hjoined
    have hchain : events.IsChain fun event next => event.joins next := by
      apply List.Pairwise.isChain
      apply List.pairwise_of_forall_mem_list
      intro event hevent next hnext
      obtain ⟨span, rfl, -⟩ := h.eq_passed event hevent
      obtain ⟨other, rfl, -⟩ := h.eq_passed next hnext
      rfl
    rw [mergeRuns, List.splitBy_of_isChain hne hchain, if_pos hlt, List.flatMap_singleton,
      hjoined]
  · rw [h.eq_nil hlt, if_neg hlt]
    rfl

/-- Behind a run something else is shown by itself. -/
theorem mergeRuns_append (h : PassedRun style start stop events) {event : Event}
    (hevent : ∀ span, event ≠ .passed span) (rest : List Event) :
    mergeRuns (events ++ event :: rest) =
      (if start < stop then [⟨start, stop, style⟩] else []) ++ mergeRuns (event :: rest) := by
  rw [← h.mergeRuns_eq]
  apply Highlight.mergeRuns_append
  intro last _ next hnext
  cases hnext
  cases event with
  | passed span => exact absurd rfl (hevent span)
  | taken span => cases last <;> rfl
  | switched => cases last <;> rfl

end PassedRun

/-! ## Simulation -/

namespace Scan

/-- The state of the machine at a scan. -/
def machine (scan : Scan) : Machine :=
  ⟨scan.offset, scan.stack, scan.zeroWidth⟩

variable {grammar : Grammar} {line : List Char}

/-- The machine sees what a scan at the same place finds. -/
theorem At.sees {scan : Scan} (h : scan.At line) {c : Char} {left : List Char} {context : Context}
    {trial : Trial} (hrest : scan.rest = c :: left)
    (hcontext : grammar.context scan.stack.current = .ok context)
    (htrial : grammar.tryRules context.rules (scan.cursor grammar (leadingBlanks line)) =
      .ok trial) :
    Machine.Sees grammar line scan.machine c context trial.found := by
  have hcursor := h.cursor_eq grammar (leadingBlanks line)
  obtain ⟨skipped, hline, hoffset, hbefore, hcolumn⟩ := h
  rw [hrest] at hline
  rw [← hcolumn] at hcursor
  exact .intro hline hoffset (Grammar.getElem?_of_context hcontext) hcursor
    (firstMatch_of_tryRules htrial)

/-- What is pending at a scan is a run of passed characters in the style of its context. -/
def Pending (grammar : Grammar) (scan : Scan) (events : List Event) : Prop :=
  ∃ context, grammar.context scan.stack.current = .ok context ∧
    PassedRun context.style scan.pending scan.offset events

theorem reverse_spans_flush (scan : Scan) (style : Style) :
    (scan.flush style).spans.reverse = scan.spans.reverse ++
      if scan.pending < scan.offset then [⟨scan.pending, scan.offset, style⟩] else [] := by
  unfold Scan.flush
  by_cases hpending : scan.pending < scan.offset
  · simp only [if_pos hpending, List.reverse_cons]
  · simp only [if_neg hpending, List.append_nil]

/-- Flushing shows every character that is pending. -/
theorem exists_covers_flush {scan : Scan} {style : Style} {run : List Event}
    (hrun : PassedRun style scan.pending scan.offset run) {span : Span}
    (hspan : .passed span ∈ run) :
    ∃ shown ∈ (scan.flush style).spans, shown.Covers span := by
  obtain ⟨other, hother, hstart, hstop, hstyle, hlt⟩ := hrun.eq_passed _ hspan
  cases hother
  refine ⟨⟨scan.pending, scan.offset, style⟩, ?_, hstart, hstop, hstyle.symm⟩
  simp only [flush, if_pos hlt]
  exact List.mem_cons_self

/-- Where a move leaves nothing pending, nothing is pending in the context that it leads to. -/
theorem pending_nil (hresolved : grammar.Resolved) {scan : Scan}
    (hstack : scan.stack.Within grammar.contexts.length) (hpending : scan.pending = scan.offset) :
    scan.Pending grammar [] := by
  obtain ⟨context, hcontext, -, -⟩ := Grammar.exists_context hresolved hstack.current_lt
  refine ⟨context, hcontext, ?_⟩
  rw [hpending]
  exact .nil

/-- The step from a scan to the next is a step of the machine that shows an event.  What it puts
into spans and what it leaves pending are together what the machine shows. -/
structure Simulated (grammar : Grammar) (line : List Char) (scan next : Scan)
    (run : List Event) (event : Event) (run' : List Event) : Prop where
  step : Machine.Step grammar line scan.machine event next.machine
  pending : next.Pending grammar run'
  spans : ∀ rest, scan.spans.reverse ++ mergeRuns (run ++ event :: rest) =
    next.spans.reverse ++ mergeRuns (run' ++ rest)
  covered : ∀ span, .passed span ∈ run ++ [event] →
    .passed span ∈ run' ∨ ∃ shown ∈ next.spans, shown.Covers span

/-- A move that is no step over a character puts what is pending into a span first. -/
theorem spans_flush {scan : Scan} {style : Style} {run : List Event}
    (hrun : PassedRun style scan.pending scan.offset run) {event : Event}
    (hevent : ∀ span, event ≠ .passed span) (rest : List Event) :
    scan.spans.reverse ++ mergeRuns (run ++ event :: rest) =
      (scan.flush style).spans.reverse ++ mergeRuns (event :: rest) := by
  rw [hrun.mergeRuns_append hevent, reverse_spans_flush, List.append_assoc]

theorem covered_flush {scan : Scan} {style : Style} {run : List Event}
    (hrun : PassedRun style scan.pending scan.offset run) {event : Event}
    (hevent : ∀ span, event ≠ .passed span) {span : Span} (hspan : .passed span ∈ run ++ [event]) :
    ∃ shown ∈ (scan.flush style).spans, shown.Covers span := by
  rcases List.mem_append.1 hspan with hspan | hspan
  · exact exists_covers_flush hrun hspan
  · rw [List.mem_singleton] at hspan
    exact absurd hspan.symm (hevent span)

/-- A step of scanning is a step of the machine, whatever was pending before it. -/
theorem Follows.simulated (hresolved : grammar.Resolved) {scan next : Scan} {context : Context}
    {trial : Trial} (h : scan.Follows context trial.found next) (hat : scan.At line)
    (hrest : scan.rest ≠ []) (hcontext : grammar.context scan.stack.current = .ok context)
    (htrial : grammar.tryRules context.rules (scan.cursor grammar (leadingBlanks line)) =
      .ok trial)
    (hwithin : next.stack.Within grammar.contexts.length) {run : List Event}
    (hrun : PassedRun context.style scan.pending scan.offset run) :
    ∃ event run', Simulated grammar line scan next run event run' := by
  obtain ⟨d, rest, hcons⟩ := List.exists_cons_of_ne_nil hrest
  have hsees := hat.sees hcons hcontext htrial
  obtain ⟨move, moved, notices, hdecides, hperforms, rfl⟩ := h
  cases hperforms with
  | @consume matched stack taken left rest_eq length_eq =>
    cases hdecides with
    | consume found_eq length =>
      rw [found_eq] at hsees
      have hevent : ∀ span, Event.taken ⟨scan.offset, scan.offset + matched.length,
          matched.style.getD context.style⟩ ≠ .passed span := by
        intro span hspan
        cases hspan
      refine ⟨_, [], .take hsees length, pending_nil hresolved hwithin rfl, ?_, ?_⟩
      · intro rest
        rw [machine, spans_flush hrun hevent, mergeRuns_taken]
        simp only [note, List.reverse_cons, List.append_assoc, List.singleton_append,
          List.nil_append]
      · intro span hspan
        obtain ⟨shown, hshown, hcovers⟩ := covered_flush hrun hevent hspan
        exact .inr ⟨shown, List.mem_cons_of_mem _ hshown, hcovers⟩
  | @divert stack =>
    have hstep : Machine.Step grammar line scan.machine .switched
        ⟨scan.offset, stack, scan.zeroWidth + 1⟩ := by
      cases hdecides with
      | divert found_eq length changes limit =>
        rw [found_eq] at hsees
        exact .divert hsees length changes limit
      | fallThrough consumes diverts changes limit =>
        exact .fallThrough hsees consumes diverts changes limit
    have hevent : ∀ span, Event.switched ≠ .passed span := by
      intro span hspan
      cases hspan
    refine ⟨_, [], hstep, pending_nil hresolved hwithin rfl, ?_, ?_⟩
    · intro rest
      rw [spans_flush hrun hevent, mergeRuns_switched]
      rfl
    · intro span hspan
      exact .inr (covered_flush hrun hevent hspan)
  | @pass c left rest_eq =>
    rw [hcons] at rest_eq
    cases rest_eq
    cases hdecides with
    | pass consumes diverts fallsThrough =>
      have hpos := d.utf8Size_pos
      have hnonempty : scan.offset < scan.offset + d.utf8Size := by omega
      refine ⟨_, run ++ [_], .pass hsees consumes diverts fallsThrough,
        ⟨context, hcontext, hrun.concat hnonempty⟩, ?_, ?_⟩
      · intro rest
        rw [List.append_assoc]
        rfl
      · intro span hspan
        exact .inl hspan

/-- Scanning to the end of a line is a run of the machine.  The spans that are added to those before
are what the machine shows, with what was pending before. -/
theorem exists_machineRun (hresolved : grammar.Resolved) {count : Nat} {scan last : Scan}
    (h : Reaches grammar (leadingBlanks line) count scan last) (hend : last.rest = [])
    (hat : scan.At line) (hwithin : scan.stack.Within grammar.contexts.length)
    {context : Context} (hcontext : grammar.context last.stack.current = .ok context)
    {run : List Event} (hpending : scan.Pending grammar run) :
    ∃ events, Machine.Run grammar line scan.machine events last.machine ∧
      (last.flush context.style).spans.reverse =
        scan.spans.reverse ++ mergeRuns (run ++ events) ∧
      ∀ span, .passed span ∈ run ++ events →
        ∃ shown ∈ (last.flush context.style).spans, shown.Covers span := by
  induction h generalizing run with
  | refl scan =>
    obtain ⟨other, hother, hrun⟩ := hpending
    rw [hcontext] at hother
    cases hother
    refine ⟨[], .done (hat.offset_eq hend), ?_, ?_⟩
    · rw [List.append_nil, hrun.mergeRuns_eq, reverse_spans_flush]
    · intro span hspan
      rw [List.append_nil] at hspan
      exact exists_covers_flush hrun hspan
  | @head count scan next last hrest hstep hreaches ih =>
    obtain ⟨current, hcurrent, hrun⟩ := hpending
    obtain ⟨other, trial, hother, htrial, hfollows, hnext⟩ :=
      follows_of_step hresolved hwithin hrest hstep
    rw [hcurrent] at hother
    cases hother
    obtain ⟨event, run', hsimulated⟩ :=
      hfollows.simulated hresolved hat hrest hcurrent htrial hnext hrun
    obtain ⟨events, hevents, hmerged, hshown⟩ :=
      ih hend (hfollows.at hat) hnext hcontext hsimulated.pending
    refine ⟨event :: events, .step hsimulated.step hevents, ?_, ?_⟩
    · rw [hsimulated.spans, hmerged]
    · intro span hspan
      rw [List.append_cons, List.mem_append] at hspan
      rcases hspan with hspan | hspan
      · rcases hsimulated.covered span hspan with hspan | ⟨shown, hmem, hcovers⟩
        · exact hshown span (List.mem_append_left _ hspan)
        · refine ⟨shown, ?_, hcovers⟩
          rw [← List.mem_reverse, hmerged]
          exact List.mem_append_left _ (List.mem_reverse.2 hmem)
      · exact hshown span (List.mem_append_right _ hspan)

end Scan

/-- Highlighting a line refines the machine: there is one run of the machine along the line, the
spans are what it shows, and the stack with which scanning stops is the one that the machine stops
with.  Every character that no rule takes is in a span of the style of its context. -/
theorem highlightLine_refines_machine {description : GrammarDef} {grammar : Grammar}
    (hbuild : description.build.result = .ok grammar) (line : List Char) {stack : Stack}
    (hstack : stack.Within grammar.contexts.length) :
    ∃ result events final scan,
      highlightLine grammar line stack = .ok result ∧
      Machine.Run grammar line ⟨0, stack, 0⟩ events final ∧
      (∀ otherEvents other, Machine.Run grammar line ⟨0, stack, 0⟩ otherEvents other →
        otherEvents = events ∧ other = final) ∧
      result.spans = mergeRuns events ∧
      (Scan.start line stack).run grammar (leadingBlanks line) = .ok scan ∧
      scan.stack = final.stack ∧
      (if result.lineContinue then result.endStack = final.stack
        else ∃ notices, nextLineStack grammar final.stack = .ok (result.endStack, notices)) ∧
      ∀ span, .passed span ∈ events → ∃ shown ∈ result.spans, shown.Covers span := by
  have hresolved : grammar.Resolved := Grammar.Built.resolved ⟨description, hbuild⟩
  obtain ⟨result, count, last, hresult, hreaches, hend, hcloses, -⟩ :=
    exists_highlightLine hresolved line hstack
  obtain ⟨context, hcontext, hspans⟩ := hcloses.spans
  have hpending : (Scan.start line stack).Pending grammar [] :=
    Scan.pending_nil hresolved hstack rfl
  obtain ⟨events, hrun, hmerged, hshown⟩ := Scan.exists_machineRun hresolved hreaches hend
    (Scan.at_start line stack) hstack hcontext hpending
  have hlast : (Scan.start line stack).run grammar (leadingBlanks line) = .ok last := by
    rw [hreaches.run_eq, Scan.run_of_rest_eq_nil hend]
  refine ⟨result, events, last.machine, last, hresult, hrun, ?_, ?_, hlast, rfl, ?_, ?_⟩
  · intro otherEvents other hother
    exact hrun.unique hother
  · rw [hspans, hmerged]
    rfl
  · rw [hcloses.lineContinue]
    split
    · next hcontinued => exact hcloses.continued hcontinued
    · next hended => exact hcloses.ended (by simpa using hended)
  · intro span hspan
    obtain ⟨shown, hmem, hcovers⟩ := hshown span hspan
    refine ⟨shown, ?_, hcovers⟩
    rw [hspans]
    exact List.mem_reverse.2 hmem

/-- A line that enters a quoted part: the machine has a run along it. -/
theorem highlightLine_refines_machine_quotedText :
    ∃ grammar, quotedText.build.result = .ok grammar ∧
      ∃ result events final, highlightLine grammar ['a', '"', 'b'] (.single 0) = .ok result ∧
        Machine.Run grammar ['a', '"', 'b'] ⟨0, .single 0, 0⟩ events final ∧
        result.spans = mergeRuns events := by
  obtain ⟨grammar, hbuild, hcontexts, -⟩ := quotedText_build
  have hstack : (Stack.single 0).Within grammar.contexts.length := by
    apply Stack.within_single
    rw [hcontexts]
    decide
  obtain ⟨result, events, final, scan, hresult, hrun, -, hspans, -⟩ :=
    highlightLine_refines_machine hbuild ['a', '"', 'b'] hstack
  exact ⟨grammar, hbuild, result, events, final, hresult, hrun, hspans⟩

end Highlight
