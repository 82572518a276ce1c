import Highlight.Proofs.Scanning

/-!
# Spans cover their line

The spans of a highlighted line stand next to each other, from the first byte of the line to its
last, and every place where one ends is between two characters.  Scanning keeps this up to the text
that is pending: what is in spans ends where the pending text begins (`Scan.Covered`).

There are two groups.

* Tilings.  `Tiles` says that spans cut a range of a line without gaps, `Tiles.concat` puts one
  more span behind the last, and `Tiles.apart_of_append` says that no span reaches into another.
* Scanning.  `Covered` is kept by every step, and `exists_covering_spans` reads it off at the end
  of the line.
-/

namespace Highlight

/-! ## Tilings -/

/-- Spans that cut the bytes of a line from one boundary to another: none is empty, and each begins
where the one before it ends. -/
inductive Tiles (line : List Char) : Nat → Nat → List Span → Prop
  | nil {offset : Nat} (boundary : IsBoundary line offset) : Tiles line offset offset []
  | cons {span : Span} {stop : Nat} {spans : List Span} (boundary : IsBoundary line span.start)
      (nonempty : span.start < span.stop) (rest : Tiles line span.stop stop spans) :
      Tiles line span.start stop (span :: spans)

namespace Tiles

variable {line : List Char} {start stop : Nat} {spans : List Span}

theorem start_le_stop (h : Tiles line start stop spans) : start ≤ stop := by
  induction h with
  | nil boundary => exact Nat.le_refl _
  | cons boundary nonempty rest ih => omega

/-- Nothing is cut from an empty range. -/
theorem eq_nil (h : Tiles line start stop spans) (hempty : start = stop) : spans = [] := by
  cases h with
  | nil boundary => rfl
  | cons boundary nonempty rest =>
    have hle := rest.start_le_stop
    omega

theorem start_le (h : Tiles line start stop spans) : ∀ span ∈ spans, start ≤ span.start := by
  induction h with
  | nil boundary =>
    intro span hspan
    cases hspan
  | cons boundary nonempty rest ih =>
    rintro other (_ | ⟨_, hother⟩)
    · exact Nat.le_refl _
    · have hle := ih other hother
      omega

/-- The spans on both sides of one do not reach into it. -/
theorem apart_of_append {first later : List Span} {span : Span}
    (h : Tiles line start stop (first ++ span :: later)) :
    (∀ other ∈ first, other.stop ≤ span.start) ∧ ∀ other ∈ later, span.stop ≤ other.start := by
  induction first generalizing start with
  | nil =>
    cases h with
    | cons boundary nonempty rest =>
      refine ⟨fun other hother => ?_, rest.start_le⟩
      cases hother
  | cons head first ih =>
    cases h with
    | cons boundary nonempty rest =>
      obtain ⟨hfirst, hlater⟩ := ih rest
      refine ⟨List.forall_mem_cons.2 ⟨?_, hfirst⟩, hlater⟩
      exact rest.start_le span (List.mem_append_right _ List.mem_cons_self)

/-- One more span behind the last. -/
theorem concat {middle : Nat} (h : Tiles line start middle spans) (hnonempty : middle < stop)
    (hstop : IsBoundary line stop) (style : Style) :
    Tiles line start stop (spans ++ [⟨middle, stop, style⟩]) := by
  induction h with
  | @nil offset boundary =>
    have hlast : Tiles line (Span.mk offset stop style).stop stop [] := .nil hstop
    exact .cons boundary hnonempty hlast
  | cons boundary nonempty rest ih => exact .cons boundary nonempty (ih hnonempty)

end Tiles

/-! ## Scanning -/

namespace Scan

/-- The spans so far reach from the start of the line to the text that is pending. -/
def Covered (line : List Char) (scan : Scan) : Prop :=
  Tiles line 0 scan.pending scan.spans.reverse ∧ scan.pending ≤ scan.offset

theorem covered_start (line : List Char) (stack : Stack) : (start line stack).Covered line :=
  ⟨.nil (isBoundary_zero line), Nat.le_refl 0⟩

/-- With the text that is pending the spans reach to the offset of the scan. -/
theorem Covered.flush {line : List Char} {scan : Scan} (h : scan.Covered line)
    (hat : scan.At line) (style : Style) :
    Tiles line 0 scan.offset (scan.flush style).spans.reverse := by
  obtain ⟨htiles, hle⟩ := h
  unfold Scan.flush
  by_cases hpending : scan.pending < scan.offset
  · simp only [if_pos hpending, List.reverse_cons]
    exact htiles.concat hpending hat.isBoundary style
  · have hsame : scan.pending = scan.offset := by omega
    simp only [if_neg hpending]
    rwa [hsame] at htiles

/-- Every step keeps the spans next to each other. -/
theorem Follows.covered {line : List Char} {scan next : Scan} {context : Context}
    {found : Option RuleMatch} (h : scan.Follows context found next) (hat : scan.At line)
    (hcovered : scan.Covered line) : next.Covered line := by
  have hnext : next.At line := h.at hat
  obtain ⟨move, moved, notices, hdecides, hperforms, rfl⟩ := h
  cases hperforms with
  | @consume matched stack taken left rest_eq length_eq =>
    cases hdecides with
    | consume found_eq length =>
      refine ⟨?_, Nat.le_refl _⟩
      have hspans := (hcovered.flush hat context.style).concat
        (show scan.offset < scan.offset + matched.length by omega) hnext.isBoundary
        (matched.style.getD context.style)
      rwa [← List.reverse_cons] at hspans
  | divert => exact ⟨hcovered.flush hat context.style, Nat.le_refl _⟩
  | @pass c left rest_eq =>
    obtain ⟨htiles, hle⟩ := hcovered
    exact ⟨htiles, Nat.le_trans hle (Nat.le_add_right scan.offset c.utf8Size)⟩

end Scan

/-- Highlighting a line with a stack of a built grammar succeeds.  Every scan on the way is at a
place of the line where a cursor can be built, and the spans cut the whole line. -/
theorem exists_covering_spans {description : GrammarDef} {grammar : Grammar}
    (hbuild : description.build.result = .ok grammar) (line : List Char) {stack : Stack}
    (hstack : stack.Within grammar.contexts.length) :
    ∃ result, highlightLine grammar line stack = .ok result ∧
      Tiles line 0 (byteLength line) result.spans ∧
      (line = [] → result.spans = []) ∧
      ∀ count scan,
        Scan.Reaches grammar (leadingBlanks line) count (Scan.start line stack) scan →
          scan.stack.Within grammar.contexts.length ∧
          Cursor.at? line scan.offset scan.column (leadingBlanks line) scan.stack.currentData
            grammar.delimiters = some (scan.cursor grammar (leadingBlanks line)) := by
  have hresolved : grammar.Resolved := Grammar.Built.resolved ⟨description, hbuild⟩
  obtain ⟨result, count, last, hresult, hreaches, hend, hcloses, -⟩ :=
    exists_highlightLine hresolved line hstack
  obtain ⟨context, -, hspans⟩ := hcloses.spans
  have hstart := Scan.at_start line stack
  obtain ⟨hat, -, hcovered⟩ := hreaches.preserves hresolved hstart hstack
    (Scan.covered_start line stack) Scan.Follows.covered
  have htiles : Tiles line 0 (byteLength line) result.spans := by
    rw [hspans, ← hat.offset_eq hend]
    exact hcovered.flush hat context.style
  refine ⟨result, hresult, htiles, ?_, ?_⟩
  · rintro rfl
    exact htiles.eq_nil rfl
  · intro steps scan hscan
    obtain ⟨hscanAt, hscanWithin⟩ := hscan.invariant hresolved hstart hstack
    exact ⟨hscanWithin, hscanAt.cursor_eq grammar (leadingBlanks line)⟩

/-- The spans of a line inside a quoted part, with a character of two bytes before the quote. -/
theorem exists_covering_spans_quotedText :
    ∃ grammar, quotedText.build.result = .ok grammar ∧
      ∃ result, highlightLine grammar ['é', '"', 'x'] ((Stack.single 0).push 1 none) = .ok result ∧
        Tiles ['é', '"', 'x'] 0 4 result.spans := by
  obtain ⟨grammar, hbuild, hcontexts, -⟩ := quotedText_build
  have hstack : ((Stack.single 0).push 1 none).Within grammar.contexts.length := by
    rw [hcontexts]
    apply Stack.Within.push (Stack.within_single ?_)
    · decide
    · decide
  obtain ⟨result, hresult, htiles, -, -⟩ :=
    exists_covering_spans hbuild ['é', '"', 'x'] hstack
  have hbytes : byteLength ['é', '"', 'x'] = 4 := by decide
  rw [hbytes] at htiles
  exact ⟨grammar, hbuild, result, hresult, htiles⟩

end Highlight
