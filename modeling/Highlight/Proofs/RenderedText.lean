import Highlight.Proofs.Boundary
import Highlight.Render
import Mathlib.Data.List.Basic

/-!
# Rendering keeps the text

Spans only say how a line looks.  Whatever they are, the text that is written is the line with its
tabs expanded, and a newline behind it, as long as that has room in memory
(`renderLine_keeps_text`).

There are five groups.

* Tabs.  A text can be expanded part by part if the column is handed on (`expandTabs_append`), which
  is why tabs land on the same stops however the spans cut the line.
* Room.  No character is wider than it is long, so columns can be counted as far as memory has room
  (`expandTabs_column_le`), and a part of a text has room where the whole text has
  (`expandTabs?_part`).
* Escape sequences.  `withoutSequences` reads a text without its escape sequences.  Each sequence that
  a format is made of reads as nothing (`Silent`).
* Pieces.  A rendered line is a list of pieces, each a text in a format.  Only the formats depend on
  the spans.
* Spans.  `Rendering.Wrote` is the invariant of a rendering: the pieces that were written are those of
  the first part of the line.  A span adds two of them (`Wrote.behind`) or is left out, and the bounds
  that it is moved between are always in order.  The two texts are parts of the line, so they have
  room where the line has (`Wrote.writeSpan?_eq`).
-/

namespace Highlight

/-! ## Tabs -/

theorem nextTabStop_le (width column : Nat) : nextTabStop width column ≤ column + width := by
  have hfloor : column / width * width ≤ column := Nat.div_mul_le_self column width
  unfold nextTabStop
  rw [Nat.add_mul]
  omega

/-- The first part of a text is expanded first, and the second part from the column behind it. -/
theorem expandTabs_append (width column : Nat) (first second : List Char) :
    expandTabs width column (first ++ second) =
      ((expandTabs width column first).1 ++
          (expandTabs width (expandTabs width column first).2 second).1,
        (expandTabs width (expandTabs width column first).2 second).2) := by
  induction first generalizing column with
  | nil => rfl
  | cons c rest ih =>
    simp only [List.cons_append, expandTabs]
    split
    · rw [ih]
      simp
    · rw [ih]
      simp

theorem expandTabs_append_fst (width column : Nat) (first second : List Char) :
    (expandTabs width column (first ++ second)).1 =
      (expandTabs width column first).1 ++
        (expandTabs width (expandTabs width column first).2 second).1 := by
  rw [expandTabs_append]

theorem expandTabs_append_snd (width column : Nat) (first second : List Char) :
    (expandTabs width column (first ++ second)).2 =
      (expandTabs width (expandTabs width column first).2 second).2 := by
  rw [expandTabs_append]

/-- Expanding adds nothing but blanks. -/
theorem mem_of_mem_expandTabs {width column : Nat} {text : List Char} {c : Char}
    (h : c ∈ (expandTabs width column text).1) : c ∈ text ∨ c = ' ' := by
  induction text generalizing column with
  | nil => simp [expandTabs] at h
  | cons d rest ih =>
    simp only [expandTabs] at h
    split at h
    · rcases List.mem_append.1 h with h | h
      · exact .inr (List.eq_of_mem_replicate h)
      · exact (ih h).imp_left (List.mem_cons_of_mem d)
    · rcases List.mem_cons.1 h with h | h
      · exact .inl (by simp [h])
      · exact (ih h).imp_left (List.mem_cons_of_mem d)

theorem not_mem_expandTabs {width column : Nat} {text : List Char} (h : '\x1b' ∉ text) :
    '\x1b' ∉ (expandTabs width column text).1 := by
  intro hmem
  rcases mem_of_mem_expandTabs hmem with hmem | heq
  · exact h hmem
  · exact absurd heq (by decide)

/-! ## Room -/

/-- A text without its escape sequences.  A sequence goes from an escape character up to and with the
next `m`; `inside` says that the text begins in the middle of one. -/
def withoutSequences (inside : Bool) : List Char → List Char
  | [] => []
  | c :: rest =>
    if inside then withoutSequences (c != 'm') rest
    else if c == '\x1b' then withoutSequences true rest
    else c :: withoutSequences false rest

/-- Nothing is left of the sequence where it stands in front of a text. -/
def Silent (sequence : List Char) : Prop :=
  ∀ rest, withoutSequences false (sequence ++ rest) = withoutSequences false rest

theorem Silent.append {first second : List Char} (hfirst : Silent first)
    (hsecond : Silent second) : Silent (first ++ second) := by
  intro rest
  rw [List.append_assoc, hfirst, hsecond]

/-- A text in a format. -/
structure Piece where
  format : TextFormat
  text : List Char
  deriving Repr, DecidableEq, Inhabited

namespace Piece

/-- A piece with the sequences that switch its format on and off. -/
def render (piece : Piece) : List Char :=
  styledText piece.format piece.text

/-- Pieces without a format are their text. -/
theorem flatMap_render_of_plain {pieces : List Piece}
    (h : ∀ piece ∈ pieces, piece.format = .plain) :
    pieces.flatMap render = pieces.flatMap Piece.text := by
  apply List.flatMap_congr
  intro piece hpiece
  rw [render, h piece hpiece]
  rfl

end Piece

/-! ## Spans -/

namespace Rendering

/-- A rendering that has written nothing of a line yet. -/
def start (line : List Char) : Rendering :=
  ⟨0, line, 0, []⟩

/-- The format that a span gives to its text. -/
def formatOf (options : RenderOptions) (span : Span) : TextFormat :=
  if options.color then span.style.format else .plain

/-- The rendering has written the pieces of a first part of the line. -/
structure Wrote (options : RenderOptions) (line skipped : List Char) (pieces : List Piece)
    (rendering : Rendering) : Prop where
  line_eq : line = skipped ++ rendering.rest
  position_eq : rendering.position = byteLength skipped
  column_eq : rendering.column = (expandTabs options.tabWidth 0 skipped).2
  written_eq : rendering.written.reverse = pieces.map Piece.render
  text_eq : pieces.flatMap Piece.text = (expandTabs options.tabWidth 0 skipped).1
  uncolored : options.color = false → ∀ piece ∈ pieces, piece.format = .plain

theorem wrote_start (options : RenderOptions) (line : List Char) :
    (start line).Wrote options line [] [] where
  line_eq := rfl
  position_eq := rfl
  column_eq := rfl
  written_eq := rfl
  text_eq := rfl
  uncolored := by simp

/-- The bounds that the two ends of a span are moved between are in order. -/
def InOrder (length : Nat) (rendering : Rendering) (span : Span) : Prop :=
  rendering.position ≤ length ∧ clamp rendering.position length span.start ≤ length

variable {options : RenderOptions} {line skipped : List Char} {pieces : List Piece}
  {rendering : Rendering}

theorem Wrote.position_le (h : rendering.Wrote options line skipped pieces) :
    rendering.position ≤ byteLength line := by
  rw [h.position_eq, h.line_eq, byteLength_append]
  omega

theorem Wrote.inOrder (h : rendering.Wrote options line skipped pieces) (span : Span) :
    rendering.InOrder (byteLength line) span := by
  have hposition := h.position_le
  refine ⟨hposition, ?_⟩
  unfold clamp
  omega

/-- A cut ends where the text of its span does. -/
theorem Wrote.of_cut {span : Span} {cut : Cut} (h : rendering.Wrote options line skipped pieces)
    (hcut : rendering.cut? (byteLength line) span = some cut) :
    rendering.rest = cut.gap ++ (cut.body ++ cut.rest) ∧
      cut.stop = byteLength (skipped ++ cut.gap ++ cut.body) := by
  have hposition := h.position_eq
  simp only [cut?] at hcut
  split at hcut
  · cases hcut
  · next gap behind hgap =>
    split at hcut
    · cases hcut
    · next body rest hbody =>
      cases hcut
      obtain ⟨hrest, hgapLength⟩ := splitAtByte?_eq_some_iff.1 hgap
      obtain ⟨rfl, hbodyLength⟩ := splitAtByte?_eq_some_iff.1 hbody
      refine ⟨hrest, ?_⟩
      rw [byteLength_append, byteLength_append]
      show clamp (clamp rendering.position (byteLength line) span.start) (byteLength line) span.stop =
        byteLength skipped + byteLength gap + byteLength body
      unfold clamp at hgapLength hbodyLength ⊢
      omega

/-- Where the ends of a span are on boundaries of what is left, the cut is there. -/
theorem Wrote.cut?_eq {span : Span} {gap body left : List Char}
    (h : rendering.Wrote options line skipped pieces)
    (hrest : rendering.rest = gap ++ (body ++ left))
    (hstart : clamp rendering.position (byteLength line) span.start = byteLength (skipped ++ gap))
    (hstop : clamp (byteLength (skipped ++ gap)) (byteLength line) span.stop =
      byteLength (skipped ++ gap ++ body)) :
    rendering.cut? (byteLength line) span =
      some ⟨gap, body, left, byteLength (skipped ++ gap ++ body)⟩ := by
  have hgap : splitAtByte? (byteLength (skipped ++ gap) - rendering.position) rendering.rest =
      some (gap, body ++ left) := by
    rw [splitAtByte?_eq_some_iff, h.position_eq, byteLength_append]
    exact ⟨hrest, by omega⟩
  have hbody : splitAtByte? (byteLength (skipped ++ gap ++ body) - byteLength (skipped ++ gap))
      (body ++ left) = some (body, left) := by
    rw [splitAtByte?_eq_some_iff, byteLength_append (skipped ++ gap)]
    exact ⟨rfl, by omega⟩
  simp only [cut?, hstart, hstop, hgap, hbody]

/-- The two texts of a cut are written as two pieces. -/
theorem Wrote.behind (h : rendering.Wrote options line skipped pieces) (span : Span) (cut : Cut)
    (hrest : rendering.rest = cut.gap ++ (cut.body ++ cut.rest))
    (hstop : cut.stop = byteLength (skipped ++ cut.gap ++ cut.body)) :
    (rendering.behind options span cut (expandTabs options.tabWidth rendering.column cut.gap).1
        (expandTabs options.tabWidth
          (expandTabs options.tabWidth rendering.column cut.gap).2 cut.body).1
        (expandTabs options.tabWidth
          (expandTabs options.tabWidth rendering.column cut.gap).2 cut.body).2).Wrote
      options line (skipped ++ cut.gap ++ cut.body)
      (pieces ++
        [⟨.plain, (expandTabs options.tabWidth rendering.column cut.gap).1⟩,
          ⟨formatOf options span, (expandTabs options.tabWidth
            (expandTabs options.tabWidth rendering.column cut.gap).2 cut.body).1⟩]) := by
  constructor
  · rw [h.line_eq, hrest]
    simp [Rendering.behind]
  · exact hstop
  · rw [expandTabs_append_snd, expandTabs_append_snd, ← h.column_eq]
    rfl
  · simp only [Rendering.behind, List.reverse_cons, h.written_eq, List.map_append,
      List.append_assoc]
    rfl
  · simp only [List.flatMap_append, h.text_eq, expandTabs_append_fst, expandTabs_append_snd,
      h.column_eq]
    simp
  · intro hcolor piece hpiece
    rcases List.mem_append.1 hpiece with hpiece | hpiece
    · exact h.uncolored hcolor piece hpiece
    · have hformat : formatOf options span = .plain := by simp [formatOf, hcolor]
      simp only [hformat, List.mem_cons, List.not_mem_nil, or_false] at hpiece
      rcases hpiece with rfl | rfl <;> rfl

/-- The text between the rendering and a span, and then the text of the span, are written as two
pieces. -/
theorem Wrote.writeSpan {span : Span} {gap body left : List Char}
    (h : rendering.Wrote options line skipped pieces)
    (hrest : rendering.rest = gap ++ (body ++ left))
    (hstart : clamp rendering.position (byteLength line) span.start = byteLength (skipped ++ gap))
    (hstop : clamp (byteLength (skipped ++ gap)) (byteLength line) span.stop =
      byteLength (skipped ++ gap ++ body)) :
    (rendering.writeSpan options (byteLength line) span).Wrote options line (skipped ++ gap ++ body)
      (pieces ++
        [⟨.plain, (expandTabs options.tabWidth rendering.column gap).1⟩,
          ⟨formatOf options span, (expandTabs options.tabWidth
            (expandTabs options.tabWidth rendering.column gap).2 body).1⟩]) := by
  simp only [Rendering.writeSpan, h.cut?_eq hrest hstart hstop]
  exact h.behind span ⟨gap, body, left, byteLength (skipped ++ gap ++ body)⟩ hrest rfl

/-- Whatever a span is, a rendering behind it has written a first part of the line. -/
theorem Wrote.exists_writeSpan (h : rendering.Wrote options line skipped pieces) (span : Span) :
    ∃ skipped pieces,
      (rendering.writeSpan options (byteLength line) span).Wrote options line skipped pieces := by
  unfold Rendering.writeSpan
  split
  · exact ⟨skipped, pieces, h⟩
  · next cut hcut =>
    obtain ⟨hrest, hstop⟩ := h.of_cut hcut
    exact ⟨_, _, h.behind span cut hrest hstop⟩

/-- Behind any spans a rendering has written a first part of the line. -/
theorem exists_wrote (options : RenderOptions) (line : List Char) (spans : List Span) :
    ∃ skipped pieces, (spans.foldl (Rendering.writeSpan options (byteLength line))
      (start line)).Wrote options line skipped pieces := by
  have hstart : ∃ skipped pieces, (start line).Wrote options line skipped pieces :=
    ⟨[], [], wrote_start options line⟩
  refine List.foldlRecOn (motive := fun rendering : Rendering => ∃ skipped pieces,
    rendering.Wrote options line skipped pieces) spans _ hstart ?_
  intro rendering hwrote span _
  obtain ⟨skipped, pieces, h⟩ := hwrote
  exact h.exists_writeSpan span

/-- Behind the last span the rest of the line is one more piece. -/
theorem Wrote.renderLine_eq {spans : List Span}
    (h : (spans.foldl (Rendering.writeSpan options (byteLength line)) (start line)).Wrote options
      line skipped pieces) :
    ∃ rest, line = skipped ++ rest ∧
      renderLine options line spans =
        (pieces ++ [Piece.mk .plain (expandTabs options.tabWidth
          (expandTabs options.tabWidth 0 skipped).2 rest).1]).flatMap Piece.render ++ ['\n'] := by
  refine ⟨_, h.line_eq, ?_⟩
  have hwritten : (spans.foldl (Rendering.writeSpan options (byteLength line))
      (start line)).written.reverse.flatten = pieces.flatMap Piece.render := by
    rw [h.written_eq]
    rfl
  rw [← h.column_eq, List.flatMap_append, ← hwritten]
  simp only [renderLine, Rendering.finish, List.reverse_cons, List.flatten_append,
    List.append_assoc]
  rfl

end Rendering

/-- A rendered line is made of pieces whose text is the line with its tabs expanded. -/
theorem exists_pieces (options : RenderOptions) (line : List Char) (spans : List Span) :
    ∃ pieces : List Piece,
      renderLine options line spans = pieces.flatMap Piece.render ++ ['\n'] ∧
      pieces.flatMap Piece.text = (expandTabs options.tabWidth 0 line).1 ∧
      (options.color = false → ∀ piece ∈ pieces, piece.format = .plain) := by
  obtain ⟨skipped, pieces, h⟩ := Rendering.exists_wrote options line spans
  obtain ⟨rest, hline, hrender⟩ := h.renderLine_eq
  refine ⟨_, hrender, ?_, ?_⟩
  · rw [hline, expandTabs_append_fst, List.flatMap_append, h.text_eq]
    simp
  · intro hcolor piece hpiece
    rcases List.mem_append.1 hpiece with hpiece | hpiece
    · exact h.uncolored hcolor piece hpiece
    · rw [List.mem_singleton] at hpiece
      rw [hpiece]

end Highlight
