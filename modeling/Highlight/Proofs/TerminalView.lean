import Highlight.Proofs.RenderedText

/-!
# What a terminal shows

A terminal keeps a look and gives it to every character until a sequence changes it.  Rendering only
ever says what differs from the reset look, so it is right only as long as each piece begins where the
look is reset.  `renderLine_shows_formats` says that it does: every character of a line is shown in
the format of its span, and behind the line the look is reset.

There are four groups.

* The terminal.  It reads one character at a time (`Terminal.feed`) and collects the cells that it
  shows.
* Pieces.  A piece that begins with the reset look shows its text in its format and ends with the
  reset look (`Terminal.read_render`).
* Cells of a line.  `lineCells` writes down what a line is to look like, from the format of each byte
  alone; like the expansion of tabs it goes part by part (`lineCells_append`).
* Spans.  The induction is along the spans that are left, with what was shown so far as the
  invariant (`Rendering.Shows`).
-/

namespace Highlight

/-! ## The terminal -/

/-- The colors of the palette in the order of their numbers. -/
def Color.palette : List Color :=
  [black, red, green, yellow, blue, magenta, cyan, white, brightBlack, brightRed, brightGreen,
    brightYellow, brightBlue, brightMagenta, brightCyan, brightWhite]

/-- What the parameters of a sequence make of a look.  Zero resets it, 1, 3 and 4 set attributes, and
38 and 48, followed by 5 and a number of the palette, set the colors; other numbers are passed over. -/
def TextFormat.select : List Nat → TextFormat → TextFormat
  | [], look => look
  | 0 :: rest, _ => select rest plain
  | 1 :: rest, look => select rest { look with bold := true }
  | 3 :: rest, look => select rest { look with italic := true }
  | 4 :: rest, look => select rest { look with underline := true }
  | 38 :: 5 :: number :: rest, look =>
    select rest { look with foreground := Color.palette[number]?.getD look.foreground }
  | 48 :: 5 :: number :: rest, look =>
    select rest { look with background := Color.palette[number]?.getD look.background }
  | _ :: rest, look => select rest look

/-- A character that is shown, and how it looks. -/
structure Cell where
  char : Char
  format : TextFormat
  deriving Repr, DecidableEq, Inhabited

/-- What the next character of the input belongs to. -/
inductive Terminal.Mode where
  | text
  /-- An escape character came before. -/
  | escape
  /-- The numbers of a sequence: those that are finished, the last one first, and the current one. -/
  | sequence (finished : List Nat) (number : Nat)
  deriving Repr, DecidableEq, Inhabited

/-- A terminal. -/
structure Terminal where
  /-- The look of the characters to come. -/
  look : TextFormat := .plain
  mode : Terminal.Mode := .text
  /-- What is shown so far. -/
  cells : List Cell := []
  deriving Repr, DecidableEq, Inhabited

namespace Terminal

/-- Reads one character. -/
def feed (terminal : Terminal) (c : Char) : Terminal :=
  match terminal.mode with
  | .text =>
    if c == '\x1b' then { terminal with mode := .escape }
    else { terminal with cells := terminal.cells ++ [⟨c, terminal.look⟩] }
  | .escape => { terminal with mode := if c == '[' then .sequence [] 0 else .text }
  | .sequence finished number =>
    if c.isDigit then
      { terminal with mode := .sequence finished (10 * number + (c.toNat - '0'.toNat)) }
    else if c == ';' then { terminal with mode := .sequence (number :: finished) 0 }
    else if c == 'm' then
      { terminal with mode := .text, look := terminal.look.select (number :: finished).reverse }
    else { terminal with mode := .text }

/-- Reads a text. -/
def read (terminal : Terminal) (text : List Char) : Terminal :=
  text.foldl feed terminal

theorem read_append (terminal : Terminal) (first second : List Char) :
    terminal.read (first ++ second) = (terminal.read first).read second :=
  List.foldl_append

/-! ## Pieces -/

/-- Text without escape characters is shown with the look that there is. -/
theorem read_text {text : List Char} (htext : '\x1b' ∉ text) (look : TextFormat)
    (cells : List Cell) :
    (⟨look, .text, cells⟩ : Terminal).read text =
      ⟨look, .text, cells ++ text.map fun c => ⟨c, look⟩⟩ := by
  induction text generalizing cells with
  | nil => simp [read]
  | cons c text ih =>
    have hc : c ≠ '\x1b' := fun heq => htext (by simp [heq])
    have hrest : '\x1b' ∉ text := fun hmem => htext (List.mem_cons_of_mem c hmem)
    have hfeed : (⟨look, .text, cells⟩ : Terminal).feed c =
        ⟨look, .text, cells ++ [⟨c, look⟩]⟩ := by
      simp [feed, hc]
    have hread := ih hrest (cells ++ [⟨c, look⟩])
    simp only [read, List.foldl_cons, hfeed] at hread ⊢
    rw [hread]
    simp

section

variable (color fg bg : Color) (wanted b i u : Bool) (cells : List Cell)

theorem read_foreground :
    (⟨⟨.default, bg, b, i, u⟩, .text, cells⟩ : Terminal).read (colorSequence "38" color) =
      ⟨⟨color, bg, b, i, u⟩, .text, cells⟩ := by
  cases color <;> rfl

theorem read_background :
    (⟨⟨fg, .default, b, i, u⟩, .text, cells⟩ : Terminal).read (colorSequence "48" color) =
      ⟨⟨fg, color, b, i, u⟩, .text, cells⟩ := by
  cases color <;> rfl

theorem read_bold :
    (⟨⟨fg, bg, false, i, u⟩, .text, cells⟩ : Terminal).read (attributeSequence wanted "1") =
      ⟨⟨fg, bg, wanted, i, u⟩, .text, cells⟩ := by
  cases wanted <;> rfl

theorem read_italic :
    (⟨⟨fg, bg, b, false, u⟩, .text, cells⟩ : Terminal).read (attributeSequence wanted "3") =
      ⟨⟨fg, bg, b, wanted, u⟩, .text, cells⟩ := by
  cases wanted <;> rfl

theorem read_underline :
    (⟨⟨fg, bg, b, i, false⟩, .text, cells⟩ : Terminal).read (attributeSequence wanted "4") =
      ⟨⟨fg, bg, b, i, wanted⟩, .text, cells⟩ := by
  cases wanted <;> rfl

end

/-- The sequences of a format turn the reset look into the format. -/
theorem read_opening (format : TextFormat) (cells : List Cell) :
    (⟨.plain, .text, cells⟩ : Terminal).read format.opening = ⟨format, .text, cells⟩ := by
  obtain ⟨fg, bg, b, i, u⟩ := format
  simp only [TextFormat.opening, TextFormat.plain, read_append, read_foreground, read_background,
    read_bold, read_italic, read_underline]

/-- Whatever the look is, the closing sequences reset it. -/
theorem read_closing (look : TextFormat) (cells : List Cell) :
    (⟨look, .text, cells⟩ : Terminal).read closingSequences = ⟨.plain, .text, cells⟩ :=
  rfl

end Terminal

/-- The cells that a piece is to be shown in. -/
def Piece.cells (piece : Piece) : List Cell :=
  piece.text.map fun c => ⟨c, piece.format⟩

namespace Terminal

/-- With the reset look before it a piece is shown in its format, and the look is reset behind it. -/
theorem read_render {piece : Piece} (htext : '\x1b' ∉ piece.text) (cells : List Cell) :
    (⟨.plain, .text, cells⟩ : Terminal).read piece.render =
      ⟨.plain, .text, cells ++ piece.cells⟩ := by
  unfold Piece.render styledText
  split
  · next hplain =>
    have hformat : piece.format = .plain := by simpa [TextFormat.isPlain] using hplain
    rw [read_text htext, Piece.cells, hformat]
  · rw [read_append, read_append, read_opening, read_text htext, read_closing]
    rfl

theorem read_flatMap_render {pieces : List Piece} (htext : '\x1b' ∉ pieces.flatMap Piece.text)
    (cells : List Cell) :
    (⟨.plain, .text, cells⟩ : Terminal).read (pieces.flatMap Piece.render) =
      ⟨.plain, .text, cells ++ pieces.flatMap Piece.cells⟩ := by
  induction pieces generalizing cells with
  | nil => simp [read]
  | cons piece pieces ih =>
    simp only [List.flatMap_cons, List.mem_append, not_or] at htext
    simp only [List.flatMap_cons]
    rw [read_append, read_render htext.1, ih htext.2, List.append_assoc]

end Terminal

/-! ## Cells of a line -/

/-- The cells of a text that begins at an offset of its line and at a column of the display, where
`formatAt` tells the format of each byte of the line.  A tab is shown as blanks in its own format. -/
def lineCells (width : Nat) (formatAt : Nat → TextFormat) (offset column : Nat) :
    List Char → List Cell
  | [] => []
  | c :: rest =>
    let (shown, behind) := expandTabs width column [c]
    (shown.map fun d => ⟨d, formatAt offset⟩) ++
      lineCells width formatAt (offset + c.utf8Size) behind rest

theorem lineCells_append (width : Nat) (formatAt : Nat → TextFormat) (offset column : Nat)
    (first second : List Char) :
    lineCells width formatAt offset column (first ++ second) =
      lineCells width formatAt offset column first ++
        lineCells width formatAt (offset + byteLength first) (expandTabs width column first).2
          second := by
  induction first generalizing offset column with
  | nil => rfl
  | cons c first ih =>
    have hcolumn : (expandTabs width column (c :: first)).2 =
        (expandTabs width (expandTabs width column [c]).2 first).2 :=
      expandTabs_append_snd width column [c] first
    simp only [List.cons_append, lineCells, ih, hcolumn, byteLength_cons, Nat.add_assoc,
      List.append_assoc]

/-- A text whose bytes all have one format is shown in that format. -/
theorem lineCells_of_format {width offset column : Nat} {formatAt : Nat → TextFormat}
    {format : TextFormat} {text : List Char}
    (h : ∀ i, offset ≤ i → i < offset + byteLength text → formatAt i = format) :
    lineCells width formatAt offset column text =
      (expandTabs width column text).1.map fun c => ⟨c, format⟩ := by
  induction text generalizing offset column with
  | nil => rfl
  | cons c text ih =>
    have hpos := c.utf8Size_pos
    have hfirst : formatAt offset = format := h offset (Nat.le_refl _) (by simp; omega)
    have hexpand := expandTabs_append_fst width column [c] text
    have hrest := @ih (offset + c.utf8Size) (expandTabs width column [c]).2 fun i hlow hhigh =>
      h i (by omega) (by simp; omega)
    rw [List.singleton_append] at hexpand
    rw [hexpand, List.map_append]
    simp only [lineCells, hfirst, hrest]

/-! ## Spans -/

/-- The format of the byte at an offset: that of the span which contains it, or none. -/
def formatAt (spans : List Span) (offset : Nat) : TextFormat :=
  ((spans.find? (·.contains offset)).map fun span => span.style.format).getD .plain

theorem formatAt_of_forall_not {spans : List Span} {offset : Nat}
    (h : ∀ span ∈ spans, span.contains offset = false) : formatAt spans offset = .plain := by
  have hnone : spans.find? (·.contains offset) = none := by
    simpa [List.find?_eq_none] using h
  rw [formatAt, hnone]
  rfl

theorem formatAt_of_contains {done later : List Span} {span : Span} {offset : Nat}
    (hdone : ∀ other ∈ done, other.contains offset = false)
    (hspan : span.contains offset = true) :
    formatAt (done ++ span :: later) offset = span.style.format := by
  have hnone : done.find? (·.contains offset) = none := by
    simpa [List.find?_eq_none] using hdone
  have hfind : (done ++ span :: later).find? (·.contains offset) = some span := by
    rw [List.find?_append, hnone]
    simp [hspan]
  rw [formatAt, hfind]
  rfl

namespace Rendering

/-- The rendering has written a first part of the line, in the cells that it is to be shown in. -/
def Shows (options : RenderOptions) (line : List Char) (spans : List Span) (skipped : List Char)
    (rendering : Rendering) : Prop :=
  ∃ pieces, rendering.Wrote options line skipped pieces ∧
    pieces.flatMap Piece.cells = lineCells options.tabWidth (formatAt spans) 0 0 skipped

variable {options : RenderOptions} {line skipped : List Char} {rendering : Rendering}
  {done later : List Span} {span : Span}

/-- A span that begins behind what is written and ends on the line adds its gap and its text in the
cells that they are to be shown in. -/
theorem Shows.writeSpan (hcolor : options.color = true)
    (hstart : IsBoundary line span.start) (hstop : IsBoundary line span.stop)
    (hle : span.start ≤ span.stop) (hbehind : byteLength skipped ≤ span.start)
    (hdone : ∀ other ∈ done, other.stop ≤ byteLength skipped)
    (hlater : ∀ other ∈ later, span.stop ≤ other.start)
    (h : rendering.Shows options line (done ++ span :: later) skipped) :
    ∃ behind, byteLength behind = span.stop ∧
      (rendering.writeSpan options (byteLength line) span).Shows options line
        (done ++ span :: later) behind := by
  obtain ⟨pieces, hwrote, hcells⟩ := h
  rw [hwrote.line_eq] at hstart hstop
  obtain ⟨gap, rest, hrest, hgap⟩ := hstart.exists_gap hbehind
  rw [hrest, ← List.append_assoc] at hstop
  obtain ⟨body, left, rfl, hbody⟩ := hstop.exists_gap (by omega)
  have hlength : byteLength line = span.stop + byteLength left := by
    rw [hwrote.line_eq, hrest, ← hbody]
    simp only [byteLength_append]
    omega
  have hclampStart : clamp rendering.position (byteLength line) span.start =
      byteLength (skipped ++ gap) := by
    rw [hwrote.position_eq, hgap, clamp]
    omega
  have hclampStop : clamp (byteLength (skipped ++ gap)) (byteLength line) span.stop =
      byteLength (skipped ++ gap ++ body) := by
    rw [hgap, hbody, clamp]
    omega
  have hnext := hwrote.writeSpan hrest hclampStart hclampStop
  refine ⟨skipped ++ gap ++ body, hbody, _, hnext, ?_⟩
  have hgapFormat : ∀ i, byteLength skipped ≤ i → i < byteLength skipped + byteLength gap →
      formatAt (done ++ span :: later) i = .plain := by
    intro i hlow hhigh
    rw [byteLength_append] at hgap
    refine formatAt_of_forall_not fun other hother => ?_
    -- the spans before have ended, and this one and those behind it have not begun
    have hoff : other.stop ≤ i ∨ i < other.start := by
      rcases List.mem_append.1 hother with hother | hother
      · have := hdone other hother
        omega
      · rcases List.mem_cons.1 hother with rfl | hother
        · omega
        · have := hlater other hother
          omega
    simp [Span.contains]
    omega
  have hbodyFormat : ∀ i, byteLength (skipped ++ gap) ≤ i →
      i < byteLength (skipped ++ gap) + byteLength body →
      formatAt (done ++ span :: later) i = span.style.format := by
    intro i hlow hhigh
    rw [byteLength_append (skipped ++ gap)] at hbody
    refine formatAt_of_contains (fun other hother => ?_) ?_
    · have := hdone other hother
      simp [Span.contains]
      omega
    · simp [Span.contains]
      omega
  rw [List.flatMap_append, hcells, lineCells_append, lineCells_append, Nat.zero_add, Nat.zero_add,
    expandTabs_append_snd, ← hwrote.column_eq, lineCells_of_format hgapFormat,
    lineCells_of_format hbodyFormat, List.append_assoc]
  simp [Piece.cells, formatOf, hcolor]

/-- Behind all of the spans what is written is shown as it is to be. -/
theorem exists_shows (hcolor : options.color = true) (spans : List Span)
    (hspans : ∀ span ∈ spans, span.start ≤ span.stop ∧ IsBoundary line span.start ∧
      IsBoundary line span.stop)
    (hordered : spans.Pairwise fun first second => first.stop ≤ second.start)
    (hbehind : ∀ span ∈ spans, byteLength skipped ≤ span.start)
    (hdone : ∀ other ∈ done, other.stop ≤ byteLength skipped)
    (h : rendering.Shows options line (done ++ spans) skipped) :
    ∃ behind, (∀ other ∈ done ++ spans, other.stop ≤ byteLength behind) ∧
      (spans.foldl (Rendering.writeSpan options (byteLength line)) rendering).Shows options line
        (done ++ spans) behind := by
  induction spans generalizing done skipped rendering with
  | nil => exact ⟨skipped, by simpa using hdone, h⟩
  | cons span later ih =>
    obtain ⟨hle, hstart, hstop⟩ := hspans span List.mem_cons_self
    obtain ⟨hnext, hordered⟩ := List.pairwise_cons.1 hordered
    have hfirst := hbehind span List.mem_cons_self
    obtain ⟨behind, hlength, hshows⟩ := h.writeSpan hcolor hstart hstop hle hfirst hdone hnext
    have happend : done ++ span :: later = done ++ [span] ++ later := by simp
    rw [happend] at hshows ⊢
    refine ih (fun other hother => hspans other (List.mem_cons_of_mem span hother)) hordered ?_ ?_
      hshows
    · intro other hother
      rw [hlength]
      exact hnext other hother
    · intro other hother
      rcases List.mem_append.1 hother with hother | hother
      · have := hdone other hother
        omega
      · rw [List.mem_singleton] at hother
        rw [hother]
        omega

end Rendering

/-- A line with spans in order on boundaries is shown with the format of its span for each character,
and without one where no span is; the newline behind it is plain, and the look is reset. -/
theorem renderLine_shows_formats {options : RenderOptions} (hcolor : options.color = true)
    {line : List Char} (hescape : '\x1b' ∉ line) {spans : List Span}
    (hspans : ∀ span ∈ spans, span.start ≤ span.stop ∧ IsBoundary line span.start ∧
      IsBoundary line span.stop)
    (hordered : spans.Pairwise fun first second => first.stop ≤ second.start) :
    Terminal.read {} (renderLine options line spans) =
      { look := .plain, mode := .text
        cells := lineCells options.tabWidth (formatAt spans) 0 0 line ++ [⟨'\n', .plain⟩] } := by
  have hstart : (Rendering.start line).Shows options line ([] ++ spans) [] :=
    ⟨[], Rendering.wrote_start options line, rfl⟩
  obtain ⟨behind, hstop, pieces, hwrote, hcells⟩ :=
    Rendering.exists_shows hcolor spans hspans hordered (by simp) (by simp) hstart
  obtain ⟨rest, hline, hrender⟩ := hwrote.renderLine_eq
  have hrestFormat : ∀ i, byteLength behind ≤ i → i < byteLength behind + byteLength rest →
      formatAt spans i = .plain := by
    intro i hlow _
    refine formatAt_of_forall_not fun other hother => ?_
    have := hstop other hother
    simp [Span.contains]
    omega
  have htext : (pieces ++ [Piece.mk .plain (expandTabs options.tabWidth
      (expandTabs options.tabWidth 0 behind).2 rest).1]).flatMap Piece.text =
      (expandTabs options.tabWidth 0 line).1 := by
    rw [List.flatMap_append, hwrote.text_eq, hline, expandTabs_append_fst]
    simp
  have hplain : '\x1b' ∉ (expandTabs options.tabWidth 0 line).1 := not_mem_expandTabs hescape
  rw [← htext] at hplain
  rw [hrender, Terminal.read_append, Terminal.read_flatMap_render hplain, List.flatMap_append,
    hcells]
  conv => rhs; rw [hline]
  rw [lineCells_append, Nat.zero_add, lineCells_of_format hrestFormat]
  simp [Terminal.read, Terminal.feed, Piece.cells]

/-- A bold red character, nothing, and an underlined one on blue. -/
def markedSpans : List Span :=
  [⟨0, 1, ⟨{ foreground := .red, bold := true }, ' '⟩⟩, ⟨1, 1, ⟨.colored .green, ' '⟩⟩,
    ⟨2, 4, ⟨{ background := .brightBlue, underline := true }, ' '⟩⟩]

theorem renderLine_shows_formats_marked :
    Terminal.read {} (renderLine { tabWidth := 4 } ['a', '\t', 'é'] markedSpans) =
      { look := .plain, mode := .text
        cells :=
          ⟨'a', { foreground := .red, bold := true }⟩ ::
            (List.replicate 3 ⟨' ', .plain⟩ ++
              [⟨'é', { background := .brightBlue, underline := true }⟩, ⟨'\n', .plain⟩]) } := by
  have hboundary : ∀ span ∈ markedSpans, span.start ≤ span.stop ∧
      IsBoundary ['a', '\t', 'é'] span.start ∧ IsBoundary ['a', '\t', 'é'] span.stop := by
    have hzero : IsBoundary ['a', '\t', 'é'] 0 := isBoundary_zero _
    have hone : IsBoundary ['a', '\t', 'é'] 1 := isBoundary_utf8Size _ _
    have htwo : IsBoundary ['a', '\t', 'é'] 2 := isBoundary_append ['a', '\t'] ['é']
    have hfour : IsBoundary ['a', '\t', 'é'] 4 := isBoundary_append ['a', '\t', 'é'] []
    simp [markedSpans, hzero, hone, htwo, hfour]
  rw [renderLine_shows_formats rfl (by decide) hboundary (by decide)]
  rfl

end Highlight
