import Highlight.Grammar.Matching

/-!
# Highlighting a line

A line is scanned from left to right with the stack that the line before it ended with.  At each
offset the first matching rule of the current context decides: it consumes text, or it only takes a
switch, or no rule applies and the context's fallthrough switch or a step over one character
follows.  Switches that take no text are limited in number at one offset, so that scanning ends
(`Scan.Progress`).  Behind the text the switches for the end of the line are taken.
-/

namespace Highlight

/-- How many switches without text may be taken at one offset. -/
def zeroWidthLimit : Nat := 64

/-- How many switches may be taken at the end of a line. -/
def lineEndLimit : Nat := 1024

/-- What highlighting a line gives. -/
structure Highlighted where
  /-- The spans of the line, in order and without gaps. -/
  spans : List Span
  /-- The stack that the next line starts with. -/
  endStack : Stack
  /-- Whether the line goes on in the next one. -/
  lineContinue : Bool
  notices : List Notice
  deriving Repr, DecidableEq, Inhabited

/-! ## Scanning -/

/-- How far a line is scanned. -/
structure Scan where
  before : Option Char
  rest : List Char
  /-- The bytes before the rest. -/
  offset : Nat
  /-- The characters before the rest. -/
  column : Nat
  /-- Where the text begins that is not in a span yet. -/
  pending : Nat
  stack : Stack
  /-- How many switches were taken at this offset. -/
  zeroWidth : Nat
  /-- Whether the last step consumed the marker that continues a line. -/
  lineContinue : Bool
  /-- The spans so far, the last one first. -/
  spans : List Span
  /-- The notices so far, the last one first. -/
  notices : List Notice
  deriving Repr, DecidableEq, Inhabited

/-- What to do at an offset. -/
inductive Move where
  /-- Take the text of a match and go on with a stack. -/
  | consume (found : RuleMatch) (stack : Stack)
  /-- Go on at the same offset with a stack. -/
  | divert (stack : Stack)
  /-- Leave one character to the context. -/
  | pass
  deriving Repr, DecidableEq, Inhabited

/-- The stack behind a match. -/
def RuleMatch.nextStack (found : RuleMatch) (stack : Stack) : Stack :=
  match found.switch with
  | some switch => switch.apply stack found.captures
  | none => stack

/-- The notices of the switch of a match. -/
def RuleMatch.notices (found : RuleMatch) (stack : Stack) : List Notice :=
  match found.switch with
  | some switch => switch.notices stack
  | none => []

namespace Scan

/-- The start of a line. -/
def start (line : List Char) (stack : Stack) : Scan :=
  { before := none, rest := line, offset := 0, column := 0, pending := 0, stack, zeroWidth := 0
    lineContinue := false, spans := [], notices := [] }

/-- The cursor of the rules, in a line with `leading` bytes of white space before its text. -/
def cursor (scan : Scan) (grammar : Grammar) (leading : Nat) : Cursor :=
  { before := scan.before, rest := scan.rest, offset := scan.offset, column := scan.column
    firstNonSpace := scan.offset ≤ leading, data := scan.stack.currentData
    delimiters := grammar.delimiters }

/-- Adds notices. -/
def note (scan : Scan) (notices : List Notice) : Scan :=
  { scan with notices := notices.reverse ++ scan.notices }

/-- Puts the text that is pending into a span. -/
def flush (scan : Scan) (style : Style) : Scan :=
  { scan with
    spans :=
      if scan.pending < scan.offset then ⟨scan.pending, scan.offset, style⟩ :: scan.spans
      else scan.spans
    pending := scan.offset }

/-- What to do where no rule decides: take the fallthrough switch of the context if it changes the
stack and the limit allows it, or else leave the character to the context. -/
def fallThrough (scan : Scan) (context : Context) : Move × List Notice :=
  if scan.zeroWidth < zeroWidthLimit then
    if context.fallthrough.isStay then (.pass, [])
    else
      let next := context.fallthrough.apply scan.stack none
      let notices := context.fallthrough.notices scan.stack
      (if next = scan.stack then .pass else .divert next, notices)
  else (.pass, [.tooManySwitches scan.offset context.name])

/-- What to do with what the rules of the context found. -/
def chooseMove (scan : Scan) (context : Context) (found : Option RuleMatch) : Move × List Notice :=
  match found with
  | none => scan.fallThrough context
  | some found =>
    let next := found.nextStack scan.stack
    let notices := found.notices scan.stack
    if 0 < found.length then (.consume found next, notices)
    else if found.switch.isSome && next ≠ scan.stack && scan.zeroWidth < zeroWidthLimit then
      (.divert next, notices)
    else
      let (move, more) := scan.fallThrough context
      (move, notices ++ more)

/-- Makes a move in a context. -/
def perform (scan : Scan) (context : Context) : Move → Except Fault Scan
  | .consume found stack =>
    match splitAtByte? found.length scan.rest with
    | none => .error (.splitsCharacter found.length)
    | some (taken, rest) =>
      let flushed := scan.flush context.style
      let stop := scan.offset + found.length
      .ok { flushed with
        before := lastChar scan.before taken
        rest
        offset := stop
        column := scan.column + taken.length
        pending := stop
        stack
        zeroWidth := 0
        lineContinue := found.lineContinue
        spans := ⟨scan.offset, stop, found.style.getD context.style⟩ :: flushed.spans }
  | .divert stack =>
    .ok { scan.flush context.style with stack, zeroWidth := scan.zeroWidth + 1 }
  | .pass =>
    match scan.rest with
    | [] => .ok scan
    | c :: rest =>
      .ok { scan with
        before := some c
        rest
        offset := scan.offset + c.utf8Size
        column := scan.column + 1
        zeroWidth := 0
        lineContinue := false }

/-- One step of scanning. -/
def step (grammar : Grammar) (leading : Nat) (scan : Scan) : Except Fault Scan := do
  let context ← grammar.context scan.stack.current
  let trial ← grammar.tryRules context.rules (scan.cursor grammar leading)
  let (move, notices) := scan.chooseMove context trial.found
  let next ← scan.perform context move
  .ok (next.note (trial.broken.map .brokenPattern ++ notices))

/-! ## Progress -/

/-- A later state of scanning: less text is left, or another one of the limited switches was taken
before the same text. -/
def Progress (next scan : Scan) : Prop :=
  next.rest.length < scan.rest.length ∨
    (next.rest = scan.rest ∧ next.zeroWidth = scan.zeroWidth + 1 ∧
      scan.zeroWidth < zeroWidthLimit)

/-- A move that a scan may make: text that is consumed is not empty, and the limit of switches is
kept. -/
def Allows (scan : Scan) : Move → Prop
  | .consume found _ => 0 < found.length
  | .divert _ => scan.zeroWidth < zeroWidthLimit
  | .pass => True

theorem allows_fallThrough (scan : Scan) (context : Context) :
    scan.Allows (scan.fallThrough context).1 := by
  unfold fallThrough
  split
  · next h =>
    split
    · trivial
    · simp only
      split
      · trivial
      · exact h
  · trivial

theorem allows_chooseMove (scan : Scan) (context : Context) (found : Option RuleMatch) :
    scan.Allows (scan.chooseMove context found).1 := by
  unfold chooseMove
  split
  · exact scan.allows_fallThrough context
  · next found =>
    simp only
    split
    · next h => exact h
    · split
      · next h =>
        simp only [Bool.and_eq_true, decide_eq_true_eq] at h
        exact h.2
      · exact scan.allows_fallThrough context

/-- An allowed move makes progress while some text is left. -/
theorem progress_perform {scan next : Scan} {context : Context} {move : Move}
    (hallows : scan.Allows move) (hrest : scan.rest ≠ [])
    (h : scan.perform context move = .ok next) : next.Progress scan := by
  cases move with
  | consume found stack =>
    simp only [perform] at h
    split at h
    · cases h
    · next taken rest hsplit =>
      cases h
      exact .inl (length_lt_of_splitAtByte? hallows hsplit)
  | divert stack =>
    cases h
    exact .inr ⟨rfl, rfl, hallows⟩
  | pass =>
    simp only [perform] at h
    split at h
    · next hnil => exact absurd hnil hrest
    · next c rest hcons =>
      cases h
      left
      simp [hcons]

theorem progress_step {grammar : Grammar} {leading : Nat} {scan next : Scan}
    (hrest : scan.rest ≠ []) (h : scan.step grammar leading = .ok next) : next.Progress scan := by
  simp only [step, bind, Except.bind] at h
  split at h
  · cases h
  · next context _ =>
    split at h
    · cases h
    · next trial _ =>
      split at h
      · cases h
      · next moved hmoved =>
        cases h
        have hprogress : moved.Progress scan :=
          progress_perform (scan.allows_chooseMove context trial.found) hrest hmoved
        exact hprogress

/-- Scans the rest of a line. -/
def run (grammar : Grammar) (leading : Nat) (scan : Scan) : Except Fault Scan :=
  if _hrest : scan.rest = [] then .ok scan
  else
    match _hstep : scan.step grammar leading with
    | .error fault => .error fault
    | .ok next => next.run grammar leading
termination_by (scan.rest.length, zeroWidthLimit - scan.zeroWidth)
decreasing_by
  rcases progress_step _hrest _hstep with hless | ⟨hsame, hcount, hlimit⟩
  · exact Prod.Lex.left _ _ hless
  · rw [hsame, hcount]
    apply Prod.Lex.right
    omega

end Scan

/-! ## The end of a line -/

/-- Takes the switches for the end of a line until the context on top stays, at most `limit`. -/
def settleLineEnd (grammar : Grammar) (limit : Nat) (stack : Stack) :
    Except Fault (Stack × List Notice) := do
  let context ← grammar.context stack.current
  match limit with
  | 0 => .ok (stack, [.lineEndUnsettled context.name])
  | limit + 1 =>
    if context.lineEnd.isStay then .ok (stack, [])
    else
      let next := context.lineEnd.apply stack none
      let notices := context.lineEnd.notices stack
      if next = stack then .ok (stack, notices)
      else
        let (settled, more) ← settleLineEnd grammar limit next
        .ok (settled, notices ++ more)

/-- The stack for the next line: the switches for the end of the line are followed by the one for
the beginning of a line in the context that is reached. -/
def nextLineStack (grammar : Grammar) (stack : Stack) : Except Fault (Stack × List Notice) := do
  let (settled, notices) ← settleLineEnd grammar lineEndLimit stack
  let context ← grammar.context settled.current
  .ok (context.lineBegin.apply settled none, notices ++ context.lineBegin.notices settled)

/-- Highlights a line, starting with a stack. -/
def highlightLine (grammar : Grammar) (line : List Char) (stack : Stack) :
    Except Fault Highlighted := do
  let scan ← (Scan.start line stack).run grammar (leadingBlanks line)
  let context ← grammar.context scan.stack.current
  let spans := (scan.flush context.style).spans.reverse
  if scan.lineContinue then
    .ok { spans, endStack := scan.stack, lineContinue := true, notices := scan.notices.reverse }
  else
    let (endStack, notices) ← nextLineStack grammar scan.stack
    .ok { spans, endStack, lineContinue := false, notices := scan.notices.reverse ++ notices }

end Highlight
