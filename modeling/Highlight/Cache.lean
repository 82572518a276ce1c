import Highlight.Line

/-!
# Caches of highlighted lines

A cache holds, for each line of a buffer, what highlighting it gave and whether the line has changed
since.  An update highlights the stale lines again, and goes on behind them for as long as the stack
that a line starts with has changed.
-/

namespace Highlight

/-- What is kept of a highlighted line. -/
structure LineEntry where
  spans : List Span
  /-- The stack that the next line starts with. -/
  endStack : Stack
  lineContinue : Bool
  deriving Repr, DecidableEq, Inhabited

/-- What a cache holds for a line. -/
structure Slot where
  /-- Nothing if the line was never highlighted. -/
  entry : Option LineEntry := none
  /-- Whether the text has changed since the line was highlighted. -/
  stale : Bool := true
  deriving Repr, DecidableEq, Inhabited

/-- The highlighted lines of a buffer. -/
structure Cache where
  /-- The language of the buffer, if it has one. -/
  language : Option String := none
  slots : List Slot := []
  deriving Repr, DecidableEq, Inhabited

/-- What an update did. -/
structure Updated where
  slots : List Slot
  /-- How many lines were highlighted. -/
  count : Nat
  notices : List Notice
  deriving Repr, DecidableEq, Inhabited

namespace Cache

/-- Forgets all lines. -/
def invalidateAll (cache : Cache) : Cache :=
  { cache with slots := [] }

/-- Sets the language and forgets all lines. -/
def setLanguage (cache : Cache) (language : Option String) : Cache :=
  { cache.invalidateAll with language }

/-- Marks a line that was edited. -/
def invalidateLine (cache : Cache) (line : Nat) : Cache :=
  { cache with slots := cache.slots.modify line fun slot => { slot with stale := true } }

/-- Marks a line and all lines behind it. -/
def invalidateFrom (cache : Cache) (line : Nat) : Cache :=
  { cache with
    slots := cache.slots.take line ++
      (cache.slots.drop line).map fun slot => { slot with stale := true } }

/-- The slots for a number of lines; new ones are stale. -/
def resize (slots : List Slot) (count : Nat) : List Slot :=
  slots.take count ++ List.replicate (count - slots.length) ⟨none, true⟩

/-- Makes room for exactly some number of lines. -/
def ensureSize (cache : Cache) (count : Nat) : Cache :=
  { cache with slots := resize cache.slots count }

/-- The first stale line. -/
def firstStale? (cache : Cache) : Option Nat :=
  cache.slots.findIdx? Slot.stale

/-- What is kept of a line. -/
def entry? (cache : Cache) (line : Nat) : Option LineEntry :=
  cache.slots[line]?.bind Slot.entry

/-- The spans of a line. -/
def spans? (cache : Cache) (line : Nat) : Option (List Span) :=
  (cache.entry? line).map LineEntry.spans

/-- The stack that a line ended with. -/
def endStack? (cache : Cache) (line : Nat) : Option Stack :=
  (cache.entry? line).map LineEntry.endStack

/-- Highlights the lines that need it.  `before` is the entry of the line before the first slot, and
`changed` says whether that line was highlighted and ended with a new stack. -/
def refresh (grammar : Grammar) (before : Option LineEntry) (changed : Bool) :
    List Slot → List (List Char) → Except Fault Updated
  | slot :: slots, line :: lines =>
    if slot.stale || changed then
      let start := (before.map LineEntry.endStack).getD Grammar.initialStack
      match highlightLine grammar line start with
      | .error fault => .error fault
      | .ok result =>
        let entry := ⟨result.spans, result.endStack, result.lineContinue⟩
        let changed := slot.entry.all fun old => old.endStack ≠ entry.endStack
        match refresh grammar (some entry) changed slots lines with
        | .error fault => .error fault
        | .ok ⟨rest, count, notices⟩ =>
          .ok ⟨⟨some entry, false⟩ :: rest, count + 1, result.notices ++ notices⟩
    else
      match refresh grammar slot.entry false slots lines with
      | .error fault => .error fault
      | .ok ⟨rest, count, notices⟩ => .ok ⟨slot :: rest, count, notices⟩
  | slots, _ => .ok ⟨slots, 0, []⟩

/-- Brings the cache up to date with the lines of its buffer. -/
def update (cache : Cache) (grammar : Grammar) (lines : List (List Char)) :
    Except Fault (Cache × Nat × List Notice) := do
  let updated ← refresh grammar none false (resize cache.slots lines.length) lines
  .ok ({ cache with slots := updated.slots }, updated.count, updated.notices)

end Cache

end Highlight
