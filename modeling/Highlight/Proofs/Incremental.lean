import Highlight.Cache
import Highlight.Proofs.Scanning

/-!
# Incremental highlighting

An update of a cache highlights some lines again and leaves the others alone.  If every line whose
text has changed was invalidated, the cache then holds what highlighting the whole document from its
first line gives (`update_eq_highlightDocument`).

There are six groups.

* Documents.  `highlightDocument` is highlighting from the first line, each line with the stack that
  the line before it ended with.
* Rescanning.  `Cache.rescanned` says which lines an update highlights; `count_rescanned` ties it to
  the number that the update answers.
* Slots.  What each operation on a cache makes of the slot of a line.
* Chains.  `Chained` is the invariant of a cache: a slot that is not stale holds what highlighting
  the last known text of its line gives, with the stack of the entry before it.
* Updates.  `exists_refresh` is the induction along the lines: what is left alone is what
  highlighting would have given.
* Edits.  `Tracked` is a cache with a record of the texts that were highlighted and of the lines
  that were invalidated since.  Every operation keeps the invariant, in any order.
-/

namespace Highlight

/-! ## Documents -/

/-- What a cache keeps of a highlighted line. -/
def Highlighted.entry (result : Highlighted) : LineEntry :=
  ⟨result.spans, result.endStack, result.lineContinue⟩

/-- Highlights the lines of a document in order. -/
def highlightDocument (grammar : Grammar) : Stack → List (List Char) →
    Except Fault (List LineEntry)
  | _, [] => .ok []
  | start, line :: lines => do
    let result ← highlightLine grammar line start
    let entries ← highlightDocument grammar result.endStack lines
    .ok (result.entry :: entries)

theorem highlightDocument_cons {grammar : Grammar} {start : Stack} {line : List Char}
    {lines : List (List Char)} {result : Highlighted} {entries : List LineEntry}
    (hline : highlightLine grammar line start = .ok result)
    (hlines : highlightDocument grammar result.endStack lines = .ok entries) :
    highlightDocument grammar start (line :: lines) = .ok (result.entry :: entries) := by
  simp only [highlightDocument, hline, hlines, bind, Except.bind]

/-- The stack that a line starts with, if the line before it has an entry. -/
def startAt (start : Option Stack) (slots : List Slot) : Nat → Option Stack
  | 0 => start
  | i + 1 => (slots[i]?.bind Slot.entry).map LineEntry.endStack

/-- What is kept of a line that was just highlighted. -/
def Slot.clean (entry : LineEntry) : Slot :=
  ⟨some entry, false⟩

theorem Slot.eq_clean {slot : Slot} {entry : LineEntry} (hentry : slot.entry = some entry)
    (hstale : slot.stale = false) : slot = .clean entry := by
  obtain ⟨kept, stale⟩ := slot
  cases hentry
  cases hstale
  rfl

theorem startAt_cons (start : Option Stack) (slot : Slot) (slots : List Slot) (i : Nat) :
    startAt start (slot :: slots) (i + 1) =
      startAt (slot.entry.map LineEntry.endStack) slots i := by
  cases i with
  | zero => rfl
  | succ i => rfl

/-- Each line of a highlighted document has the entry that highlighting it gives with the stack of
the entry before it. -/
theorem exists_entry_of_highlightDocument {grammar : Grammar} {start : Stack}
    {lines : List (List Char)} {entries : List LineEntry}
    (h : highlightDocument grammar start lines = .ok entries) :
    entries.length = lines.length ∧ ∀ i line, lines[i]? = some line →
      ∃ stack result, startAt (some start) (entries.map Slot.clean) i = some stack ∧
        highlightLine grammar line stack = .ok result ∧ entries[i]? = some result.entry := by
  induction lines generalizing start entries with
  | nil =>
    cases h
    refine ⟨rfl, ?_⟩
    intro i line hline
    cases hline
  | cons first rest ih =>
    simp only [highlightDocument, bind, Except.bind] at h
    split at h
    · cases h
    · next result hresult =>
      split at h
      · cases h
      · next later hlater =>
        cases h
        obtain ⟨hlength, hentries⟩ := ih hlater
        refine ⟨?_, ?_⟩
        · rw [List.length_cons, List.length_cons, hlength]
        · intro i line hline
          cases i with
          | zero =>
            cases hline
            exact ⟨start, result, rfl, hresult, rfl⟩
          | succ i =>
            obtain ⟨stack, found, hstart, hfound, hentry⟩ := hentries i line hline
            refine ⟨stack, found, ?_, hfound, hentry⟩
            rw [List.map_cons, startAt_cons]
            exact hstart

/-! ## Rescanning -/

/-- The stack behind an entry, and the initial one where there is none before. -/
def stackBehind (before : Option LineEntry) : Stack :=
  (before.map LineEntry.endStack).getD Grammar.initialStack

namespace Cache

/-- Which lines `refresh` highlights. -/
def rescanned (grammar : Grammar) (before : Option LineEntry) (changed : Bool) :
    List Slot → List (List Char) → List Bool
  | slot :: slots, line :: lines =>
    if slot.stale || changed then
      match highlightLine grammar line (stackBehind before) with
      | .error _ => []
      | .ok result =>
        true :: rescanned grammar (some result.entry)
          (slot.entry.all fun old => old.endStack ≠ result.endStack) slots lines
    else false :: rescanned grammar slot.entry false slots lines
  | _, _ => []

variable {grammar : Grammar} {before : Option LineEntry} {changed : Bool} {slot : Slot}
  {slots : List Slot} {line : List Char} {lines : List (List Char)}

/-- A line is highlighted if it is stale or starts with a new stack, and left alone otherwise. -/
theorem refresh_cons_eq_ok_iff {updated : Updated} :
    refresh grammar before changed (slot :: slots) (line :: lines) = .ok updated ↔
      ((slot.stale || changed) = true ∧ ∃ result rest,
        highlightLine grammar line (stackBehind before) = .ok result ∧
        refresh grammar (some result.entry)
          (slot.entry.all fun old => old.endStack ≠ result.endStack) slots lines = .ok rest ∧
        updated = ⟨.clean result.entry :: rest.slots, rest.count + 1,
          result.notices ++ rest.notices⟩) ∨
      (¬(slot.stale || changed) = true ∧ ∃ rest,
        refresh grammar slot.entry false slots lines = .ok rest ∧
        updated = ⟨slot :: rest.slots, rest.count, rest.notices⟩) := by
  rw [refresh]
  by_cases hneeds : (slot.stale || changed) = true
  · rw [if_pos hneeds]
    simp only [hneeds, not_true, false_and, or_false, true_and, stackBehind, Highlighted.entry]
    cases hresult : highlightLine grammar line
      ((before.map LineEntry.endStack).getD Grammar.initialStack) with
    | error fault => simp
    | ok result =>
      constructor
      · intro h
        simp only at h
        split at h
        · cases h
        · next rest count notices hrest =>
          cases h
          exact ⟨result, ⟨rest, count, notices⟩, rfl, hrest, rfl⟩
      · rintro ⟨found, rest, hfound, hrest, rfl⟩
        cases hfound
        simp only [hrest]
        rfl
  · rw [if_neg hneeds]
    cases hrest : refresh grammar slot.entry false slots lines with
    | error fault => simp [hneeds]
    | ok rest => simp [hneeds, eq_comm]

theorem rescanned_of_needs {result : Highlighted} (hneeds : (slot.stale || changed) = true)
    (hresult : highlightLine grammar line (stackBehind before) = .ok result) :
    rescanned grammar before changed (slot :: slots) (line :: lines) =
      true :: rescanned grammar (some result.entry)
        (slot.entry.all fun old => old.endStack ≠ result.endStack) slots lines := by
  rw [rescanned, if_pos hneeds, hresult]

theorem rescanned_of_left (hneeds : ¬(slot.stale || changed) = true) :
    rescanned grammar before changed (slot :: slots) (line :: lines) =
      false :: rescanned grammar slot.entry false slots lines := by
  rw [rescanned, if_neg hneeds]

/-- An update answers how many lines it highlighted. -/
theorem count_rescanned {updated : Updated}
    (h : refresh grammar before changed slots lines = .ok updated) :
    (rescanned grammar before changed slots lines).count true = updated.count := by
  induction slots generalizing before changed lines updated with
  | nil =>
    cases h
    rfl
  | cons slot slots ih =>
    cases lines with
    | nil =>
      cases h
      rfl
    | cons line lines =>
      rcases refresh_cons_eq_ok_iff.1 h with
        ⟨hneeds, result, rest, hresult, hrest, rfl⟩ | ⟨hneeds, rest, hrest, rfl⟩
      · rw [rescanned_of_needs hneeds hresult, List.count_cons_self, ih hrest]
      · rw [rescanned_of_left hneeds, List.count_cons_of_ne (by decide), ih hrest]

/-! ## Slots -/

theorem getElem?_invalidateLine (cache : Cache) (edited i : Nat) :
    (cache.invalidateLine edited).slots[i]? =
      cache.slots[i]?.map fun slot => if edited = i then { slot with stale := true } else slot := by
  rw [invalidateLine, List.getElem?_modify]
  rfl

theorem getElem?_invalidateFrom (cache : Cache) (first i : Nat) :
    (cache.invalidateFrom first).slots[i]? =
      cache.slots[i]?.map fun slot => if first ≤ i then { slot with stale := true } else slot := by
  simp only [invalidateFrom]
  by_cases hi : first ≤ i
  · by_cases hlength : first ≤ cache.slots.length
    · have htake : (cache.slots.take first).length = first := by
        rw [List.length_take]
        omega
      rw [List.getElem?_append_right (by omega), htake, List.getElem?_map, List.getElem?_drop,
        show first + (i - first) = i by omega]
      simp only [if_pos hi]
    · have hnone : cache.slots[i]? = none := List.getElem?_eq_none (by omega)
      have hdrop : cache.slots.drop first = [] := List.drop_eq_nil_of_le (by omega)
      rw [hnone, hdrop, List.map_nil, List.append_nil, List.getElem?_take_eq_none hi]
      rfl
  · have hlt : i < first := by omega
    by_cases hslot : i < cache.slots.length
    · rw [List.getElem?_append_left (by rw [List.length_take]; omega),
        List.getElem?_take_of_lt hlt]
      simp only [if_neg hi, Option.map_id']
    · have hnone : cache.slots[i]? = none := List.getElem?_eq_none (by omega)
      have hdrop : cache.slots.drop first = [] := List.drop_eq_nil_of_le (by omega)
      rw [hnone, hdrop, List.map_nil, List.append_nil, List.getElem?_take_of_lt hlt, hnone]
      rfl

theorem length_resize (slots : List Slot) (count : Nat) :
    (resize slots count).length = count := by
  rw [resize, List.length_append, List.length_take, List.length_replicate]
  omega

theorem getElem?_resize (slots : List Slot) (count i : Nat) :
    (resize slots count)[i]? = if i < count then some (slots[i]?.getD {}) else none := by
  by_cases hi : i < count
  · rw [if_pos hi, resize]
    by_cases hslot : i < slots.length
    · rw [List.getElem?_append_left (by rw [List.length_take]; omega),
        List.getElem?_take_of_lt hi, List.getElem?_eq_getElem hslot, Option.getD_some]
    · have htake : (slots.take count).length = slots.length := by
        rw [List.length_take]
        omega
      rw [List.getElem?_append_right (by omega), htake,
        List.getElem?_replicate_of_lt (by omega), List.getElem?_eq_none (by omega)]
      rfl
  · rw [if_neg hi, List.getElem?_eq_none]
    rw [length_resize]
    omega

end Cache

/-! ## Chains -/

/-- The slots that are not stale hold what highlighting gives for the known texts of their lines,
with the stacks of the entries before them. -/
def Chained (grammar : Grammar) (known : Nat → Option (List Char)) (start : Option Stack)
    (slots : List Slot) : Prop :=
  ∀ i slot, slots[i]? = some slot → slot.stale = false →
    ∃ stack text result, startAt start slots i = some stack ∧ known i = some text ∧
      highlightLine grammar text stack = .ok result ∧ slot.entry = some result.entry

namespace Chained

variable {grammar : Grammar} {known : Nat → Option (List Char)} {start : Option Stack}
  {slots : List Slot}

theorem head {slot : Slot} (h : Chained grammar known start (slot :: slots))
    (hclean : slot.stale = false) :
    ∃ stack text result, start = some stack ∧ known 0 = some text ∧
      highlightLine grammar text stack = .ok result ∧ slot.entry = some result.entry :=
  h 0 slot rfl hclean

theorem tail {slot : Slot} (h : Chained grammar known start (slot :: slots)) :
    Chained grammar (fun i => known (i + 1)) (slot.entry.map LineEntry.endStack) slots := by
  intro i other hother hclean
  obtain ⟨stack, text, result, hstart, hknown, hresult, hentry⟩ := h (i + 1) other hother hclean
  rw [startAt_cons] at hstart
  exact ⟨stack, text, result, hstart, hknown, hresult, hentry⟩

/-- The invariant is about the slots that are not stale and the entries before them, so it is kept
where these and the texts of their lines stay. -/
theorem weaken {known' : Nat → Option (List Char)} {slots' : List Slot}
    (h : Chained grammar known start slots)
    (hslots : ∀ i slot, slots'[i]? = some slot → slot.stale = false →
      slots[i]? = some slot ∧ known' i = known i ∧
        ∀ j < i, slots'[j]?.bind Slot.entry = slots[j]?.bind Slot.entry) :
    Chained grammar known' start slots' := by
  intro i slot hslot hclean
  obtain ⟨hsame, hknown', hentries⟩ := hslots i slot hslot hclean
  obtain ⟨stack, text, result, hstart, hknown, hresult, hentry⟩ := h i slot hsame hclean
  refine ⟨stack, text, result, ?_, ?_, hresult, hentry⟩
  · cases i with
    | zero => exact hstart
    | succ i =>
      rw [startAt, hentries i (Nat.lt_succ_self i)]
      exact hstart
  · rw [hknown', hknown]

/-- Marking slots as stale keeps the invariant, whatever is known of the marked lines. -/
theorem mark {known' : Nat → Option (List Char)} {slots' : List Slot} (p : Nat → Prop)
    [DecidablePred p] (h : Chained grammar known start slots)
    (hslots : ∀ i, slots'[i]? =
      slots[i]?.map fun slot => if p i then { slot with stale := true } else slot)
    (hknown : ∀ i, ¬p i → known' i = known i) : Chained grammar known' start slots' := by
  apply h.weaken
  intro i slot hslot hclean
  rw [hslots, Option.map_eq_some_iff] at hslot
  obtain ⟨other, hother, rfl⟩ := hslot
  by_cases hp : p i
  · rw [if_pos hp] at hclean
    cases hclean
  · rw [if_neg hp]
    refine ⟨hother, hknown i hp, ?_⟩
    intro j _
    rw [hslots]
    cases slots[j]? with
    | none => rfl
    | some before =>
      by_cases hpj : p j
      · simp [hpj]
      · simp [hpj]

/-- Slots for a number of lines keep the invariant. -/
theorem resize (h : Chained grammar known start slots) (count : Nat) :
    Chained grammar known start (Cache.resize slots count) := by
  apply h.weaken
  intro i slot hslot hclean
  rw [Cache.getElem?_resize] at hslot
  by_cases hi : i < count
  · rw [if_pos hi] at hslot
    cases hget : slots[i]? with
    | none =>
      rw [hget] at hslot
      cases hslot
      cases hclean
    | some other =>
      rw [hget] at hslot
      cases hslot
      refine ⟨rfl, rfl, ?_⟩
      intro j hj
      obtain ⟨hlt, -⟩ := List.getElem?_eq_some_iff.1 hget
      rw [Cache.getElem?_resize, if_pos (by omega), List.getElem?_eq_getElem (by omega),
        Option.getD_some]
  · rw [if_neg hi] at hslot
    cases hslot

end Chained

/-- A cache that holds a highlighted document is chained. -/
theorem chained_of_highlightDocument {grammar : Grammar} {known : Nat → Option (List Char)}
    {start : Stack} {lines : List (List Char)} {entries : List LineEntry}
    (h : highlightDocument grammar start lines = .ok entries)
    (hknown : ∀ i line, lines[i]? = some line → known i = some line) :
    Chained grammar known (some start) (entries.map Slot.clean) := by
  obtain ⟨hlength, hentries⟩ := exists_entry_of_highlightDocument h
  intro i slot hslot hclean
  rw [List.getElem?_map, Option.map_eq_some_iff] at hslot
  obtain ⟨entry, hentry, rfl⟩ := hslot
  obtain ⟨hlt, -⟩ := List.getElem?_eq_some_iff.1 hentry
  have hline : lines[i]? = some lines[i] := List.getElem?_eq_getElem (by omega)
  obtain ⟨stack, result, hstart, hresult, hsame⟩ := hentries i _ hline
  rw [hsame] at hentry
  cases hentry
  exact ⟨stack, lines[i], result, hstart, hknown i _ hline, hresult, rfl⟩

/-! ## Updates -/

namespace Cache

variable {grammar : Grammar} {known : Nat → Option (List Char)}

/-- A line that is not passed on as changed had an entry with the same end stack. -/
theorem endStack_eq_of_not_changed {slot : Slot} {stack : Stack}
    (h : (slot.entry.all fun entry => decide (entry.endStack ≠ stack)) = false) :
    slot.entry.map LineEntry.endStack = some stack := by
  cases hentry : slot.entry with
  | none =>
    rw [hentry] at h
    cases h
  | some entry =>
    rw [hentry, Option.all_some, decide_eq_false_iff_not, ne_eq, not_not] at h
    rw [Option.map_some, h]

/-- Updating chained slots gives what highlighting all lines gives, if the texts of the lines that
are known are the right ones.  The lines that are left alone are among those. -/
theorem exists_refresh (hresolved : grammar.Resolved) {before : Option LineEntry} {changed : Bool}
    {old : Option Stack} {slots : List Slot} {lines : List (List Char)}
    (hlength : slots.length = lines.length)
    (hbefore : (stackBehind before).Within grammar.contexts.length)
    (hold : changed = false → old = some (stackBehind before))
    (hchained : Chained grammar known old slots)
    (hknown : ∀ i slot line text, slots[i]? = some slot → slot.stale = false →
      lines[i]? = some line → known i = some text → line = text) :
    ∃ updated entries, refresh grammar before changed slots lines = .ok updated ∧
      highlightDocument grammar (stackBehind before) lines = .ok entries ∧
      updated.slots = entries.map Slot.clean ∧
      (rescanned grammar before changed slots lines).length = lines.length ∧
      ∀ i, (rescanned grammar before changed slots lines)[i]? = some false →
        ∃ slot, slots[i]? = some slot ∧ slot.stale = false ∧ known i = lines[i]? := by
  induction slots generalizing before changed old known lines with
  | nil =>
    cases lines with
    | nil =>
      refine ⟨_, [], rfl, rfl, rfl, rfl, ?_⟩
      intro i hi
      cases hi
    | cons line lines => cases hlength
  | cons slot slots ih =>
    cases lines with
    | nil => cases hlength
    | cons line lines =>
      have hlengths : slots.length = lines.length := Nat.succ.inj hlength
      have hknowns : ∀ i slot line text, slots[i]? = some slot → slot.stale = false →
          lines[i]? = some line → known (i + 1) = some text → line = text :=
        fun i => hknown (i + 1)
      by_cases hneeds : (slot.stale || changed) = true
      · obtain ⟨result, -, -, hresult, -, -, -, hwithin⟩ :=
          exists_highlightLine hresolved line hbefore
        have hsame : (slot.entry.all fun entry => decide (entry.endStack ≠ result.endStack)) =
            false → slot.entry.map LineEntry.endStack = some (stackBehind (some result.entry)) :=
          endStack_eq_of_not_changed
        have hbehind : (stackBehind (some result.entry)).Within grammar.contexts.length := hwithin
        obtain ⟨rest, entries, hrest, hdocument, hslots, hcount, hleft⟩ :=
          ih hlengths hbehind hsame hchained.tail hknowns
        refine ⟨_, result.entry :: entries, refresh_cons_eq_ok_iff.2
          (.inl ⟨hneeds, result, rest, hresult, hrest, rfl⟩),
          highlightDocument_cons hresult hdocument, ?_, ?_, ?_⟩
        · rw [List.map_cons, hslots]
        · rw [rescanned_of_needs hneeds hresult, List.length_cons, List.length_cons, hcount]
        · intro i hi
          rw [rescanned_of_needs hneeds hresult] at hi
          cases i with
          | zero => cases hi
          | succ i => exact hleft i hi
      · have hclean : slot.stale = false ∧ changed = false := by simpa using hneeds
        obtain ⟨stack, text, result, hstart, htext, hresult, hentry⟩ :=
          hchained.head hclean.1
        rw [hold hclean.2] at hstart
        cases hstart
        obtain rfl : line = text := hknown 0 slot line text rfl hclean.1 rfl htext
        obtain ⟨found, -, -, hfound, -, -, -, hwithin⟩ :=
          exists_highlightLine hresolved line hbefore
        rw [hresult] at hfound
        cases hfound
        have hbehind : (stackBehind slot.entry).Within grammar.contexts.length := by
          rw [hentry]
          exact hwithin
        have hstack : stackBehind slot.entry = result.endStack := by
          rw [hentry]
          rfl
        obtain ⟨rest, entries, hrest, hdocument, hslots, hcount, hleft⟩ :=
          ih hlengths hbehind (by intro _; rw [hentry]; rfl) hchained.tail hknowns
        rw [hstack] at hdocument
        refine ⟨_, result.entry :: entries, refresh_cons_eq_ok_iff.2
          (.inr ⟨hneeds, rest, hrest, rfl⟩), highlightDocument_cons hresult hdocument, ?_, ?_, ?_⟩
        · rw [List.map_cons, hslots, ← Slot.eq_clean hentry hclean.1]
        · rw [rescanned_of_left hneeds, List.length_cons, List.length_cons, hcount]
        · intro i hi
          rw [rescanned_of_left hneeds] at hi
          cases i with
          | zero => exact ⟨slot, rfl, hclean.1, htext⟩
          | succ i => exact hleft i hi

end Cache

/-! ## Edits -/

/-- An operation on the cache of a buffer. -/
inductive CacheOp where
  | update (lines : List (List Char))
  | invalidateLine (line : Nat)
  | invalidateFrom (line : Nat)
  | invalidateAll
  | ensureSize (count : Nat)
  deriving Repr, DecidableEq, Inhabited

/-- A cache, and what happened to the lines of its buffer. -/
structure Tracked where
  cache : Cache
  /-- The text that a line had when it was last highlighted. -/
  seen : Nat → Option (List Char)
  /-- Whether a line was invalidated since then. -/
  marked : Nat → Bool

namespace Tracked

/-- A new cache. -/
def start : Tracked :=
  ⟨{}, fun _ => none, fun _ => false⟩

/-- The lines that an update highlights. -/
def rescanned (grammar : Grammar) (state : Tracked) (lines : List (List Char)) : List Bool :=
  Cache.rescanned grammar none false (Cache.resize state.cache.slots lines.length) lines

/-- Notes that an update left a cache behind. -/
def afterUpdate (grammar : Grammar) (state : Tracked) (lines : List (List Char)) (cache : Cache) :
    Tracked :=
  let rescanned := state.rescanned grammar lines
  { cache
    seen := fun i => if rescanned[i]? = some true then lines[i]? else state.seen i
    marked := fun i => if rescanned[i]? = some true then false else state.marked i }

/-- Makes an operation on the cache and notes what it does. -/
def step (grammar : Grammar) (state : Tracked) : CacheOp → Except Fault Tracked
  | .update lines => do
    let (cache, _, _) ← state.cache.update grammar lines
    .ok (state.afterUpdate grammar lines cache)
  | .invalidateLine line =>
    .ok { state with
      cache := state.cache.invalidateLine line
      marked := fun i => if line = i then true else state.marked i }
  | .invalidateFrom line =>
    .ok { state with
      cache := state.cache.invalidateFrom line
      marked := fun i => if line ≤ i then true else state.marked i }
  | .invalidateAll => .ok { state with cache := state.cache.invalidateAll, marked := fun _ => true }
  | .ensureSize count => .ok { state with cache := state.cache.ensureSize count }

/-- Makes operations one after the other. -/
def run (grammar : Grammar) (state : Tracked) : List CacheOp → Except Fault Tracked
  | [] => .ok state
  | op :: ops => do
    let next ← state.step grammar op
    next.run grammar ops

/-- Before an update every line whose text is not the one that was last highlighted is invalidated.
Other operations can be made at any time. -/
def Admits (state : Tracked) : CacheOp → Prop
  | .update lines => ∀ i line text, lines[i]? = some line → state.seen i = some text →
      line ≠ text → state.marked i = true
  | _ => True

/-- Operations that can be made one after the other. -/
def Admissible (grammar : Grammar) (state : Tracked) : List CacheOp → Prop
  | [] => True
  | op :: ops => state.Admits op ∧
      ∀ next, state.step grammar op = .ok next → next.Admissible grammar ops

/-- The text of a line that was highlighted and not invalidated since. -/
def known (state : Tracked) (i : Nat) : Option (List Char) :=
  if state.marked i then none else state.seen i

/-- The slots of the cache that are not stale are right for the known texts. -/
def Sound (grammar : Grammar) (state : Tracked) : Prop :=
  Chained grammar state.known (some Grammar.initialStack) state.cache.slots

variable {grammar : Grammar}

theorem exists_cache_of_update {state next : Tracked} {lines : List (List Char)}
    (h : state.step grammar (.update lines) = .ok next) :
    ∃ cache, next = state.afterUpdate grammar lines cache := by
  simp only [step, bind, Except.bind] at h
  split at h
  · cases h
  · next updated hupdated =>
    cases h
    exact ⟨_, rfl⟩

theorem sound_start : start.Sound grammar := by
  intro i slot hslot
  cases hslot

/-- The update lemma: the cache then holds the highlighted document, and the invariant is kept. -/
theorem exists_update (hresolved : grammar.Resolved) {state : Tracked}
    (hsound : state.Sound grammar) {lines : List (List Char)}
    (hadmits : state.Admits (.update lines)) :
    ∃ next entries, state.step grammar (.update lines) = .ok next ∧ next.Sound grammar ∧
      highlightDocument grammar Grammar.initialStack lines = .ok entries ∧
      next.cache.slots = entries.map Slot.clean := by
  have hknown : ∀ i slot line text,
      (Cache.resize state.cache.slots lines.length)[i]? = some slot → slot.stale = false →
      lines[i]? = some line → state.known i = some text → line = text := by
    intro i slot line text _ _ hline htext
    unfold known at htext
    split at htext
    · cases htext
    · next hmarked =>
      by_contra hne
      exact hmarked (hadmits i line text hline htext hne)
  have hinitial : (stackBehind none).Within grammar.contexts.length :=
    hresolved.within_initialStack
  have hsame : false = false → some Grammar.initialStack = some (stackBehind none) := fun _ => rfl
  obtain ⟨updated, entries, hrefresh, hdocument, hslots, hlength, hleft⟩ :=
    Cache.exists_refresh hresolved (Cache.length_resize _ _) hinitial hsame
      (hsound.resize lines.length) hknown
  have hstep : state.step grammar (.update lines) =
      .ok (state.afterUpdate grammar lines { state.cache with slots := updated.slots }) := by
    simp only [step, Cache.update, hrefresh, bind, Except.bind]
  refine ⟨_, entries, hstep, ?_, hdocument, hslots⟩
  unfold Sound
  simp only [afterUpdate, hslots]
  apply chained_of_highlightDocument hdocument
  intro i line hline
  obtain ⟨hi, -⟩ := List.getElem?_eq_some_iff.1 hline
  have hrescanned : i < (state.rescanned grammar lines).length := by
    rw [rescanned, hlength]
    exact hi
  have hget : (state.rescanned grammar lines)[i]? = some (state.rescanned grammar lines)[i] :=
    List.getElem?_eq_getElem hrescanned
  cases hdone : (state.rescanned grammar lines)[i] with
  | true =>
    rw [hdone] at hget
    simp only [known, hget, if_true, Bool.false_eq_true, if_false, hline]
  | false =>
    rw [hdone] at hget
    obtain ⟨slot, -, -, hsame⟩ := hleft i hget
    rw [known] at hsame
    simp only [known, hget, Option.some.injEq, Bool.false_eq_true, if_false]
    rw [hsame, hline]

/-- The step lemma: every operation that can be made succeeds and keeps the invariant. -/
theorem exists_step (hresolved : grammar.Resolved) {state : Tracked} (hsound : state.Sound grammar)
    {op : CacheOp} (hadmits : state.Admits op) :
    ∃ next, state.step grammar op = .ok next ∧ next.Sound grammar := by
  cases op with
  | update lines =>
    obtain ⟨next, entries, hstep, hnext, -, -⟩ := exists_update hresolved hsound hadmits
    exact ⟨next, hstep, hnext⟩
  | invalidateLine line =>
    refine ⟨_, rfl, hsound.mark (fun i => line = i) (state.cache.getElem?_invalidateLine line) ?_⟩
    intro i hi
    simp only [known, if_neg hi]
  | invalidateFrom line =>
    refine ⟨_, rfl, hsound.mark (fun i => line ≤ i) (state.cache.getElem?_invalidateFrom line) ?_⟩
    intro i hi
    simp only [known, if_neg hi]
  | invalidateAll =>
    refine ⟨_, rfl, ?_⟩
    intro i slot hslot
    cases hslot
  | ensureSize count => exact ⟨_, rfl, hsound.resize count⟩

/-- The run lemma: operations that can be made succeed and keep the invariant, whatever their
order. -/
theorem exists_run (hresolved : grammar.Resolved) {state : Tracked} (hsound : state.Sound grammar)
    {ops : List CacheOp} (hadmissible : state.Admissible grammar ops) :
    ∃ last, state.run grammar ops = .ok last ∧ last.Sound grammar := by
  induction ops generalizing state with
  | nil => exact ⟨state, rfl, hsound⟩
  | cons op ops ih =>
    obtain ⟨hadmits, hrest⟩ := hadmissible
    obtain ⟨next, hstep, hnext⟩ := exists_step hresolved hsound hadmits
    obtain ⟨last, hrun, hlast⟩ := ih hnext (hrest next hstep)
    refine ⟨last, ?_, hlast⟩
    simp only [run, hstep, hrun, bind, Except.bind]

theorem run_append {state middle : Tracked} {ops : List CacheOp} (more : List CacheOp)
    (h : state.run grammar ops = .ok middle) :
    state.run grammar (ops ++ more) = middle.run grammar more := by
  induction ops generalizing state with
  | nil =>
    cases h
    rfl
  | cons op ops ih =>
    simp only [run, bind, Except.bind] at h
    split at h
    · cases h
    · next next hnext =>
      simp only [List.cons_append, run, hnext, bind, Except.bind]
      exact ih h

theorem Admissible.append {state : Tracked} {ops more : List CacheOp}
    (h : state.Admissible grammar (ops ++ more)) :
    state.Admissible grammar ops ∧
      ∀ middle, state.run grammar ops = .ok middle → middle.Admissible grammar more := by
  induction ops generalizing state with
  | nil =>
    refine ⟨trivial, ?_⟩
    intro middle hmiddle
    cases hmiddle
    exact h
  | cons op ops ih =>
    obtain ⟨hadmits, hrest⟩ := h
    refine ⟨⟨hadmits, fun next hnext => (ih (hrest next hnext)).1⟩, ?_⟩
    intro middle hmiddle
    simp only [run, bind, Except.bind] at hmiddle
    split at hmiddle
    · cases hmiddle
    · next next hnext => exact (ih (hrest next hnext)).2 middle hmiddle

end Tracked

/-- Incremental highlighting is highlighting from scratch.  Take any operations on a new cache that
end with an update, where before each update the lines with a new text were invalidated.  They
succeed, and the cache then holds for each line the entry that highlighting the whole document gives
it, and no stale line. -/
theorem update_eq_highlightDocument {description : GrammarDef} {grammar : Grammar}
    (hbuild : description.build.result = .ok grammar) {ops : List CacheOp}
    {lines : List (List Char)}
    (hadmissible : Tracked.start.Admissible grammar (ops ++ [.update lines])) :
    ∃ last entries, Tracked.start.run grammar (ops ++ [.update lines]) = .ok last ∧
      highlightDocument grammar Grammar.initialStack lines = .ok entries ∧
      last.cache.slots = entries.map Slot.clean ∧
      entries.length = lines.length ∧
      last.cache.firstStale? = none ∧
      ∀ i line, lines[i]? = some line →
        ∃ start result,
          (if i = 0 then start = Grammar.initialStack
            else last.cache.endStack? (i - 1) = some start) ∧
          highlightLine grammar line start = .ok result ∧
          last.cache.entry? i = some ⟨result.spans, result.endStack, result.lineContinue⟩ := by
  have hresolved : grammar.Resolved := Grammar.Built.resolved ⟨description, hbuild⟩
  obtain ⟨hops, hupdate⟩ := hadmissible.append
  obtain ⟨middle, hmiddle, hsound⟩ := Tracked.exists_run hresolved Tracked.sound_start hops
  obtain ⟨hadmits, -⟩ := hupdate middle hmiddle
  obtain ⟨last, entries, hstep, -, hdocument, hslots⟩ :=
    Tracked.exists_update hresolved hsound hadmits
  obtain ⟨hlength, hentries⟩ := exists_entry_of_highlightDocument hdocument
  refine ⟨last, entries, ?_, hdocument, hslots, hlength, ?_, ?_⟩
  · rw [Tracked.run_append [.update lines] hmiddle]
    simp only [Tracked.run, hstep, bind, Except.bind]
  · rw [Cache.firstStale?, hslots, List.findIdx?_eq_none_iff]
    intro slot hslot
    obtain ⟨entry, -, rfl⟩ := List.mem_map.1 hslot
    rfl
  · intro i line hline
    obtain ⟨start, result, hstart, hresult, hentry⟩ := hentries i line hline
    refine ⟨start, result, ?_, hresult, ?_⟩
    · rw [← hslots] at hstart
      cases i with
      | zero =>
        cases hstart
        rfl
      | succ i => exact hstart
    · rw [Cache.entry?, hslots, List.getElem?_map, hentry]
      rfl

/-- A quote is taken away from the first line: its end stack changes, and the second line, which was
not invalidated, is highlighted with it. -/
theorem update_eq_highlightDocument_quotedText :
    ∃ grammar, quotedText.build.result = .ok grammar ∧
      ∃ last entries,
        Tracked.start.run grammar [.update [['"'], ['b']], .invalidateLine 0,
          .update [['a'], ['b']]] = .ok last ∧
        highlightDocument grammar Grammar.initialStack [['a'], ['b']] = .ok entries ∧
        last.cache.slots = entries.map Slot.clean := by
  obtain ⟨grammar, hbuild, -⟩ := quotedText_build
  have hadmissible : Tracked.start.Admissible grammar
      ([.update [['"'], ['b']], .invalidateLine 0] ++ [.update [['a'], ['b']]]) := by
    refine ⟨?_, fun first hfirst => ⟨trivial, fun second hsecond => ⟨?_, fun _ _ => trivial⟩⟩⟩
    · intro i line text _ hseen
      cases hseen
    · obtain ⟨cache, rfl⟩ := Tracked.exists_cache_of_update hfirst
      cases hsecond
      intro i line text hline hseen hne
      match i with
      | 0 => rfl
      | 1 =>
        cases hline
        simp only [Tracked.afterUpdate] at hseen
        split at hseen
        · cases hseen
          exact absurd rfl hne
        · cases hseen
      | i + 2 => cases hline
  obtain ⟨last, entries, hrun, hdocument, hslots, -⟩ :=
    update_eq_highlightDocument hbuild hadmissible
  exact ⟨grammar, hbuild, last, entries, hrun, hdocument, hslots⟩

end Highlight
