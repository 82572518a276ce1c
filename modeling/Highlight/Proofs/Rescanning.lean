import Highlight.Proofs.CachedStacks

/-!
# Which lines an update highlights

An update carries one flag from line to line: whether the line before was highlighted and ended with
a new stack.  So it highlights exactly the stale lines and those behind a line whose end stack it has
changed, each of them once and in order, and leaves everything else alone (`update_rescans`).

There are four groups.

* Notes.  `Cache.refreshNoting` is `Cache.refresh` with a note of each line that it highlights.  The
  notes change nothing (`Cache.map_refreshNoting`).
* Passes.  `Cache.Pass` is a relation for what happens with each slot, with one constructor for each
  case.  All that is said about an update is an induction on it.
* A second update.  Slots none of which is stale are left alone.
* Reachable caches.  The stacks that they hold are stacks of the grammar, so that no update of them
  meets a fault.
-/

namespace Highlight

namespace Cache

/-! ## Notes -/

/-- Refreshes slots, and notes the numbers of the lines that are highlighted in the order in which
they are.  `place` is the number of the first line. -/
def refreshNoting (grammar : Grammar) (place : Nat) (before : Option LineEntry) (changed : Bool) :
    List Slot → List (List Char) → Except Fault (Updated × List Nat)
  | slot :: slots, line :: lines =>
    if slot.stale || changed then
      match highlightLine grammar line (stackBehind before) with
      | .error fault => .error fault
      | .ok result =>
        let changed := slot.entry.all fun old => old.endStack ≠ result.endStack
        match refreshNoting grammar (place + 1) (some result.entry) changed slots lines with
        | .error fault => .error fault
        | .ok (⟨rest, count, notices⟩, places) =>
          .ok (⟨.clean result.entry :: rest, count + 1, result.notices ++ notices⟩,
            place :: places)
    else
      match refreshNoting grammar (place + 1) slot.entry false slots lines with
      | .error fault => .error fault
      | .ok (⟨rest, count, notices⟩, places) => .ok (⟨slot :: rest, count, notices⟩, places)
  | slots, _ => .ok (⟨slots, 0, []⟩, [])

/-- Brings a cache up to date, and notes the numbers of the lines that are highlighted. -/
def updateNoting (cache : Cache) (grammar : Grammar) (lines : List (List Char)) :
    Except Fault ((Cache × Nat × List Notice) × List Nat) :=
  (refreshNoting grammar 0 none false (resize cache.slots lines.length) lines).map
    fun (updated, places) =>
      (({ cache with slots := updated.slots }, updated.count, updated.notices), places)

variable {grammar : Grammar} {place : Nat} {before : Option LineEntry} {changed : Bool}
  {slots : List Slot} {lines : List (List Char)} {updated : Updated} {places : List Nat}

/-- Without its notes this is what refreshes slots. -/
theorem map_refreshNoting (place : Nat) (before : Option LineEntry) (changed : Bool)
    (slots : List Slot) (lines : List (List Char)) :
    (refreshNoting grammar place before changed slots lines).map Prod.fst =
      refresh grammar before changed slots lines := by
  induction slots generalizing place before changed lines with
  | nil => rfl
  | cons slot slots ih =>
    cases lines with
    | nil => rfl
    | cons line lines =>
      rw [refreshNoting, refresh]
      by_cases hneeds : (slot.stale || changed) = true
      · have hstart : (before.map LineEntry.endStack).getD Grammar.initialStack =
            stackBehind before := rfl
        simp only [if_pos hneeds, hstart, ← ih (place + 1)]
        cases highlightLine grammar line (stackBehind before) with
        | error fault => rfl
        | ok result =>
          simp only [Highlighted.entry]
          cases refreshNoting grammar (place + 1)
            (some ⟨result.spans, result.endStack, result.lineContinue⟩)
            (slot.entry.all fun old => decide (old.endStack ≠ result.endStack)) slots lines with
          | error fault => rfl
          | ok noted => rfl
      · simp only [if_neg hneeds, ← ih (place + 1)]
        cases refreshNoting grammar (place + 1) slot.entry false slots lines with
        | error fault => rfl
        | ok noted => rfl

theorem map_updateNoting (cache : Cache) (grammar : Grammar) (lines : List (List Char)) :
    (cache.updateNoting grammar lines).map Prod.fst = cache.update grammar lines := by
  have hnotes := @map_refreshNoting grammar 0 none false (resize cache.slots lines.length) lines
  simp only [update, ← hnotes, updateNoting, bind, Except.bind]
  cases refreshNoting grammar 0 none false (resize cache.slots lines.length) lines with
  | error fault => rfl
  | ok noted => rfl

theorem update_of_updateNoting {cache : Cache} {done : Cache × Nat × List Notice}
    (h : cache.updateNoting grammar lines = .ok (done, places)) :
    cache.update grammar lines = .ok done := by
  rw [← map_updateNoting, h]
  rfl

/-! ## Passes -/

/-- The entry before a line; `before` is the one before the first. -/
def entryBefore (before : Option LineEntry) (slots : List Slot) : Nat → Option LineEntry
  | 0 => before
  | i + 1 => slots[i]?.bind Slot.entry

theorem entryBefore_cons_succ (before : Option LineEntry) (slot : Slot) (slots : List Slot)
    (i : Nat) : entryBefore before (slot :: slots) (i + 1) = entryBefore slot.entry slots i := by
  cases i with
  | zero => rfl
  | succ i => rfl

/-- The stack that a line is known to end with. -/
def endStackAt (slots : List Slot) (i : Nat) : Option Stack :=
  (slots[i]?.bind Slot.entry).map LineEntry.endStack

/-- The flag that is carried on says whether the end stack is a new one. -/
theorem changed_iff {entry : Option LineEntry} {stack : Stack} :
    (entry.all fun old => decide (old.endStack ≠ stack)) = true ↔
      entry.map LineEntry.endStack ≠ some stack := by
  cases entry with
  | none => simp
  | some old => simp

theorem mem_cons_succ_iff {place i : Nat} {places : List Nat} :
    place + (i + 1) ∈ place :: places ↔ place + 1 + i ∈ places := by
  rw [List.mem_cons, ← Nat.add_assoc, Nat.add_right_comm]
  constructor
  · rintro (heq | hmem)
    · omega
    · exact hmem
  · exact .inr

/-- A pass over slots and their lines: what it leaves, and the numbers of the lines that it
highlights. -/
inductive Pass (grammar : Grammar) : Nat → Option LineEntry → Bool → List Slot →
    List (List Char) → Updated → List Nat → Prop
  | done {place : Nat} {before : Option LineEntry} {changed : Bool} :
      Pass grammar place before changed [] [] ⟨[], 0, []⟩ []
  | highlight {place : Nat} {before : Option LineEntry} {changed : Bool} {slot : Slot}
      {slots : List Slot} {line : List Char} {lines : List (List Char)} {result : Highlighted}
      {rest : Updated} {places : List Nat} (needs : (slot.stale || changed) = true)
      (result_eq : highlightLine grammar line (stackBehind before) = .ok result)
      (later : Pass grammar (place + 1) (some result.entry)
        (slot.entry.all fun old => old.endStack ≠ result.endStack) slots lines rest places) :
      Pass grammar place before changed (slot :: slots) (line :: lines)
        ⟨.clean result.entry :: rest.slots, rest.count + 1, result.notices ++ rest.notices⟩
        (place :: places)
  | leave {place : Nat} {before : Option LineEntry} {changed : Bool} {slot : Slot}
      {slots : List Slot} {line : List Char} {lines : List (List Char)} {rest : Updated}
      {places : List Nat} (needsNot : (slot.stale || changed) = false)
      (later : Pass grammar (place + 1) slot.entry false slots lines rest places) :
      Pass grammar place before changed (slot :: slots) (line :: lines)
        ⟨slot :: rest.slots, rest.count, rest.notices⟩ places

theorem pass_of_refreshNoting (hlength : slots.length = lines.length)
    (h : refreshNoting grammar place before changed slots lines = .ok (updated, places)) :
    Pass grammar place before changed slots lines updated places := by
  induction slots generalizing place before changed lines updated places with
  | nil =>
    cases lines with
    | nil =>
      cases h
      exact .done
    | cons line lines => cases hlength
  | cons slot slots ih =>
    cases lines with
    | nil => cases hlength
    | cons line lines =>
      have hlengths : slots.length = lines.length := Nat.succ.inj hlength
      rw [refreshNoting] at h
      split at h
      · next hneeds =>
        split at h
        · cases h
        · next result hresult =>
          dsimp only at h
          split at h
          · cases h
          · next hlater =>
            cases h
            exact .highlight hneeds hresult (ih hlengths hlater)
      · next hneeds =>
        split at h
        · cases h
        · next hlater =>
          cases h
          exact .leave (Bool.eq_false_iff.2 hneeds) (ih hlengths hlater)

namespace Pass

variable (h : Pass grammar place before changed slots lines updated places)

include h

theorem length_slots : updated.slots.length = slots.length := by
  induction h with
  | done => rfl
  | highlight _ _ _ ih | leave _ _ ih => exact congrArg (· + 1) ih

theorem length_places : places.length = updated.count := by
  induction h with
  | done => rfl
  | highlight _ _ _ ih => exact congrArg (· + 1) ih
  | leave _ _ ih => exact ih

theorem le_of_mem {i : Nat} (hi : i ∈ places) : place ≤ i := by
  induction h with
  | done => cases hi
  | highlight _ _ _ ih =>
    rcases List.mem_cons.1 hi with rfl | hi
    · exact Nat.le_refl _
    · exact Nat.le_of_succ_le (ih hi)
  | leave _ _ ih => exact Nat.le_of_succ_le (ih hi)

theorem not_mem_of_lt {i : Nat} (hi : i < place) : i ∉ places :=
  fun hmem => Nat.not_lt.2 (h.le_of_mem hmem) hi

/-- The lines are highlighted in order, each of them once. -/
theorem pairwise_places : places.Pairwise (· < ·) := by
  induction h with
  | done => exact .nil
  | highlight _ _ later ih => exact .cons (fun i hi => later.le_of_mem hi) ih
  | leave _ _ ih => exact ih

theorem not_stale : ∀ slot ∈ updated.slots, slot.stale = false := by
  induction h with
  | done => simp
  | highlight _ _ _ ih => exact List.forall_mem_cons.2 ⟨rfl, ih⟩
  | leave needsNot _ ih =>
    exact List.forall_mem_cons.2 ⟨(Bool.or_eq_false_iff.1 needsNot).1, ih⟩

/-- What is held for a line that is not highlighted stays. -/
theorem getElem?_of_not_mem {i : Nat} (hi : place + i ∉ places) :
    updated.slots[i]? = slots[i]? := by
  induction h generalizing i with
  | done => rfl
  | highlight _ _ _ ih =>
    cases i with
    | zero => exact absurd List.mem_cons_self hi
    | succ i => exact ih (mem_cons_succ_iff.not.1 hi)
  | leave _ _ ih =>
    cases i with
    | zero => rfl
    | succ i => exact ih (by rwa [← Nat.add_assoc, Nat.add_right_comm] at hi)

/-- What is held for a line that is highlighted is what highlighting it gives, from the stack that
the line before now ends with. -/
theorem getElem?_of_mem {i : Nat} (hi : place + i ∈ places) :
    ∃ line result, lines[i]? = some line ∧
      highlightLine grammar line (stackBehind (entryBefore before updated.slots i)) = .ok result ∧
      updated.slots[i]? = some (.clean result.entry) := by
  induction h generalizing i with
  | done => cases hi
  | highlight _ result_eq _ ih =>
    cases i with
    | zero => exact ⟨_, _, rfl, result_eq, rfl⟩
    | succ i =>
      rw [entryBefore_cons_succ]
      exact ih (mem_cons_succ_iff.1 hi)
  | leave _ later ih =>
    cases i with
    | zero => exact absurd hi (later.not_mem_of_lt (Nat.lt_succ_self _))
    | succ i =>
      rw [entryBefore_cons_succ]
      exact ih (by rwa [← Nat.add_assoc, Nat.add_right_comm] at hi)

/-- The first line is highlighted if it is stale or starts with a new stack. -/
theorem mem_zero_iff : place ∈ places ↔
    ∃ slot, slots[0]? = some slot ∧ (slot.stale || changed) = true := by
  cases h with
  | done => simp
  | highlight needs _ _ => simpa using needs
  | leave needsNot later =>
    have hnot := later.not_mem_of_lt (Nat.lt_succ_self _)
    simpa [hnot] using needsNot

/-- A line behind the first is highlighted if it is stale, or if the line before it was highlighted
and ends with another stack than before. -/
theorem mem_succ_iff (i : Nat) : place + (i + 1) ∈ places ↔
    ∃ slot, slots[i + 1]? = some slot ∧ (slot.stale = true ∨
      place + i ∈ places ∧ endStackAt slots i ≠ endStackAt updated.slots i) := by
  induction h generalizing i with
  | done => simp
  | highlight _ _ later ih =>
    rw [mem_cons_succ_iff]
    cases i with
    | zero =>
      rw [Nat.add_zero, later.mem_zero_iff]
      simp only [Bool.or_eq_true, changed_iff, Nat.add_zero, List.mem_cons_self, true_and]
      rfl
    | succ i =>
      rw [ih, mem_cons_succ_iff]
      rfl
  | leave _ later ih =>
    rw [← Nat.add_assoc, Nat.add_right_comm]
    cases i with
    | zero =>
      have hnot := later.not_mem_of_lt (Nat.lt_succ_self _)
      rw [Nat.add_zero, later.mem_zero_iff]
      simp only [Bool.or_false, Nat.add_zero, hnot, false_and, or_false]
      rfl
    | succ i =>
      rw [ih, Nat.add_right_comm]
      rfl

omit h in
/-- In a pass from the first line of a buffer, a line is highlighted if it is stale, or if the line
before it was highlighted and ends with another stack than before. -/
theorem mem_iff (h : Pass grammar 0 before false slots lines updated places) (i : Nat) :
    i ∈ places ↔ ∃ slot, slots[i]? = some slot ∧ (slot.stale = true ∨
      ∃ j, i = j + 1 ∧ j ∈ places ∧ endStackAt slots j ≠ endStackAt updated.slots j) := by
  cases i with
  | zero => simpa using h.mem_zero_iff
  | succ i => simpa using h.mem_succ_iff i

end Pass

/-! ## A second update -/

/-- Slots none of which is stale are left alone. -/
theorem refresh_of_not_stale {before : Option LineEntry} {slots : List Slot}
    (h : ∀ slot ∈ slots, slot.stale = false) (lines : List (List Char)) :
    refresh grammar before false slots lines = .ok ⟨slots, 0, []⟩ := by
  induction slots generalizing before lines with
  | nil => rfl
  | cons slot slots ih =>
    obtain ⟨hslot, hslots⟩ := List.forall_mem_cons.1 h
    cases lines with
    | nil => rfl
    | cons line lines =>
      exact refresh_cons_eq_ok_iff.2 (.inr ⟨by simp [hslot], _, ih hslots lines, rfl⟩)

theorem resize_length_self (slots : List Slot) : resize slots slots.length = slots := by
  simp [resize]

/-- An update of a cache that is up to date changes nothing. -/
theorem update_of_not_stale {cache : Cache} (h : ∀ slot ∈ cache.slots, slot.stale = false)
    (hlength : cache.slots.length = lines.length) :
    cache.update grammar lines = .ok (cache, 0, []) := by
  simp only [update, ← hlength, resize_length_self, refresh_of_not_stale h, bind, Except.bind]

/-! ## Reachable caches -/

/-- A cache that operations lead to, all updates among them with one grammar. -/
inductive Reachable (grammar : Grammar) : Cache → Prop
  | new : Reachable grammar {}
  | setLanguage {cache : Cache} (h : Reachable grammar cache) (language : Option String) :
      Reachable grammar (cache.setLanguage language)
  | invalidateLine {cache : Cache} (h : Reachable grammar cache) (line : Nat) :
      Reachable grammar (cache.invalidateLine line)
  | invalidateFrom {cache : Cache} (h : Reachable grammar cache) (line : Nat) :
      Reachable grammar (cache.invalidateFrom line)
  | invalidateAll {cache : Cache} (h : Reachable grammar cache) :
      Reachable grammar cache.invalidateAll
  | ensureSize {cache : Cache} (h : Reachable grammar cache) (count : Nat) :
      Reachable grammar (cache.ensureSize count)
  | update {cache updated : Cache} (h : Reachable grammar cache) {lines : List (List Char)}
      {count : Nat} {notices : List Notice}
      (update_eq : cache.update grammar lines = .ok (updated, count, notices)) :
      Reachable grammar updated

/-- All stacks that a cache holds are stacks of the grammar. -/
def Holds (grammar : Grammar) (cache : Cache) : Prop :=
  ∀ slot ∈ cache.slots, slot.Within grammar.contexts.length

theorem Below.holds {cache other : Cache} (hbelow : cache.Below other)
    (h : other.Holds grammar) : cache.Holds grammar := by
  intro slot hslot entry hentry
  obtain ⟨origin, horigin, hsame⟩ := hbelow.2 slot hslot entry hentry
  exact h origin horigin entry hsame

/-- An update of a cache that holds stacks of the grammar is a pass over its slots, meets no fault
and keeps that. -/
theorem Holds.exists_pass (hresolved : grammar.Resolved) {cache : Cache}
    (h : cache.Holds grammar) (lines : List (List Char)) :
    ∃ updated places,
      cache.updateNoting grammar lines =
        .ok (({ cache with slots := updated.slots }, updated.count, updated.notices), places) ∧
      Pass grammar 0 none false (resize cache.slots lines.length) lines updated places ∧
      Holds grammar { cache with slots := updated.slots } := by
  have hinitial : (stackBehind none).Within grammar.contexts.length :=
    hresolved.within_initialStack
  have hslots : ∀ slot ∈ resize cache.slots lines.length, slot.Within grammar.contexts.length :=
    (below_ensureSize cache lines.length).holds h
  obtain ⟨updated, hrefresh, hholds⟩ :
      ∃ updated, refresh grammar none false (resize cache.slots lines.length) lines =
        .ok updated ∧ ∀ slot ∈ updated.slots, slot.Within grammar.contexts.length :=
    exists_refresh_within hresolved hinitial hslots
  rw [← map_refreshNoting 0] at hrefresh
  cases hnoting : refreshNoting grammar 0 none false (resize cache.slots lines.length) lines with
  | error fault =>
    rw [hnoting] at hrefresh
    cases hrefresh
  | ok noted =>
    rw [hnoting] at hrefresh
    cases hrefresh
    refine ⟨noted.1, noted.2, ?_, pass_of_refreshNoting (length_resize _ _) hnoting, hholds⟩
    rw [updateNoting, hnoting]
    rfl

theorem Reachable.holds (hresolved : grammar.Resolved) {cache : Cache}
    (h : cache.Reachable grammar) : cache.Holds grammar := by
  induction h with
  | new =>
    intro slot hslot
    cases hslot
  | setLanguage _ language _ =>
    intro slot hslot
    cases hslot
  | invalidateLine _ line ih => exact (below_invalidateLine _ line).holds ih
  | invalidateFrom _ line ih => exact (below_invalidateFrom _ line).holds ih
  | invalidateAll _ ih => exact (below_invalidateAll _).holds ih
  | ensureSize _ count ih => exact (below_ensureSize _ count).holds ih
  | update _ update_eq ih =>
    obtain ⟨updated, places, hnoting, -, hholds⟩ := ih.exists_pass hresolved _
    rw [update_of_updateNoting hnoting] at update_eq
    cases update_eq
    exact hholds

/-- A line that stays keeps the end stack that was known. -/
theorem endStack?_ensureSize (cache : Cache) {count i : Nat} (hi : i < count) :
    (cache.ensureSize count).endStack? i = cache.endStack? i := by
  simp only [endStack?, entry?, ensureSize, getElem?_resize, if_pos hi]
  cases cache.slots[i]? with
  | none => rfl
  | some slot => rfl

/-- The lines that an update highlights are those that are due. -/
theorem Pass.mem_iff_due {cache : Cache}
    (h : Pass grammar 0 before false (resize cache.slots lines.length) lines updated places)
    (i : Nat) : i ∈ places ↔ i < lines.length ∧
      ((∃ slot, (cache.ensureSize lines.length).slots[i]? = some slot ∧ slot.stale = true) ∨
        ∃ j, i = j + 1 ∧ j ∈ places ∧
          cache.endStack? j ≠ endStack? { cache with slots := updated.slots } j) := by
  rw [h.mem_iff]
  constructor
  · rintro ⟨slot, hslot, hdue⟩
    have hi : i < lines.length := by
      rw [← length_resize cache.slots lines.length]
      exact (List.getElem?_eq_some_iff.1 hslot).1
    refine ⟨hi, ?_⟩
    rcases hdue with hstale | ⟨j, rfl, hj, hstack⟩
    · exact .inl ⟨slot, hslot, hstale⟩
    · refine .inr ⟨j, rfl, hj, ?_⟩
      rw [← endStack?_ensureSize cache (Nat.lt_of_succ_lt hi)]
      exact hstack
  · rintro ⟨hi, ⟨slot, hslot, hstale⟩ | ⟨j, rfl, hj, hstack⟩⟩
    · exact ⟨slot, hslot, .inl hstale⟩
    · have hslot := getElem?_resize cache.slots lines.length (j + 1)
      rw [if_pos hi] at hslot
      rw [← endStack?_ensureSize cache (Nat.lt_of_succ_lt hi)] at hstack
      exact ⟨_, hslot, .inr ⟨j, rfl, hj, hstack⟩⟩

end Cache

/-- An update highlights exactly the lines that need it.  From any cache that operations with one
grammar lead to, it succeeds for any lines.  A line is highlighted if, with the cache cut or extended
to the number of lines, it is stale, or if the line before it was highlighted in the same update and
ends with another stack than was held for it, if any was.  Lines are highlighted in order, each once,
and their number is the answer.  What is held for them is what highlighting gives, and what is held
for other lines stays.  No line is stale afterwards, and a second update does nothing. -/
theorem update_rescans {description : GrammarDef} {grammar : Grammar}
    (hbuild : description.build.result = .ok grammar) {cache : Cache}
    (hreachable : cache.Reachable grammar) (lines : List (List Char)) :
    ∃ updated count notices places,
      cache.update grammar lines = .ok (updated, count, notices) ∧
      cache.updateNoting grammar lines = .ok ((updated, count, notices), places) ∧
      (∀ i, i ∈ places ↔ i < lines.length ∧
        ((∃ slot, (cache.ensureSize lines.length).slots[i]? = some slot ∧ slot.stale = true) ∨
          ∃ j, i = j + 1 ∧ j ∈ places ∧ cache.endStack? j ≠ updated.endStack? j)) ∧
      places.Pairwise (· < ·) ∧ places.length = count ∧
      (∀ i ∈ places, ∃ line result, lines[i]? = some line ∧
        highlightLine grammar line (stackBehind (Cache.entryBefore none updated.slots i)) =
          .ok result ∧
        updated.slots[i]? = some (.clean result.entry)) ∧
      (∀ i, i ∉ places → updated.slots[i]? = (cache.ensureSize lines.length).slots[i]?) ∧
      updated.firstStale? = none ∧
      updated.update grammar lines = .ok (updated, 0, []) := by
  have hresolved : grammar.Resolved := Grammar.Built.resolved ⟨description, hbuild⟩
  obtain ⟨updated, places, hnoting, hpass, -⟩ :=
    (hreachable.holds hresolved).exists_pass hresolved lines
  have hlength : updated.slots.length = lines.length :=
    hpass.length_slots.trans (Cache.length_resize _ _)
  refine ⟨_, _, _, places, Cache.update_of_updateNoting hnoting, hnoting, hpass.mem_iff_due,
    hpass.pairwise_places, hpass.length_places, ?_, ?_, ?_,
    Cache.update_of_not_stale hpass.not_stale hlength⟩
  · intro i hi
    exact hpass.getElem?_of_mem (by rwa [Nat.zero_add])
  · intro i hi
    exact hpass.getElem?_of_not_mem (by rwa [Nat.zero_add])
  · rw [Cache.firstStale?, List.findIdx?_eq_none_iff]
    exact hpass.not_stale

/-- Of three lines that were highlighted before the second is edited: it is highlighted again, and
the first is not. -/
theorem update_rescans_quotedText :
    ∃ grammar, quotedText.build.result = .ok grammar ∧ ∃ cache updated count notices places,
      Cache.Reachable grammar cache ∧
      cache.updateNoting grammar [['a'], ['"'], ['b']] =
        .ok ((updated, count, notices), places) ∧
      0 ∉ places ∧ 1 ∈ places ∧ places.length = count := by
  obtain ⟨grammar, hbuild, -⟩ := quotedText_build
  obtain ⟨first, _, _, all, hfirst, -, hall, -, -, hclean, -⟩ :=
    update_rescans hbuild .new [['a'], ['"'], ['b']]
  have hreachable : Cache.Reachable grammar (first.invalidateLine 1) :=
    .invalidateLine (.update .new hfirst) 1
  obtain ⟨updated, count, notices, places, -, hnoting, hplaces, -, hcount, -⟩ :=
    update_rescans hbuild hreachable [['a'], ['"'], ['b']]
  refine ⟨grammar, hbuild, _, updated, count, notices, places, hreachable, hnoting, ?_, ?_, hcount⟩
  · have hnew : 0 ∈ all := (hall 0).2 ⟨by decide, .inl ⟨_, rfl, rfl⟩⟩
    obtain ⟨_, _, _, _, hslot⟩ := hclean 0 hnew
    intro hmem
    obtain ⟨-, ⟨slot, hget, hstale⟩ | ⟨j, hj, -⟩⟩ := (hplaces 0).1 hmem
    · rw [Cache.ensureSize, Cache.getElem?_resize, Cache.getElem?_invalidateLine, hslot] at hget
      cases hget
      cases hstale
    · cases hj
  · have hnew : 1 ∈ all := (hall 1).2 ⟨by decide, .inl ⟨_, rfl, rfl⟩⟩
    obtain ⟨_, result, _, _, hslot⟩ := hclean 1 hnew
    have hget : ((first.invalidateLine 1).ensureSize 3).slots[1]? =
        some ⟨some result.entry, true⟩ := by
      rw [Cache.ensureSize, Cache.getElem?_resize, Cache.getElem?_invalidateLine, hslot]
      rfl
    exact (hplaces 1).2 ⟨by decide, .inl ⟨_, hget, rfl⟩⟩

end Highlight
