import Highlight.Proofs.Incremental
import Highlight.Workspace

/-!
# Cached stacks and the grammars in use

The end stacks that a workspace caches for a buffer are followed again when the buffer is updated,
with the grammar that is known under the name of its language at that time.  They were made with the
grammar that was known when the lines were highlighted.  The two can differ: a language may be added
under a name that is in use.

There are five groups.

* Caches.  `Slot.Within` says that the stack of a slot is one of a grammar, and an update keeps
  that.
* Operations.  `WorkspaceOp` lists what can be done with a workspace, in any order.
* Soundness.  In a sound workspace every cached stack is one of the grammar known for its buffer.
  What an operation does to one cache keeps that (`Sound.setCache`).
* Added languages.  `Fits` is the exact condition on a language that is added.
  `fitting_iff_alwaysSound` says that a workspace is sound all the time, and no update meets a
  fault, exactly if every language fits when it is added.
* A replaced language.  `exists_unsound_replacement` is a language that does not fit.
-/

namespace Highlight

/-! ## Caches -/

/-- The end stack that a slot holds, if any, has contexts among the first `size`. -/
def Slot.Within (size : Nat) (slot : Slot) : Prop :=
  ∀ entry, slot.entry = some entry → entry.endStack.Within size

theorem Slot.Within.stackBehind {grammar : Grammar} {slot : Slot}
    (h : slot.Within grammar.contexts.length) (hresolved : grammar.Resolved) :
    (Highlight.stackBehind slot.entry).Within grammar.contexts.length := by
  unfold Highlight.stackBehind
  cases hentry : slot.entry with
  | none => exact hresolved.within_initialStack
  | some entry => exact h entry hentry

/-- Updating slots whose stacks are of the grammar meets no fault and gives such slots. -/
theorem Cache.exists_refresh_within {grammar : Grammar} (hresolved : grammar.Resolved)
    {before : Option LineEntry} {changed : Bool} {slots : List Slot} {lines : List (List Char)}
    (hbefore : (stackBehind before).Within grammar.contexts.length)
    (hslots : ∀ slot ∈ slots, slot.Within grammar.contexts.length) :
    ∃ updated, refresh grammar before changed slots lines = .ok updated ∧
      ∀ slot ∈ updated.slots, slot.Within grammar.contexts.length := by
  induction slots generalizing before changed lines with
  | nil => exact ⟨⟨[], 0, []⟩, rfl, hslots⟩
  | cons slot slots ih =>
    have hslot : slot.Within grammar.contexts.length := hslots slot List.mem_cons_self
    have hrest : ∀ other ∈ slots, other.Within grammar.contexts.length :=
      fun other hother => hslots other (List.mem_cons_of_mem _ hother)
    cases lines with
    | nil => exact ⟨⟨slot :: slots, 0, []⟩, rfl, hslots⟩
    | cons line lines =>
      by_cases hneeds : (slot.stale || changed) = true
      · obtain ⟨result, -, -, hresult, -, -, -, hwithin⟩ :=
          exists_highlightLine hresolved line hbefore
        have hbehind : (stackBehind (some result.entry)).Within grammar.contexts.length := hwithin
        obtain ⟨rest, hrefresh, hupdated⟩ := ih hbehind hrest
        refine ⟨_, refresh_cons_eq_ok_iff.2 (.inl ⟨hneeds, result, rest, hresult, hrefresh, rfl⟩),
          ?_⟩
        intro other hother
        rcases List.mem_cons.1 hother with rfl | hother
        · intro entry hentry
          cases hentry
          exact hwithin
        · exact hupdated other hother
      · obtain ⟨rest, hrefresh, hupdated⟩ := ih (hslot.stackBehind hresolved) hrest
        refine ⟨_, refresh_cons_eq_ok_iff.2 (.inr ⟨hneeds, rest, hrefresh, rfl⟩), ?_⟩
        intro other hother
        rcases List.mem_cons.1 hother with rfl | hother
        · exact hslot
        · exact hupdated other hother

/-- What a cache holds is among what another one holds, for the same language. -/
def Cache.Below (cache other : Cache) : Prop :=
  cache.language = other.language ∧ ∀ slot ∈ cache.slots, ∀ entry, slot.entry = some entry →
    ∃ origin ∈ other.slots, origin.entry = some entry

theorem Cache.below_of_slots {cache other : Cache} (hlanguage : cache.language = other.language)
    (hslots : ∀ (i : Nat) (slot : Slot), cache.slots[i]? = some slot → slot.entry = none ∨
      ∃ origin, other.slots[i]? = some origin ∧ origin.entry = slot.entry) :
    cache.Below other := by
  refine ⟨hlanguage, ?_⟩
  intro slot hslot entry hentry
  obtain ⟨i, hi⟩ := List.mem_iff_getElem?.1 hslot
  rcases hslots i slot hi with hnone | ⟨origin, horigin, hsame⟩
  · rw [hentry] at hnone
    cases hnone
  · refine ⟨origin, List.mem_of_getElem? horigin, ?_⟩
    rw [hsame, hentry]

/-- Marking slots as stale adds nothing. -/
theorem Cache.below_of_marked {cache other : Cache} (p : Nat → Prop) [DecidablePred p]
    (hlanguage : cache.language = other.language)
    (hslots : ∀ i : Nat, cache.slots[i]? =
      other.slots[i]?.map fun slot => if p i then { slot with stale := true } else slot) :
    cache.Below other := by
  apply below_of_slots hlanguage
  intro i slot hslot
  rw [hslots, Option.map_eq_some_iff] at hslot
  obtain ⟨origin, horigin, rfl⟩ := hslot
  refine .inr ⟨origin, horigin, ?_⟩
  split
  · rfl
  · rfl

theorem Cache.below_invalidateLine (cache : Cache) (line : Nat) :
    (cache.invalidateLine line).Below cache :=
  below_of_marked (fun i => line = i) rfl (cache.getElem?_invalidateLine line)

theorem Cache.below_invalidateFrom (cache : Cache) (line : Nat) :
    (cache.invalidateFrom line).Below cache :=
  below_of_marked (fun i => line ≤ i) rfl (cache.getElem?_invalidateFrom line)

theorem Cache.below_ensureSize (cache : Cache) (count : Nat) :
    (cache.ensureSize count).Below cache := by
  refine below_of_slots ?_ ?_
  · rfl
  · intro i slot hslot
    rw [ensureSize, getElem?_resize] at hslot
    split at hslot
    · cases hget : cache.slots[i]? with
      | none =>
        rw [hget] at hslot
        cases hslot
        exact .inl rfl
      | some origin =>
        rw [hget] at hslot
        cases hslot
        exact .inr ⟨origin, rfl, rfl⟩
    · cases hslot

theorem Cache.below_invalidateAll (cache : Cache) : cache.invalidateAll.Below cache := by
  refine ⟨rfl, ?_⟩
  intro slot hslot
  cases hslot

/-! ## Operations -/

/-- An operation on a workspace.  Grammars come from descriptions only. -/
inductive WorkspaceOp where
  | addLanguage (grammar : { grammar : Grammar // grammar.Built })
  | setLanguage (buffer : Nat) (language : Option String)
  | update (buffer : Nat) (lines : List (List Char))
  | invalidateLine (buffer line : Nat)
  | invalidateFrom (buffer line : Nat)
  | invalidateAll (buffer : Nat)
  | ensureSize (buffer count : Nat)
  | removeCache (buffer : Nat)
  | toggle

namespace Workspace

/-- The workspace behind an operation.  A language that is refused leaves it as it is. -/
def step (workspace : Workspace) : WorkspaceOp → Except Fault Workspace
  | .addLanguage grammar => .ok (workspace.addLanguage grammar.1)
  | .setLanguage buffer language =>
    match workspace.setLanguage buffer language with
    | .error _ => .ok workspace
    | .ok next => .ok next
  | .update buffer lines =>
    match workspace.updateBuffer buffer lines with
    | .error fault => .error fault
    | .ok (next, _, _) => .ok next
  | .invalidateLine buffer line => .ok (workspace.invalidateLine buffer line)
  | .invalidateFrom buffer line => .ok (workspace.invalidateFrom buffer line)
  | .invalidateAll buffer => .ok (workspace.modifyCache buffer Cache.invalidateAll)
  | .ensureSize buffer count =>
    .ok (workspace.modifyCache buffer fun cache => cache.ensureSize count)
  | .removeCache buffer => .ok (workspace.removeCache buffer)
  | .toggle => .ok workspace.toggle

/-- An update of a buffer with a known language updates its slots. -/
theorem updateBuffer_eq {workspace : Workspace} {buffer : Nat} {grammar : Grammar}
    (henabled : workspace.enabled = true)
    (hgrammar : workspace.bufferGrammar? buffer = some grammar) (lines : List (List Char)) :
    workspace.updateBuffer buffer lines =
      (Cache.refresh grammar none false (Cache.resize (workspace.cache buffer).slots lines.length)
        lines).map fun updated =>
          (workspace.setCache buffer { workspace.cache buffer with slots := updated.slots },
            updated.count, updated.notices) := by
  simp only [updateBuffer, henabled, hgrammar, Cache.update, bind, Except.bind, Except.map]
  cases Cache.refresh grammar none false (Cache.resize (workspace.cache buffer).slots lines.length)
    lines with
  | error fault => rfl
  | ok updated => rfl

theorem cache_setCache (workspace : Workspace) (buffer other : Nat) (cache : Cache) :
    (workspace.setCache buffer cache).cache other =
      if buffer = other then cache else workspace.cache other := by
  unfold Workspace.cache Workspace.setCache
  rw [Registry.find?_insert]
  split
  · rfl
  · rfl

/-- Makes operations one after the other. -/
def run (workspace : Workspace) : List WorkspaceOp → Except Fault Workspace
  | [] => .ok workspace
  | op :: ops =>
    match workspace.step op with
    | .error fault => .error fault
    | .ok next => next.run ops

theorem run_cons {workspace next : Workspace} {op : WorkspaceOp} (h : workspace.step op = .ok next)
    (ops : List WorkspaceOp) : workspace.run (op :: ops) = next.run ops := by
  rw [run, h]

/-! ## Soundness -/

/-- The stacks of a cache are stacks of the grammar that is known under the name of its language. -/
def Follows (workspace : Workspace) (cache : Cache) : Prop :=
  ∀ slot ∈ cache.slots, ∀ entry, slot.entry = some entry →
    ∃ name grammar, cache.language = some name ∧ workspace.language? name = some grammar ∧
      entry.endStack.Within grammar.contexts.length

/-- The stacks of all caches are stacks of the grammars in use. -/
def Sound (workspace : Workspace) : Prop :=
  ∀ buffer cache, workspace.caches.find? buffer = some cache → workspace.Follows cache

/-- All grammars of a workspace were built from descriptions. -/
def Built (workspace : Workspace) : Prop :=
  ∀ name grammar, workspace.language? name = some grammar → grammar.Built

theorem sound_of_caches_eq {workspace : Workspace} (h : workspace.caches = {}) :
    workspace.Sound := by
  intro buffer cache hcache
  rw [h] at hcache
  cases hcache

theorem follows_of_slots_eq_nil {workspace : Workspace} {cache : Cache} (h : cache.slots = []) :
    workspace.Follows cache := by
  intro slot hslot
  rw [h] at hslot
  cases hslot

/-- The cache of a buffer, also the empty one of a buffer without a cache. -/
theorem Sound.follows_cache {workspace : Workspace} (h : workspace.Sound) (buffer : Nat) :
    workspace.Follows (workspace.cache buffer) := by
  unfold cache
  cases hfind : workspace.caches.find? buffer with
  | none => exact follows_of_slots_eq_nil rfl
  | some cache => exact h buffer cache hfind

theorem Follows.of_below {workspace : Workspace} {cache other : Cache}
    (h : workspace.Follows other) (hbelow : cache.Below other) : workspace.Follows cache := by
  obtain ⟨hlanguage, hslots⟩ := hbelow
  intro slot hslot entry hentry
  obtain ⟨origin, horigin, hsame⟩ := hslots slot hslot entry hentry
  obtain ⟨name, grammar, hname, hgrammar, hwithin⟩ := h origin horigin entry hsame
  refine ⟨name, grammar, ?_, hgrammar, hwithin⟩
  rw [hlanguage, hname]

/-- A new cache for one buffer. -/
theorem Sound.setCache {workspace : Workspace} (h : workspace.Sound) {cache : Cache}
    (hcache : workspace.Follows cache) (buffer : Nat) :
    (workspace.setCache buffer cache).Sound := by
  intro other found hfound
  rw [Workspace.setCache, Registry.find?_insert] at hfound
  split at hfound
  · cases hfound
    exact hcache
  · exact h other found hfound

theorem Sound.modifyCache {workspace : Workspace} (h : workspace.Sound) (buffer : Nat)
    {f : Cache → Cache} (hf : ∀ cache, (f cache).Below cache) :
    (workspace.modifyCache buffer f).Sound :=
  h.setCache ((h.follows_cache buffer).of_below (hf _)) buffer

theorem Sound.modifyExisting {workspace : Workspace} (h : workspace.Sound) (buffer : Nat)
    {f : Cache → Cache} (hf : ∀ cache, (f cache).Below cache) :
    (workspace.modifyExisting buffer f).Sound := by
  unfold Workspace.modifyExisting
  split
  · next cache hcache => exact h.setCache ((h buffer cache hcache).of_below (hf cache)) buffer
  · exact h

theorem Sound.removeCache {workspace : Workspace} (h : workspace.Sound) (buffer : Nat) :
    (workspace.removeCache buffer).Sound := by
  intro other found hfound
  rw [Workspace.removeCache, Registry.find?_erase] at hfound
  split at hfound
  · cases hfound
  · exact h other found hfound

/-- In a sound workspace an update meets no fault and leaves a sound workspace. -/
theorem Sound.exists_updateBuffer {workspace : Workspace} (h : workspace.Sound)
    (hbuilt : workspace.Built) (buffer : Nat) (lines : List (List Char)) :
    ∃ next count notices, workspace.updateBuffer buffer lines = .ok (next, count, notices) ∧
      next.Sound ∧ next.languages = workspace.languages := by
  by_cases henabled : workspace.enabled = true
  · cases hgrammar : workspace.bufferGrammar? buffer with
    | none =>
      refine ⟨workspace.modifyCache buffer id, 0, [], ?_, ?_, rfl⟩
      · simp [updateBuffer, henabled, hgrammar]
      · exact h.setCache (h.follows_cache buffer) buffer
    | some grammar =>
      obtain ⟨name, hname, hlanguage⟩ := Option.bind_eq_some_iff.1 hgrammar
      have hresolved : grammar.Resolved := (hbuilt name grammar hlanguage).resolved
      have hfollows : workspace.Follows ((workspace.cache buffer).ensureSize lines.length) :=
        (h.follows_cache buffer).of_below (Cache.below_ensureSize _ _)
      have hslots : ∀ slot ∈ Cache.resize (workspace.cache buffer).slots lines.length,
          slot.Within grammar.contexts.length := by
        intro slot hslot entry hentry
        obtain ⟨other, found, hother, hfound, hwithin⟩ := hfollows slot hslot entry hentry
        have hsame : some other = some name := by
          rw [← hother, ← hname]
          rfl
        cases hsame
        rw [hlanguage] at hfound
        cases hfound
        exact hwithin
      have hinitial : (stackBehind none).Within grammar.contexts.length :=
        hresolved.within_initialStack
      obtain ⟨updated, hrefresh, hupdated⟩ :
          ∃ updated, Cache.refresh grammar none false
            (Cache.resize (workspace.cache buffer).slots lines.length) lines = .ok updated ∧
            ∀ slot ∈ updated.slots, slot.Within grammar.contexts.length :=
        Cache.exists_refresh_within hresolved hinitial hslots
      rw [updateBuffer_eq henabled hgrammar, hrefresh]
      refine ⟨_, updated.count, updated.notices, rfl, h.setCache ?_ buffer, rfl⟩
      intro slot hslot entry hentry
      exact ⟨name, grammar, hname, hlanguage, hupdated slot hslot entry hentry⟩
  · refine ⟨workspace, 0, [], ?_, h, rfl⟩
    simp [updateBuffer, henabled]

/-! ## Added languages -/

/-- The stacks that are cached under the name of a grammar are stacks of that grammar. -/
def Fits (workspace : Workspace) (grammar : Grammar) : Prop :=
  ∀ buffer cache, workspace.caches.find? buffer = some cache →
    cache.language = some grammar.name → ∀ slot ∈ cache.slots, slot.Within grammar.contexts.length

theorem language?_addLanguage (workspace : Workspace) (grammar : Grammar) (name : String) :
    (workspace.addLanguage grammar).language? name =
      if grammar.name = name then some grammar else workspace.language? name :=
  Registry.find?_insert _ _ _ _

/-- A language can be added to a sound workspace exactly if it fits. -/
theorem Sound.addLanguage_iff {workspace : Workspace} (h : workspace.Sound) (grammar : Grammar) :
    (workspace.addLanguage grammar).Sound ↔ workspace.Fits grammar := by
  constructor
  · intro hsound buffer cache hcache hlanguage slot hslot entry hentry
    obtain ⟨name, found, hname, hfound, hwithin⟩ :=
      hsound buffer cache hcache slot hslot entry hentry
    rw [hlanguage] at hname
    cases hname
    rw [language?_addLanguage, if_pos rfl] at hfound
    cases hfound
    exact hwithin
  · intro hfits buffer cache hcache slot hslot entry hentry
    obtain ⟨name, found, hname, hfound, hwithin⟩ := h buffer cache hcache slot hslot entry hentry
    by_cases hsame : grammar.name = name
    · refine ⟨name, grammar, hname, ?_, ?_⟩
      · rw [language?_addLanguage, if_pos hsame]
      · exact hfits buffer cache hcache (by rw [hname, hsame]) slot hslot entry hentry
    · refine ⟨name, found, hname, ?_, hwithin⟩
      rw [language?_addLanguage, if_neg hsame, hfound]

theorem Built.addLanguage {workspace : Workspace} (h : workspace.Built) {grammar : Grammar}
    (hgrammar : grammar.Built) : (workspace.addLanguage grammar).Built := by
  intro name found hfound
  rw [language?_addLanguage] at hfound
  split at hfound
  · cases hfound
    exact hgrammar
  · exact h name found hfound

theorem Built.of_languages_eq {workspace next : Workspace} (h : workspace.Built)
    (heq : next.languages = workspace.languages) : next.Built := by
  intro name grammar hgrammar
  rw [language?, heq] at hgrammar
  exact h name grammar hgrammar

theorem languages_modifyExisting (workspace : Workspace) (buffer : Nat) (f : Cache → Cache) :
    (workspace.modifyExisting buffer f).languages = workspace.languages := by
  unfold modifyExisting
  split
  · rfl
  · rfl

/-- An operation that keeps the workspace sound: a language that is added fits. -/
def Accepts (workspace : Workspace) : WorkspaceOp → Prop
  | .addLanguage grammar => workspace.Fits grammar.1
  | _ => True

/-- Operations among which every language fits when it is added. -/
def Fitting (workspace : Workspace) : List WorkspaceOp → Prop
  | [] => True
  | op :: ops => workspace.Accepts op ∧ ∀ next, workspace.step op = .ok next → next.Fitting ops

/-- Operations none of which meets a fault, with a sound workspace before and behind each. -/
def AlwaysSound (workspace : Workspace) : List WorkspaceOp → Prop
  | [] => workspace.Sound
  | op :: ops => workspace.Sound ∧ ∃ next, workspace.step op = .ok next ∧ next.AlwaysSound ops

theorem AlwaysSound.sound {workspace : Workspace} {ops : List WorkspaceOp}
    (h : workspace.AlwaysSound ops) : workspace.Sound := by
  cases ops with
  | nil => exact h
  | cons op ops => exact h.1

/-- The step lemma: an operation on a sound workspace meets no fault, and leaves a sound workspace
exactly if it is accepted. -/
theorem exists_step {workspace : Workspace} (hsound : workspace.Sound) (hbuilt : workspace.Built)
    (op : WorkspaceOp) :
    ∃ next, workspace.step op = .ok next ∧ next.Built ∧ (next.Sound ↔ workspace.Accepts op) := by
  cases op with
  | addLanguage grammar =>
    exact ⟨_, rfl, hbuilt.addLanguage grammar.2, hsound.addLanguage_iff grammar.1⟩
  | setLanguage buffer language =>
    cases hset : workspace.setLanguage buffer language with
    | error error =>
      exact ⟨workspace, by simp only [step, hset], hbuilt, iff_of_true hsound trivial⟩
    | ok next =>
      refine ⟨next, by simp only [step, hset], ?_⟩
      unfold Workspace.setLanguage at hset
      split at hset
      · cases hset
      · cases hset
        refine ⟨hbuilt, iff_of_true ?_ trivial⟩
        exact hsound.setCache (follows_of_slots_eq_nil rfl) buffer
  | update buffer lines =>
    obtain ⟨next, count, notices, hupdate, hnext, hlanguages⟩ :=
      hsound.exists_updateBuffer hbuilt buffer lines
    exact ⟨next, by simp only [step, hupdate], hbuilt.of_languages_eq hlanguages,
      iff_of_true hnext trivial⟩
  | invalidateLine buffer line =>
    refine ⟨_, rfl, hbuilt.of_languages_eq (languages_modifyExisting _ _ _), iff_of_true ?_ trivial⟩
    exact hsound.modifyExisting buffer fun cache => cache.below_invalidateLine line
  | invalidateFrom buffer line =>
    refine ⟨_, rfl, hbuilt.of_languages_eq (languages_modifyExisting _ _ _), iff_of_true ?_ trivial⟩
    exact hsound.modifyExisting buffer fun cache => cache.below_invalidateFrom line
  | invalidateAll buffer =>
    refine ⟨_, rfl, hbuilt, iff_of_true ?_ trivial⟩
    exact hsound.modifyCache buffer Cache.below_invalidateAll
  | ensureSize buffer count =>
    refine ⟨_, rfl, hbuilt, iff_of_true ?_ trivial⟩
    exact hsound.modifyCache buffer fun cache => cache.below_ensureSize count
  | removeCache buffer => exact ⟨_, rfl, hbuilt, iff_of_true (hsound.removeCache buffer) trivial⟩
  | toggle => exact ⟨_, rfl, hbuilt, iff_of_true hsound trivial⟩

/-- From a sound workspace, operations keep it sound all the time exactly if every language fits
when it is added. -/
theorem fitting_iff_alwaysSound_of_sound {workspace : Workspace} (hsound : workspace.Sound)
    (hbuilt : workspace.Built) (ops : List WorkspaceOp) :
    workspace.Fitting ops ↔ workspace.AlwaysSound ops := by
  induction ops generalizing workspace with
  | nil => exact iff_of_true trivial hsound
  | cons op ops ih =>
    obtain ⟨next, hstep, hnextBuilt, hnext⟩ := exists_step hsound hbuilt op
    constructor
    · rintro ⟨haccepts, hfitting⟩
      exact ⟨hsound, next, hstep,
        (ih (hnext.2 haccepts) hnextBuilt).1 (hfitting next hstep)⟩
    · rintro ⟨-, other, hother, halways⟩
      rw [hstep] at hother
      cases hother
      have hnextSound : next.Sound := halways.sound
      refine ⟨hnext.1 hnextSound, ?_⟩
      intro other hother
      rw [hstep] at hother
      cases hother
      exact (ih hnextSound hnextBuilt).2 halways

theorem built_empty : empty.Built := by
  intro name grammar hgrammar
  cases hgrammar

/-- Adding described languages adds built grammars and touches no cache. -/
theorem built_addAll {workspace last : Workspace} {descriptions : List GrammarDef}
    (h : (workspace.addAll descriptions).result = .ok last) (hbuilt : workspace.Built) :
    last.Built ∧ last.caches = workspace.caches := by
  induction descriptions generalizing workspace with
  | nil =>
    cases h
    exact ⟨hbuilt, rfl⟩
  | cons description rest ih =>
    obtain ⟨grammar, hgrammar, hrest⟩ := Reported.andThen_eq_ok_iff.1 h
    have hlast := ih hrest (hbuilt.addLanguage ⟨description, hgrammar⟩)
    exact hlast

/-- A workspace as it is made: without languages, or with the standard ones. -/
def Initial (workspace : Workspace) : Prop :=
  workspace = empty ∨ ∃ strict, (standard strict).result = .ok workspace

theorem Initial.sound_and_built {workspace : Workspace} (h : workspace.Initial) :
    workspace.Sound ∧ workspace.Built := by
  rcases h with rfl | ⟨strict, hstandard⟩
  · exact ⟨sound_of_caches_eq rfl, built_empty⟩
  · obtain ⟨hbuilt, hcaches⟩ := built_addAll hstandard built_empty
    exact ⟨sound_of_caches_eq hcaches, hbuilt⟩

/-- When cached stacks stay valid.  Take any operations on a workspace as it is made.  No operation
meets a fault, and all cached stacks are stacks of the grammars in use before and behind every
operation, exactly if each language that is added fits the stacks cached under its name. -/
theorem fitting_iff_alwaysSound {start : Workspace} (hstart : start.Initial)
    (ops : List WorkspaceOp) : start.Fitting ops ↔ start.AlwaysSound ops := by
  obtain ⟨hsound, hbuilt⟩ := hstart.sound_and_built
  exact fitting_iff_alwaysSound_of_sound hsound hbuilt ops

/-- A language, a buffer for it and its first update. -/
theorem fitting_iff_alwaysSound_quotedText :
    ∃ grammar : { grammar : Grammar // grammar.Built }, empty.Initial ∧
      empty.AlwaysSound [.addLanguage grammar, .setLanguage 0 (some grammar.1.name),
        .update 0 [['"'], ['b']]] := by
  obtain ⟨grammar, hbuild, -⟩ := quotedText_build
  have hinitial : empty.Initial := .inl rfl
  refine ⟨⟨grammar, quotedText, hbuild⟩, hinitial, (fitting_iff_alwaysSound hinitial _).1 ?_⟩
  refine ⟨?_, fun _ _ => ⟨trivial, fun _ _ => ⟨trivial, fun _ _ => trivial⟩⟩⟩
  intro buffer cache hcache
  cases hcache

end Workspace

/-! ## A replaced language -/

/-- A language under the name of `quotedText` that has no quoted parts. -/
def plainText : GrammarDef where
  name := quotedText.name
  contexts := [{ name := "Text" }]

theorem plainText_build : ∃ grammar, plainText.build.result = .ok grammar ∧
    grammar.contexts.length = 1 ∧ grammar.name = quotedText.name := by
  have hcontexts : (Reported.each (plainText.resolver []).context plainText.contexts).result =
      .ok [⟨"Text", none, {}, false, [], .stay, .stay, .stay⟩] := rfl
  have hplain : ∀ context ∈ [(⟨"Text", none, {}, false, [], .stay, .stay, .stay⟩ : Context)],
      includedContexts context.rules = [] := by
    simp [includedContexts]
  obtain ⟨grammar, hbuild, hsame, hname⟩ :=
    GrammarDef.exists_build (by simp [plainText]) (by decide) rfl hcontexts hplain
  refine ⟨grammar, hbuild, ?_, hname⟩
  rw [hsame]
  rfl

/-- The stack behind a quote that begins a quoted part. -/
def quotedStack : Stack :=
  (Stack.single 0).push 1 none

/-- A quote at the start of a document begins a quoted part, which goes on in the next line. -/
theorem exists_highlightLine_quote {grammar : Grammar} (hresolved : grammar.Resolved)
    (hcontexts : grammar.contexts = quotedTextContexts) :
    ∃ result, highlightLine grammar ['"'] Grammar.initialStack = .ok result ∧
      result.endStack = quotedStack := by
  have htext : grammar.context Grammar.initialStack.current = .ok quotedTextContexts[0] := by
    rw [Grammar.context, hcontexts]
    rfl
  have hquoted : grammar.context quotedStack.current = .ok quotedTextContexts[1] := by
    rw [Grammar.context, hcontexts]
    rfl
  have htrial : ∀ cursor : Cursor, cursor.rest = ['"'] →
      grammar.tryRules quotedTextContexts[0].rules cursor =
        .ok ⟨[], some ⟨1, none, some ⟨0, some ⟨1, "Quoted", false⟩⟩, false, none⟩⟩ := by
    intro cursor hrest
    simp only [quotedTextContexts, List.getElem_cons_zero]
    rw [Grammar.tryRules, Grammar.tryRule]
    simp [Rule.allows, Rule.detect, Rule.length?, hrest, Rule.toMatch, bind, Except.bind,
      Rule.isLineContinue, Switch.isStay]
    decide
  have hstep : (Scan.start ['"'] Grammar.initialStack).step grammar (leadingBlanks ['"']) =
      .ok ⟨some '"', [], 1, 1, 1, quotedStack, 0, false, [⟨0, 1, {}⟩], []⟩ := by
    have hcontext : grammar.context (Scan.start ['"'] Grammar.initialStack).stack.current =
      .ok quotedTextContexts[0] := htext
    simp only [Scan.step, hcontext, bind, Except.bind]
    rw [htrial _ rfl]
    rfl
  have hreaches := Scan.Reaches.head (by simp [Scan.start]) hstep (.refl _)
  have hnext : nextLineStack grammar quotedStack = .ok (quotedStack, []) := by
    have hsettled : settleLineEnd grammar lineEndLimit quotedStack = .ok (quotedStack, []) := by
      rw [lineEndLimit, settleLineEnd, hquoted]
      rfl
    simp only [nextLineStack, hsettled, hquoted, bind, Except.bind]
    rfl
  obtain ⟨result, count, last, hresult, hother, hend, hcloses, -⟩ :=
    exists_highlightLine hresolved ['"'] hresolved.within_initialStack
  have hsame := hreaches.run_eq.symm.trans hother.run_eq
  rw [Scan.run_of_rest_eq_nil rfl, Scan.run_of_rest_eq_nil hend] at hsame
  cases hsame
  obtain ⟨notices, hended⟩ := hcloses.ended rfl
  rw [hnext, Except.ok.injEq, Prod.mk.injEq] at hended
  exact ⟨result, hresult, hended.1.symm⟩

/-- The first update of two lines of which the first one begins a quoted part. -/
theorem Cache.exists_refresh_quote {grammar : Grammar} (hresolved : grammar.Resolved)
    (hcontexts : grammar.contexts = quotedTextContexts) :
    ∃ first second notices, first.endStack = quotedStack ∧
      Cache.refresh grammar none false [{}, {}] [['"'], []] =
        .ok ⟨[.clean first, .clean second], 2, notices⟩ := by
  obtain ⟨first, hfirst, hstack⟩ := exists_highlightLine_quote hresolved hcontexts
  have hwithin : quotedStack.Within grammar.contexts.length := by
    rw [hcontexts]
    apply Stack.Within.push (Stack.within_single ?_)
    · decide
    · decide
  obtain ⟨second, -, -, hsecond, -⟩ := exists_highlightLine hresolved [] hwithin
  have hbehind : stackBehind (some first.entry) = quotedStack := hstack
  have hrest : Cache.refresh grammar (some first.entry) true [{}] [[]] =
      .ok ⟨[.clean second.entry], 1, second.notices ++ []⟩ := by
    rw [Cache.refresh_cons_eq_ok_iff, hbehind]
    exact .inl ⟨rfl, second, ⟨[], 0, []⟩, hsecond, rfl, rfl⟩
  refine ⟨first.entry, second.entry, first.notices ++ (second.notices ++ []), hstack, ?_⟩
  rw [Cache.refresh_cons_eq_ok_iff]
  exact .inl ⟨rfl, first, _, hfirst, hrest, rfl⟩

/-- With one context the second of these lines cannot be highlighted again. -/
theorem Cache.refresh_replaced {grammar : Grammar} (hlength : grammar.contexts.length = 1)
    {first : LineEntry} (hstack : first.endStack = quotedStack) (second : LineEntry) :
    Cache.refresh grammar none false [.clean first, ⟨some second, true⟩] [['"'], []] =
      .error (.noContext 1) := by
  have hcontext : grammar.context (Scan.start [] quotedStack).stack.current =
      .error (.noContext 1) := by
    show grammar.context 1 = .error (.noContext 1)
    rw [Grammar.context, List.getElem?_eq_none (by omega)]
    rfl
  have hrun : (Scan.start [] quotedStack).run grammar (leadingBlanks []) =
      .ok (Scan.start [] quotedStack) :=
    Scan.run_of_rest_eq_nil rfl
  have hline : highlightLine grammar [] quotedStack = .error (.noContext 1) := by
    simp only [highlightLine, hrun, hcontext, bind, Except.bind]
  simp only [Cache.refresh, Slot.clean, Option.map_some, Option.getD_some, hstack, hline,
    Bool.or_self, Bool.false_eq_true, if_false, Bool.true_or, if_true]

namespace Workspace

/-- A language with fewer contexts is added under a name in use.  The stack that is cached for the
first line is no stack of it, and when the second line is edited, highlighting it looks up a context
that does not exist. -/
theorem exists_unsound_replacement :
    ∃ (old new : { grammar : Grammar // grammar.Built }) (state : Workspace),
      old.1.name = new.1.name ∧
      empty.run [.addLanguage old, .setLanguage 0 (some old.1.name), .update 0 [['"'], []],
        .addLanguage new, .invalidateLine 0 1] = .ok state ∧
      ¬state.Sound ∧ state.step (.update 0 [['"'], []]) = .error (.noContext 1) := by
  obtain ⟨old, hold, hcontexts, holdName⟩ := quotedText_build
  obtain ⟨new, hnew, hlength, hnewName⟩ := plainText_build
  obtain ⟨first, second, notices, hstack, hrefresh⟩ :=
    Cache.exists_refresh_quote (Grammar.Built.resolved ⟨quotedText, hold⟩) hcontexts
  let known := empty.addLanguage old
  let named := known.setCache 0 ⟨some quotedText.name, []⟩
  let updated := named.setCache 0 ⟨some quotedText.name, [.clean first, .clean second]⟩
  let replaced := updated.addLanguage new
  let edited := replaced.setCache 0 ⟨some quotedText.name, [.clean first, ⟨some second, true⟩]⟩
  have hknown : known.language? quotedText.name = some old := by
    rw [language?_addLanguage, if_pos holdName]
  have hreplaced : edited.language? quotedText.name = some new := by
    show replaced.language? quotedText.name = some new
    rw [language?_addLanguage, if_pos hnewName]
  have hset : known.step (.setLanguage 0 (some old.name)) = .ok named := by
    rw [holdName]
    simp only [step, setLanguage, Option.filter, hknown, Option.isNone_some, Bool.false_eq_true,
      if_false]
    rfl
  have hupdate : named.step (.update 0 [['"'], []]) = .ok updated := by
    have hcache : named.cache 0 = ⟨some quotedText.name, []⟩ := by
      rw [cache_setCache, if_pos rfl]
    have hgrammar : named.bufferGrammar? 0 = some old := by
      rw [bufferGrammar?, hcache]
      exact hknown
    have hslots : Cache.resize [] [['"'], []].length = [{}, {}] := rfl
    simp only [step, updateBuffer_eq rfl hgrammar, hcache, hslots, hrefresh]
    rfl
  have hfails : edited.step (.update 0 [['"'], []]) = .error (.noContext 1) := by
    have hcache : edited.cache 0 =
        ⟨some quotedText.name, [.clean first, ⟨some second, true⟩]⟩ := by
      rw [cache_setCache, if_pos rfl]
    have hgrammar : edited.bufferGrammar? 0 = some new := by
      rw [bufferGrammar?, hcache]
      exact hreplaced
    have hslots : Cache.resize [Slot.clean first, ⟨some second, true⟩] [['"'], []].length =
        [.clean first, ⟨some second, true⟩] := rfl
    simp only [step, updateBuffer_eq rfl hgrammar, hcache, hslots,
      Cache.refresh_replaced hlength hstack second]
    rfl
  refine ⟨⟨old, quotedText, hold⟩, ⟨new, plainText, hnew⟩, edited, ?_, ?_, ?_, hfails⟩
  · show old.name = new.name
    rw [holdName, hnewName]
  · rw [run_cons (show empty.step _ = .ok known from rfl), run_cons hset, run_cons hupdate,
      run_cons (show updated.step _ = .ok replaced from rfl),
      run_cons (show replaced.step _ = .ok edited from rfl)]
    rfl
  · intro hsound
    have hfind : edited.caches.find? 0 =
        some ⟨some quotedText.name, [.clean first, ⟨some second, true⟩]⟩ := by
      rw [show edited.caches = replaced.caches.insert 0 _ from rfl, Registry.find?_insert,
        if_pos rfl]
    obtain ⟨name, grammar, hname, hgrammar, hwithin⟩ :=
      hsound 0 _ hfind (.clean first) List.mem_cons_self first rfl
    cases hname
    rw [hreplaced] at hgrammar
    cases hgrammar
    have hlt : quotedStack.current < new.contexts.length := by
      rw [← hstack]
      exact hwithin.current_lt
    have hone : quotedStack.current = 1 := rfl
    omega

end Workspace

end Highlight
