import Highlight.Proofs.CachedStacks

/-!
# Separate buffers

The buffers of a workspace have the languages and the switch for highlighting in common, and nothing
else.  So what is kept of a buffer, and every answer about it, is what it would be if the calls for
all other buffers had never been made (`calls_separate`).

There are three groups.

* Calls.  An operation is one of `WorkspaceOp`.  Beside these there are questions, and changes that
  are made by hand to a cache that was handed out.  A call is answered and leaves a workspace.
* Views.  `Workspace.view` is all that a workspace has for a buffer.  A call that concerns a buffer
  does the same in two workspaces with one view of it, and any other call leaves the view as it is.
* Sequences.  The induction along the calls.

An update can meet a fault: a language may have been replaced by one with fewer contexts while lines
were cached.  Nothing is assumed about what that leaves of the cache, except that it comes from the
cache itself, the grammar and the update.  It is the parameter `remains`.
-/

namespace Highlight

/-! ## Calls -/

/-- A question about a cache. -/
inductive CacheQuestion where
  | spans (line : Nat)
  | endStack (line : Nat)
  | firstStale
  | language

/-- What can be called. -/
inductive WorkspaceCall where
  | op (op : WorkspaceOp)
  /-- Changes a cache that was handed out. -/
  | change (buffer : Nat) (f : Cache → Cache)
  /-- Asks a cache that was handed out. -/
  | ask (buffer : Nat) (question : CacheQuestion)
  | lineSpans (buffer line : Nat)
  | languageNames

/-- What is answered. -/
inductive Answer where
  | done
  | unknownLanguage (error : UnknownLanguage)
  /-- How many lines an update has highlighted. -/
  | updated (count : Nat) (notices : List Notice)
  | fault (fault : Fault)
  | enabled (enabled : Bool)
  | spans (spans : Option (List Span))
  | endStack (stack : Option Stack)
  | firstStale (line : Option Nat)
  | language (name : Option String)
  | names (names : List String)
  deriving DecidableEq

/-- What a cache answers. -/
def CacheQuestion.answer (cache : Cache) : CacheQuestion → Answer
  | spans line => .spans (cache.spans? line)
  | endStack line => .endStack (cache.endStack? line)
  | firstStale => .firstStale cache.firstStale?
  | language => .language cache.language

/-- The buffer that an operation is for, unless it is for the whole workspace. -/
def WorkspaceOp.buffer? : WorkspaceOp → Option Nat
  | addLanguage _ | toggle => none
  | setLanguage buffer _ | update buffer _ | invalidateLine buffer _ | invalidateFrom buffer _
  | invalidateAll buffer | ensureSize buffer _ | removeCache buffer => some buffer

namespace WorkspaceCall

/-- The buffer that a call is for, unless it is for the whole workspace. -/
def buffer? : WorkspaceCall → Option Nat
  | .op operation => operation.buffer?
  | change buffer _ | ask buffer _ | lineSpans buffer _ => some buffer
  | languageNames => none

/-- Whether a call is for a buffer or for the whole workspace. -/
def concerns (buffer : Nat) (call : WorkspaceCall) : Bool :=
  call.buffer?.all fun other => other == buffer

end WorkspaceCall

namespace Workspace

/-- Does an operation and answers it.  `remains` is what a fault in the middle of an update leaves of
the cache. -/
def performOp (remains : Option Grammar → List (List Char) → Cache → Cache)
    (workspace : Workspace) : WorkspaceOp → Workspace × Answer
  | .addLanguage grammar => (workspace.addLanguage grammar.1, .done)
  | .setLanguage buffer language =>
    match workspace.setLanguage buffer language with
    | .error error => (workspace, .unknownLanguage error)
    | .ok next => (next, .done)
  | .update buffer lines =>
    match workspace.updateBuffer buffer lines with
    | .error fault =>
      (workspace.modifyCache buffer (remains (workspace.bufferGrammar? buffer) lines),
        .fault fault)
    | .ok (next, count, notices) => (next, .updated count notices)
  | .invalidateLine buffer line => (workspace.invalidateLine buffer line, .done)
  | .invalidateFrom buffer line => (workspace.invalidateFrom buffer line, .done)
  | .invalidateAll buffer => (workspace.modifyCache buffer Cache.invalidateAll, .done)
  | .ensureSize buffer count =>
    (workspace.modifyCache buffer fun cache => cache.ensureSize count, .done)
  | .removeCache buffer => (workspace.removeCache buffer, .done)
  | .toggle => (workspace.toggle, .enabled workspace.toggle.enabled)

/-- Makes a call.  Asking a cache makes one for a buffer that has none. -/
def perform (remains : Option Grammar → List (List Char) → Cache → Cache)
    (workspace : Workspace) : WorkspaceCall → Workspace × Answer
  | .op op => workspace.performOp remains op
  | .change buffer f => (workspace.modifyCache buffer f, .done)
  | .ask buffer question =>
    (workspace.modifyCache buffer id, question.answer (workspace.cache buffer))
  | .lineSpans buffer line => (workspace, .spans (some (workspace.lineSpans buffer line)))
  | .languageNames => (workspace, .names workspace.languageNames)

/-- Makes calls one after the other, and notes what each of them answers. -/
def performAll (remains : Option Grammar → List (List Char) → Cache → Cache)
    (workspace : Workspace) : List WorkspaceCall → Workspace × List (WorkspaceCall × Answer)
  | [] => (workspace, [])
  | call :: calls =>
    let (next, answer) := workspace.perform remains call
    let (last, later) := next.performAll remains calls
    (last, (call, answer) :: later)

/-! ## Views -/

/-- What a workspace has for a buffer: the languages, whether it highlights at all, and the cache of
the buffer, if it has one. -/
structure View where
  languages : Registry String Grammar
  enabled : Bool
  cache : Option Cache

/-- What the workspace has for a buffer. -/
def view (workspace : Workspace) (buffer : Nat) : View :=
  ⟨workspace.languages, workspace.enabled, workspace.caches.find? buffer⟩

variable {workspace other : Workspace} {buffer : Nat}

theorem view_setCache (workspace : Workspace) (target buffer : Nat) (cache : Cache) :
    (workspace.setCache target cache).view buffer =
      if target = buffer then { workspace.view buffer with cache := some cache }
      else workspace.view buffer := by
  simp only [view, setCache, Registry.find?_insert]
  split
  · rfl
  · rfl

theorem view_removeCache (workspace : Workspace) (target buffer : Nat) :
    (workspace.removeCache target).view buffer =
      if target = buffer then { workspace.view buffer with cache := none }
      else workspace.view buffer := by
  simp only [view, removeCache, Registry.find?_erase]
  split
  · rfl
  · rfl

section

variable (h : workspace.view buffer = other.view buffer)

include h

theorem cache_of_view : workspace.cache buffer = other.cache buffer := by
  have hcaches : workspace.caches.find? buffer = other.caches.find? buffer :=
    congrArg View.cache h
  rw [cache, hcaches, cache]

theorem bufferGrammar?_of_view : workspace.bufferGrammar? buffer = other.bufferGrammar? buffer := by
  have hlanguages : workspace.languages = other.languages := congrArg View.languages h
  have hlanguage : workspace.language? = other.language? := by
    funext name
    rw [language?, hlanguages, language?]
  rw [bufferGrammar?, cache_of_view h, hlanguage, bufferGrammar?]

theorem view_setCache_of_view (cache : Cache) :
    (workspace.setCache buffer cache).view buffer = (other.setCache buffer cache).view buffer := by
  rw [view_setCache, view_setCache, if_pos rfl, if_pos rfl, h]

theorem view_modifyCache_of_view (f : Cache → Cache) :
    (workspace.modifyCache buffer f).view buffer = (other.modifyCache buffer f).view buffer := by
  rw [modifyCache, modifyCache, cache_of_view h]
  exact view_setCache_of_view h _

theorem view_modifyExisting_of_view (f : Cache → Cache) :
    (workspace.modifyExisting buffer f).view buffer =
      (other.modifyExisting buffer f).view buffer := by
  have hcaches : workspace.caches.find? buffer = other.caches.find? buffer :=
    congrArg View.cache h
  rw [modifyExisting, modifyExisting, hcaches]
  split
  · exact view_setCache_of_view h _
  · exact h

end

variable (remains : Option Grammar → List (List Char) → Cache → Cache)

theorem performOp_update_of_view (h : workspace.view buffer = other.view buffer)
    (lines : List (List Char)) :
    (workspace.performOp remains (.update buffer lines)).1.view buffer =
        (other.performOp remains (.update buffer lines)).1.view buffer ∧
      (workspace.performOp remains (.update buffer lines)).2 =
        (other.performOp remains (.update buffer lines)).2 := by
  have henabled : workspace.enabled = other.enabled := congrArg View.enabled h
  have hgrammar := bufferGrammar?_of_view h
  by_cases hon : other.enabled = true
  · rw [hon] at henabled
    cases hother : other.bufferGrammar? buffer with
    | none =>
      rw [hother] at hgrammar
      simp only [performOp, updateBuffer, hon, henabled, hgrammar, hother, Bool.not_true,
        Bool.false_eq_true, if_false, and_true]
      exact view_modifyCache_of_view h id
    | some grammar =>
      rw [hother] at hgrammar
      simp only [performOp, updateBuffer_eq henabled hgrammar, updateBuffer_eq hon hother,
        cache_of_view h, hgrammar, hother]
      cases Cache.refresh grammar none false
        (Cache.resize (other.cache buffer).slots lines.length) lines with
      | error fault => exact ⟨view_modifyCache_of_view h _, rfl⟩
      | ok updated => exact ⟨view_setCache_of_view h _, rfl⟩
  · rw [Bool.not_eq_true] at hon
    rw [hon] at henabled
    simp only [performOp, updateBuffer, hon, henabled, Bool.not_false, if_true, h, and_true]

/-- An operation that concerns a buffer does the same to it in two workspaces with one view of it,
and answers the same. -/
theorem performOp_of_view (h : workspace.view buffer = other.view buffer) {op : WorkspaceOp}
    (hconcerns : op.buffer?.all (· == buffer) = true) :
    (workspace.performOp remains op).1.view buffer = (other.performOp remains op).1.view buffer ∧
      (workspace.performOp remains op).2 = (other.performOp remains op).2 := by
  have henabled : workspace.enabled = other.enabled := congrArg View.enabled h
  have hlanguages : workspace.languages = other.languages := congrArg View.languages h
  have hcaches : workspace.caches.find? buffer = other.caches.find? buffer :=
    congrArg View.cache h
  cases op with
  | addLanguage grammar =>
    simp only [performOp, view, addLanguage, henabled, hlanguages, hcaches, and_self]
  | toggle => simp only [performOp, view, toggle, henabled, hlanguages, hcaches, and_self]
  | setLanguage target language =>
    obtain rfl : target = buffer := eq_of_beq hconcerns
    simp only [performOp, setLanguage, language?, hlanguages]
    cases language.filter fun name => (other.languages.find? name).isNone with
    | some name => exact ⟨h, rfl⟩
    | none => exact ⟨view_modifyCache_of_view h _, rfl⟩
  | update target lines =>
    obtain rfl : target = buffer := eq_of_beq hconcerns
    exact performOp_update_of_view remains h lines
  | invalidateLine target line =>
    obtain rfl : target = buffer := eq_of_beq hconcerns
    exact ⟨view_modifyExisting_of_view h _, rfl⟩
  | invalidateFrom target line =>
    obtain rfl : target = buffer := eq_of_beq hconcerns
    exact ⟨view_modifyExisting_of_view h _, rfl⟩
  | invalidateAll target =>
    obtain rfl : target = buffer := eq_of_beq hconcerns
    exact ⟨view_modifyCache_of_view h _, rfl⟩
  | ensureSize target count =>
    obtain rfl : target = buffer := eq_of_beq hconcerns
    exact ⟨view_modifyCache_of_view h _, rfl⟩
  | removeCache target =>
    obtain rfl : target = buffer := eq_of_beq hconcerns
    simp only [performOp, view_removeCache, if_true, h, and_self]

/-- A call that concerns a buffer does the same to it in two workspaces with one view of it, and
answers the same. -/
theorem perform_of_view (h : workspace.view buffer = other.view buffer) {call : WorkspaceCall}
    (hconcerns : call.concerns buffer = true) :
    (workspace.perform remains call).1.view buffer = (other.perform remains call).1.view buffer ∧
      (workspace.perform remains call).2 = (other.perform remains call).2 := by
  have henabled : workspace.enabled = other.enabled := congrArg View.enabled h
  have hlanguages : workspace.languages = other.languages := congrArg View.languages h
  cases call with
  | op op => exact performOp_of_view remains h hconcerns
  | change target f =>
    obtain rfl : target = buffer := eq_of_beq hconcerns
    exact ⟨view_modifyCache_of_view h f, rfl⟩
  | ask target question =>
    obtain rfl : target = buffer := eq_of_beq hconcerns
    exact ⟨view_modifyCache_of_view h id, congrArg question.answer (cache_of_view h)⟩
  | lineSpans target line =>
    obtain rfl : target = buffer := eq_of_beq hconcerns
    simp only [perform, lineSpans, henabled, cache_of_view h, h, and_self]
  | languageNames => simp only [perform, languageNames, hlanguages, h, and_self]

/-! ### Calls for other buffers -/

section

variable {target : Nat} (hne : target ≠ buffer)

include hne

theorem view_setCache_of_ne (cache : Cache) :
    (workspace.setCache target cache).view buffer = workspace.view buffer := by
  rw [view_setCache, if_neg hne]

theorem view_modifyExisting_of_ne (f : Cache → Cache) :
    (workspace.modifyExisting target f).view buffer = workspace.view buffer := by
  unfold modifyExisting
  split
  · exact view_setCache_of_ne hne _
  · rfl

theorem view_setLanguage_of_ne {language : Option String} {next : Workspace}
    (h : workspace.setLanguage target language = .ok next) :
    next.view buffer = workspace.view buffer := by
  unfold setLanguage at h
  split at h
  · cases h
  · cases h
    exact view_setCache_of_ne hne _

theorem view_updateBuffer_of_ne {lines : List (List Char)} {next : Workspace} {count : Nat}
    {notices : List Notice} (h : workspace.updateBuffer target lines = .ok (next, count, notices)) :
    next.view buffer = workspace.view buffer := by
  by_cases hon : workspace.enabled = true
  · cases hgrammar : workspace.bufferGrammar? target with
    | none =>
      simp only [updateBuffer, hon, hgrammar] at h
      cases h
      exact view_setCache_of_ne hne _
    | some grammar =>
      rw [updateBuffer_eq hon hgrammar] at h
      cases hrefresh : Cache.refresh grammar none false
        (Cache.resize (workspace.cache target).slots lines.length) lines with
      | error fault =>
        rw [hrefresh] at h
        cases h
      | ok updated =>
        rw [hrefresh] at h
        cases h
        exact view_setCache_of_ne hne _
  · simp only [updateBuffer, hon] at h
    cases h
    rfl

end

/-- An operation that does not concern a buffer leaves the view of it as it is. -/
theorem view_performOp_of_not {op : WorkspaceOp}
    (hother : op.buffer?.all (· == buffer) = false) :
    (workspace.performOp remains op).1.view buffer = workspace.view buffer := by
  cases op with
  | addLanguage grammar => cases hother
  | toggle => cases hother
  | setLanguage target language =>
    have hne : target ≠ buffer := ne_of_beq_false hother
    cases hset : workspace.setLanguage target language with
    | error error => simp only [performOp, hset]
    | ok next =>
      simp only [performOp, hset]
      exact view_setLanguage_of_ne hne hset
  | update target lines =>
    have hne : target ≠ buffer := ne_of_beq_false hother
    cases hupdate : workspace.updateBuffer target lines with
    | error fault =>
      simp only [performOp, hupdate]
      exact view_setCache_of_ne hne _
    | ok done =>
      simp only [performOp, hupdate]
      exact view_updateBuffer_of_ne hne hupdate
  | invalidateLine target line => exact view_modifyExisting_of_ne (ne_of_beq_false hother) _
  | invalidateFrom target line => exact view_modifyExisting_of_ne (ne_of_beq_false hother) _
  | invalidateAll target => exact view_setCache_of_ne (ne_of_beq_false hother) _
  | ensureSize target count => exact view_setCache_of_ne (ne_of_beq_false hother) _
  | removeCache target =>
    exact (view_removeCache workspace target buffer).trans (if_neg (ne_of_beq_false hother))

/-- A call that does not concern a buffer leaves the view of it as it is. -/
theorem view_perform_of_not {call : WorkspaceCall} (hother : call.concerns buffer = false) :
    (workspace.perform remains call).1.view buffer = workspace.view buffer := by
  cases call with
  | op op => exact view_performOp_of_not remains hother
  | change target f => exact view_setCache_of_ne (ne_of_beq_false hother) _
  | ask target question => exact view_setCache_of_ne (ne_of_beq_false hother) _
  | lineSpans target line => rfl
  | languageNames => rfl

/-! ## Sequences -/

/-- Calls that do not concern a buffer can be left out: what is kept of the buffer and what is
answered about it stay the same. -/
theorem performAll_filter (h : workspace.view buffer = other.view buffer)
    (calls : List WorkspaceCall) :
    (workspace.performAll remains calls).1.view buffer =
        (other.performAll remains (calls.filter (WorkspaceCall.concerns buffer))).1.view buffer ∧
      (workspace.performAll remains calls).2.filter (fun entry => entry.1.concerns buffer) =
        (other.performAll remains (calls.filter (WorkspaceCall.concerns buffer))).2 := by
  induction calls generalizing workspace other with
  | nil => exact ⟨h, rfl⟩
  | cons call calls ih =>
    cases hconcerns : call.concerns buffer with
    | true =>
      obtain ⟨hview, hanswer⟩ := perform_of_view remains h hconcerns
      obtain ⟨hlast, hlater⟩ := ih hview
      simp only [performAll, List.filter_cons, hconcerns, if_true, hanswer, hlater]
      exact ⟨hlast, trivial⟩
    | false =>
      have hview : (workspace.perform remains call).1.view buffer = other.view buffer :=
        (view_perform_of_not remains hconcerns).trans h
      simp only [performAll, List.filter_cons, hconcerns, Bool.false_eq_true, if_false]
      exact ih hview

/-- The language of a buffer is refused exactly if it has a name that no language has, and then
nothing changes. -/
theorem perform_setLanguage_eq_unknownLanguage_iff (workspace : Workspace) (target : Nat)
    (language : Option String) (error : UnknownLanguage) :
    (workspace.perform remains (.op (.setLanguage target language))).2 =
        .unknownLanguage error ↔
      language = some error.name ∧ workspace.language? error.name = none ∧
        (workspace.perform remains (.op (.setLanguage target language))).1 = workspace := by
  simp only [perform, performOp, setLanguage]
  cases language with
  | none => simp
  | some name =>
    by_cases hunknown : (workspace.language? name).isNone = true
    · rw [Option.filter_some, if_pos hunknown]
      rw [Option.isNone_iff_eq_none] at hunknown
      constructor
      · rintro ⟨⟩
        exact ⟨rfl, hunknown, rfl⟩
      · rintro ⟨hname, -, -⟩
        cases hname
        rfl
    · rw [Option.filter_some, if_neg hunknown]
      rw [Option.isNone_iff_eq_none] at hunknown
      constructor
      · rintro ⟨⟩
      · rintro ⟨hname, hnone, -⟩
        cases hname
        exact absurd hnone hunknown

/-- Buffers are separate.  After any calls, what a workspace has for a buffer, and what was answered
to each call that concerns the buffer, is the same as if only these had been made.  A language that
is refused, because there is none of its name, changes nothing at all. -/
theorem calls_separate (remains : Option Grammar → List (List Char) → Cache → Cache)
    (start : Workspace) (calls : List WorkspaceCall) (buffer : Nat) :
    (start.performAll remains calls).1.view buffer =
        (start.performAll remains (calls.filter (WorkspaceCall.concerns buffer))).1.view buffer ∧
      (start.performAll remains calls).2.filter (fun entry => entry.1.concerns buffer) =
        (start.performAll remains (calls.filter (WorkspaceCall.concerns buffer))).2 ∧
      ∀ target language error,
        (start.perform remains (.op (.setLanguage target language))).2 =
            .unknownLanguage error ↔
          language = some error.name ∧ start.language? error.name = none ∧
            (start.perform remains (.op (.setLanguage target language))).1 = start := by
  obtain ⟨hview, hanswers⟩ := performAll_filter remains (Eq.refl (start.view buffer)) calls
  exact ⟨hview, hanswers, perform_setLanguage_eq_unknownLanguage_iff remains start⟩

/-- Buffer 1 is asked in between what is done to buffer 0. -/
example (remains : Option Grammar → List (List Char) → Cache → Cache) :
    ((empty.performAll remains
      [.op (.ensureSize 1 2), .op (.setLanguage 0 (some "Cobol")), .op (.update 0 [['x']]),
        .ask 1 .firstStale, .op .toggle, .lineSpans 1 0]).2.map Prod.snd) =
      [.done, .unknownLanguage ⟨"Cobol"⟩, .updated 0 [], .firstStale (some 0), .enabled false,
        .spans (some [])] := rfl

end Workspace

end Highlight
