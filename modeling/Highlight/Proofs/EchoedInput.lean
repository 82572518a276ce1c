import Highlight.CommandLine
import Highlight.Proofs.CachedStacks
import Highlight.Proofs.RenderedText
import Highlight.Proofs.StandardLanguages

/-!
# The program echoes its input

Where its output is no terminal the program writes the lines of its input again, with tabs expanded.

* The tab width.  It is the one entry of the settings file that matters for this
  (`Settings.tabWidth_of_load`).
* Documents.  The languages of this library are known to every run (`Workspace.exists_standard`),
  and without colors the spans of a line do not show in what is written
  (`CommandLine.renderDocument_of_plain`).
* Runs without effects.  What is read does not depend on when it is read, so that a run is a
  function of it (`CommandLine.run_eq`).
* What a run comes to.  `Highlights`, `Fails` and `Informs` are the three ways for a run to go, the
  second one with the step that fails.
-/

namespace Highlight

/-! ## The tab width -/

namespace Settings

/-- The tab width that a settings file asks for. -/
def writtenTabWidth? (file : FileBytes) : Option Nat :=
  match file.text with
  | .error _ => none
  | .ok text =>
    match readEntries (dropByteOrderMark text) with
    | .error _ => none
    | .ok entries =>
      match entries.lookup "tab-width".toList with
      | some (.integer (.ofNat width)) => some width
      | _ => none

/-- Only the entry of the tab width changes it. -/
theorem tabWidth_of_set {settings next : Settings} {key : List Char} {value : Value}
    (h : settings.set key value = .ok next) :
    if key == "tab-width".toList then
      ∃ width, value = .integer (.ofNat width) ∧ next.tabWidth = clampTabWidth width
    else next.tabWidth = settings.tabWidth := by
  unfold set at h
  split at h
  · next hkey =>
    rw [if_pos hkey]
    split at h
    · next width =>
      cases h
      exact ⟨width, rfl, rfl⟩
    · cases h
  · next hkey =>
    rw [if_neg hkey]
    repeat' split at h
    all_goals cases h <;> rfl

/-- The entry of the tab width, of which there is one at most, decides. -/
theorem tabWidth_of_setAll {settings last : Settings} {met : List (List Char)}
    {entries : List (List Char × Value)} (h : settings.setAll met entries = .ok last) :
    (met.contains "tab-width".toList = true → entries.lookup "tab-width".toList = none) ∧
    match entries.lookup "tab-width".toList with
      | some (.integer (.ofNat width)) => last.tabWidth = clampTabWidth width
      | some _ => False
      | none => last.tabWidth = settings.tabWidth := by
  induction entries generalizing settings met with
  | nil =>
    cases h
    exact ⟨fun _ => rfl, rfl⟩
  | cons entry rest ih =>
    obtain ⟨key, value⟩ := entry
    -- Behind the entry of the tab width its key is among those met, so it is not looked up again.
    rw [setAll] at h
    split at h
    · cases h
    · next hfresh =>
      simp only [bind, Except.bind] at h
      split at h
      · cases h
      · next next hnext =>
        obtain ⟨hlater, hwidth⟩ := ih h
        have hset := tabWidth_of_set hnext
        by_cases hkey : key = "tab-width".toList
        · rw [if_pos (beq_iff_eq.2 hkey)] at hset
          obtain ⟨width, rfl, hclamped⟩ := hset
          have hfirst : ((key, Value.integer (.ofNat width)) :: rest).lookup "tab-width".toList =
              some (.integer (.ofNat width)) := by
            rw [List.lookup_cons, hkey, beq_self_eq_true]
          rw [hlater (by rw [hkey, List.contains_cons, beq_self_eq_true, Bool.true_or]),
            hclamped] at hwidth
          rw [hfirst]
          refine ⟨fun hmet => ?_, hwidth⟩
          rw [hkey] at hfresh
          exact absurd hmet hfresh
        · rw [if_neg (by simpa using hkey)] at hset
          have hskip : ((key, value) :: rest).lookup "tab-width".toList =
              rest.lookup "tab-width".toList := by
            rw [List.lookup_cons, beq_false_of_ne (Ne.symm hkey)]
          rw [hskip, ← hset]
          refine ⟨fun hmet => hlater ?_, hwidth⟩
          rw [List.contains_cons, hmet, Bool.or_true]

/-- The tab width of loaded settings is the one that is written, moved between 1 and 16, or else
eight. -/
theorem tabWidth_of_load {file : FileBytes} {settings : Settings}
    (h : (load file).2 = .ok settings) :
    settings.tabWidth = (writtenTabWidth? file).elim 8 clampTabWidth := by
  unfold load at h
  unfold writtenTabWidth?
  cases htext : file.text with
  | error error =>
    rw [htext] at h
    cases error with
    | notFound =>
      cases h
      rfl
    | _ => cases h
  | ok text =>
    simp only [htext, ofText, bind, Except.bind] at h
    simp only []
    cases hentries : readEntries (dropByteOrderMark text) with
    | error error =>
      rw [hentries] at h
      cases h
    | ok entries =>
      simp only [hentries] at h
      cases hset : setAll {} [] entries with
      | error error =>
        rw [hset] at h
        cases h
      | ok last =>
        rw [hset] at h
        cases h
        obtain ⟨-, hwidth⟩ := tabWidth_of_setAll hset
        simp only []
        split at hwidth
        · next width hlookup =>
          rw [hlookup]
          exact hwidth
        · exact hwidth.elim
        · next hlookup =>
          rw [hlookup]
          exact hwidth

end Settings

/-! ## Documents -/

/-- Bytes that spell a text are read as that text. -/
theorem FileBytes.text_toUTF8 (text : String) :
    FileBytes.text (.ok text.toUTF8) = .ok text.toList := by
  have hvalid : text.toUTF8.IsValidUTF8 := text.isValidUTF8
  have hread : String.fromUTF8? text.toUTF8 = some text := by
    rw [String.fromUTF8?, dif_pos hvalid]
    rfl
  simp only [FileBytes.text, bind, Except.bind, hread]

theorem GrammarDef.name_of_build {description : GrammarDef} {grammar : Grammar}
    (h : description.build.result = .ok grammar) : grammar.name = description.name := by
  obtain ⟨-, -, styles, -, -, hassemble⟩ := build_eq_ok h
  unfold assemble at hassemble
  split at hassemble
  · cases hassemble
  · exact (congrArg Grammar.name (Except.ok.inj hassemble)).symm

namespace Workspace

/-- The grammars of descriptions that build are known under the names of these. -/
theorem exists_addAll {descriptions : List GrammarDef}
    (h : ∀ description ∈ descriptions, ∃ grammar, description.build.result = .ok grammar)
    (workspace : Workspace) :
    ∃ last, (workspace.addAll descriptions).result = .ok last ∧
      ∀ name, (name ∈ descriptions.map GrammarDef.name →
          ∃ grammar, last.language? name = some grammar ∧ grammar.name = name) ∧
        (name ∉ descriptions.map GrammarDef.name →
          last.language? name = workspace.language? name) := by
  induction descriptions generalizing workspace with
  | nil => exact ⟨workspace, rfl, fun name => ⟨fun hname => (by cases hname), fun _ => rfl⟩⟩
  | cons description rest ih =>
    obtain ⟨grammar, hbuild⟩ := h description List.mem_cons_self
    obtain ⟨last, hlast, hnames⟩ :=
      ih (fun other hother => h other (List.mem_cons_of_mem _ hother))
        (workspace.addLanguage grammar)
    have hname := GrammarDef.name_of_build hbuild
    refine ⟨last, Reported.andThen_eq_ok_iff.2 ⟨grammar, hbuild, hlast⟩, fun name => ?_⟩
    obtain ⟨hknown, hother⟩ := hnames name
    rw [language?_addLanguage] at hother
    rw [List.map_cons, List.mem_cons]
    refine ⟨fun hmem => ?_, fun hnone => ?_⟩
    · by_cases hrest : name ∈ rest.map GrammarDef.name
      · exact hknown hrest
      · have hfirst : grammar.name = name := hname.trans (hmem.resolve_right hrest).symm
        rw [if_pos hfirst] at hother
        exact ⟨grammar, hother hrest, hfirst⟩
    · rw [not_or] at hnone
      rw [hother hnone.2, if_neg]
      rw [hname]
      exact Ne.symm hnone.1

/-- A workspace that was not used yet, with the languages of this library and no others. -/
structure IsStandard (workspace : Workspace) : Prop where
  sound : workspace.Sound
  built : workspace.Built
  known : ∀ name ∈ standardLanguages.map GrammarDef.name,
    ∃ grammar, workspace.language? name = some grammar ∧ grammar.name = name
  unknown : ∀ name ∉ standardLanguages.map GrammarDef.name, workspace.language? name = none

/-- There is one, also where all attributes have to be defined. -/
theorem exists_standard (strict : Bool) :
    ∃ workspace, (standard strict).result = .ok workspace ∧ workspace.IsStandard := by
  have hbuilds : ∀ description ∈
      standardLanguages.map fun description => { description with strict },
      ∃ grammar, description.build.result = .ok grammar := by
    intro description hdescription
    obtain ⟨written, hwritten, rfl⟩ := List.mem_map.1 hdescription
    obtain ⟨grammar, hbuild, -⟩ := exists_standard_layered hwritten
    exact ⟨grammar, hbuild strict⟩
  obtain ⟨workspace, hworkspace, hnames⟩ := exists_addAll hbuilds empty
  have hstandard : (standard strict).result = .ok workspace := hworkspace
  obtain ⟨hsound, hbuilt⟩ := Initial.sound_and_built (.inr ⟨strict, hstandard⟩)
  exact ⟨workspace, hstandard, hsound, hbuilt, fun name => (hnames name).1,
    fun name => (hnames name).2⟩

end Workspace

namespace CommandLine

/-- Without colors a document is written as it stands, with its tabs expanded. -/
theorem renderDocument_of_plain {workspace : Workspace} (hsound : workspace.Sound)
    (hbuilt : workspace.Built) {grammar : Grammar}
    (hlanguage : workspace.language? grammar.name = some grammar) {options : RenderOptions}
    (hcolor : options.color = false) (text : List Char) :
    renderDocument workspace grammar options text =
      .ok (String.ofList ((textLines text).flatMap fun line =>
        (expandTabs options.tabWidth 0 line).1 ++ ['\n'])) := by
  have hset : workspace.setLanguage 0 (some grammar.name) =
      .ok (workspace.modifyCache 0 fun cache => cache.setLanguage (some grammar.name)) := by
    simp [Workspace.setLanguage, hlanguage, Option.filter]
  -- Setting the language empties the buffer, so that nothing cached has to fit it.
  have hsoundNext :
      (workspace.modifyCache 0 fun cache => cache.setLanguage (some grammar.name)).Sound :=
    hsound.setCache (Workspace.follows_of_slots_eq_nil rfl) 0
  have hbuiltNext :
      (workspace.modifyCache 0 fun cache => cache.setLanguage (some grammar.name)).Built :=
    hbuilt
  obtain ⟨next, count, notices, hupdate, -⟩ :=
    hsoundNext.exists_updateBuffer hbuiltNext 0 (textLines text)
  have hline : ∀ (line : List Char) (spans : List Span), renderLine options line spans =
      (expandTabs options.tabWidth 0 line).1 ++ ['\n'] := by
    intro line spans
    obtain ⟨pieces, hrender, htext, hplain⟩ := exists_pieces options line spans
    rw [hrender, Piece.flatMap_render_of_plain (hplain hcolor), htext]
  have hnumbered : ∀ write : List Char → List Char,
      ((textLines text).zipIdx.map fun entry => write entry.1) = (textLines text).map write := by
    intro write
    calc ((textLines text).zipIdx.map fun entry => write entry.1)
        = ((textLines text).zipIdx.map Prod.fst).map write := by rw [List.map_map]; rfl
      _ = (textLines text).map write := by rw [List.zipIdx_map_fst]
  simp only [renderDocument, hset, hupdate, Except.mapError, bind, Except.bind, hline,
    hnumbered fun line => (expandTabs options.tabWidth 0 line).1 ++ ['\n'], List.flatMap_def]

/-! ## Runs without effects -/

/-- The bytes that a request is about. -/
def Request.source (request : Request) (surroundings : Surroundings Id) : FileBytes :=
  match request.file with
  | some path => surroundings.fileBytes path
  | none => surroundings.inputBytes

/-- What is written for a request once the settings and the languages are there. -/
def Request.answerWith (request : Request) (surroundings : Surroundings Id) (settings : Settings)
    (workspace : Workspace) : Except Error String :=
  if request.list then .ok (String.join (workspace.languageNames.map fun name => name ++ "\n"))
  else do
    let grammar ← request.grammar settings workspace
    if request.dump then .ok grammar.listing
    else
      let text ← (request.source surroundings).text.mapError .unreadable
      renderDocument workspace grammar (renderOptions request settings surroundings.terminal) text

/-- What is written for a request. -/
def Request.answer (request : Request) (surroundings : Surroundings Id) : Except Error String := do
  let settings ← loadSettings surroundings.settingsBytes
  let workspace ← (Workspace.standard settings.strictAttributes).result.mapError .grammar
  request.answerWith surroundings settings workspace

/-- A result is passed on as it is. -/
theorem run_mk_bind {α β : Type} (first : Except Error α) (next : α → ExceptT Error Id β) :
    ((ExceptT.mk (pure first) : ExceptT Error Id α) >>= next).run =
      first >>= fun a => (next a).run := by
  cases first with
  | error error => rfl
  | ok a => rfl

/-- So is what a reading of something gives. -/
theorem run_read_bind {α β γ : Type} (source : Id γ) (read : γ → Except Error α)
    (next : α → ExceptT Error Id β) :
    ((ExceptT.mk (source >>= fun found => pure (read found)) : ExceptT Error Id α) >>= next).run =
      read source >>= fun a => (next a).run :=
  run_mk_bind (read source) next

theorem run_lift_bind {α β : Type} (source : Id α) (next : α → ExceptT Error Id β) :
    ((ExceptT.lift source : ExceptT Error Id α) >>= next).run = (next source).run := rfl

theorem Request.run_eq (request : Request) (surroundings : Surroundings Id) :
    (request.run surroundings).run = request.answer surroundings := by
  simp only [Request.run, Request.answer, Request.answerWith, run_read_bind, run_mk_bind,
    run_lift_bind, apply_ite ExceptT.run, ExceptT.run_pure]
  rfl

theorem run_eq (arguments : List String) (surroundings : Surroundings Id) :
    run arguments surroundings = .ofResult (match Command.ofArguments arguments with
      | .error error => .error error
      | .ok .help => .ok usage
      | .ok .version => .ok s!"ctxhl {programVersion}\n"
      | .ok (.serve request) => request.answer surroundings) := by
  have hresult : run arguments surroundings = .ofResult (Command.ofArguments arguments >>=
      fun command => (command.run surroundings).run) :=
    congrArg Outcome.ofResult (run_mk_bind (Command.ofArguments arguments) _)
  rw [hresult]
  cases Command.ofArguments arguments with
  | error error => rfl
  | ok command =>
    cases command with
    | help => rfl
    | version => rfl
    | serve request => exact congrArg _ (request.run_eq surroundings)

theorem bind_of_eq_ok {α β : Type} {first : Except Error α} {a : α} (h : first = .ok a)
    (next : α → Except Error β) : first >>= next = next a := by
  rw [h]
  rfl

/-- With settings and languages the answer starts from these. -/
theorem Request.answer_eq {request : Request} {surroundings : Surroundings Id}
    {settings : Settings} {workspace : Workspace}
    (hloaded : (Settings.load surroundings.settingsBytes).2 = .ok settings)
    (hworkspace : (Workspace.standard settings.strictAttributes).result = .ok workspace) :
    request.answer surroundings = request.answerWith surroundings settings workspace := by
  have hsettings : loadSettings surroundings.settingsBytes = .ok settings :=
    congrArg (Except.mapError _) hloaded
  have hlanguages : (Workspace.standard settings.strictAttributes).result.mapError Error.grammar =
      .ok workspace :=
    congrArg (Except.mapError Error.grammar) hworkspace
  rw [Request.answer, bind_of_eq_ok hsettings, bind_of_eq_ok hlanguages]

/-! ## What a run comes to -/

section Course

variable (arguments : List String) (surroundings : Surroundings Id)

/-- The arguments are a request, and there are settings for it. -/
structure Serves (request : Request) (settings : Settings) : Prop where
  asked : Command.ofArguments arguments = .ok (.serve request)
  loaded : (Settings.load surroundings.settingsBytes).2 = .ok settings

/-- The arguments and the settings name a language of this library, and do not ask for the names of
all of them. -/
structure Chooses (request : Request) (settings : Settings) (name : String) : Prop extends
    Serves arguments surroundings request settings where
  not_list : request.list = false
  named : request.language.or settings.language = some name
  known : name ∈ standardLanguages.map GrammarDef.name

/-- The run comes to the highlighting of a text. -/
inductive Highlights : Settings → List Char → Prop
  | intro {request : Request} {settings : Settings} {name : String} {text : List Char}
      (chosen : Chooses arguments surroundings request settings name)
      (not_dump : request.dump = false)
      (source_eq : (request.source surroundings).text = .ok text) :
      Highlights settings text

/-- The step at which the run fails, with its error. -/
inductive Fails : Error → Prop
  | arguments {error : Error} (refused : Command.ofArguments arguments = .error error) :
      Fails error
  | unreadSettings {request : Request} {error : ReadError}
      (asked : Command.ofArguments arguments = .ok (.serve request))
      (refused : (Settings.load surroundings.settingsBytes).2 = .error (.unreadable error)) :
      Fails (.unreadable error)
  | malformedSettings {request : Request} {error : Settings.Error}
      (asked : Command.ofArguments arguments = .ok (.serve request))
      (refused : (Settings.load surroundings.settingsBytes).2 = .error (.malformed error)) :
      Fails (.settings error)
  | noLanguage {request : Request} {settings : Settings}
      (served : Serves arguments surroundings request settings)
      (not_list : request.list = false)
      (unnamed : request.language.or settings.language = none) :
      Fails .noLanguage
  | unknownLanguage {request : Request} {settings : Settings} {name : String}
      (served : Serves arguments surroundings request settings)
      (not_list : request.list = false)
      (named : request.language.or settings.language = some name)
      (unknown : name ∉ standardLanguages.map GrammarDef.name) :
      Fails (.unknownLanguage ⟨name⟩)
  | unreadText {request : Request} {settings : Settings} {name : String} {error : ReadError}
      (chosen : Chooses arguments surroundings request settings name)
      (not_dump : request.dump = false)
      (refused : (request.source surroundings).text = .error error) :
      Fails (.unreadable error)

/-- The run tells something else: about the program, its languages or one of them. -/
inductive Informs : Prop
  | help (asked : Command.ofArguments arguments = .ok .help)
  | version (asked : Command.ofArguments arguments = .ok .version)
  | list {request : Request} {settings : Settings}
      (served : Serves arguments surroundings request settings) (listed : request.list = true)
  | dump {request : Request} {settings : Settings} {name : String}
      (chosen : Chooses arguments surroundings request settings name)
      (dumped : request.dump = true)

end Course

variable {arguments : List String} {surroundings : Surroundings Id}

/-- A run with settings finds the languages of this library, whatever the settings are. -/
theorem Serves.exists_workspace {request : Request} {settings : Settings}
    (h : Serves arguments surroundings request settings) :
    ∃ workspace : Workspace, workspace.IsStandard ∧
      run arguments surroundings =
        .ofResult (request.answerWith surroundings settings workspace) := by
  obtain ⟨workspace, hworkspace, hstandard⟩ :=
    Workspace.exists_standard settings.strictAttributes
  refine ⟨workspace, hstandard, ?_⟩
  rw [run_eq, h.asked]
  exact congrArg Outcome.ofResult (Request.answer_eq h.loaded hworkspace)

/-- A run with a language finds its grammar. -/
theorem Chooses.exists_grammar {request : Request} {settings : Settings} {name : String}
    (h : Chooses arguments surroundings request settings name) :
    ∃ (workspace : Workspace) (grammar : Grammar), workspace.IsStandard ∧
      workspace.language? grammar.name = some grammar ∧
      run arguments surroundings = .ofResult (if request.dump then .ok grammar.listing
        else do
          let text ← (request.source surroundings).text.mapError .unreadable
          renderDocument workspace grammar
            (renderOptions request settings surroundings.terminal) text) := by
  obtain ⟨workspace, hstandard, hrun⟩ := h.toServes.exists_workspace
  obtain ⟨grammar, hgrammar, rfl⟩ := hstandard.known name h.known
  refine ⟨workspace, grammar, hstandard, hgrammar, ?_⟩
  rw [hrun]
  simp only [Request.answerWith, h.not_list, Request.grammar, h.named, hgrammar, bind, Except.bind,
    Bool.false_eq_true, if_false]

theorem run_of_highlights (hterminal : surroundings.terminal = false) {settings : Settings}
    {text : List Char} (h : Highlights arguments surroundings settings text) :
    run arguments surroundings =
      ⟨0, String.ofList ((textLines text).flatMap fun line =>
        (expandTabs settings.tabWidth 0 line).1 ++ ['\n']), ""⟩ := by
  obtain @⟨request, settings, name, text, hchosen, hdump, hsource⟩ := h
  obtain ⟨workspace, grammar, hstandard, hgrammar, hrun⟩ := hchosen.exists_grammar
  have hcolor : (renderOptions request settings surroundings.terminal).color = false := by
    rw [hterminal]
    exact Bool.and_false _
  rw [hrun, hdump, hsource]
  exact congrArg Outcome.ofResult
    (renderDocument_of_plain hstandard.sound hstandard.built hgrammar hcolor text)

theorem run_of_fails {error : Error} (h : Fails arguments surroundings error) :
    run arguments surroundings = ⟨1, "", "Error: " ++ error.message ++ "\n"⟩ := by
  cases h with
  | arguments hrefused =>
    rw [run_eq, hrefused]
    rfl
  | unreadSettings hasked hrefused =>
    rw [run_eq, hasked]
    simp only [Request.answer, loadSettings, hrefused, Except.mapError, bind, Except.bind]
    rfl
  | malformedSettings hasked hrefused =>
    rw [run_eq, hasked]
    simp only [Request.answer, loadSettings, hrefused, Except.mapError, bind, Except.bind]
    rfl
  | noLanguage hserved hlist hunnamed =>
    obtain ⟨workspace, -, hrun⟩ := hserved.exists_workspace
    rw [hrun]
    simp only [Request.answerWith, hlist, Request.grammar, hunnamed, bind, Except.bind,
      Bool.false_eq_true, if_false]
    rfl
  | unknownLanguage hserved hlist hnamed hunknown =>
    obtain ⟨workspace, hstandard, hrun⟩ := hserved.exists_workspace
    rw [hrun]
    simp only [Request.answerWith, hlist, Request.grammar, hnamed, hstandard.unknown _ hunknown,
      bind, Except.bind, Bool.false_eq_true, if_false]
    rfl
  | unreadText hchosen hdump hrefused =>
    obtain ⟨workspace, grammar, -, -, hrun⟩ := hchosen.exists_grammar
    rw [hrun, hdump, hrefused]
    rfl

theorem run_of_informs (h : Informs arguments surroundings) :
    ∃ output, run arguments surroundings = ⟨0, output, ""⟩ := by
  cases h with
  | help hasked => exact ⟨_, by rw [run_eq, hasked]; rfl⟩
  | version hasked => exact ⟨_, by rw [run_eq, hasked]; rfl⟩
  | list hserved hlist =>
    obtain ⟨workspace, -, hrun⟩ := hserved.exists_workspace
    rw [Request.answerWith, hlist, if_pos rfl] at hrun
    exact ⟨_, hrun⟩
  | dump hchosen hdump =>
    obtain ⟨workspace, grammar, -, -, hrun⟩ := hchosen.exists_grammar
    rw [hdump, if_pos rfl] at hrun
    exact ⟨_, hrun⟩

/-- There is no other way for a run to go. -/
theorem highlights_or_fails_or_informs (arguments : List String) (surroundings : Surroundings Id) :
    (∃ settings text, Highlights arguments surroundings settings text) ∨
      (∃ error, Fails arguments surroundings error) ∨ Informs arguments surroundings := by
  cases hasked : Command.ofArguments arguments with
  | error error => exact .inr (.inl ⟨_, .arguments hasked⟩)
  | ok command =>
    cases command with
    | help => exact .inr (.inr (.help hasked))
    | version => exact .inr (.inr (.version hasked))
    | serve request =>
      cases hloaded : (Settings.load surroundings.settingsBytes).2 with
      | error error =>
        cases error with
        | unreadable error => exact .inr (.inl ⟨_, .unreadSettings hasked hloaded⟩)
        | malformed error => exact .inr (.inl ⟨_, .malformedSettings hasked hloaded⟩)
      | ok settings =>
        have hserved : Serves arguments surroundings request settings := ⟨hasked, hloaded⟩
        cases hlist : request.list with
        | true => exact .inr (.inr (.list hserved hlist))
        | false =>
          cases hnamed : request.language.or settings.language with
          | none => exact .inr (.inl ⟨_, .noLanguage hserved hlist hnamed⟩)
          | some name =>
            by_cases hknown : name ∈ standardLanguages.map GrammarDef.name
            · have hchosen : Chooses arguments surroundings request settings name :=
                ⟨hserved, hlist, hnamed, hknown⟩
              cases hdump : request.dump with
              | true => exact .inr (.inr (.dump hchosen hdump))
              | false =>
                cases hsource : (request.source surroundings).text with
                | error error => exact .inr (.inl ⟨_, .unreadText hchosen hdump hsource⟩)
                | ok text => exact .inl ⟨_, _, hchosen, hdump, hsource⟩
            · exact .inr (.inl ⟨_, .unknownLanguage hserved hlist hnamed hknown⟩)

/-- The program echoes its input.  Let the output be no terminal.  A run that comes to highlighting
writes each line of the text with its tabs expanded and a newline behind it, whatever the language
and the other settings are; the tab width is the one in the settings file, moved between 1 and 16,
or else eight.  A run that fails writes no output but one message.  All other runs were asked to
tell something else. -/
theorem run_echoes_input (arguments : List String) (surroundings : Surroundings Id)
    (hterminal : surroundings.terminal = false) :
    (∀ settings text, Highlights arguments surroundings settings text →
      settings.tabWidth =
        (Settings.writtenTabWidth? surroundings.settingsBytes).elim 8 (fun n => max 1 (min n 16)) ∧
      run arguments surroundings =
        ⟨0, String.ofList ((textLines text).flatMap fun line =>
          (expandTabs settings.tabWidth 0 line).1 ++ ['\n']), ""⟩) ∧
    (∀ error, Fails arguments surroundings error →
      run arguments surroundings = ⟨1, "", "Error: " ++ error.message ++ "\n"⟩) ∧
    (Informs arguments surroundings → ∃ output, run arguments surroundings = ⟨0, output, ""⟩) ∧
    ((∃ settings text, Highlights arguments surroundings settings text) ∨
      (∃ error, Fails arguments surroundings error) ∨ Informs arguments surroundings) := by
  refine ⟨fun settings text h => ⟨?_, run_of_highlights hterminal h⟩, fun error h =>
    run_of_fails h, run_of_informs, highlights_or_fails_or_informs arguments surroundings⟩
  obtain ⟨hchosen, -, -⟩ := h
  exact Settings.tabWidth_of_load hchosen.loaded

/-- A wide tab in an open string, a carriage return and a last line without a newline; and a name
that is missing. -/
theorem run_echoes_input_openString :
    ∃ surroundings : Surroundings Id,
      surroundings.settingsBytes = .ok "tab-width = 40".toUTF8 ∧
      surroundings.inputBytes = .ok "\t\"a\r\nb".toUTF8 ∧
      surroundings.terminal = false ∧
      run ["-l", "C"] surroundings = ⟨0, "                \"a\nb\n", ""⟩ ∧
      run ["-l"] surroundings = ⟨1, "", "Error: -l needs a language name\n"⟩ := by
  let surroundings : Surroundings Id :=
    { settingsBytes := .ok "tab-width = 40".toUTF8
      fileBytes := fun _ => .error .notFound
      inputBytes := .ok "\t\"a\r\nb".toUTF8
      terminal := false }
  have hentry : Settings.readLine? "tab-width = 40".toList =
      some (some ("tab-width".toList, .integer 40), []) := by
    decide +kernel
  have hentries : Settings.readEntries "tab-width = 40".toList =
      .ok [("tab-width".toList, .integer 40)] := by
    have hend : Settings.readEntries [] = .ok [] := by
      rw [Settings.readEntries]
      rfl
    rw [Settings.readEntries, hentry]
    simp only [hend]
    rfl
  have hloaded : (Settings.load surroundings.settingsBytes).2 =
      .ok { tabWidth := 16 } := by
    simp only [surroundings, Settings.load, FileBytes.text_toUTF8, Settings.ofText,
      show Settings.dropByteOrderMark "tab-width = 40".toList = "tab-width = 40".toList by decide,
      hentries]
    rfl
  have hhighlights : Highlights ["-l", "C"] surroundings
      { tabWidth := 16 } "\t\"a\r\nb".toList :=
    .intro ⟨⟨rfl, hloaded⟩, rfl, rfl, by decide⟩ rfl (FileBytes.text_toUTF8 _)
  refine ⟨surroundings, rfl, rfl, rfl, ?_, ?_⟩
  · rw [((run_echoes_input ["-l", "C"] surroundings rfl).1 _ _ hhighlights).2]
    exact congrArg (fun output => (⟨0, output, ""⟩ : Outcome)) (by decide +kernel)
  · rw [(run_echoes_input ["-l"] surroundings rfl).2.1 (.missingName "-l") (.arguments rfl)]
    rfl

end CommandLine

end Highlight
