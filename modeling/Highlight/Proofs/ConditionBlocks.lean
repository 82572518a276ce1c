import Highlight.Proofs.Directives
import Highlight.Proofs.StepBound

/-!
# Blocks that a condition leaves out

The text between `#if 0` and its end is a block of the grammar of C: conditions inside it are nested
contexts, and the block ends at the first directive of its own.

* Lines.  White space is passed over, a directive behind it takes its switch
  (`exists_reaches_directive`), and nothing behind that does (`exists_highlightLine_quiet`).
* Nested conditions.  `blockNames` are the contexts of a block with some conditions open in it.
  What a line makes of them is decided by the directive that its text begins with.
* Documents.  `Balanced` lines lead back to the stack that they start with, and none of them leaves
  the block (`Balanced.exists_entries`).
-/

namespace Highlight.Language.C

open Unicode (isBlank dropBlanks)

/-! ## Lines -/

/-- Where other text begins in or just behind the white space of a line, that is all the text of
the line. -/
theorem rest_eq_dropBlanks {line : List Char} {scan : Scan} (hat : scan.At line)
    (hoffset : scan.offset ≤ leadingBlanks line)
    (hvisible : ∀ c ∈ scan.rest.head?, isBlank c = false) :
    scan.rest = dropBlanks line := by
  obtain ⟨skipped, hline, hskipped, -⟩ := hat
  have hgap : skipped <+: line.takeWhile isBlank := by
    have hprefix : skipped <+: line := ⟨scan.rest, hline.symm⟩
    rcases List.prefix_or_prefix_of_prefix hprefix (List.takeWhile_prefix isBlank) with
      hle | ⟨more, hmore⟩
    · exact hle
    · have hempty : more = [] := by
        have hbytes := congrArg byteLength hmore
        rw [byteLength_append, hskipped] at hbytes
        rw [leadingBlanks] at hoffset
        rw [← byteLength_eq_zero_iff]
        omega
      rw [hempty, List.append_nil] at hmore
      exact hmore ▸ List.prefix_rfl
  have hblanks : ∀ c ∈ skipped, isBlank c = true :=
    fun c hc => List.mem_takeWhile_imp (hgap.subset hc)
  rw [dropBlanks, hline, (span_blanks hblanks hvisible).2]

/-- A stack of a grammar whose top is a context of a block. -/
structure InBlock (built : Grammar) (stack : Stack) (leave : Rule) (words : List (List Char)) :
    Prop where
  within : stack.Within built.contexts.length
  context : ∃ name, built.contexts[stack.current]? = some (blockContext name leave)
  leaving : LeavingRule leave words

section

variable {built : Grammar} (hbuild : grammar.build.result = .ok built) {leave : Rule}
  {words : List (List Char)}

include hbuild

/-- A step in a block tries the rules of one of its contexts. -/
theorem InBlock.exists_step {scan : Scan} (h : InBlock built scan.stack leave words)
    (hrest : scan.rest ≠ []) (leading : Nat) :
    ∃ name trial next, built.contexts[scan.stack.current]? = some (blockContext name leave) ∧
      built.tryRules (blockContext name leave).rules (scan.cursor built leading) = .ok trial ∧
      scan.step built leading = .ok next ∧
      scan.Follows (blockContext name leave) trial.found next := by
  have hresolved : built.Resolved := Grammar.Built.resolved ⟨_, hbuild⟩
  obtain ⟨name, hcontext⟩ := h.context
  obtain ⟨context, trial, next, hfound, htrial, hstep, hfollows, -⟩ :=
    Scan.exists_step hresolved leading h.within hrest
  obtain rfl : blockContext name leave = context :=
    Option.some.inj (hcontext.symm.trans (Grammar.getElem?_of_context hfound))
  exact ⟨name, trial, next, hcontext, htrial, hstep, hfollows⟩

/-- Behind white space a scan comes to the end of a directive and takes its switch. -/
theorem exists_reaches_directive {rule : Rule} {own : List (List Char)}
    (hmember : (rule, own) ∈ directives leave words) {text taken rest : List Char}
    (hdirective : directive? own text = some (taken, rest)) {gap : List Char}
    (hgap : ∀ c ∈ gap, isBlank c = true) {scan : Scan} {leading : Nat}
    (hblock : InBlock built scan.stack leave words) (hrest : scan.rest = gap ++ text)
    (hleading : scan.offset + byteLength gap = leading) :
    ∃ count behind captures, Scan.Reaches built leading count scan behind ∧
      behind.stack = rule.switch.apply scan.stack captures ∧ behind.rest = rest ∧
      behind.offset = leading + byteLength taken ∧ behind.lineContinue = false := by
  have hown := hblock.leaving.findsDirective hmember
  obtain ⟨hsplit, -⟩ := split_of_directive? hdirective
  have hpos := byteLength_pos_of_directive? hdirective
  induction gap generalizing scan with
  | nil =>
    have hne : scan.rest ≠ [] := by
      rw [hrest, List.nil_append, hsplit]
      intro hnil
      rw [(List.append_eq_nil_iff.1 hnil).1] at hpos
      cases hpos
    obtain ⟨name, trial, next, hcontext, htrial, hstep, hfollows⟩ :=
      hblock.exists_step hbuild hne leading
    have hfirst : (scan.cursor built leading).firstNonSpace = true :=
      decide_eq_true (by rw [byteLength_nil] at hleading; omega)
    have hhere : directive? own (scan.cursor built leading).rest = some (taken, rest) := by
      rw [show (scan.cursor built leading).rest = text from hrest, hdirective]
    obtain ⟨captures, hmatched⟩ :=
      found_of_directive hbuild hcontext hblock.leaving htrial hmember hfirst hhere
    rw [hmatched] at hfollows
    have hlength : (rule.toMatch (byteLength taken) captures).length = byteLength taken := by
      simp [Rule.toMatch, hown.takesText]
    obtain ⟨hnextRest, hnextStack, hnextOffset, hnextLine, -⟩ :=
      hfollows.of_consumed (by rw [hlength]; exact hpos) (hrest.trans hsplit) hlength.symm
    refine ⟨1, next, captures, .head hne hstep (.refl next), ?_, hnextRest, ?_, ?_⟩
    · rw [hnextStack, rule.nextStack_toMatch]
    · rw [hnextOffset, hlength, ← hleading, byteLength_nil]
      omega
    · rw [hnextLine]
      exact (Rule.isSimple_iff.1 hown.simple).2.2
  | cons c gap ih =>
    have hblank := hgap c List.mem_cons_self
    have hne : scan.rest ≠ [] := by
      rw [hrest]
      simp
    obtain ⟨name, trial, next, hcontext, htrial, hstep, hfollows⟩ :=
      hblock.exists_step hbuild hne leading
    have hhere : (scan.cursor built leading).rest = c :: gap ++ text := hrest
    have hnone : trial.found = none := by
      cases hmatched : trial.found with
      | none => rfl
      | some matched =>
        cases blockFinds_of_tryRules hbuild hcontext hblock.leaving htrial hmatched with
        | alert stays ends visible =>
          rw [hhere] at visible
          rw [(visible c rfl).1] at hblank
          cases hblank
        | directive member first found =>
          rw [hhere] at found
          obtain ⟨body, hbody, -⟩ := exists_word_of_directive? found
          cases hbody
          cases hblank
    rw [hnone] at hfollows
    obtain ⟨hnextRest, hnextStack, hnextOffset, -⟩ := hfollows.of_none rfl hrest
    obtain ⟨count, behind, captures, hreaches, hbehind⟩ :=
      ih (fun d hd => hgap d (List.mem_cons_of_mem _ hd))
        (by rwa [hnextStack]) hnextRest
        (by rw [hnextOffset, ← hleading, byteLength_cons]; omega)
    rw [hnextStack] at hbehind
    exact ⟨count + 1, behind, captures, .head hne hstep hreaches, hbehind⟩

/-- The scan of a line comes to the end of the directive that its text begins with. -/
theorem exists_reaches_directive_of_start {rule : Rule} {own : List (List Char)}
    (hmember : (rule, own) ∈ directives leave words) {line taken rest : List Char}
    (hdirective : directive? own (dropBlanks line) = some (taken, rest)) {stack : Stack}
    (hblock : InBlock built stack leave words) :
    ∃ count behind captures,
      Scan.Reaches built (leadingBlanks line) count (Scan.start line stack) behind ∧
      behind.stack = rule.switch.apply stack captures ∧ behind.rest = rest ∧
      behind.offset = leadingBlanks line + byteLength taken ∧ behind.lineContinue = false :=
  exists_reaches_directive hbuild hmember hdirective
    (fun _ hc => List.mem_takeWhile_imp hc)
    (show InBlock built (Scan.start line stack).stack leave words from hblock)
    List.takeWhile_append_dropWhile.symm (Nat.zero_add _)

/-- Behind the start of the text, or where it begins with no directive, nothing changes the stack
of a scan up to the end of the line. -/
theorem exists_highlightLine_quiet {line : List Char} {stack : Stack}
    (hstack : stack.Within built.contexts.length) {count : Nat} {middle : Scan}
    (hreaches :
      Scan.Reaches built (leadingBlanks line) count (Scan.start line stack) middle)
    (hblock : InBlock built middle.stack leave words) (hended : middle.lineContinue = false)
    (hquiet : leadingBlanks line < middle.offset ∨
      ∀ rule own, (rule, own) ∈ directives leave words →
        directive? own (dropBlanks line) = none) :
    ∃ result, highlightLine built line stack = .ok result ∧ result.endStack = middle.stack := by
  have hresolved : built.Resolved := Grammar.Built.resolved ⟨_, hbuild⟩
  obtain ⟨-, ⟨name, hcontext⟩, hleave⟩ := hblock
  obtain ⟨result, last, hresult, -, -, ⟨hlast, hlastEnded, -⟩, hcloses⟩ :=
    @exists_highlightLine_preserves built hresolved
      (fun scan => scan.stack = middle.stack ∧ scan.lineContinue = false ∧
        (leadingBlanks line < scan.offset ∨
          ∀ rule own, (rule, own) ∈ directives leave words →
            directive? own (dropBlanks line) = none))
      line stack hstack count middle hreaches ⟨rfl, hended, hquiet⟩ (by
        rintro scan next context trial hat - hfound htrial hfollows ⟨hsame, hline, hscan⟩
        obtain rfl : blockContext name leave = context := by
          rw [hsame, hcontext] at hfound
          exact Option.some.inj hfound
        have hlater : leadingBlanks line < next.offset ∨
            ∀ rule own, (rule, own) ∈ directives leave words →
              directive? own (dropBlanks line) = none := by
          rcases hfollows.reads_or_switches with hreads | hswitches
          · exact hscan.imp_left fun hlt => Nat.lt_trans hlt hreads.offset_lt
          · exact hscan.imp_left fun hlt => hswitches.offset_eq ▸ hlt
        rcases hfollows.stack_cases with ⟨matched, hmatched, hnext, hnextLine⟩ |
          ⟨hnext, hnextLine⟩ | ⟨hnext, hnextLine⟩
        · cases blockFinds_of_tryRules hbuild hcontext hleave htrial hmatched with
          | alert stays ends visible =>
            refine ⟨hnext.trans ?_, ?_, hlater⟩
            · rw [Scan.nextStack_of_switch_eq_none stays, hsame]
            · rcases hnextLine with hnextLine | hnextLine
              · exact hnextLine.trans hline
              · exact hnextLine.trans ends
          | directive member first found =>
            have hoffset : scan.offset ≤ leadingBlanks line := of_decide_eq_true first
            rcases hscan with hlt | hnone
            · omega
            · obtain ⟨body, hbody, -⟩ := exists_word_of_directive? found
              have htext : scan.rest = dropBlanks line := by
                refine rest_eq_dropBlanks hat hoffset ?_
                rw [show scan.rest = '#' :: body from hbody]
                intro c hc
                cases hc
                rfl
              rw [show (scan.cursor built (leadingBlanks line)).rest = scan.rest from rfl, htext,
                hnone _ _ member] at found
              cases found
        · exact ⟨hnext.trans hsame, hnextLine.trans hline, hlater⟩
        · exact ⟨hnext.trans hsame, hnextLine, hlater⟩)
  obtain ⟨notices, hnext⟩ := hcloses.ended hlastEnded
  have htop : built.contexts[last.stack.current]? = some (blockContext name leave) := by
    rw [hlast, hcontext]
  rw [nextLineStack_of_stay htop rfl rfl, hlast] at hnext
  exact ⟨result, hresult, (Prod.mk.inj (Except.ok.inj hnext)).1.symm⟩

/-- A line that begins with a directive ends with the stack of its switch, if that is in a block
too. -/
theorem exists_highlightLine_directive {rule : Rule} {own : List (List Char)}
    (hmember : (rule, own) ∈ directives leave words) {line taken rest : List Char}
    (hdirective : directive? own (dropBlanks line) = some (taken, rest)) {stack next : Stack}
    (hblock : InBlock built stack leave words)
    (hswitch : ∀ captures, rule.switch.apply stack captures = next) {behind : Rule}
    {others : List (List Char)} (hnext : InBlock built next behind others) :
    ∃ result, highlightLine built line stack = .ok result ∧ result.endStack = next := by
  obtain ⟨count, middle, captures, hreaches, hmiddle, -, hoffset, hended⟩ :=
    exists_reaches_directive_of_start hbuild hmember hdirective hblock
  have hpos := byteLength_pos_of_directive? hdirective
  have hlater : leadingBlanks line < middle.offset := by omega
  rw [hswitch] at hmiddle
  rw [← hmiddle] at hnext ⊢
  exact exists_highlightLine_quiet hbuild hblock.within hreaches hnext hended (.inl hlater)

end

/-! ## Nested conditions -/

/-- Lines by the directives that their texts begin with. -/
def opens (line : List Char) : Bool :=
  (directive? opening (dropBlanks line)).isSome

def closes (line : List Char) : Bool :=
  (directive? closing (dropBlanks line)).isSome

def leaves (line : List Char) : Bool :=
  (directive? leaving (dropBlanks line)).isSome

/-- The contexts of a block with some conditions open in it. -/
def blockNames (nested : Nat) : List (Option String) :=
  some "Normal" :: some "Outscoped" :: List.replicate nested (some "Outscoped Nested")

/-- The places of these contexts. -/
def blockPlaces (nested : Nat) : List Nat :=
  0 :: 7 :: List.replicate nested 8

theorem blockPlaces_succ (nested : Nat) : blockPlaces (nested + 1) = blockPlaces nested ++ [8] := by
  simp [blockPlaces, List.replicate_succ']

section

variable {built : Grammar} (hbuild : grammar.build.result = .ok built) {nested : Nat}
  {stack : Stack}

include hbuild

theorem names_iff_places :
    built.names stack = blockNames nested ↔ stack.frames.map Frame.context = blockPlaces nested := by
  have hnames : blockNames nested = (blockPlaces nested).map fun place =>
      (grammar.contexts.map ContextDef.name)[place]? := by
    simp only [blockNames, blockPlaces, List.map_cons, List.map_replicate]
    rfl
  rw [hnames]
  constructor
  · refine GrammarDef.contexts_of_names hbuild ?_
    simp only [blockPlaces, List.mem_cons, List.mem_replicate]
    rintro place (rfl | rfl | ⟨-, rfl⟩) <;> decide
  · intro hplaces
    rw [GrammarDef.names_eq hbuild, hplaces]

theorem within_of_names (h : built.names stack = blockNames nested) :
    stack.Within built.contexts.length := by
  have hlength : built.contexts.length = 9 :=
    (GrammarDef.grammar_resolves hbuild).contexts.length_eq.symm
  apply Stack.within_of_frames
  rw [(names_iff_places hbuild).1 h, hlength]
  simp only [blockPlaces, List.mem_cons, List.mem_replicate]
  rintro place (rfl | rfl | ⟨-, rfl⟩) <;> decide

theorem names_push (h : built.names stack = blockNames nested) :
    built.names (stack.push 8 none) = blockNames (nested + 1) := by
  rw [names_iff_places hbuild] at h ⊢
  rw [Stack.frames_push, List.map_append, h, blockPlaces_succ]
  rfl

theorem names_pop (h : built.names stack = blockNames (nested + 1)) :
    built.names stack.pop = blockNames nested := by
  rw [names_iff_places hbuild, blockPlaces_succ] at h
  rw [names_iff_places hbuild]
  exact (Stack.current_of_frames h).2 (by simp [blockPlaces])

/-- The top of the stack of a block is one of its two contexts. -/
theorem inBlock_outscoped (h : built.names stack = blockNames 0) :
    InBlock built stack blockEnd leaving := by
  have hplaces := (names_iff_places hbuild).1 h
  have hcurrent : stack.current = 7 := (@Stack.current_of_frames stack [0] 7 hplaces).1
  exact ⟨within_of_names hbuild h, ⟨_, hcurrent ▸ context_outscoped hbuild⟩, leavingRule_blockEnd⟩

theorem inBlock_nested (h : built.names stack = blockNames (nested + 1)) :
    InBlock built stack conditionEnd closing := by
  have hplaces := (names_iff_places hbuild).1 h
  rw [blockPlaces_succ] at hplaces
  have hcurrent : stack.current = 8 := (Stack.current_of_frames hplaces).1
  exact ⟨within_of_names hbuild h, ⟨_, hcurrent ▸ context_outscopedNested hbuild⟩,
    leavingRule_conditionEnd⟩

theorem exists_inBlock (h : built.names stack = blockNames nested) :
    ∃ leave words, InBlock built stack leave words := by
  cases nested with
  | zero => exact ⟨_, _, inBlock_outscoped hbuild h⟩
  | succ nested => exact ⟨_, _, inBlock_nested hbuild h⟩

/-- A line that opens a condition nests one more. -/
theorem exists_highlightLine_opens (h : built.names stack = blockNames nested) {line : List Char}
    (hopens : opens line = true) :
    ∃ result, highlightLine built line stack = .ok result ∧
      result.endStack = stack.push 8 none := by
  obtain ⟨⟨taken, rest⟩, hdirective⟩ := Option.isSome_iff_exists.1 hopens
  obtain ⟨leave, words, hblock⟩ := exists_inBlock hbuild h
  exact exists_highlightLine_directive hbuild (List.mem_cons_self ..) hdirective hblock
    (fun _ => rfl) (inBlock_nested hbuild (names_push hbuild h))

/-- A line that closes a nested condition leaves that. -/
theorem exists_highlightLine_closes (h : built.names stack = blockNames (nested + 1))
    {line : List Char} (hcloses : closes line = true) :
    ∃ result, highlightLine built line stack = .ok result ∧ result.endStack = stack.pop := by
  obtain ⟨⟨taken, rest⟩, hdirective⟩ := Option.isSome_iff_exists.1 hcloses
  obtain ⟨leave, words, hnext⟩ := exists_inBlock hbuild (names_pop hbuild h)
  exact exists_highlightLine_directive hbuild
    (List.mem_cons_of_mem _ (List.mem_cons_self ..)) hdirective (inBlock_nested hbuild h)
    (Switch.apply_pop stack) hnext

/-- Other lines keep the stack. -/
theorem exists_highlightLine_other (h : built.names stack = blockNames nested) {line : List Char}
    (hopens : opens line = false)
    (hstays : (if nested = 0 then leaves line else closes line) = false) :
    ∃ result, highlightLine built line stack = .ok result ∧ result.endStack = stack := by
  have hkeeps : ∀ {leave words}, InBlock built stack leave words →
      directive? words (dropBlanks line) = none →
      ∃ result, highlightLine built line stack = .ok result ∧ result.endStack = stack := by
    intro leave words hblock hnone
    have hquiet : ∀ rule own, (rule, own) ∈ directives leave words →
        directive? own (dropBlanks line) = none := by
      intro rule own hmember
      simp only [directives, List.mem_cons, List.not_mem_nil, or_false, Prod.mk.injEq] at hmember
      rcases hmember with ⟨-, rfl⟩ | ⟨-, rfl⟩
      · simpa [opens] using hopens
      · exact hnone
    exact exists_highlightLine_quiet hbuild hblock.within (.refl (Scan.start line stack)) hblock
      rfl (.inr hquiet)
  cases nested with
  | zero =>
    exact hkeeps (inBlock_outscoped hbuild h) (by simpa [leaves] using hstays)
  | succ nested =>
    exact hkeeps (inBlock_nested hbuild h) (by simpa [closes] using hstays)

/-- A line that begins with a directive of the block itself leaves the block at the end of that
directive. -/
theorem exists_reaches_normal (h : built.names stack = blockNames 0) {line taken rest : List Char}
    (hleaves : directive? leaving (dropBlanks line) = some (taken, rest)) :
    ∃ count behind,
      Scan.Reaches built (leadingBlanks line) count (Scan.start line stack) behind ∧
      behind.stack = stack.pop ∧ built.names behind.stack = [some "Normal"] ∧
      behind.rest = rest ∧ behind.offset = leadingBlanks line + byteLength taken := by
  obtain ⟨count, behind, captures, hreaches, hbehind, hrest, hoffset, -⟩ :=
    exists_reaches_directive_of_start hbuild (List.mem_cons_of_mem _ (List.mem_cons_self ..))
      hleaves (inBlock_outscoped hbuild h)
  have hstack : behind.stack = stack.pop := hbehind.trans (Switch.apply_pop stack captures)
  refine ⟨count, behind, hreaches, hstack, ?_, hrest, hoffset⟩
  have hplaces : stack.pop.frames.map Frame.context = [0] :=
    (@Stack.current_of_frames stack [0] 7 ((names_iff_places hbuild).1 h)).2 (by simp)
  rw [hstack, GrammarDef.names_eq hbuild, hplaces]
  rfl

end

/-! ## Documents -/

/-- Lines in a block whose conditions are all complete.  Directives of the block itself are not
among them, but where they are enclosed in a condition, its `#else` and `#elif` are. -/
inductive Balanced : (enclosed : Bool) → List (List Char) → Prop
  | nil {enclosed : Bool} : Balanced enclosed []
  | other {enclosed : Bool} {line : List Char} {lines : List (List Char)}
      (opens_eq : opens line = false)
      (stays : (if enclosed then closes line else leaves line) = false)
      (rest : Balanced enclosed lines) : Balanced enclosed (line :: lines)
  | condition {enclosed : Bool} {first last : List Char} {inner rest : List (List Char)}
      (opens_eq : opens first = true) (inside : Balanced true inner) (closes_eq : closes last = true)
      (behind : Balanced enclosed rest) : Balanced enclosed (first :: (inner ++ last :: rest))

/-- Balanced lines do not leave the contexts that they start in, and end with the same stack. -/
theorem Balanced.exists_entries {built : Grammar} (hbuild : grammar.build.result = .ok built)
    {enclosed : Bool} {lines : List (List Char)} (h : Balanced enclosed lines) {nested : Nat}
    {stack : Stack} (hnames : built.names stack = blockNames nested)
    (henclosed : enclosed = decide (0 < nested)) :
    ∃ entries, highlightDocument built stack lines = .ok entries ∧
      (∀ entry ∈ entries, ∃ depth, nested ≤ depth ∧
        built.names entry.endStack = blockNames depth) ∧
      stackAfter stack entries = stack := by
  induction h generalizing nested stack with
  | nil =>
    refine ⟨[], rfl, ?_, rfl⟩
    intro entry hentry
    cases hentry
  | @other enclosed line lines opens_eq stays rest ih =>
    have hstays : (if nested = 0 then leaves line else closes line) = false := by
      rw [henclosed] at stays
      cases nested <;> exact stays
    obtain ⟨result, hresult, hend⟩ := exists_highlightLine_other hbuild hnames opens_eq hstays
    obtain ⟨entries, hentries, hblock, hafter⟩ := ih hnames henclosed
    refine ⟨result.entry :: entries, highlightDocument_cons hresult (by rwa [hend]), ?_, ?_⟩
    · rintro entry (_ | ⟨_, hentry⟩)
      · exact ⟨nested, Nat.le_refl _, (congrArg built.names hend).trans hnames⟩
      · exact hblock entry hentry
    · exact (congrArg (stackAfter · entries) hend).trans hafter
  | @condition enclosed first last inner rest opens_eq inside closes_eq behind ihInside ihBehind =>
    have hpushed := names_push hbuild hnames
    obtain ⟨opened, hopened, hopenedEnd⟩ := exists_highlightLine_opens hbuild hnames opens_eq
    obtain ⟨entries, hentries, hblock, hafter⟩ := ihInside hpushed (by simp)
    obtain ⟨closed, hclosed, hclosedEnd⟩ := exists_highlightLine_closes hbuild hpushed closes_eq
    rw [Stack.pop_push] at hclosedEnd
    obtain ⟨later, hlater, hlaterBlock, hlaterAfter⟩ := ihBehind hnames henclosed
    have hbehind : highlightDocument built (stack.push 8 none) (last :: rest) =
        .ok (closed.entry :: later) :=
      highlightDocument_cons hclosed (by rwa [hclosedEnd])
    have hinner : highlightDocument built opened.endStack (inner ++ last :: rest) =
        .ok (entries ++ closed.entry :: later) := by
      rw [hopenedEnd]
      exact highlightDocument_append hentries (by rwa [hafter])
    refine ⟨_, highlightDocument_cons hopened hinner, ?_, ?_⟩
    · intro entry hentry
      simp only [List.mem_cons, List.mem_append] at hentry
      rcases hentry with rfl | hentry | rfl | hentry
      · exact ⟨nested + 1, by omega, (congrArg built.names hopenedEnd).trans hpushed⟩
      · obtain ⟨depth, hdepth, hnested⟩ := hblock entry hentry
        exact ⟨depth, by omega, hnested⟩
      · exact ⟨nested, Nat.le_refl _, (congrArg built.names hclosedEnd).trans hnames⟩
      · exact hlaterBlock entry hentry
    · rw [stackAfter_cons, stackAfter_append, stackAfter_cons,
        show closed.entry.endStack = stack from hclosedEnd, hlaterAfter]

/-- In a block that a condition leaves out, each line counts the conditions that are open.  A line
that opens one nests it, one that closes a nested one leaves that, and of the other lines only a
directive of the block itself does anything: it leaves the block, and the rest of its line is
code.  Balanced lines do not leave the block. -/
theorem outscoped_tracks_nesting :
    ∃ built, grammar.build.result = .ok built ∧
      (∀ (nested : Nat) (stack : Stack) (line : List Char),
        built.names stack = blockNames nested →
        ∃ result, highlightLine built line stack = .ok result ∧
          (opens line = true → built.names result.endStack = blockNames (nested + 1) ∧
            result.endStack.pop = stack) ∧
          (0 < nested → closes line = true →
            built.names result.endStack = blockNames (nested - 1) ∧
              result.endStack = stack.pop) ∧
          (0 < nested → opens line = false → closes line = false → result.endStack = stack) ∧
          (nested = 0 → opens line = false → leaves line = false → result.endStack = stack) ∧
          (nested = 0 → ∀ directive rest,
            directive? leaving (dropBlanks line) = some (directive, rest) →
              ∃ count behind,
                Scan.Reaches built (leadingBlanks line) count (Scan.start line stack) behind ∧
                behind.stack = stack.pop ∧ built.names behind.stack = [some "Normal"] ∧
                behind.rest = rest ∧
                behind.offset = leadingBlanks line + byteLength directive)) ∧
      ∀ (nested : Nat) (stack : Stack) (lines : List (List Char)),
        built.names stack = blockNames nested → Balanced (decide (0 < nested)) lines →
        ∃ entries, highlightDocument built stack lines = .ok entries ∧
          (∀ entry ∈ entries, ∃ depth, nested ≤ depth ∧
            built.names entry.endStack = blockNames depth) ∧
          stackAfter stack entries = stack := by
  obtain ⟨built, hbuild⟩ := exists_build
  have hresolved : built.Resolved := Grammar.Built.resolved ⟨_, hbuild⟩
  refine ⟨built, hbuild, ?_, fun nested stack lines hnames hbalanced =>
    hbalanced.exists_entries hbuild hnames rfl⟩
  intro nested stack line hnames
  obtain ⟨result, -, -, hresult, -⟩ :=
    exists_highlightLine hresolved line (within_of_names hbuild hnames)
  have heq : ∀ {next : Stack}, (∃ other, highlightLine built line stack = .ok other ∧
      other.endStack = next) → result.endStack = next := by
    rintro next ⟨other, hother, rfl⟩
    rw [hresult] at hother
    cases hother
    rfl
  refine ⟨result, hresult, ?_, ?_, ?_, ?_, ?_⟩
  · intro hopens
    rw [heq (exists_highlightLine_opens hbuild hnames hopens)]
    exact ⟨names_push hbuild hnames, Stack.pop_push ..⟩
  · intro hpos hcloses
    obtain ⟨more, rfl⟩ : ∃ more, nested = more + 1 := ⟨nested - 1, by omega⟩
    rw [heq (exists_highlightLine_closes hbuild hnames hcloses)]
    exact ⟨names_pop hbuild hnames, rfl⟩
  · intro hpos hopens hcloses
    exact heq (exists_highlightLine_other hbuild hnames hopens
      (by rw [if_neg (by omega), hcloses]))
  · rintro rfl hopens hleaves
    exact heq (exists_highlightLine_other hbuild hnames hopens hleaves)
  · rintro rfl directive rest hdirective
    exact exists_reaches_normal hbuild hnames hdirective

/-- The stack behind `#if 0`. -/
def outscopedStack : Stack :=
  (Stack.single 0).push 7 none

/-- A condition with an `#else` inside the block, and the `#else` of the block itself. -/
theorem outscoped_tracks_nesting_else :
    ∃ built, grammar.build.result = .ok built ∧
      built.names outscopedStack = blockNames 0 ∧
      (∃ result, highlightLine built "#if A".toList outscopedStack = .ok result ∧
        built.names result.endStack = blockNames 1) ∧
      (∃ result, highlightLine built " # endif".toList (outscopedStack.push 8 none) =
          .ok result ∧ result.endStack = outscopedStack) ∧
      (∃ count behind, Scan.Reaches built (leadingBlanks "#else y".toList) count
          (Scan.start "#else y".toList outscopedStack) behind ∧
        built.names behind.stack = [some "Normal"] ∧ behind.rest = [' ', 'y']) ∧
      ∃ entries, highlightDocument built outscopedStack
          ["#if A".toList, "#else".toList, "x".toList, "#endif".toList] = .ok entries ∧
        stackAfter outscopedStack entries = outscopedStack := by
  obtain ⟨built, hbuild, hline, hdocument⟩ := outscoped_tracks_nesting
  have hnames : built.names outscopedStack = blockNames 0 := (names_iff_places hbuild).2 rfl
  obtain ⟨opened, hopened, hopens, -⟩ := hline 0 outscopedStack "#if A".toList hnames
  obtain ⟨closed, hclosed, -, hcloses, -⟩ :=
    hline 1 (outscopedStack.push 8 none) " # endif".toList (names_push hbuild hnames)
  obtain ⟨left, hleft, -, -, -, -, hleaves⟩ := hline 0 outscopedStack "#else y".toList hnames
  obtain ⟨count, behind, hreaches, -, hnormal, hrest, -⟩ :=
    hleaves rfl "#else".toList [' ', 'y'] (by decide)
  have hinside : Balanced true ["#else".toList, "x".toList] :=
    .other (by decide) (by decide) (.other (by decide) (by decide) .nil)
  have hbalanced : Balanced (decide (0 < 0))
      ("#if A".toList :: (["#else".toList, "x".toList] ++ ["#endif".toList])) :=
    .condition (by decide) hinside (by decide) .nil
  obtain ⟨entries, hentries, -, hafter⟩ := hdocument 0 outscopedStack _ hnames hbalanced
  exact ⟨built, hbuild, hnames, ⟨opened, hopened, (hopens (by decide)).1⟩,
    ⟨closed, hclosed, (hcloses (by decide) (by decide)).2⟩,
    ⟨count, behind, hreaches, hnormal, hrest⟩, entries, hentries, hafter⟩

end Highlight.Language.C
