import Highlight.Proofs.HereDocuments
import Highlight.Proofs.LayeredContexts
import Highlight.Proofs.StrictAttributes
import Highlight.Workspace
import Mathlib.Data.List.Nodup

/-!
# Lines of the languages of this library

C, Python and Bash are layered, so what holds along the lines of layered contexts holds of them.

* Building.  A description is resolved and checked in one evaluation (`GrammarDef.exists_layered`);
  `exists_standard_layered` does that for the three languages.
* The ends of lines.  A context that is written to be popped at the end of a line is gone in the
  next one, and the others stay (`singleLine_contexts_end`).
* Notices.  The only patterns that are compiled while a line is scanned are the terminators of here
  documents, which are refused for their size alone, so that nothing else is noted
  (`standardLanguages_calm`).
-/

namespace Highlight

/-! ## Building -/

namespace GrammarDef

/-- A frame of a context that is written to be popped at the end of a line. -/
def endsWithLine (description : GrammarDef) (frame : Frame) : Bool :=
  description.contexts[frame.context]?.any fun written => written.lineEnd == "#pop"

/-- The names of the contexts that are written so. -/
def singleLineNames (description : GrammarDef) : List String :=
  (description.contexts.filter fun written => written.lineEnd == "#pop").map ContextDef.name

example : Language.C.grammar.singleLineNames =
    ["String", "Line Comment", "Preprocessor", "Preprocessor Comment"] := by decide

example : Language.Python.grammar.singleLineNames =
    ["Definition", "Comment", "Single A-string", "Single Q-string"] := by decide

example : Language.Bash.grammar.singleLineNames =
    ["Comment", "Variable Name", "Variable Brace"] := by decide

/-- Whether the contexts that a description resolves to pass a test. -/
def resolvesTo (description : GrammarDef) (p : List Context → Bool) : Bool :=
  match description.styles.result with
  | .error _ => false
  | .ok styles =>
    match (Reported.each (description.resolver styles).context description.contexts).result with
    | .error _ => false
    | .ok contexts => p contexts

theorem exists_of_resolvesTo {description : GrammarDef} {p : List Context → Bool}
    (h : description.resolvesTo p = true) :
    ∃ styles contexts, description.styles.result = .ok styles ∧
      (Reported.each (description.resolver styles).context description.contexts).result =
        .ok contexts ∧ p contexts = true := by
  unfold resolvesTo at h
  split at h
  · cases h
  · next styles hstyles =>
    split at h
    · cases h
    · next contexts hcontexts => exact ⟨styles, contexts, hstyles, hcontexts, h⟩

/-- Whether every inclusion leads to a context of lower rank. -/
def ranked (rank : Nat → Nat) (contexts : List Context) : Bool :=
  (List.range contexts.length).all fun source =>
    ((includeGraph contexts).targets source).all fun target => rank target < rank source

/-- Whether contexts are layered, with those that end with their line where these are written. -/
def layered (description : GrammarDef) (patterns : List RegexRule) (contexts : List Context) :
    Bool :=
  decide (Layered patterns contexts) &&
    contexts.map Context.isSingleLine ==
      description.contexts.map fun written => written.lineEnd == "#pop"

/-- What resolves strictly to layered contexts without a circle of inclusions builds to these
contexts either way. -/
theorem exists_layered {description : GrammarDef} {patterns : List RegexRule} (rank : Nat → Nat)
    (hnames : description.contexts.isEmpty = false ∧
      firstDuplicate? [] (description.contexts.map ContextDef.name) = none)
    (hresolves : description.strictly.resolvesTo (fun contexts =>
      ranked rank contexts && description.layered patterns contexts) = true) :
    ∃ grammar, (∀ strict, { description with strict }.build.result = .ok grammar) ∧
      Layered patterns grammar.contexts ∧
      ∀ frame : Frame, frame.isSingleLine grammar.contexts = description.endsWithLine frame := by
  obtain ⟨styles, contexts, hstyles, hcontexts, htests⟩ := exists_of_resolvesTo hresolves
  obtain ⟨hranked, hlayered⟩ := (Bool.and_eq_true _ _).mp htests
  have hacyclic : (includeGraph contexts).firstCycle? = none := by
    simp only [ranked, List.all_eq_true, List.mem_range, decide_eq_true_eq] at hranked
    exact Graph.firstCycle?_of_ranked rank hranked
  have hdeclared : description.strictly.contexts ≠ [] := List.isEmpty_eq_false_iff.1 hnames.1
  obtain ⟨grammar, hbuild, rfl, -⟩ :=
    exists_build_of_acyclic hdeclared hnames.2 hstyles hcontexts hacyclic
  simp only [layered, Bool.and_eq_true, decide_eq_true_eq, beq_iff_eq] at hlayered
  obtain ⟨hlayered, hflags⟩ := hlayered
  refine ⟨grammar, build_of_strictly hbuild, hlayered, fun frame => ?_⟩
  have hflag := congrArg (fun flags => flags[frame.context]?.any id) hflags
  simp only [List.getElem?_map, Option.any_map] at hflag
  exact hflag

end GrammarDef

/-- The patterns of a language that are filled in where they are tried. -/
def dynamicPatterns (description : GrammarDef) : List RegexRule :=
  if description.name = "Bash" then [Language.Bash.terminatorPattern] else []

/-- The languages of this library are layered, and only Bash has a pattern with placeholders. -/
theorem exists_standard_layered {description : GrammarDef}
    (h : description ∈ standardLanguages) :
    ∃ grammar, (∀ strict, { description with strict }.build.result = .ok grammar) ∧
      Layered (dynamicPatterns description) grammar.contexts ∧
      ∀ frame : Frame, frame.isSingleLine grammar.contexts = description.endsWithLine frame := by
  simp only [standardLanguages, List.mem_cons, List.not_mem_nil, or_false] at h
  rcases h with rfl | rfl | rfl
  -- The comments of C include the context at place 2, which includes none.
  · exact GrammarDef.exists_layered (fun place => if place = 2 then 0 else 1) (by decide)
      (by decide +kernel)
  · exact GrammarDef.exists_layered (fun _ => 0) (by decide) (by decide +kernel)
  · exact GrammarDef.exists_layered (fun _ => 0) (by decide) (by decide +kernel)

/-! ## The ends of lines -/

/-- A stack without frames of contexts that end with their line does not have their names. -/
theorem GrammarDef.not_mem_names {description : GrammarDef} {grammar : Grammar}
    (hbuild : description.build.result = .ok grammar) {stack : Stack}
    (hstack : ∀ frame ∈ stack.frames, description.endsWithLine frame = false) :
    ∀ name ∈ description.singleLineNames, some name ∉ grammar.names stack := by
  have hdistinct := (GrammarDef.grammar_resolves hbuild).distinct
  rw [(declared_of_build hbuild).1] at hdistinct
  intro name hname hmem
  obtain ⟨single, hsingle, rfl⟩ := List.mem_map.1 hname
  obtain ⟨hsingle, hends⟩ := List.mem_filter.1 hsingle
  rw [names_eq hbuild, List.map_map] at hmem
  obtain ⟨frame, hframe, hat⟩ := List.mem_map.1 hmem
  simp only [Function.comp_apply, List.getElem?_map, Option.map_eq_some_iff] at hat
  obtain ⟨written, hwritten, hsame⟩ := hat
  obtain rfl : written = single :=
    List.inj_on_of_nodup_map hdistinct (List.mem_of_getElem? hwritten) hsingle hsame
  have hplain := hstack frame hframe
  rw [endsWithLine, hwritten, Option.any_some, hends] at hplain
  cases hplain

/-- What ends with its line does not go into the next one.  At any line of a document in a language
of this library, the contexts that are written to be popped at the end of a line leave the stack,
wherever they are on it, and all others stay in their order, unless the line is continued. -/
theorem singleLine_contexts_end (description : GrammarDef)
    (hstandard : description ∈ standardLanguages) :
    ∃ grammar, (∀ strict, { description with strict }.build.result = .ok grammar) ∧
      ∀ (before : List (List Char)) (line : List Char), ∃ entries result count last,
        highlightDocument grammar Grammar.initialStack before = .ok entries ∧
        highlightLine grammar line (stackAfter Grammar.initialStack entries) = .ok result ∧
        highlightDocument grammar Grammar.initialStack (before ++ [line]) =
          .ok (entries ++ [result.entry]) ∧
        Scan.Reaches grammar (leadingBlanks line) count
          (Scan.start line (stackAfter Grammar.initialStack entries)) last ∧
        last.rest = [] ∧
        if result.lineContinue then result.endStack = last.stack
        else
          (∀ frame ∈ result.endStack.frames, description.endsWithLine frame = false) ∧
          (∀ name ∈ description.singleLineNames, some name ∉ grammar.names result.endStack) ∧
          result.endStack.frames =
            last.stack.frames.filter fun frame => !description.endsWithLine frame := by
  obtain ⟨grammar, hbuild, hlayered, hwritten⟩ := exists_standard_layered hstandard
  have hresolved : grammar.Resolved := Grammar.Built.resolved ⟨_, hbuild false⟩
  refine ⟨grammar, hbuild, fun before line => ?_⟩
  obtain ⟨entries, result, last, settled, hentries, hresult, hdocument, -, hcalm⟩ :=
    hlayered.exists_line hresolved before line
  obtain ⟨count, hreaches⟩ := hcalm.reaches
  refine ⟨entries, result, count, last, hentries, hresult, hdocument, hreaches, hcalm.rest, ?_⟩
  have hend := hcalm.endStack
  split
  · next hcontinued =>
    rw [if_pos hcontinued] at hend
    exact hend
  · next hended =>
    rw [if_neg hended] at hend
    have hframes : result.endStack.frames =
        last.stack.frames.filter fun frame => !description.endsWithLine frame := by
      rw [hend, hcalm.frames]
      simp only [hwritten]
    have hplain : ∀ frame ∈ result.endStack.frames, description.endsWithLine frame = false := by
      intro frame hframe
      rw [hframes] at hframe
      simpa using (List.mem_filter.1 hframe).2
    exact ⟨hplain, GrammarDef.not_mem_names (hbuild description.strict) hplain, hframes⟩

/-- A string of C that its line leaves open. -/
theorem singleLine_contexts_end_openString :
    ∃ grammar, Language.C.grammar.build.result = .ok grammar ∧
      ∃ result, highlightLine grammar ['"', 'a'] Grammar.initialStack = .ok result ∧
        (result.lineContinue = false → some "String" ∉ grammar.names result.endStack) := by
  obtain ⟨grammar, hbuild, hlines⟩ :=
    singleLine_contexts_end Language.C.grammar (by simp [standardLanguages])
  obtain ⟨entries, result, count, last, hentries, hresult, -, -, -, hend⟩ := hlines [] ['"', 'a']
  cases hentries
  refine ⟨grammar, hbuild false, result, hresult, fun hended => ?_⟩
  rw [hended, if_neg Bool.false_ne_true] at hend
  exact hend.2.1 "String" (by decide)

/-! ## Notices -/

/-- A terminator is refused for its size alone. -/
theorem Language.Bash.exists_of_refused {lines : List (List Char)} {notice : Notice}
    (hlines : lines ≠ []) (h : Refused [terminatorPattern] lines notice) :
    ∃ text, (∃ line ∈ lines, text <:+: line) ∧ longestTerminator < byteLength text ∧
      notice = .brokenPattern (Regex.escape text ++ ['$']) ∧
      Regex.compile (Regex.escape text ++ ['$']) false false = .error .tooBig := by
  obtain ⟨regex, hregex, place, hcaptured, pattern, hrefused, rfl⟩ := h
  obtain rfl : regex = terminatorPattern := List.mem_singleton.1 hregex
  rw [regexAt_terminatorPattern rfl] at hrefused
  split at hrefused
  · next hlong =>
    cases hrefused
    refine ⟨place.capture 1, hcaptured.exists_line hlines 1, hlong, rfl, ?_⟩
    rw [Regex.compile_escape_end, if_pos]
    simp only [longestTerminator, Regex.roomLimit] at hlong ⊢
    omega
  · cases hrefused

/-- A document in a language of this library trips none of the nets that hold a line in other
languages.  At any of its lines there is one switch without text at most at each offset, the
switches for the end of the line settle after two of them, and nothing is noted but that a
terminator of Bash is too long for the engine that compiles patterns.  A terminator is a piece of a
line, so in short lines nothing is noted at all. -/
theorem standardLanguages_calm (description : GrammarDef)
    (hstandard : description ∈ standardLanguages) :
    ∃ grammar, (∀ strict, { description with strict }.build.result = .ok grammar) ∧
      ∀ (before : List (List Char)) (line : List Char), ∃ entries result count last settled,
        highlightDocument grammar Grammar.initialStack before = .ok entries ∧
        highlightLine grammar line (stackAfter Grammar.initialStack entries) = .ok result ∧
        highlightDocument grammar Grammar.initialStack (before ++ [line]) =
          .ok (entries ++ [result.entry]) ∧
        Scan.Reaches grammar (leadingBlanks line) count
          (Scan.start line (stackAfter Grammar.initialStack entries)) last ∧
        last.rest = [] ∧
        (∀ steps scan between later,
          Scan.Reaches grammar (leadingBlanks line) steps
            (Scan.start line (stackAfter Grammar.initialStack entries)) scan →
          Scan.Reaches grammar (leadingBlanks line) between scan later →
          later.offset = scan.offset → between ≤ 1) ∧
        (∀ limit, 2 < limit → settleLineEnd grammar limit last.stack = .ok (settled, [])) ∧
        (∀ notice ∈ result.notices, description.name = "Bash" ∧
          ∃ text, (∃ other ∈ before ++ [line], text <:+: other) ∧
            notice = .brokenPattern (Regex.escape text ++ ['$']) ∧
            Regex.compile (Regex.escape text ++ ['$']) false false = .error .tooBig) ∧
        ((∀ other ∈ before ++ [line], byteLength other ≤ Language.Bash.longestTerminator) →
          result.notices = []) := by
  obtain ⟨grammar, hbuild, hlayered, -⟩ := exists_standard_layered hstandard
  have hresolved : grammar.Resolved := Grammar.Built.resolved ⟨_, hbuild false⟩
  refine ⟨grammar, hbuild, fun before line => ?_⟩
  obtain ⟨entries, result, last, settled, hentries, hresult, hdocument, hstack, hcalm⟩ :=
    hlayered.exists_line hresolved before line
  obtain ⟨count, hreaches⟩ := hcalm.reaches
  have hrefused : ∀ notice ∈ result.notices, description.name = "Bash" ∧
      ∃ text, (∃ other ∈ before ++ [line], text <:+: other) ∧
        Language.Bash.longestTerminator < byteLength text ∧
        notice = .brokenPattern (Regex.escape text ++ ['$']) ∧
        Regex.compile (Regex.escape text ++ ['$']) false false = .error .tooBig := by
    intro notice hnotice
    rw [hcalm.notices, List.mem_reverse] at hnotice
    have hnoted := (hcalm.orderly count last hreaches).notices notice hnotice
    unfold dynamicPatterns at hnoted
    split at hnoted
    · next hbash => exact ⟨hbash, Language.Bash.exists_of_refused (by simp) hnoted⟩
    · obtain ⟨regex, hregex, -⟩ := hnoted
      cases hregex
  refine ⟨entries, result, count, last, settled, hentries, hresult, hdocument, hreaches, hcalm.rest,
    ?_, hcalm.settles, ?_, ?_⟩
  · intro steps scan between later hscan hlater hsame
    exact hcalm.between_le hresolved hstack hscan hlater hsame
  · intro notice hnotice
    obtain ⟨hbash, text, hpiece, -, htext⟩ := hrefused notice hnotice
    exact ⟨hbash, text, hpiece, htext⟩
  · intro hshort
    refine List.eq_nil_iff_forall_not_mem.2 fun notice hnotice => ?_
    obtain ⟨-, text, ⟨other, hother, hpiece⟩, hlong, -⟩ := hrefused notice hnotice
    obtain ⟨front, back, rfl⟩ := hpiece
    have hbytes := hshort _ hother
    rw [byteLength_append, byteLength_append] at hbytes
    omega

/-- A here document of Bash with a variable in it. -/
theorem standardLanguages_calm_hereDocument :
    ∃ grammar, Language.Bash.grammar.build.result = .ok grammar ∧
      ∃ entries result,
        highlightDocument grammar Grammar.initialStack ["cat <<EOF".toList, "a $x".toList] =
          .ok entries ∧
        highlightLine grammar "EOF".toList (stackAfter Grammar.initialStack entries) = .ok result ∧
        result.notices = [] := by
  obtain ⟨grammar, hbuild, hlines⟩ :=
    standardLanguages_calm Language.Bash.grammar (by simp [standardLanguages])
  obtain ⟨entries, result, count, last, settled, hentries, hresult, -, -, -, -, -, -, hquiet⟩ :=
    hlines ["cat <<EOF".toList, "a $x".toList] "EOF".toList
  exact ⟨grammar, hbuild false, entries, result, hentries, hresult, hquiet (by decide)⟩

end Highlight
