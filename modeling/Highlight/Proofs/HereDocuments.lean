import Highlight.Language.Bash
import Highlight.Proofs.KnownContexts
import Highlight.Proofs.LiteralPatterns

/-!
# Here documents

A here document of Bash ends at the line that its first captured group says, and at no other.  The
group is put into a pattern that is compiled anew at every line, so that a terminator whose pattern
takes too much room is never found.

* The grammar.  The contexts that a here document can be in, as they are built.
* The terminator.  Its rule finds exactly a line that is the terminator (`found_terminator_iff`).
* Other lines.  Along such a line there is at most one context of a variable above the here document
  (`InDocument`), and the end of the line leaves it.
-/

namespace Highlight

namespace Language.Bash

open Regex

/-! ## The grammar -/

theorem exists_build : ∃ built, grammar.build.result = .ok built :=
  GrammarDef.exists_build_of_ranked (fun _ => 0) (by decide +kernel)

/-- A rule that pops its context. -/
def popping (kind : RuleKind) : Rule :=
  { kind.toRule with
    attributeName := "Variable", style := DefaultStyle.variable.styleFor "Variable"
    switch := ⟨1, none⟩ }

/-- The pattern of the line that ends a here document, without the anchor that it starts with. -/
def terminatorPattern : RegexRule :=
  ⟨['%', '1', '$'], none, false, false, false, true⟩

/-- The rule for that line. -/
def terminator : Rule :=
  { RuleKind.toRule (.regex terminatorPattern) with
    attributeName := "Redirection", style := DefaultStyle.operator.styleFor "Redirection"
    switch := ⟨1, none⟩, dynamic := true }

/-- The rule for a variable in braces. -/
def braceStart : Rule :=
  { RuleKind.toRule (.twoChars '$' '\x7b') with
    attributeName := "Variable", style := DefaultStyle.variable.styleFor "Variable"
    switch := ⟨0, some ⟨5, "Variable Brace", false⟩⟩ }

/-- The rule for a variable by its name. -/
def nameStart : Rule :=
  { RuleKind.toRule (.char (.literal '$')) with
    attributeName := "Variable", style := DefaultStyle.variable.styleFor "Variable"
    switch := ⟨0, some ⟨4, "Variable Name", false⟩⟩ }

def hereDocumentContext : Context :=
  { Context.ofRules "Here Doc" [terminator, braceStart, nameStart] with
    attributeName := "Here Doc", style := DefaultStyle.others.styleFor "Here Doc", dynamic := true }

def variableNameContext : Context :=
  { Context.ofRules "Variable Name"
      [popping .identifier, popping (.anyChar "#?$!@*-0123456789".toList)] with
    attributeName := "Variable", style := DefaultStyle.variable.styleFor "Variable"
    lineEnd := ⟨1, none⟩, fallthrough := ⟨1, none⟩ }

def variableBraceContext : Context :=
  { Context.ofRules "Variable Brace" [popping (.char (.literal '\x7d'))] with
    attributeName := "Variable", style := DefaultStyle.variable.styleFor "Variable"
    lineEnd := ⟨1, none⟩ }

section

variable {built : Grammar} (hbuild : grammar.build.result = .ok built)

include hbuild

theorem context_variableName : built.contexts[4]? = some variableNameContext :=
  GrammarDef.context_of_build hbuild rfl rfl rfl

theorem context_variableBrace : built.contexts[5]? = some variableBraceContext :=
  GrammarDef.context_of_build hbuild rfl rfl rfl

theorem context_hereDocument : built.contexts[6]? = some hereDocumentContext :=
  GrammarDef.context_of_build hbuild rfl rfl rfl

theorem exists_context_start : ∃ context, built.contexts[0]? = some context ∧
    context.lineEnd.isStay = true ∧ context.lineBegin.isStay = true :=
  GrammarDef.exists_staying_context hbuild rfl rfl rfl

end

/-! ## The terminator -/

/-- The bytes of the longest terminator whose pattern compiles.  There is a state for each of them,
one for each of the conditions on both sides, and those around every pattern. -/
def longestTerminator : Nat :=
  roomLimit / 32 - 6

section

variable {cursor : Cursor} {text : List Char} (hcapture : cursor.capture 1 = text)

include hcapture

/-- The pattern is the text of the group, unless that is too long. -/
theorem regexAt_terminatorPattern : terminatorPattern.regexAt cursor =
    if longestTerminator < byteLength text then .error (escape text ++ ['$'])
    else .ok ⟨.seq (.look .textStart) (.wholeText text), 1⟩ := by
  have hfill : fillIn (fun index => escape (cursor.capture index)) ['%', '1', '$'] =
      escape text ++ ['$'] := by
    rw [← hcapture]
    rfl
  have hroom : roomLimit < 32 * byteLength text + 192 ↔ longestTerminator < byteLength text := by
    simp only [longestTerminator, roomLimit]
    omega
  simp only [RegexRule.regexAt, terminatorPattern, hfill, compile_escape_end]
  by_cases hlong : longestTerminator < byteLength text
  · rw [if_pos (hroom.2 hlong), if_pos hlong]
  · rw [if_neg (mt hroom.1 hlong), if_neg hlong]

/-- The rule finds a line that is the terminator as a whole, if it is not too long. -/
theorem found_terminator_iff (htext : text ≠ []) (length : Nat) :
    (∃ attempt captures, terminator.detect cursor = .ok attempt ∧
        attempt.found = some (length, captures)) ↔
      cursor.offset = 0 ∧ cursor.rest = text ∧ byteLength text ≤ longestTerminator ∧
        length = byteLength text := by
  have hregex := regexAt_terminatorPattern hcapture
  have hdetect : terminator.detect cursor =
      .ok (if cursor.rest.isEmpty then {} else terminatorPattern.find cursor false) := rfl
  simp only [hdetect, Except.ok.injEq, exists_and_left, exists_eq_left']
  by_cases hrest : cursor.rest = []
  · rw [if_pos (List.isEmpty_iff.2 hrest), hrest]
    constructor
    · rintro ⟨captures, hfound⟩
      cases hfound
    · rintro ⟨-, rfl, -⟩
      exact absurd rfl htext
  rw [if_neg (by simpa using hrest)]
  by_cases hlong : longestTerminator < byteLength text
  · rw [if_pos hlong] at hregex
    have hnone : (terminatorPattern.find cursor false).found = none := by
      unfold RegexRule.find
      split
      · rw [hregex]
      · rfl
    rw [hnone]
    constructor
    · rintro ⟨captures, hfound⟩
      cases hfound
    · rintro ⟨-, -, hshort, -⟩
      omega
  · rw [if_neg hlong] at hregex
    have hunique : ∀ first second left right, cursor.rest = first ++ left →
        cursor.rest = second ++ right → (Pattern.wholeText text).Takes none first left →
        (Pattern.wholeText text).Takes none second right → first = second := by
      intro first second left right _ _ hfirst hsecond
      rw [(takes_wholeText_iff.1 hfirst).1, (takes_wholeText_iff.1 hsecond).1]
    rw [RegexRule.exists_found_iff_takes hregex rfl hunique]
    have hanchors : terminatorPattern.anchorsHold cursor = true ↔ cursor.offset = 0 := by
      simp [RegexRule.anchorsHold, terminatorPattern, Cursor.lineStart]
    rw [hanchors]
    refine and_congr_right fun _ => ?_
    simp only [takes_wholeText_iff]
    constructor
    · rintro ⟨-, taken, rest, hsplit, hlength, rfl, rfl⟩
      rw [List.append_nil] at hsplit
      exact ⟨hsplit, by omega, hlength.symm⟩
    · rintro ⟨hsame, -, rfl⟩
      have hpos : byteLength text ≠ 0 := by simpa using htext
      exact ⟨by omega, text, [], by simpa using hsame, rfl, rfl, rfl⟩

end

/-! ## Other lines -/

/-- The stacks along a line of a here document: that of the document itself, and those with the
context of a variable above it. -/
inductive InDocument (stack : Stack) : Stack → Prop
  | text : InDocument stack stack
  | name : InDocument stack (stack.push 4 none)
  | brace : InDocument stack (stack.push 5 none)

section

variable {built : Grammar} (hbuild : grammar.build.result = .ok built) {stack : Stack}
  (hcurrent : stack.current = 6)

include hbuild hcurrent

/-- A step where the terminator is not found keeps to these stacks. -/
theorem InDocument.follows {scan next : Scan} {leading : Nat} {context : Context} {trial : Trial}
    (hcontext : built.contexts[scan.stack.current]? = some context)
    (htrial : built.tryRules context.rules (scan.cursor built leading) = .ok trial)
    (hfollows : scan.Follows context trial.found next)
    (hmisses : scan.stack = stack → ¬∃ length attempt captures,
      terminator.detect (scan.cursor built leading) = .ok attempt ∧
        attempt.found = some (length, captures))
    (hin : InDocument stack scan.stack) (hended : scan.lineContinue = false) :
    InDocument stack next.stack ∧ next.lineContinue = false := by
  have hresolved : built.Resolved := Grammar.Built.resolved ⟨_, hbuild⟩
  have hleads := fun hsimple => hfollows.leads hresolved hcontext hsimple htrial hended
  generalize scan.stack = current at *
  generalize next.stack = reached at *
  cases hin with
  | text =>
    rw [hcurrent, context_hereDocument hbuild] at hcontext
    cases hcontext
    obtain ⟨hleads, hline⟩ := hleads rfl
    refine ⟨?_, hline⟩
    cases hleads with
    | matched member detect found =>
      simp only [hereDocumentContext, Context.ofRules, List.mem_cons, List.not_mem_nil,
        or_false] at member
      rcases member with rfl | rfl | rfl
      · exact absurd ⟨_, _, _, detect, found⟩ (hmisses rfl)
      · exact .brace
      · exact .name
    | fallThrough => exact .text
    | stay => exact .text
  | name =>
    rw [show (stack.push 4 none).current = 4 from rfl, context_variableName hbuild] at hcontext
    cases hcontext
    obtain ⟨hleads, hline⟩ := hleads rfl
    refine ⟨?_, hline⟩
    rcases hleads.eq_of_popping (by decide) (.inl rfl) with rfl | rfl
    · exact .text
    · exact .name
  | brace =>
    rw [show (stack.push 5 none).current = 5 from rfl, context_variableBrace hbuild] at hcontext
    cases hcontext
    obtain ⟨hleads, hline⟩ := hleads rfl
    refine ⟨?_, hline⟩
    rcases hleads.eq_of_popping (by decide) (.inr rfl) with rfl | rfl
    · exact .text
    · exact .brace

/-- At the end of the line the here document is reached again. -/
theorem InDocument.nextLineStack_eq {last : Stack} (h : InDocument stack last) :
    ∃ notices, nextLineStack built last = .ok (stack, notices) := by
  have hdocument : built.contexts[stack.current]? = some hereDocumentContext := by
    rw [hcurrent, context_hereDocument hbuild]
  have hgrown : ∀ place data, stack ≠ stack.push place data := by
    intro place data hsame
    have hdepth : stack.depth = stack.depth + 1 := congrArg Stack.depth hsame
    omega
  cases h with
  | text => exact ⟨_, nextLineStack_of_stay hdocument rfl rfl⟩
  | name =>
    exact ⟨_, nextLineStack_of_leave (context_variableName hbuild)
      (Switch.apply_pop _ none) (hgrown 4 none) hdocument rfl rfl⟩
  | brace =>
    exact ⟨_, nextLineStack_of_leave (context_variableBrace hbuild)
      (Switch.apply_pop _ none) (hgrown 5 none) hdocument rfl rfl⟩

/-- A line that is not the terminator, or any line if that is too long, keeps the stack. -/
theorem exists_highlightLine_keeps (hstack : stack.Within built.contexts.length)
    {captures : Captures} (hdata : stack.currentData = some captures) {text : List Char}
    (hgroup : captures[1]? = some text) (htext : text ≠ []) {line : List Char}
    (hline : line ≠ text ∨ longestTerminator < byteLength text) :
    ∃ result, highlightLine built line stack = .ok result ∧ result.endStack = stack := by
  have hresolved : built.Resolved := Grammar.Built.resolved ⟨_, hbuild⟩
  obtain ⟨result, last, hresult, -, -, ⟨hin, hended⟩, hcloses⟩ :=
    @exists_highlightLine_preserves built hresolved
      (fun scan => InDocument stack scan.stack ∧ scan.lineContinue = false) line stack hstack
      0 (Scan.start line stack) (.refl _) ⟨.text, rfl⟩ (by
        intro scan next context trial hat hrest hcontext htrial hfollows hscan
        refine hscan.1.follows hbuild hcurrent hcontext htrial hfollows ?_ hscan.2
        rintro hsame ⟨length, hfound⟩
        have hcapture : (scan.cursor built (leadingBlanks line)).capture 1 = text := by
          simp [Cursor.capture, Scan.cursor, hsame, hdata, hgroup]
        obtain ⟨hoffset, hrest, hshort, -⟩ :=
          (found_terminator_iff hcapture htext length).1 hfound
        rcases hline with hline | hlong
        · obtain ⟨skipped, hsplit, hskipped, -⟩ := hat
          have hempty : skipped = [] := byteLength_eq_zero_iff.1 (hskipped.trans hoffset)
          rw [hempty] at hsplit
          exact hline (hsplit.trans hrest)
        · omega)
  obtain ⟨notices, hnext⟩ := hin.nextLineStack_eq hbuild hcurrent
  obtain ⟨others, hend⟩ := hcloses.ended hended
  rw [hnext] at hend
  cases hend
  exact ⟨result, hresult, rfl⟩

/-- A line that is the terminator is one span and pops the here document. -/
theorem exists_highlightLine_terminator (hstack : stack.Within built.contexts.length)
    (hbase : stack.pop.current = 0) {captures : Captures}
    (hdata : stack.currentData = some captures) {text : List Char}
    (hgroup : captures[1]? = some text) (htext : text ≠ [])
    (hshort : byteLength text ≤ longestTerminator) :
    ∃ result, highlightLine built text stack = .ok result ∧
      result.spans = [⟨0, byteLength text, DefaultStyle.operator.styleFor "Redirection"⟩] ∧
      result.endStack = stack.pop := by
  have hresolved : built.Resolved := Grammar.Built.resolved ⟨_, hbuild⟩
  have hcapture :
      ((Scan.start text stack).cursor built (leadingBlanks text)).capture 1 = text := by
    simp [Cursor.capture, Scan.cursor, Scan.start, hdata, hgroup]
  obtain ⟨attempt, groups, hdetect, hfound⟩ :=
    (found_terminator_iff hcapture htext (byteLength text)).2 ⟨rfl, rfl, hshort, rfl⟩
  have hdocument : built.contexts[stack.current]? = some hereDocumentContext := by
    rw [hcurrent, context_hereDocument hbuild]
  have hfirst : FirstMatch built ((Scan.start text stack).cursor built (leadingBlanks text))
      hereDocumentContext.rules (some (terminator.toMatch (byteLength text) groups)) :=
    .hit (Grammar.tryRule_of_childless rfl rfl rfl hdetect) (by rw [hfound]; rfl)
  obtain ⟨result, notices, hresult, hspans, hnext⟩ :=
    exists_highlightLine_of_whole hresolved hstack hdocument hfirst htext rfl rfl
  obtain ⟨context, hcontext, hend, hbegin⟩ := exists_context_start hbuild
  rw [← hbase] at hcontext
  rw [Rule.nextStack_toMatch, show terminator.switch = ⟨1, none⟩ from rfl, Switch.apply_pop,
    nextLineStack_of_stay hcontext hend hbegin] at hnext
  exact ⟨result, hresult, hspans, (Prod.mk.inj (Except.ok.inj hnext)).1.symm⟩

end

/-- In a here document every line but the terminator, and that too if it is too long, ends with the
stack that it starts with.  The terminator is one span and ends the here document. -/
theorem hereDocument_ends_at_terminator :
    ∃ built, grammar.build.result = .ok built ∧
      ∀ (stack : Stack) (captures : Captures) (text : List Char),
        built.names stack = [some "Start", some "Here Doc"] →
        stack.currentData = some captures → captures[1]? = some text → text ≠ [] →
        ∀ lines : List (List Char),
          (∀ line ∈ lines, line ≠ text ∨ longestTerminator < byteLength text) →
          ∃ entries, highlightDocument built stack lines = .ok entries ∧
            entries.length = lines.length ∧ (∀ entry ∈ entries, entry.endStack = stack) ∧
            (byteLength text ≤ longestTerminator →
              ∃ last, highlightDocument built stack (lines ++ [text]) = .ok (entries ++ [last]) ∧
                last.spans =
                  [⟨0, byteLength text, DefaultStyle.operator.styleFor "Redirection"⟩] ∧
                last.endStack = stack.pop ∧ built.names last.endStack = [some "Start"]) := by
  obtain ⟨built, hbuild⟩ := exists_build
  refine ⟨built, hbuild, ?_⟩
  intro stack captures text hnames hdata hgroup htext lines hlines
  have hplaces : stack.frames.map Frame.context = [0, 6] :=
    GrammarDef.contexts_of_names hbuild (by decide) hnames
  obtain ⟨hcurrent, hpop⟩ := @Stack.current_of_frames stack [0] 6 hplaces
  have hunder : stack.pop.frames.map Frame.context = [0] := hpop (by simp)
  have hlength : built.contexts.length = 7 :=
    (GrammarDef.grammar_resolves hbuild).contexts.length_eq.symm
  have hstack : stack.Within built.contexts.length := by
    apply Stack.within_of_frames
    rw [hplaces, hlength]
    decide
  obtain ⟨entries, hentries, hcount, hkept, hafter⟩ :=
    exists_highlightDocument_keeps fun line hline =>
      exists_highlightLine_keeps hbuild hcurrent hstack hdata hgroup htext (hlines line hline)
  refine ⟨entries, hentries, hcount, hkept, ?_⟩
  intro hshort
  obtain ⟨result, hresult, hspans, hend⟩ := exists_highlightLine_terminator hbuild hcurrent hstack
    (@Stack.current_of_frames stack.pop [] 0 hunder).1 hdata hgroup htext hshort
  have hlast : highlightDocument built (stackAfter stack entries) [text] = .ok [result.entry] := by
    rw [hafter]
    exact highlightDocument_cons hresult rfl
  refine ⟨result.entry, highlightDocument_append hentries hlast, hspans, hend, ?_⟩
  rw [show result.entry.endStack = stack.pop from hend, GrammarDef.names_eq hbuild, hunder]
  rfl

/-- The stack in a here document that some groups began. -/
def opened (captures : Captures) : Stack :=
  (Stack.single 0).push 6 (some captures)

theorem names_opened {built : Grammar} (hbuild : grammar.build.result = .ok built)
    (captures : Captures) :
    built.names (opened captures) = [some "Start", some "Here Doc"] := by
  rw [GrammarDef.names_eq hbuild]
  rfl

/-- Braces that are left open do not hide the end of a here document. -/
theorem hereDocument_ends_at_terminator_openBraces :
    ∃ built, grammar.build.result = .ok built ∧
      built.names (opened [['<', '<', 'E'], ['E']]) = [some "Start", some "Here Doc"] ∧
      ∃ entries last,
        highlightDocument built (opened [['<', '<', 'E'], ['E']])
          [['$', '\x7b'], ['E', '$'], ['E']] = .ok (entries ++ [last]) ∧
        (∀ entry ∈ entries, entry.endStack = opened [['<', '<', 'E'], ['E']]) ∧
        built.names last.endStack = [some "Start"] := by
  obtain ⟨built, hbuild, hends⟩ := hereDocument_ends_at_terminator
  have hnames := names_opened hbuild [['<', '<', 'E'], ['E']]
  obtain ⟨entries, -, -, hkept, hlast⟩ :=
    hends _ [['<', '<', 'E'], ['E']] ['E'] hnames rfl rfl (by simp) [['$', '\x7b'], ['E', '$']]
      (by simp)
  obtain ⟨last, hdocument, -, -, hbase⟩ := hlast (by decide)
  exact ⟨built, hbuild, hnames, entries, last, hdocument, hkept, hbase⟩

/-- A terminator that is too long. -/
def longTerminator : List Char :=
  List.replicate 400000 'a'

/-- The line that is such a terminator does not end its here document. -/
theorem hereDocument_outlasts_longTerminator :
    longTerminator ≠ [] ∧ (opened [[], longTerminator]).currentData = some [[], longTerminator] ∧
      ∃ built, grammar.build.result = .ok built ∧
        built.names (opened [[], longTerminator]) = [some "Start", some "Here Doc"] ∧
        ∃ result,
          highlightLine built longTerminator (opened [[], longTerminator]) = .ok result ∧
          result.endStack = opened [[], longTerminator] ∧
          built.names result.endStack ≠ [some "Start"] := by
  have hne : longTerminator ≠ [] := by
    rw [longTerminator, ne_eq, List.replicate_eq_nil_iff]
    omega
  have hlong : longestTerminator < byteLength longTerminator := by
    have hbytes : byteLength longTerminator = longTerminator.length :=
      byteLength_eq_length fun c hc => by rw [List.eq_of_mem_replicate hc]; rfl
    rw [hbytes, longTerminator, List.length_replicate]
    decide
  obtain ⟨built, hbuild⟩ := exists_build
  have hnames := names_opened hbuild [[], longTerminator]
  have hlength : built.contexts.length = 7 :=
    (GrammarDef.grammar_resolves hbuild).contexts.length_eq.symm
  have hstack : (opened [[], longTerminator]).Within built.contexts.length := by
    rw [hlength]
    exact (Stack.within_single (by omega)).push (by omega) _
  obtain ⟨result, hresult, hend⟩ :=
    @exists_highlightLine_keeps built hbuild _ rfl hstack _ rfl _ rfl hne _ (.inr hlong)
  refine ⟨hne, rfl, built, hbuild, hnames, result, hresult, hend, ?_⟩
  rw [hend, hnames]
  simp

end Language.Bash

end Highlight
