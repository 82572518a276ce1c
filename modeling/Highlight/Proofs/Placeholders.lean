import Highlight.Proofs.CapturedText
import Highlight.Proofs.Provenance
import Highlight.Proofs.WholeWords

/-!
# Placeholders

A dynamic rule looks for a value with placeholders, and finds it with the text in their place that
was captured when its context was entered.

There are four groups.

* Values.  `ValueToken.Reads` says how a value is read from left to right.  There is one reading
  (`ValueToken.exists_unique_reads`), and filling in a value fills in the pieces that are read
  (`fillIn_eq_flatMap`), so that captured text is not read again.
* Rules.  `Rule.exists_length?_of_text` is what a rule for a text takes at any cursor.
* Frames.  A frame stays as it is while no switch reaches it (`Spot.Leads.take_frames`), and every
  frame above the base was pushed on the way (`Spot.Leads.exists_pushed`).
* Documents.  `placeholders_filled_in` puts them together: what a dynamic rule is filled in with are
  the groups of the match that has pushed the frame on top, however long ago.
-/

namespace Highlight

/-! ## Values -/

/-- A piece of a value. -/
inductive ValueToken where
  /-- A percent sign with a digit. -/
  | placeholder (digit : Fin 10)
  | plain (c : Char)
  deriving Repr, DecidableEq

namespace ValueToken

/-- What a piece stands for. -/
def fill (group : Nat → List Char) : ValueToken → List Char
  | placeholder digit => group digit
  | plain c => [c]

/-- A value is read from left to right as pieces.  A percent sign is plain if no digit follows. -/
inductive Reads : List Char → List ValueToken → Prop
  | nil : Reads [] []
  | placeholder {d : Char} {value : List Char} {tokens : List ValueToken} (digit : Fin 10)
      (digit_eq : d = Nat.digitChar digit) (rest : Reads value tokens) :
      Reads ('%' :: d :: value) (.placeholder digit :: tokens)
  | plain {c : Char} {value : List Char} {tokens : List ValueToken}
      (alone : c = '%' → ∀ d ∈ value.head?, d.isDigit = false) (rest : Reads value tokens) :
      Reads (c :: value) (.plain c :: tokens)

theorem isDigit_iff {d : Char} : d.isDigit = true ↔ ∃ digit : Fin 10, d = Nat.digitChar digit := by
  constructor
  · intro h
    obtain ⟨hlow, hhigh⟩ := Char.isDigit_iff_toNat.1 h
    have hlow : 48 ≤ d.toNat := hlow
    have hhigh : d.toNat ≤ 57 := hhigh
    have hdigit : d.toNat - 48 < 10 := by omega
    refine ⟨⟨d.toNat - 48, hdigit⟩, Char.toNat_inj.1 ?_⟩
    rw [Nat.toNat_digitChar_of_lt_ten hdigit, Nat.add_sub_of_le hlow]
  · rintro ⟨digit, rfl⟩
    rw [Nat.isDigit_digitChar, decide_eq_true digit.isLt]

theorem exists_reads (value : List Char) : ∃ tokens, Reads value tokens := by
  induction value using fillIn.induct with
  | case1 d value hdigit ih =>
    obtain ⟨digit, hd⟩ := isDigit_iff.1 hdigit
    obtain ⟨tokens, hreads⟩ := ih
    exact ⟨_, .placeholder digit hd hreads⟩
  | case2 d value hdigit ih =>
    obtain ⟨tokens, hreads⟩ := ih
    refine ⟨_, .plain ?_ hreads⟩
    intro _ other hother
    cases hother
    exact Bool.eq_false_iff.2 hdigit
  | case3 c value hpercent ih =>
    obtain ⟨tokens, hreads⟩ := ih
    refine ⟨_, .plain ?_ hreads⟩
    intro hc d hd
    obtain ⟨more, rfl⟩ := List.head?_eq_some_iff.1 hd
    exact absurd rfl (hpercent d more hc)
  | case4 => exact ⟨[], .nil⟩

theorem Reads.unique {value : List Char} {tokens other : List ValueToken} (h : Reads value tokens)
    (hother : Reads value other) : tokens = other := by
  induction h generalizing other with
  | nil =>
    cases hother
    rfl
  | @placeholder d value tokens digit digit_eq rest ih =>
    have hdigit : d.isDigit = true := isDigit_iff.2 ⟨digit, digit_eq⟩
    cases hother with
    | @placeholder _ _ tokens' digit' digit_eq' rest' =>
      have hvalue : digit.val = digit'.val := by
        have hsame := congrArg Char.toNat (digit_eq.symm.trans digit_eq')
        rw [Nat.toNat_digitChar_of_lt_ten digit.isLt,
          Nat.toNat_digitChar_of_lt_ten digit'.isLt] at hsame
        omega
      rw [Fin.ext hvalue, ih rest']
    | plain alone' rest' =>
      rw [alone' rfl d rfl] at hdigit
      cases hdigit
  | @plain c value tokens alone rest ih =>
    cases hother with
    | placeholder digit' digit_eq' rest' =>
      have hdigit := isDigit_iff.2 ⟨digit', digit_eq'⟩
      rw [alone rfl _ rfl] at hdigit
      cases hdigit
    | plain alone' rest' => rw [ih rest']

/-- There is one way to read a value. -/
theorem exists_unique_reads (value : List Char) : ∃! tokens, Reads value tokens := by
  obtain ⟨tokens, hreads⟩ := exists_reads value
  exact ⟨tokens, hreads, fun other hother => hother.unique hreads⟩

end ValueToken

theorem fillIn_cons_of_alone (group : Nat → List Char) {c : Char} {value : List Char}
    (h : c = '%' → ∀ d ∈ value.head?, d.isDigit = false) :
    fillIn group (c :: value) = c :: fillIn group value := by
  cases value with
  | nil =>
    rw [fillIn]
    intro d rest hc hd
    cases hd
  | cons d value =>
    by_cases hc : c = '%'
    · subst hc
      have hplain : ¬d.isDigit = true := by
        rw [h rfl d rfl]
        exact Bool.false_ne_true
      rw [fillIn, if_neg hplain]
    · rw [fillIn]
      intro d rest hpercent
      exact absurd hpercent hc

/-- Filling in a value fills in its pieces. -/
theorem fillIn_eq_flatMap (group : Nat → List Char) {value : List Char} {tokens : List ValueToken}
    (h : ValueToken.Reads value tokens) :
    fillIn group value = tokens.flatMap (ValueToken.fill group) := by
  induction h with
  | nil => rw [fillIn, List.flatMap_nil]
  | placeholder digit digit_eq rest ih =>
    rw [digit_eq, fillIn_placeholder_cons group digit.isLt, ih, List.flatMap_cons]
    rfl
  | plain alone rest ih =>
    rw [fillIn_cons_of_alone group alone, ih, List.flatMap_cons]
    rfl

/-! ## Rules -/

theorem Cursor.capture_eq (cursor : Cursor) :
    cursor.capture = fun index => ((cursor.data.getD [])[index]?).getD [] := by
  funext index
  unfold capture
  cases cursor.data with
  | none => rfl
  | some groups => rfl

/-- A rule for a text takes what spells the text, with its placeholders filled in if it is dynamic. -/
theorem Rule.exists_length?_of_text {rule : Rule} {value : List Char} {caseless : Bool}
    (hkind : rule.kind = .text value caseless) (cursor : Cursor) {filled : List Char}
    (hfilled : (if rule.dynamic then fillIn cursor.capture value else value) = filled) :
    ∃ found, rule.length? cursor = .ok found ∧ ∀ length, found = some length ↔
      filled ≠ [] ∧ ∃ part behind, cursor.rest = part ++ behind ∧ Spells caseless part filled ∧
        byteLength part = length := by
  cases hrest : cursor.rest with
  | nil =>
    refine ⟨none, by simp only [length?, hrest], fun length => iff_of_false nofun ?_⟩
    rintro ⟨hne, part, behind, htext, hspells, -⟩
    obtain ⟨rfl, -⟩ := List.append_eq_nil_iff.1 htext.symm
    exact hne hspells.eq_nil
  | cons c rest =>
    refine ⟨textLength? (c :: rest) filled caseless, ?_, fun length => textLength?_eq_some_iff⟩
    simp only [length?, hrest, hkind, hfilled]

/-! ## Frames -/

namespace Turn

/-- A turn keeps the frames that its switch does not reach. -/
theorem take_frames_apply {turn : Turn} {stack : Stack} {height : Nat}
    (h : height ≤ max 1 (stack.depth - turn.switch.pops)) :
    (turn.apply stack).frames.take height = stack.frames.take height := by
  have hlength : (stack.frames.take (max 1 (stack.depth - turn.switch.pops))).length =
      max 1 (stack.depth - turn.switch.pops) := by
    have hdepth := stack.depth_eq
    rw [List.length_take, Stack.length_frames]
    omega
  rw [apply, Switch.frames_apply, List.take_append_of_le_length (hlength.symm ▸ h), List.take_take,
    min_eq_left h]

theorem depth_apply (turn : Turn) (stack : Stack) :
    (turn.apply stack).depth = max 1 (stack.depth - turn.switch.pops) +
      if turn.switch.target.isSome then 1 else 0 := by
  have hdepth := stack.depth_eq
  have hkept : min (max 1 (stack.depth - turn.switch.pops)) stack.depth =
      max 1 (stack.depth - turn.switch.pops) := by omega
  rw [← Stack.length_frames, apply, Switch.frames_apply, List.length_append, List.length_take,
    Stack.length_frames, hkept]
  cases turn.switch.target with
  | none => rfl
  | some target => rfl

end Turn

section

variable {description : GrammarDef} {grammar : Grammar}

/-- The next stack is the one behind the turn, if one is taken. -/
theorem Spot.Step.stack_eq (hresolved : grammar.Resolved) {spot next : Spot} {turn : Option Turn}
    (h : spot.Step grammar turn next) (hspot : spot.stack.Within grammar.contexts.length) :
    next.stack = turn.elim spot.stack fun taken => taken.apply spot.stack := by
  cases h with
  | turn rest step_eq turns => exact turns.stack_eq hresolved hspot rest step_eq
  | pass rest step_eq stays => exact Scan.stack_eq_of_not_turns hresolved hspot rest step_eq stays
  | continued rest lineContinue => rfl
  | ended rest lineContinue => rfl
  | lineEnd context_eq changes => rfl
  | lineBegin context_eq settled => rfl

/-- Of the frames behind a step one is either kept by it or the one that it pushes. -/
theorem Spot.Step.keeps_or_pushes (hresolved : grammar.Resolved) {spot next : Spot}
    {turn : Option Turn} (h : spot.Step grammar turn next)
    (hspot : spot.stack.Within grammar.contexts.length) {height : Nat} (hlow : 1 < height)
    (hhigh : height ≤ next.stack.depth) :
    (height ≤ spot.stack.depth ∧
        ∀ taken ∈ turn, height ≤ max 1 (spot.stack.depth - taken.switch.pops)) ∨
      ∃ taken, turn = some taken ∧ taken.switch.target.isSome = true ∧
        next.stack.depth = height := by
  have hstack := h.stack_eq hresolved hspot
  cases turn with
  | none =>
    rw [hstack] at hhigh
    exact .inl ⟨hhigh, nofun⟩
  | some taken =>
    have hdepth : next.stack.depth = _ :=
      (congrArg Stack.depth hstack).trans (taken.depth_apply spot.stack)
    by_cases hkeeps : height ≤ max 1 (spot.stack.depth - taken.switch.pops)
    · refine .inl ⟨by omega, ?_⟩
      intro other hother
      cases hother
      exact hkeeps
    · have htarget : taken.switch.target.isSome = true := by
        by_contra hnone
        rw [if_neg hnone] at hdepth
        omega
      rw [if_pos htarget] at hdepth
      exact .inr ⟨taken, rfl, htarget, by omega⟩

namespace Spot.Leads

variable {start spot : Spot} {lines : List (List Char)} {height : Nat}

/-- The frames that no switch on the way reaches stay as they are. -/
theorem take_frames (hbuild : description.build.result = .ok grammar)
    (hstart : Visited grammar start) (h : start.Leads grammar height lines spot) :
    spot.stack.frames.take height = start.stack.frames.take height := by
  induction h with
  | refl => rfl
  | line line leads ih => exact ih
  | @step lines spot next turn leads step keeps ih =>
    have hwithin := (hstart.leads leads).within hbuild
    rw [step.stack_eq (Grammar.Built.resolved ⟨description, hbuild⟩) hwithin, ← ih]
    cases turn with
    | none => rfl
    | some taken => exact Turn.take_frames_apply (keeps taken rfl)

/-- If these are all the frames that there are at both ends of the way, the stack is the same there. -/
theorem stack_eq (hbuild : description.build.result = .ok grammar) (hstart : Visited grammar start)
    (h : start.Leads grammar height lines spot) (hbefore : start.stack.depth = height)
    (hbehind : spot.stack.depth = height) : spot.stack = start.stack := by
  have hframes := h.take_frames hbuild hstart
  rw [List.take_of_length_le (by rw [Stack.length_frames, hbehind]),
    List.take_of_length_le (by rw [Stack.length_frames, hbefore])] at hframes
  exact Stack.ext_frames hframes

/-- A frame that was not there at the start of the way was pushed on it, and no switch has reached it
since then. -/
theorem exists_pushed (hbuild : description.build.result = .ok grammar)
    (hstart : Visited grammar start) (h : start.Leads grammar 0 lines spot)
    (hlow : start.stack.depth < height) (hhigh : height ≤ spot.stack.depth) :
    ∃ earlier later place turn next, lines = earlier ++ later ∧
      start.Leads grammar 0 earlier place ∧ place.Step grammar (some turn) next ∧
      turn.switch.target.isSome = true ∧ next.stack.depth = height ∧
      next.Leads grammar height later spot := by
  induction h with
  | refl => exact absurd hhigh (Nat.not_le_of_lt hlow)
  | @line lines stack line leads ih =>
    obtain ⟨earlier, later, place, turn, next, rfl, hplace, hstep, htarget, hdepth, hlater⟩ :=
      ih hhigh
    exact ⟨earlier, later ++ [line], place, turn, next, by rw [List.append_assoc], hplace, hstep,
      htarget, hdepth, hlater.line line⟩
  | @step lines spot next turn leads step keeps ih =>
    have hlowest : 1 < height := by
      have hbase := start.stack.depth_eq
      omega
    rcases step.keeps_or_pushes (Grammar.Built.resolved ⟨description, hbuild⟩)
      ((hstart.leads leads).within hbuild) hlowest hhigh with
      ⟨hold, hkept⟩ | ⟨taken, rfl, htarget, hdepth⟩
    · obtain ⟨earlier, later, place, pushed, behind, rfl, hplace, hstep, htarget, hdepth, hlater⟩ :=
        ih hold
      exact ⟨earlier, later, place, pushed, behind, rfl, hplace, hstep, htarget, hdepth,
        hlater.step step hkept⟩
    · exact ⟨lines, [], spot, taken, next, (List.append_nil _).symm, leads, step, htarget, hdepth,
        .refl⟩

end Spot.Leads

/-! ## Documents -/

/-- The frame on top at a place was pushed by a turn at an earlier one.  The way from the start of the
document to there and on from there goes through these lines, and no switch on it has reached the
frame. -/
structure Spot.TopPushed (grammar : Grammar) (earlier : List (List Char)) (place : Spot)
    (turn : Turn) (later : List (List Char)) (spot : Spot) : Prop where
  before : (Spot.between Grammar.initialStack).Leads grammar 0 earlier place
  pushes : turn.switch.target.isSome = true
  since : ∃ next, place.Step grammar (some turn) next ∧ next.stack.depth = spot.stack.depth ∧
    next.Leads grammar spot.stack.depth later spot

theorem Switch.top_apply {switch : Switch} {target : Target} (h : switch.target = some target)
    (stack : Stack) (data : Option Captures) :
    (switch.apply stack data).top =
      ⟨target.context, if target.dynamic then data else none⟩ := by
  rw [apply, h]
  rfl

/-- If a pattern has pushed a dynamic context that is on top, its groups are there. -/
theorem Spot.TopPushed.hasGroups (hbuild : description.build.result = .ok grammar)
    {earlier later : List (List Char)} {place spot : Spot} {turn : Turn}
    (h : TopPushed grammar earlier place turn later spot) {pusher : Rule} {start : Cursor}
    (horigin : turn.origin = .rule pusher start) {regex : RegexRule}
    (hkind : pusher.kind = .regex regex) (hdynamic : description.Dynamic spot.stack.current) :
    ∃ line scan groups, place = .scanning line scan ∧
      start = scan.cursor grammar (leadingBlanks line) ∧ regex.HasGroups start groups ∧
      spot.stack.currentData = some groups := by
  obtain ⟨hbefore, hpushes, next, hstep, hdepth, hsince⟩ := h
  obtain ⟨target, htarget⟩ := Option.isSome_iff_exists.1 hpushes
  have hinitial : Visited grammar (.between Grammar.initialStack) := ⟨_, .start⟩
  have hplace : Visited grammar place := hinitial.leads hbefore
  have hnext : Visited grammar next := hplace.leads (Leads.refl.go hstep)
  have hstack : spot.stack = turn.apply place.stack :=
    (hsince.stack_eq hbuild hnext hdepth rfl).trans
      (hstep.stack_eq (Grammar.Built.resolved ⟨description, hbuild⟩) (hplace.within hbuild))
  have htop : spot.stack.top = ⟨target.context, if target.dynamic then turn.data else none⟩ := by
    rw [hstack]
    exact Switch.top_apply htarget _ _
  cases hstep with
  | @turn line scan next turn rest step_eq turns =>
    have hpushed := (turns.sound hbuild).pushed target htarget
    rw [horigin, ← htop] at hpushed
    have hgroups := hpushed.2
    cases turns with
    | @matched context spliced matched context_eq first finds taken =>
      cases horigin
      obtain ⟨hplain, -⟩ := Grammar.mem_of_mem_flatten (List.mem_of_find?_eq_some first)
      obtain ⟨attempt, length, hdetect, hattempt, -, -⟩ :=
        Spliced.exists_detect_of_finds hplain finds
      obtain ⟨groups, hcaptured⟩ := Rule.exists_hasGroups_of_detect hkind hdetect hattempt
      exact ⟨line, scan, groups, rfl, rfl, hcaptured,
        (hgroups groups).2 ⟨hdynamic, regex, hkind, hcaptured⟩⟩
    | fallThrough context_eq found_eq consumes diverts fallsThrough => cases horigin
  | lineEnd context_eq changes => cases horigin
  | lineBegin context_eq settled => cases horigin

/-- A dynamic rule for a text looks for its value with the captured groups in the place of its
placeholders.  The value is read in one way, from left to right, and what comes from a group is not
read again.  The rule matches if the text so filled in is not empty and stands at the cursor.  The
groups at a place of a document are those of the match that has pushed the frame on top there, if that
is the match of a pattern and the context is dynamic, whichever lines and switches have come between;
and every frame but the base was pushed by something. -/
theorem placeholders_filled_in (hbuild : description.build.result = .ok grammar) :
    (∀ value, ∃! tokens, ValueToken.Reads value tokens) ∧
    (∀ value tokens, ValueToken.Reads value tokens → ∀ cursor : Cursor,
      fillIn cursor.capture value = tokens.flatMap
        (ValueToken.fill fun index => ((cursor.data.getD [])[index]?).getD [])) ∧
    (∀ rule, grammar.HasRule rule → ∀ value caseless, rule.kind = .text value caseless →
      rule.dynamic = true → ∀ cursor, ∃ found,
        rule.detect cursor = .ok { found := found.map (·, none) } ∧
        grammar.tryRule rule cursor = .ok
          { found := if rule.allows cursor then found.map fun length => rule.toMatch length none
            else none } ∧
        ∀ length, found = some length ↔ fillIn cursor.capture value ≠ [] ∧
          ∃ part behind, cursor.rest = part ++ behind ∧
            Spells caseless part (fillIn cursor.capture value) ∧ byteLength part = length) ∧
    ∀ lines line, ∃ entries, highlightDocument grammar Grammar.initialStack lines = .ok entries ∧
      ∀ count scan, Scan.Reaches grammar (leadingBlanks line) count
          (Scan.start line (stackBehind entries.getLast?)) scan →
        (1 < scan.stack.depth → ∃ earlier place turn later, lines ++ [line] = earlier ++ later ∧
          Spot.TopPushed grammar earlier place turn later (.scanning line scan)) ∧
        ∀ earlier place turn later, lines ++ [line] = earlier ++ later →
          Spot.TopPushed grammar earlier place turn later (.scanning line scan) →
          ∀ pusher start regex, turn.origin = .rule pusher start → pusher.kind = .regex regex →
            description.Dynamic scan.stack.current →
            ∃ source pushing groups, place = .scanning source pushing ∧
              start = pushing.cursor grammar (leadingBlanks source) ∧
              regex.HasGroups start groups ∧
              (scan.cursor grammar (leadingBlanks line)).data = some groups := by
  refine ⟨ValueToken.exists_unique_reads, ?_, ?_, ?_⟩
  · intro value tokens hreads cursor
    rw [fillIn_eq_flatMap _ hreads, cursor.capture_eq]
  · intro rule hrule value caseless hkind hdynamic cursor
    obtain ⟨found, hfound, hright⟩ :=
      Rule.exists_length?_of_text hkind cursor (if_pos hdynamic)
    have hpattern : ∀ regex, rule.kind ≠ .regex regex := by
      rw [hkind]
      exact nofun
    refine ⟨found, Rule.detect_of_length? hpattern hfound, ?_, hright⟩
    by_cases hallows : rule.allows cursor = true
    · obtain ⟨other, hother, htry, -⟩ := GrammarDef.matchesExactly hbuild hrule hallows
        (by simp [hkind]) (by simp [hkind]) hpattern (by rw [Rule.includedContext?, hkind])
        hfound hright
      obtain rfl : found = other := by
        rw [hfound] at hother
        exact Except.ok.inj hother
      rw [htry, if_pos hallows]
    · rw [Grammar.tryRule_of_not_allows hallows, if_neg hallows]
  · intro lines line
    have hinitial : Visited grammar (.between Grammar.initialStack) := ⟨_, .start⟩
    obtain ⟨entries, hentries, hleads⟩ :=
      Spot.Leads.exists_highlightDocument hbuild hinitial .refl lines
    refine ⟨entries, hentries, ?_⟩
    intro count scan hreaches
    have hscan : (Spot.between Grammar.initialStack).Leads grammar 0 (lines ++ [line])
        (.scanning line scan) := (hleads.line line).of_reaches hreaches
    refine ⟨?_, ?_⟩
    · intro hdepth
      obtain ⟨earlier, later, place, turn, next, hlines, hplace, hstep, htarget, hnext, hlater⟩ :=
        hscan.exists_pushed hbuild hinitial hdepth (Nat.le_refl _)
      exact ⟨earlier, place, turn, later, hlines, hplace, htarget, next, hstep, hnext, hlater⟩
    · intro earlier place turn later _ hpushed pusher start regex horigin hkind hdynamic
      exact hpushed.hasGroups hbuild horigin hkind hdynamic

end

/-- A small language in which a tagged part ends with the letter of its tag and a percent sign. -/
def closedText : GrammarDef where
  name := "Closed text"
  contexts :=
    [{ name := "Text"
       rules :=
        [{ kind := .regex ['<', '(', 'a', '|', 'b', ')', '>']
           options := { switch := "Tagged", dynamic := true } }] },
      { name := "Tagged"
        dynamic := true
        rules :=
          [{ kind := .text ['%', '1', '%', '%', '2']
             options := { switch := "#pop", dynamic := true } }] }]

namespace ClosedText

/-- The rule for the end of a part, resolved. -/
def closing : Rule :=
  { RuleKind.toRule (.text ['%', '1', '%', '%', '2'] false) with
    switch := ⟨1, none⟩, dynamic := true }

def tagged : Context :=
  { Context.ofRules "Tagged" [closing] with dynamic := true }

theorem exists_build : ∃ grammar, closedText.build.result = .ok grammar ∧
    grammar.contexts = [TaggedText.text, tagged] := by
  obtain ⟨grammar, hbuild, hcontexts, -⟩ :=
    @GrammarDef.exists_build closedText [] [TaggedText.text, tagged] (by simp [closedText])
      (by decide) rfl rfl (by decide)
  exact ⟨grammar, hbuild, hcontexts⟩

/-- There is no second group in a tag, and the percent sign before its placeholder is plain. -/
theorem reads_closing : ValueToken.Reads ['%', '1', '%', '%', '2']
    [.placeholder 1, .plain '%', .placeholder 2] :=
  .placeholder 1 rfl (.plain (fun _ d hd => by cases hd; rfl) (.placeholder 2 rfl .nil))

end ClosedText

/-- Behind a tag with the letter a, a line that starts with that letter and a percent sign ends the
part. -/
theorem placeholders_filled_in_closedText :
    ∃ grammar scan, closedText.build.result = .ok grammar ∧
      Scan.Reaches grammar 0 1 TaggedText.start scan ∧
      (scan.cursor grammar 0).data = some [['<', 'a', '>'], ['a']] ∧
      grammar.HasRule ClosedText.closing ∧
      grammar.tryRule ClosedText.closing ((Scan.start ['a', '%'] scan.stack).cursor grammar 0) =
        .ok { found := some (ClosedText.closing.toMatch 2 none) } := by
  obtain ⟨grammar, hbuild, hcontexts⟩ := ClosedText.exists_build
  have hresolved : grammar.Resolved := Grammar.Built.resolved ⟨closedText, hbuild⟩
  have hclosing : grammar.HasRule ClosedText.closing :=
    .top (hcontexts ▸ List.mem_cons_of_mem _ List.mem_cons_self) List.mem_cons_self
  have hturns := TaggedText.turns_start hcontexts
  have hrest : TaggedText.start.rest ≠ [] := List.cons_ne_nil _ _
  have hstack : TaggedText.start.stack.Within grammar.contexts.length :=
    hresolved.within_initialStack
  obtain ⟨-, -, scan, -, -, hstep, -, -⟩ := Scan.exists_step hresolved 0 hstack hrest
  have hscan : scan.stack = _ := hturns.stack_eq hresolved hstack hrest hstep
  have hreaches : Scan.Reaches grammar 0 1 TaggedText.start scan := .head hrest hstep (.refl scan)
  have hpushed : Spot.TopPushed grammar [['<', 'a', '>', 'x']]
      (.scanning ['<', 'a', '>', 'x'] TaggedText.start) _ []
      (.scanning ['<', 'a', '>', 'x'] scan) :=
    ⟨.line _ .refl, rfl, _, .turn hrest hstep hturns, rfl, .refl⟩
  obtain ⟨-, hfill, hrules, hdocuments⟩ := placeholders_filled_in hbuild
  obtain ⟨entries, hentries, hscans⟩ := hdocuments [] ['<', 'a', '>', 'x']
  obtain rfl : [] = entries := Except.ok.inj hentries
  have hdynamic : closedText.Dynamic scan.stack.current := by
    rw [hscan]
    exact ⟨_, rfl, rfl⟩
  obtain ⟨source, pushing, groups, -, -, hgroups, hdata⟩ :=
    (hscans 1 scan hreaches).2 [['<', 'a', '>', 'x']] _ _ [] rfl hpushed _ _ _ rfl rfl hdynamic
  obtain ⟨others, hothers, hsome⟩ :=
    RegexRule.exists_hasGroups_of_find (congrArg Attempt.found (TaggedText.find_pattern grammar))
  obtain rfl : others = groups := hothers.unique hgroups
  obtain rfl : [['<', 'a', '>'], ['a']] = others := Option.some.inj hsome
  refine ⟨grammar, scan, hbuild, hreaches, hdata, hclosing, ?_⟩
  obtain ⟨found, -, htry, hright⟩ := hrules _ hclosing _ _ rfl rfl
    ((Scan.start ['a', '%'] scan.stack).cursor grammar 0)
  have hfilled := hfill _ _ ClosedText.reads_closing
    ((Scan.start ['a', '%'] scan.stack).cursor grammar 0)
  have hletter : fillIn ((Scan.start ['a', '%'] scan.stack).cursor grammar 0).capture
      ['%', '1', '%', '%', '2'] = ['a', '%'] := by
    rw [hfilled, show ((Scan.start ['a', '%'] scan.stack).cursor grammar 0).data = _ from hdata]
    rfl
  obtain rfl : found = some 2 := by
    rw [hright, hletter]
    exact ⟨List.cons_ne_nil _ _, ['a', '%'], [], rfl, rfl, rfl⟩
  exact htry

end Highlight
