import Highlight.Proofs.CaselessText
import Highlight.Proofs.MovedCursors

/-!
# The progress of matches

A match either takes some of the text or only switches.  Which of the two it is depends on the rule
that it comes from: a rule that looks ahead takes nothing, and every other rule takes whole
characters of what is left of the line, at least one.

There are three groups.

* Sources.  An inclusion has the match of a rule further inside, its source (`Grammar.source?`),
  which is the first in the flat list of the inclusion that finds something.
* Lengths.  What a rule takes by itself is not empty, and the rules that extend a number only add to
  it, so that a match without text is one of a rule that looks ahead (`Finds.length_eq_zero_iff`).
* Lines.  `matches_make_progress` says where in a line a match ends.
-/

namespace Highlight

/-! ## Sources -/

/-- The rule that the match of a rule comes from: the rule itself, or the rule of the contexts that
it includes which is the first to find something. -/
def Grammar.source? (grammar : Grammar) (rule : Rule) (cursor : Cursor) : Option Rule :=
  ((grammar.flatten [rule]).find? fun spliced => (spliced.finds grammar cursor).isSome).map
    Spliced.rule

/-- The first value that a function gives is given for the first argument for which it gives one. -/
theorem exists_find?_of_findSome? {α β : Type} {f : α → Option β} {all : List α} {b : β}
    (h : all.findSome? f = some b) :
    ∃ a, all.find? (fun a => (f a).isSome) = some a ∧ f a = some b := by
  obtain ⟨front, a, back, hall, ha, hfront⟩ := List.findSome?_eq_some_iff.1 h
  refine ⟨a, List.find?_eq_some_iff_append.2 ⟨?_, front, back, hall, fun other hother => ?_⟩, ha⟩
  · rw [ha, Option.isSome_some]
  · rw [hfront other hother]
    rfl

/-- A spliced rule takes what the rule takes. -/
theorem Spliced.exists_tryRule_of_finds {grammar : Grammar} {cursor : Cursor} {spliced : Spliced}
    {matched : RuleMatch} (h : spliced.finds grammar cursor = some matched) :
    ∃ trial found, grammar.tryRule spliced.rule cursor = .ok trial ∧ trial.found = some found ∧
      matched.length = found.length := by
  unfold finds at h
  split at h
  · split at h
    · next trial htrial =>
      obtain ⟨found, hfound, rfl⟩ := Option.map_eq_some_iff.1 h
      exact ⟨trial, found, htrial, hfound, rfl⟩
    · cases h
  · cases h

namespace Grammar

variable {grammar : Grammar} {rule : Rule} {cursor : Cursor}

/-- A match has a source, which includes nothing, is a rule of the grammar and takes as much. -/
theorem exists_source (hrule : grammar.HasRule rule) {trial : Trial} {matched : RuleMatch}
    (htrial : grammar.tryRule rule cursor = .ok trial) (hmatched : trial.found = some matched) :
    ∃ source, grammar.source? rule cursor = some source ∧ source.includedContext? = none ∧
      grammar.HasRule source ∧ ∃ own found, grammar.tryRule source cursor = .ok own ∧
        own.found = some found ∧ matched.length = found.length := by
  have hfirst : FirstMatch grammar cursor [rule] (some matched) := .hit htrial hmatched
  obtain ⟨spliced, hspliced, hfinds⟩ := exists_find?_of_findSome? hfirst.eq_findSome?.symm
  obtain ⟨hplain, hmember⟩ := mem_of_mem_flatten (List.mem_of_find?_eq_some hspliced)
  refine ⟨spliced.rule, by rw [source?, hspliced, Option.map_some], hplain, ?_,
    Spliced.exists_tryRule_of_finds hfinds⟩
  rcases hmember with hmember | ⟨context, hcontext, hmember⟩
  · rwa [List.mem_singleton.1 hmember]
  · exact .top hcontext hmember

/-! ## Lengths -/

theorem finds_of_tryRule (hresolved : grammar.Resolved) (hrule : grammar.HasRule rule)
    {trial : Trial} {matched : RuleMatch} (htrial : grammar.tryRule rule cursor = .ok trial)
    (hmatched : trial.found = some matched) : Finds grammar rule cursor matched := by
  have hwithin : rule.Within grammar.contexts.length := hrule.within hresolved
  obtain ⟨other, hother, hfinds⟩ := tryRules_finds hresolved [rule] cursor (by simpa using hwithin)
  have hsome : trial.found.isSome = true := Option.isSome_of_eq_some hmatched
  simp only [tryRules, htrial, hsome, if_true, Except.ok.injEq] at hother
  obtain ⟨member, hmember, h⟩ := hfinds matched (hother ▸ hmatched)
  rwa [← List.mem_singleton.1 hmember]

end Grammar

theorem Rule.length_toMatch_eq_zero_iff {rule : Rule} {length : Nat} (hlength : 0 < length)
    (captures : Option Captures) :
    (rule.toMatch length captures).length = 0 ↔ rule.lookAhead = true := by
  simp only [toMatch]
  split
  · next hlook => exact iff_of_true rfl hlook
  · next hlook => exact iff_of_false (by omega) hlook

/-- A rule that includes nothing finds a match without text exactly if it looks ahead. -/
theorem Finds.length_eq_zero_iff {grammar : Grammar} {rule : Rule} {cursor : Cursor}
    {matched : RuleMatch} (h : Finds grammar rule cursor matched)
    (hplain : rule.includedContext? = none) : matched.length = 0 ↔ rule.lookAhead = true := by
  cases h with
  | own allows detect found =>
    exact Rule.length_toMatch_eq_zero_iff (Rule.advances_of_detect detect found).1 _
  | extended allows detect found =>
    exact Rule.length_toMatch_eq_zero_iff
      (Nat.add_pos_left (Rule.advances_of_detect detect found).1 _) _
  | included allows kind => simp [Rule.includedContext?, kind] at hplain

/-! ## Lines -/

/-- Between two parts of a line there is a cursor, whatever else it is told. -/
theorem Cursor.exists_at? (before text : List Char) (column leading : Nat) (data : Option Captures)
    (delimiters : Delimiters) : ∃ cursor, cursor.rest = text ∧
      at? (before ++ text) (byteLength before) column leading data delimiters = some cursor := by
  refine ⟨_, ?_, by rw [at?, splitAtByte?_byteLength]; rfl⟩
  rfl

/-- Every match makes progress or is one of a rule that looks ahead.  A rule of a built grammar,
however deep among the rules that extend numbers, can be tried wherever a line has a cursor.  At the
end of the line it finds nothing.  A match of it has a source behind the inclusions, takes no text
exactly if that looks ahead, and otherwise ends at a boundary of the line, behind at least one more
byte. -/
theorem matches_make_progress {description : GrammarDef} {grammar : Grammar}
    (hbuild : description.build.result = .ok grammar) {rule : Rule} (hrule : grammar.HasRule rule)
    {line : List Char} {offset : Nat} (hoffset : IsBoundary line offset) (column leading : Nat)
    (data : Option Captures) (delimiters : Delimiters) :
    ∃ cursor trial, Cursor.at? line offset column leading data delimiters = some cursor ∧
      grammar.tryRule rule cursor = .ok trial ∧
      (offset = byteLength line → trial = {}) ∧
      ∀ matched, trial.found = some matched → ∃ source,
        grammar.source? rule cursor = some source ∧ source.includedContext? = none ∧
        (matched.length = 0 ↔ source.lookAhead = true) ∧
        (source.lookAhead = false → 1 ≤ matched.length ∧
          offset + matched.length ≤ byteLength line ∧
          IsBoundary line (offset + matched.length)) := by
  have hresolved : grammar.Resolved := Grammar.Built.resolved ⟨description, hbuild⟩
  obtain ⟨before, text, rfl, rfl⟩ := hoffset
  obtain ⟨cursor, rfl, hcursor⟩ :=
    Cursor.exists_at? before text column leading data delimiters
  have hcall : Call.Of grammar (.rule rule cursor) := hrule
  obtain ⟨trial, htrial⟩ := Grammar.exists_answer hresolved hcall
  refine ⟨cursor, trial, hcursor, htrial, fun hend => ?_, fun matched hmatched => ?_⟩
  · have hrest : cursor.rest = [] := by
      rw [← byteLength_eq_zero_iff]
      rw [byteLength_append] at hend
      omega
    rw [Grammar.answer_of_rest_eq_nil hresolved hcall hrest] at htrial
    exact (Except.ok.inj htrial).symm
  · obtain ⟨source, hsource, hplain, hhas, own, found, hown, hfound, hlength⟩ :=
      Grammar.exists_source hrule htrial hmatched
    have hfinds := Grammar.finds_of_tryRule hresolved hhas hown hfound
    have hzero : matched.length = 0 ↔ source.lookAhead = true :=
      hlength ▸ hfinds.length_eq_zero_iff hplain
    have hboundary : IsBoundary (before ++ cursor.rest) (byteLength before + matched.length) :=
      hlength ▸ (hfinds.fits hresolved (hhas.within hresolved)).boundary.add before
    refine ⟨source, hsource, hplain, hzero, fun htakes => ⟨?_, hboundary.le_byteLength, hboundary⟩⟩
    have hpositive : matched.length ≠ 0 := fun hnone => by
      rw [hzero.1 hnone] at htakes
      cases htakes
    exact Nat.one_le_iff_ne_zero.2 hpositive

/-- A small language of amounts, which may have a unit and which stand behind signs. -/
def amountText : GrammarDef where
  name := "Amounts"
  contexts :=
    [{ name := "Text", rules := [{ kind := .inclusion "Amounts" }] },
      { name := "Amounts"
        rules :=
          [{ kind := .char '=', options := { lookAhead := true } },
            { kind := .int
              children := [{ kind := .text ['k'], options := { caseless := true } }] }] }]

namespace AmountText

def sign : Rule :=
  { RuleKind.toRule (.char (.literal '=')) with lookAhead := true }

def unit : Rule :=
  RuleKind.toRule (.text ['k'] true)

def amount : Rule :=
  { RuleKind.toRule .int with children := [unit] }

def inclusion : Rule :=
  RuleKind.toRule (.inclusion ⟨"Amounts", 1, false⟩)

def text : Context :=
  .ofRules "Text" [inclusion]

def amounts : Context :=
  .ofRules "Amounts" [sign, amount]

theorem exists_build : ∃ grammar, amountText.build.result = .ok grammar ∧
    grammar.contexts = [text, amounts] := by
  obtain ⟨grammar, hbuild, hcontexts, -⟩ :=
    @GrammarDef.exists_build_of_acyclic amountText [] [text, amounts] (by simp [amountText])
      (by decide) rfl rfl (Graph.firstCycle?_of_increasing (by decide))
  exact ⟨grammar, hbuild, hcontexts⟩

/-- Four degrees kelvin. -/
def line : List Char :=
  ['=', '4', Unicode.kelvinSign]

/-- At the start of the line. -/
def atSign : Cursor :=
  .behind [] line none .standard

/-- Behind the sign. -/
def atAmount : Cursor :=
  .behind ['='] ['4', Unicode.kelvinSign] none .standard

variable {grammar : Grammar}

theorem tryRule_inclusion (hcontexts : grammar.contexts = [text, amounts]) (cursor : Cursor) :
    grammar.tryRule inclusion cursor = grammar.tryRules [sign, amount] cursor := by
  have hcontext : grammar.contexts[1]? = some amounts := by
    rw [hcontexts]
    rfl
  rw [@Grammar.tryRule_inclusion grammar inclusion cursor ⟨"Amounts", 1, false⟩ amounts rfl rfl
    hcontext]
  show (grammar.tryRules [sign, amount] cursor).map id = _
  rw [Except.map_id]
  rfl

/-- The sign is found and not taken. -/
theorem tryRule_atSign (hcontexts : grammar.contexts = [text, amounts]) :
    grammar.tryRule inclusion atSign = .ok { found := some (sign.toMatch 1 none) } := by
  have hsign : grammar.tryRule sign atSign = .ok { found := some (sign.toMatch 1 none) } :=
    @Grammar.tryRule_of_length? grammar sign atSign (some 1) (fun regex h => by cases h) rfl rfl rfl
      rfl
  rw [tryRule_inclusion hcontexts, Grammar.tryRules_cons hsign]
  rfl

theorem tryRules_unit (behind : Cursor) (hrest : behind.rest = [Unicode.kelvinSign]) :
    grammar.tryRules [unit] behind = .ok { found := some (unit.toMatch 3 none) } := by
  have hlength : unit.length? behind = .ok (some 3) := by
    rw [← (textLength?_kelvinSign []).1]
    simp only [Rule.length?, hrest]
    rfl
  have hunit : grammar.tryRule unit behind = .ok { found := some (unit.toMatch 3 none) } :=
    grammar.tryRule_of_length? (fun regex h => by cases h) rfl rfl rfl hlength
  rw [Grammar.tryRules_cons hunit]
  rfl

/-- The amount is taken with its unit. -/
theorem tryRule_atAmount (hresolved : grammar.Resolved)
    (hcontexts : grammar.contexts = [text, amounts]) :
    grammar.tryRule inclusion atAmount = .ok { found := some (amount.toMatch 4 none) } := by
  have hsign : grammar.tryRule sign atAmount = .ok {} :=
    @Grammar.tryRule_of_length? grammar sign atAmount none (fun regex h => by cases h) rfl rfl rfl
      rfl
  have hamounts : amounts ∈ grammar.contexts := by simp [hcontexts]
  have hhas : grammar.HasRule amount := .top hamounts (by simp [amounts, Context.ofRules])
  have hdetect : amount.detect atAmount = .ok ⟨[], some (1, none)⟩ := rfl
  obtain ⟨behind, trial, hadvance, htrial, hamount⟩ :=
    Grammar.exists_tryRule_extended hresolved hhas rfl rfl hdetect
  have hrest : behind.rest = [Unicode.kelvinSign] := by
    cases hadvance
    rfl
  rw [show amount.children = [unit] from rfl, tryRules_unit behind hrest] at htrial
  cases htrial
  have htaken : grammar.tryRule amount atAmount = .ok { found := some (amount.toMatch 4 none) } :=
    hamount
  rw [tryRule_inclusion hcontexts, Grammar.tryRules_cons hsign]
  show grammar.tryRules [amount] atAmount = _
  rw [Grammar.tryRules_cons htaken]
  rfl

end AmountText

/-- A sign is found and not taken, and an amount is taken with its unit, the sign for kelvin. -/
theorem matches_make_progress_amounts : ∃ grammar, amountText.build.result = .ok grammar ∧
    grammar.HasRule AmountText.inclusion ∧
    IsBoundary AmountText.line 0 ∧ IsBoundary AmountText.line 1 ∧
    (∃ trial matched source,
      Cursor.at? AmountText.line 0 0 0 none .standard = some AmountText.atSign ∧
      grammar.tryRule AmountText.inclusion AmountText.atSign = .ok trial ∧
      trial.found = some matched ∧ matched.length = 0 ∧
      grammar.source? AmountText.inclusion AmountText.atSign = some source ∧
      source.lookAhead = true) ∧
    ∃ trial matched source,
      Cursor.at? AmountText.line 1 1 0 none .standard = some AmountText.atAmount ∧
      grammar.tryRule AmountText.inclusion AmountText.atAmount = .ok trial ∧
      trial.found = some matched ∧ matched.length = 4 ∧
      grammar.source? AmountText.inclusion AmountText.atAmount = some source ∧
      source.lookAhead = false ∧ IsBoundary AmountText.line (1 + 4) := by
  obtain ⟨grammar, hbuild, hcontexts⟩ := AmountText.exists_build
  have hresolved : grammar.Resolved := Grammar.Built.resolved ⟨amountText, hbuild⟩
  have htext : AmountText.text ∈ grammar.contexts := by simp [hcontexts]
  have hrule : grammar.HasRule AmountText.inclusion := .top htext List.mem_cons_self
  have hstart : IsBoundary AmountText.line 0 := isBoundary_zero _
  have hbehind : IsBoundary AmountText.line 1 := ⟨['='], _, rfl, rfl⟩
  have hsign := AmountText.tryRule_atSign hcontexts
  have hamount := AmountText.tryRule_atAmount hresolved hcontexts
  obtain ⟨cursor, trial, hcursor, htrial, -, hfirst⟩ :=
    matches_make_progress hbuild hrule hstart 0 0 none .standard
  obtain ⟨other, later, hother, hlater, -, hsecond⟩ :=
    matches_make_progress hbuild hrule hbehind 1 0 none .standard
  obtain rfl : AmountText.atSign = cursor := Option.some.inj hcursor
  obtain rfl : AmountText.atAmount = other := Option.some.inj hother
  rw [hsign] at htrial
  cases htrial
  rw [hamount] at hlater
  cases hlater
  obtain ⟨source, hsource, -, hlooks, -⟩ := hfirst _ rfl
  obtain ⟨owner, howner, -, htakes, hends⟩ := hsecond _ rfl
  have howns : owner.lookAhead = false := by
    rw [← Bool.not_eq_true, ← htakes]
    exact Nat.succ_ne_zero 3
  exact ⟨grammar, hbuild, hrule, hstart, hbehind,
    ⟨_, _, source, hcursor, hsign, rfl, rfl, hsource, hlooks.1 rfl⟩,
    _, _, owner, hother, hamount, rfl, rfl, howner, howns, (hends howns).2.2⟩

end Highlight
