import Highlight.Grammar.Matching
import Highlight.Proofs.Resolved
import Highlight.Proofs.RuleLength

/-!
# Matches in a resolved grammar

Trying rules at a cursor follows inclusions into other contexts and the rules behind a number into
the text.  `Finds` is the derivation of a match: which rule found it, by itself or with the help of
which other.  Three facts carry everything that is said about matches.

* `tryRules_finds`: in a resolved grammar trying rules never meets a fault, and a match that it
  gives has a derivation from one of the rules.  This is the one induction along the recursion of
  `Grammar.tryRule`.
* `firstMatch_of_tryRules`: of several rules the first that matches decides (`FirstMatch`).
* Facts about a match are inductions on its derivation.  `Finds.fits` is the one that scanning
  needs: the match takes whole characters, and its switch stays in the grammar.
-/

namespace Highlight

/-- How a rule comes to a match at a cursor. -/
inductive Finds (grammar : Grammar) : Rule → Cursor → RuleMatch → Prop
  /-- The rule takes some text by itself. -/
  | own {rule : Rule} {cursor : Cursor} {attempt : Attempt (Nat × Option Captures)}
      {length : Nat} {captures : Option Captures} (allows : rule.allows cursor = true)
      (detect : rule.detect cursor = .ok attempt)
      (found : attempt.found = some (length, captures)) :
      Finds grammar rule cursor (rule.toMatch length captures)
  /-- The rule takes some text, and one of its children goes on behind that. -/
  | extended {rule child : Rule} {cursor behind : Cursor}
      {attempt : Attempt (Nat × Option Captures)} {length : Nat} {captures : Option Captures}
      {extension : RuleMatch} (allows : rule.allows cursor = true)
      (detect : rule.detect cursor = .ok attempt)
      (found : attempt.found = some (length, captures))
      (advance : cursor.advance? length = some behind) (member : child ∈ rule.children)
      (finds : Finds grammar child behind extension) :
      Finds grammar rule cursor (rule.toMatch (length + extension.length) captures)
  /-- The rule includes a context, and one of the rules of that finds the match. -/
  | included {rule member : Rule} {cursor : Cursor} {inclusion : Inclusion} {context : Context}
      {found : RuleMatch} (allows : rule.allows cursor = true)
      (kind : rule.kind = .inclusion inclusion)
      (context_eq : grammar.contexts[inclusion.target]? = some context)
      (member_mem : member ∈ context.rules) (finds : Finds grammar member cursor found) :
      Finds grammar rule cursor
        { found with
          style := if inclusion.withStyle then found.style.or (some context.style)
            else found.style }

/-! ## Trying rules -/

theorem Cursor.exists_advance {cursor : Cursor} {length : Nat}
    (h : IsBoundary cursor.rest length) :
    ∃ behind skipped, cursor.advance? length = some behind ∧
      cursor.rest = skipped ++ behind.rest ∧ byteLength skipped = length := by
  obtain ⟨skipped, left, hsplit⟩ := isBoundary_iff.1 h
  obtain ⟨happend, hlength⟩ := splitAtByte?_eq_some_iff.1 hsplit
  exact ⟨_, skipped, by rw [Cursor.advance?, hsplit, Option.map_some], happend, hlength⟩

theorem Rule.kind_of_includedContext {rule : Rule} {target : Nat}
    (h : rule.includedContext? = some target) :
    ∃ inclusion, rule.kind = .inclusion inclusion ∧ inclusion.target = target := by
  unfold Rule.includedContext? at h
  split at h
  · next inclusion hkind => exact ⟨inclusion, hkind, Option.some.inj h⟩
  · cases h

namespace Grammar

variable {grammar : Grammar}

/-- A rule that includes a context gives what the rules of that context give, where it may match. -/
theorem tryRule_inclusion {rule : Rule} {cursor : Cursor} {inclusion : Inclusion}
    {context : Context} (hallows : rule.allows cursor = true)
    (hkind : rule.kind = .inclusion inclusion)
    (hcontext : grammar.contexts[inclusion.target]? = some context) :
    grammar.tryRule rule cursor = (grammar.tryRules context.rules cursor).map fun trial =>
      if inclusion.withStyle then trial.withStyle context.style else trial := by
  rw [tryRule, if_pos hallows]
  split
  · next other hother =>
    obtain rfl : inclusion = other := by
      rw [hkind] at hother
      exact RuleKind.inclusion.inj hother
    split
    · next hnone => simp [hcontext] at hnone
    · next found hfound =>
      obtain rfl : context = found := by
        rw [hcontext] at hfound
        exact Option.some.inj hfound
      cases grammar.tryRules context.rules cursor with
      | error fault => rfl
      | ok trial => rfl
  · next hother => exact absurd hkind (hother inclusion)

/-- The trial of a rule that includes a context, from the trial of that context's rules. -/
theorem exists_tryRule_inclusion {rule : Rule} {cursor : Cursor} {inclusion : Inclusion}
    {context : Context} {trial : Trial} (hallows : rule.allows cursor = true)
    (hkind : rule.kind = .inclusion inclusion)
    (hcontext : grammar.contexts[inclusion.target]? = some context)
    (htrial : grammar.tryRules context.rules cursor = .ok trial)
    (hfinds : ∀ found, trial.found = some found →
      ∃ member ∈ context.rules, Finds grammar member cursor found) :
    ∃ result, grammar.tryRule rule cursor = .ok result ∧
      ∀ found, result.found = some found → Finds grammar rule cursor found := by
  have hrun : grammar.tryRule rule cursor =
      .ok (if inclusion.withStyle then trial.withStyle context.style else trial) := by
    rw [tryRule_inclusion hallows hkind hcontext, htrial]
    rfl
  refine ⟨_, hrun, ?_⟩
  intro found hfound
  split at hfound
  · next hstyle =>
    obtain ⟨inner, hinner, rfl⟩ := Option.map_eq_some_iff.1 hfound
    obtain ⟨member, hmember, hmatch⟩ := hfinds inner hinner
    have hresult := Finds.included hallows hkind hcontext hmember hmatch
    rwa [if_pos hstyle] at hresult
  · next hstyle =>
    obtain ⟨member, hmember, hmatch⟩ := hfinds found hfound
    have hresult := Finds.included hallows hkind hcontext hmember hmatch
    rwa [if_neg hstyle] at hresult

/-- The trial of a rule that takes some text by itself, from the trial of its children behind
that. -/
theorem exists_tryRule_plain {rule : Rule} {cursor : Cursor}
    (hallows : rule.allows cursor = true) (hkind : ∀ inclusion, rule.kind ≠ .inclusion inclusion)
    (hchildren : ∀ behind, behind.rest.length < cursor.rest.length →
      ∃ trial, grammar.tryRules rule.children behind = .ok trial ∧
        ∀ found, trial.found = some found →
          ∃ child ∈ rule.children, Finds grammar child behind found) :
    ∃ result, grammar.tryRule rule cursor = .ok result ∧
      ∀ found, result.found = some found → Finds grammar rule cursor found := by
  obtain ⟨attempt, hdetect, hadvances⟩ := rule.detect_advances cursor
  rw [tryRule, if_pos hallows]
  split
  · next inclusion hinclusion => exact absurd hinclusion (hkind inclusion)
  · split
    · next fault hfault =>
      rw [hdetect] at hfault
      cases hfault
    · exact ⟨_, rfl, fun found hfound => by cases hfound⟩
    · next broken length captures hok =>
      rw [hdetect] at hok
      cases hok
      split
      · next hextend =>
        have hboundary := (hadvances length captures rfl).2
        obtain ⟨behind, skipped, hadvance, -, -⟩ := Cursor.exists_advance hboundary
        have hless := Cursor.length_rest_lt_of_advance? hextend.2.1 hadvance
        obtain ⟨trial, htrial, hfinds⟩ := hchildren behind hless
        split
        · next hnone => simp [hadvance] at hnone
        · next other hother =>
          obtain rfl : behind = other := by
            rw [hadvance] at hother
            exact Option.some.inj hother
          simp only [htrial]
          refine ⟨_, rfl, ?_⟩
          intro found hfound
          cases hfound
          cases hextension : trial.found with
          | none => exact .own hallows hdetect rfl
          | some extension =>
            obtain ⟨child, hmember, hmatch⟩ := hfinds extension hextension
            exact .extended hallows hdetect rfl hadvance hmember hmatch
      · refine ⟨_, rfl, ?_⟩
        intro found hfound
        cases hfound
        exact .own hallows hdetect rfl

/-- Trying rules that stay in a resolved grammar meets no fault, and what it finds has a
derivation. -/
theorem tryRules_finds (hresolved : grammar.Resolved) (rules : List Rule) (cursor : Cursor)
    (hrules : ∀ rule ∈ rules, rule.Within grammar.contexts.length) :
    ∃ trial, grammar.tryRules rules cursor = .ok trial ∧
      ∀ found, trial.found = some found →
        ∃ rule ∈ rules, Finds grammar rule cursor found := by
  -- The induction takes the order in which matching itself ends: less text, then the rank of what
  -- is included, then fewer rules.
  induction hn : cursor.rest.length using Nat.strongRecOn generalizing rules cursor with
  | ind n ihText =>
  obtain ⟨rank, hrank⟩ : ∃ rank, grammar.rulesRank rules ≤ rank := ⟨_, Nat.le_refl _⟩
  induction rank using Nat.strongRecOn generalizing rules with
  | ind rank ihRank =>
  induction rules with
  | nil => exact ⟨{}, by rw [tryRules], fun found hfound => by cases hfound⟩
  | cons rule rest ih =>
    have hwithin : rule.Within grammar.contexts.length := hrules rule List.mem_cons_self
    have hhead : ∃ trial, grammar.tryRule rule cursor = .ok trial ∧
        ∀ found, trial.found = some found → Finds grammar rule cursor found := by
      by_cases hallows : rule.allows cursor = true
      · cases hincluded : rule.includedContext? with
        | some target =>
          obtain ⟨inclusion, hkind, rfl⟩ := Rule.kind_of_includedContext hincluded
          obtain ⟨context, -, hcontext, hcontextWithin⟩ :=
            exists_context hresolved (hwithin.included hincluded)
          have hlower := rulesRank_lt_ruleRank hkind hcontext
          have hupper : grammar.ruleRank rule ≤ rank :=
            Nat.le_trans (Nat.le_max_left _ _) hrank
          obtain ⟨trial, htrial, hfinds⟩ := ihRank (grammar.rulesRank context.rules)
            (by omega) context.rules hcontextWithin.rules (Nat.le_refl _)
          exact exists_tryRule_inclusion hallows hkind hcontext htrial hfinds
        | none =>
          refine exists_tryRule_plain hallows ?_ ?_
          · intro inclusion hkind
            simp [Rule.includedContext?, hkind] at hincluded
          · intro behind hless
            exact ihText behind.rest.length (by omega) rule.children behind
              hwithin.children rfl
      · refine ⟨{}, by rw [tryRule, if_neg hallows], ?_⟩
        intro found hfound
        cases hfound
    have htail := ih (fun other hother => hrules other (List.mem_cons_of_mem _ hother))
      (Nat.le_trans (Nat.le_max_right _ _) hrank)
    obtain ⟨trial, htrial, hfinds⟩ := hhead
    obtain ⟨later, hlater, hfindsLater⟩ := htail
    rw [tryRules]
    simp only [htrial, hlater]
    split
    · refine ⟨trial, rfl, ?_⟩
      intro found hfound
      exact ⟨rule, List.mem_cons_self, hfinds found hfound⟩
    · refine ⟨_, rfl, ?_⟩
      intro found hfound
      obtain ⟨member, hmember, hmatch⟩ := hfindsLater found hfound
      exact ⟨member, List.mem_cons_of_mem _ hmember, hmatch⟩

end Grammar

/-- What the first of some rules that matches at a cursor finds, or nothing if none of them
matches. -/
inductive FirstMatch (grammar : Grammar) (cursor : Cursor) : List Rule → Option RuleMatch → Prop
  | none : FirstMatch grammar cursor [] none
  | hit {rule : Rule} {rest : List Rule} {trial : Trial} {matched : RuleMatch}
      (trial_eq : grammar.tryRule rule cursor = .ok trial) (found : trial.found = some matched) :
      FirstMatch grammar cursor (rule :: rest) (some matched)
  | skip {rule : Rule} {rest : List Rule} {trial : Trial} {found : Option RuleMatch}
      (trial_eq : grammar.tryRule rule cursor = .ok trial) (misses : trial.found = none)
      (first : FirstMatch grammar cursor rest found) :
      FirstMatch grammar cursor (rule :: rest) found

/-- Trying rules finds what the first of them that matches finds. -/
theorem firstMatch_of_tryRules {grammar : Grammar} {rules : List Rule} {cursor : Cursor}
    {trial : Trial} (h : grammar.tryRules rules cursor = .ok trial) :
    FirstMatch grammar cursor rules trial.found := by
  induction rules generalizing trial with
  | nil =>
    rw [Grammar.tryRules] at h
    cases h
    exact .none
  | cons rule rest ih =>
    rw [Grammar.tryRules] at h
    split at h
    · cases h
    · next first hfirst =>
      split at h
      · next hsome =>
        cases h
        obtain ⟨matched, hmatched⟩ := Option.isSome_iff_exists.1 hsome
        rw [hmatched]
        exact .hit hfirst hmatched
      · next hnone =>
        split at h
        · cases h
        · next later hlater =>
          cases h
          have hmisses : first.found = none := by simpa using hnone
          have hrest : FirstMatch grammar cursor rest later.found := ih hlater
          exact .skip hfirst hmisses hrest

/-- There is one answer to what the first rule that matches finds. -/
theorem FirstMatch.unique {grammar : Grammar} {rules : List Rule} {cursor : Cursor}
    {first second : Option RuleMatch} (h : FirstMatch grammar cursor rules first)
    (hother : FirstMatch grammar cursor rules second) : first = second := by
  induction h with
  | none =>
    cases hother with
    | none => rfl
  | hit trial_eq found =>
    cases hother with
    | hit otherTrial otherFound =>
      rw [trial_eq] at otherTrial
      cases otherTrial
      rw [← found, ← otherFound]
    | skip otherTrial misses =>
      rw [trial_eq] at otherTrial
      cases otherTrial
      rw [found] at misses
      cases misses
  | skip trial_eq misses rest ih =>
    cases hother with
    | hit otherTrial otherFound =>
      rw [trial_eq] at otherTrial
      cases otherTrial
      rw [misses] at otherFound
      cases otherFound
    | skip otherTrial otherMisses otherRest => exact ih otherRest

/-! ## Facts about a match -/

/-- A match that a stack of `size` contexts can follow: it takes whole characters of the text at
the cursor, and its switch leads to one of the contexts. -/
structure RuleMatch.Fits (size : Nat) (cursor : Cursor) (found : RuleMatch) : Prop where
  boundary : IsBoundary cursor.rest found.length
  switch : ∀ switch, found.switch = some switch → switch.Within size

theorem Rule.Within.fits_toMatch {size : Nat} {rule : Rule} (h : rule.Within size)
    {cursor : Cursor} {length : Nat} (hlength : IsBoundary cursor.rest length)
    (captures : Option Captures) : (rule.toMatch length captures).Fits size cursor := by
  refine ⟨?_, ?_⟩
  · unfold Rule.toMatch
    split
    · exact isBoundary_zero cursor.rest
    · exact hlength
  · intro switch hswitch
    simp only [Rule.toMatch] at hswitch
    split at hswitch
    · cases hswitch
    · cases hswitch
      exact h.switch

theorem Finds.fits {grammar : Grammar} (hresolved : grammar.Resolved) {rule : Rule}
    {cursor : Cursor} {found : RuleMatch} (h : Finds grammar rule cursor found)
    (hwithin : rule.Within grammar.contexts.length) :
    found.Fits grammar.contexts.length cursor := by
  induction h with
  | @own rule cursor attempt length captures allows detect found =>
    obtain ⟨other, hother, hadvances⟩ := rule.detect_advances cursor
    rw [detect] at hother
    cases hother
    exact hwithin.fits_toMatch (hadvances length captures found).2 captures
  | @extended rule child cursor behind attempt length captures extension allows detect found
      advance member finds ih =>
    obtain ⟨other, hother, hadvances⟩ := rule.detect_advances cursor
    rw [detect] at hother
    cases hother
    have hboundary := (hadvances length captures found).2
    obtain ⟨next, skipped, hnext, hrest, hskipped⟩ := Cursor.exists_advance hboundary
    rw [advance] at hnext
    cases hnext
    refine hwithin.fits_toMatch ?_ captures
    rw [hrest, ← hskipped]
    exact (ih (hwithin.children child member)).boundary.add skipped
  | @included rule member cursor inclusion context found allows kind context_eq member_mem finds
      ih =>
    have htarget : inclusion.target < grammar.contexts.length :=
      (List.getElem?_eq_some_iff.1 context_eq).1
    obtain ⟨other, -, hother, hcontext⟩ := Grammar.exists_context hresolved htarget
    rw [context_eq] at hother
    cases hother
    have hfits := ih (hcontext.rules member member_mem)
    exact ⟨hfits.boundary, hfits.switch⟩

/-- Trying the rules of a context of a resolved grammar gives a trial, and what it found fits. -/
theorem Grammar.exists_tryRules {grammar : Grammar} (hresolved : grammar.Resolved)
    {context : Context} (hcontext : context.Within grammar.contexts.length) (cursor : Cursor) :
    ∃ trial, grammar.tryRules context.rules cursor = .ok trial ∧
      ∀ found, trial.found = some found → found.Fits grammar.contexts.length cursor := by
  obtain ⟨trial, htrial, hfinds⟩ := tryRules_finds hresolved context.rules cursor hcontext.rules
  refine ⟨trial, htrial, ?_⟩
  intro found hfound
  obtain ⟨rule, hrule, hmatch⟩ := hfinds found hfound
  exact hmatch.fits hresolved (hcontext.rules rule hrule)

end Highlight
