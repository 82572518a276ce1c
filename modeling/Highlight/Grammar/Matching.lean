import Highlight.Grammar.Basic

/-!
# Matching rules at a cursor

The first rule of a context that matches wins.  A rule that includes another context stands for the
rules of that context, and the rules that extend a number are tried behind its digits.  Matching
ends: an inclusion leads to a context of lower rank in the acyclic graph of inclusions, and the
rules behind a number have less text before them.
-/

namespace Highlight

/-- What trying rules at a cursor gave. -/
abbrev Trial := Attempt RuleMatch

namespace Trial

/-- The trial with patterns that could not be compiled before it. -/
def after (broken : List (List Char)) (trial : Trial) : Trial :=
  { trial with broken := broken ++ trial.broken }

/-- The trial with a style for a match that has none. -/
def withStyle (style : Style) (trial : Trial) : Trial :=
  { trial with
    found := trial.found.map fun found => { found with style := found.style.or (some style) } }

end Trial

namespace Grammar

/-- The rank of a rule: above the rank of the context that it includes. -/
def ruleRank (grammar : Grammar) (rule : Rule) : Nat :=
  match rule.includedContext? with
  | some target =>
    if target < grammar.contexts.length then (includeGraph grammar.contexts).rank target + 1 else 0
  | none => 0

/-- The greatest rank of some rules. -/
def rulesRank (grammar : Grammar) : List Rule → Nat
  | [] => 0
  | rule :: rest => max (grammar.ruleRank rule) (grammar.rulesRank rest)

theorem rulesRank_le {grammar : Grammar} {rules : List Rule} {bound : Nat}
    (h : ∀ rule ∈ rules, grammar.ruleRank rule ≤ bound) : grammar.rulesRank rules ≤ bound := by
  induction rules with
  | nil => simp [rulesRank]
  | cons rule rest ih =>
    exact Nat.max_le.2 ⟨h rule (List.mem_cons_self ..),
      ih fun other hother => h other (List.mem_cons_of_mem _ hother)⟩

/-- The rules of a context do not rank above the context. -/
theorem rulesRank_le_rank {grammar : Grammar} {index : Nat} {context : Context}
    (h : grammar.contexts[index]? = some context) :
    grammar.rulesRank context.rules ≤ (includeGraph grammar.contexts).rank index := by
  apply rulesRank_le
  intro rule hrule
  unfold ruleRank
  split
  · next target htarget =>
    split
    · next hsize =>
      apply Graph.rank_lt_of_edge grammar.acyclic _ hsize
      simp only [includeGraph, h, Option.map_some, Option.getD_some]
      exact List.mem_filterMap.2 ⟨rule, hrule, htarget⟩
    · exact Nat.zero_le _
  · exact Nat.zero_le _

/-- A rule that includes a context ranks above the rules of that context. -/
theorem rulesRank_lt_ruleRank {grammar : Grammar} {rule : Rule} {inclusion : Inclusion}
    {context : Context} (hkind : rule.kind = .inclusion inclusion)
    (hcontext : grammar.contexts[inclusion.target]? = some context) :
    grammar.rulesRank context.rules < grammar.ruleRank rule := by
  have hsize : inclusion.target < grammar.contexts.length :=
    (List.getElem?_eq_some_iff.1 hcontext).1
  have := rulesRank_le_rank hcontext
  simp only [ruleRank, Rule.includedContext?, hkind, hsize, if_true]
  omega

theorem lex_of_le_of_lt {n a b c d : Nat} (hab : a ≤ b) (hcd : c < d) :
    Prod.Lex (· < ·) (Prod.Lex (· < ·) (· < ·)) (n, a, c) (n, b, d) := by
  apply Prod.Lex.right
  rcases Nat.lt_or_eq_of_le hab with h | rfl
  · exact Prod.Lex.left _ _ h
  · exact Prod.Lex.right _ hcd

mutual

/-- What a rule gives at a cursor. -/
def tryRule (grammar : Grammar) (rule : Rule) (cursor : Cursor) : Except Fault Trial :=
  if rule.allows cursor then
    match _hkind : rule.kind with
    | .inclusion inclusion =>
      match _hcontext : grammar.contexts[inclusion.target]? with
      | none => .error (.noContext inclusion.target)
      | some context =>
        match grammar.tryRules context.rules cursor with
        | .error fault => .error fault
        | .ok trial =>
          .ok (if inclusion.withStyle then trial.withStyle context.style else trial)
    | _ =>
      match rule.detect cursor with
      | .error fault => .error fault
      | .ok ⟨broken, none⟩ => .ok ⟨broken, none⟩
      | .ok ⟨broken, some (length, captures)⟩ =>
        if _ : rule.children ≠ [] ∧ 0 < length ∧ length < byteLength cursor.rest then
          match _hadvance : cursor.advance? length with
          | none => .error (.splitsCharacter length)
          | some behind =>
            match grammar.tryRules rule.children behind with
            | .error fault => .error fault
            | .ok trial =>
              let extra := (trial.found.map RuleMatch.length).getD 0
              .ok ⟨broken ++ trial.broken, some (rule.toMatch (length + extra) captures)⟩
        else .ok ⟨broken, some (rule.toMatch length captures)⟩
  else .ok {}
termination_by (cursor.rest.length, grammar.ruleRank rule, 0)
decreasing_by
  · exact Prod.Lex.right _ (Prod.Lex.left _ _ (rulesRank_lt_ruleRank _hkind _hcontext))
  · exact Prod.Lex.left _ _ (Cursor.length_rest_lt_of_advance? (And.left (And.right ‹_›)) _hadvance)

/-- What the first of some rules that matches gives at a cursor. -/
def tryRules (grammar : Grammar) (rules : List Rule) (cursor : Cursor) : Except Fault Trial :=
  match rules with
  | [] => .ok {}
  | rule :: rest =>
    match grammar.tryRule rule cursor with
    | .error fault => .error fault
    | .ok trial =>
      if trial.found.isSome then .ok trial
      else
        match grammar.tryRules rest cursor with
        | .error fault => .error fault
        | .ok later => .ok (later.after trial.broken)
termination_by (cursor.rest.length, grammar.rulesRank rules, rules.length)
decreasing_by
  · exact lex_of_le_of_lt (Nat.le_max_left ..) (by simp)
  · exact lex_of_le_of_lt (Nat.le_max_right ..) (by simp)

end

end Grammar

end Highlight
