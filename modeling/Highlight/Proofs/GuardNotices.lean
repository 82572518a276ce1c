import Highlight.Proofs.LayeredContexts
import Highlight.Proofs.LineBoundaries

/-!
# What the guards report

Two limits keep a line from switching for ever: one on the switches that take no text at one offset
and one on those behind the text.  Each gives a notice (`Notice.isGuard`).  Both notices are decided
by a counter that has reached its limit, and this module says what that comes to.

There are four groups.

* Notices.  All that switches note otherwise is that they pop too much.
* Offsets.  `Scan.Spent` is the state in which the notice is given.  Either a switch is refused
  there (`Scan.Refuses`) or none was wanted any more (`Scan.Idles`): then the last switch that was
  allowed was the last one that there was.  `Scan.mem_notices_of_step` is about one step and
  `Scan.Reaches.mem_notices` about all of them.
* Ends of lines.  The notice is given where every switch that is allowed changes the stack, whether
  or not the stack that they lead to is settled (`mem_notices_of_settleLineEnd`).
* Lines.  `highlightLine_guard_notices` puts both together.  A language in which one line has both
  notices, although no switch is refused and the stack settles, is behind it.
-/

namespace Highlight

/-! ## Notices -/

/-- Whether a notice says that a limit of switches was reached. -/
def Notice.isGuard : Notice → Bool
  | .tooManySwitches .. | .lineEndUnsettled .. => true
  | _ => false

theorem Switch.isGuard_of_mem {switch : Switch} {stack : Stack} {notice : Notice}
    (h : notice ∈ switch.notices stack) : notice.isGuard = false := by
  unfold Switch.notices at h
  split at h
  · rw [List.mem_singleton.1 h]
    rfl
  · cases h

theorem RuleMatch.isGuard_of_mem {matched : RuleMatch} {stack : Stack} {notice : Notice}
    (h : notice ∈ matched.notices stack) : notice.isGuard = false := by
  unfold RuleMatch.notices at h
  split at h
  · exact Switch.isGuard_of_mem h
  · cases h

theorem Switch.not_mem_of_isGuard {switch : Switch} {stack : Stack} {notice : Notice}
    (h : notice.isGuard = true) : notice ∉ switch.notices stack := fun hmem =>
  Bool.false_ne_true ((Switch.isGuard_of_mem hmem).symm.trans h)

theorem RuleMatch.not_mem_of_isGuard {matched : RuleMatch} {stack : Stack} {notice : Notice}
    (h : notice.isGuard = true) : notice ∉ matched.notices stack := fun hmem =>
  Bool.false_ne_true ((RuleMatch.isGuard_of_mem hmem).symm.trans h)

/-! ## Offsets -/

namespace Scan

/-- Some text is left, the rules of the context on top find none to take, and as many switches were
taken at the offset as are allowed there. -/
structure Spent (grammar : Grammar) (leading : Nat) (scan : Scan) (context : Context)
    (found : Option RuleMatch) : Prop where
  rest : scan.rest ≠ []
  context_eq : grammar.contexts[scan.stack.current]? = some context
  found_eq : ∃ trial, grammar.tryRules context.rules (scan.cursor grammar leading) = .ok trial ∧
    trial.found = found
  consumes : ¬Consumes found
  limit : zeroWidthLimit ≤ scan.zeroWidth

/-- The switch of a match that takes no text or the fallthrough switch of the context would change
the stack. -/
def WouldSwitch (scan : Scan) (context : Context) (found : Option RuleMatch) : Prop :=
  (∃ matched, found = some matched ∧ matched.length = 0 ∧
    matched.nextStack scan.stack ≠ scan.stack) ∨
  context.fallthrough.apply scan.stack none ≠ scan.stack

/-- A switch that would change the stack is not taken because the limit is reached. -/
def Refuses (grammar : Grammar) (leading : Nat) (scan : Scan) : Prop :=
  ∃ context found, scan.Spent grammar leading context found ∧ scan.WouldSwitch context found

/-- The limit is reached, but no switch would change the stack. -/
def Idles (grammar : Grammar) (leading : Nat) (scan : Scan) : Prop :=
  ∃ context found, scan.Spent grammar leading context found ∧ ¬scan.WouldSwitch context found

theorem refuses_or_idles {grammar : Grammar} {leading : Nat} {scan : Scan} :
    scan.Refuses grammar leading ∨ scan.Idles grammar leading ↔
      ∃ context found, scan.Spent grammar leading context found := by
  constructor
  · rintro (⟨context, found, hspent, -⟩ | ⟨context, found, hspent, -⟩)
    · exact ⟨context, found, hspent⟩
    · exact ⟨context, found, hspent⟩
  · rintro ⟨context, found, hspent⟩
    by_cases hswitch : scan.WouldSwitch context found
    · exact .inl ⟨context, found, hspent, hswitch⟩
    · exact .inr ⟨context, found, hspent, hswitch⟩

section

variable {notice : Notice} (hguard : notice.isGuard = true)

include hguard

theorem mem_notices_fallThrough {scan : Scan} {context : Context} :
    notice ∈ (scan.fallThrough context).2 ↔
      zeroWidthLimit ≤ scan.zeroWidth ∧ notice = .tooManySwitches scan.offset context.name := by
  unfold fallThrough
  split
  · next hlimit =>
    refine iff_of_false ?_ fun h => by omega
    split
    · exact List.not_mem_nil
    · exact Switch.not_mem_of_isGuard hguard
  · next hlimit =>
    rw [List.mem_singleton]
    exact ⟨fun h => ⟨by omega, h⟩, And.right⟩

/-- The one notice of a guard when a move is chosen. -/
theorem mem_notices_chooseMove {scan : Scan} {context : Context} {found : Option RuleMatch} :
    notice ∈ (scan.chooseMove context found).2 ↔
      ¬Consumes found ∧ zeroWidthLimit ≤ scan.zeroWidth ∧
        notice = .tooManySwitches scan.offset context.name := by
  cases found with
  | none =>
    have hnone : ¬Consumes none := by
      rintro ⟨matched, hmatched, -⟩
      cases hmatched
    rw [chooseMove, mem_notices_fallThrough hguard]
    exact ⟨fun h => ⟨hnone, h⟩, And.right⟩
  | some matched =>
    simp only [chooseMove]
    split
    · next hlength =>
      refine iff_of_false (RuleMatch.not_mem_of_isGuard hguard) ?_
      rintro ⟨hconsumes, -⟩
      exact hconsumes ⟨matched, rfl, hlength⟩
    · next hlength =>
      have hconsumes : ¬Consumes (some matched) := by
        rintro ⟨other, hother, hpos⟩
        cases hother
        exact hlength hpos
      split
      · next hdivert =>
        simp only [Bool.and_eq_true, decide_eq_true_eq] at hdivert
        refine iff_of_false (RuleMatch.not_mem_of_isGuard hguard) ?_
        rintro ⟨-, hlimit, -⟩
        omega
      · rw [List.mem_append, mem_notices_fallThrough hguard]
        constructor
        · rintro (hmem | h)
          · exact absurd hmem (RuleMatch.not_mem_of_isGuard hguard)
          · exact ⟨hconsumes, h⟩
        · exact fun h => .inr h.2

variable {grammar : Grammar} {leading : Nat}

/-- A step gives the notice of the guard where the limit is reached, and nowhere else. -/
theorem mem_notices_of_step {scan next : Scan} (hrest : scan.rest ≠ [])
    (hstep : scan.step grammar leading = .ok next) :
    notice ∈ next.notices ↔ notice ∈ scan.notices ∨ ∃ context found,
      scan.Spent grammar leading context found ∧
        notice = .tooManySwitches scan.offset context.name := by
  obtain ⟨context, trial, moved, hcontext, htrial, hmoved, rfl⟩ := exists_of_step hstep
  have hget := Grammar.getElem?_of_context hcontext
  have hbroken : notice ∉ trial.broken.map Notice.brokenPattern := by
    intro hmem
    obtain ⟨pattern, -, rfl⟩ := List.mem_map.1 hmem
    cases hguard
  have hmem : notice ∈ (moved.note (trial.broken.map .brokenPattern ++
        (scan.chooseMove context trial.found).2)).notices ↔
      notice ∈ (scan.chooseMove context trial.found).2 ∨ notice ∈ scan.notices := by
    rw [note, ← notices_perform hmoved, List.mem_append, List.mem_reverse, List.mem_append,
      or_iff_right hbroken]
  rw [hmem, mem_notices_chooseMove hguard, or_comm]
  refine or_congr_right ⟨?_, ?_⟩
  · rintro ⟨hconsumes, hlimit, hnotice⟩
    exact ⟨context, _, ⟨hrest, hget, ⟨trial, htrial, rfl⟩, hconsumes, hlimit⟩, hnotice⟩
  · rintro ⟨other, _, ⟨-, hother, ⟨second, hsecond, rfl⟩, hconsumes, hlimit⟩, hnotice⟩
    obtain rfl : context = other := Option.some.inj (hget.symm.trans hother)
    obtain rfl : trial = second := Except.ok.inj (htrial.symm.trans hsecond)
    exact ⟨hconsumes, hlimit, hnotice⟩

/-- Along a line the notice is given at the scans at which the limit is reached. -/
theorem Reaches.mem_notices {count : Nat} {scan last : Scan}
    (h : Reaches grammar leading count scan last) (hend : last.rest = []) :
    notice ∈ last.notices ↔ notice ∈ scan.notices ∨ ∃ steps middle context found,
      Reaches grammar leading steps scan middle ∧
        middle.Spent grammar leading context found ∧
        notice = .tooManySwitches middle.offset context.name := by
  induction h with
  | refl scan =>
    constructor
    · exact .inl
    · rintro (hmem | ⟨steps, middle, context, found, hreaches, hspent, -⟩)
      · exact hmem
      · cases hreaches with
        | refl => exact absurd hend hspent.rest
        | head rest => exact absurd hend rest
  | @head count scan next last rest step_eq reaches ih =>
    rw [ih hend, mem_notices_of_step hguard rest step_eq, or_assoc]
    refine or_congr_right ⟨?_, ?_⟩
    · rintro (⟨context, found, hspent, hnotice⟩ | ⟨steps, middle, context, found, hreaches, h⟩)
      · exact ⟨0, scan, context, found, .refl scan, hspent, hnotice⟩
      · exact ⟨steps + 1, middle, context, found, .head rest step_eq hreaches, h⟩
    · rintro ⟨steps, middle, context, found, hreaches, h⟩
      cases hreaches with
      | refl => exact .inl ⟨context, found, h⟩
      | head _ other_eq hlater =>
        obtain rfl := Except.ok.inj (step_eq.symm.trans other_eq)
        exact .inr ⟨_, middle, context, found, hlater, h⟩

end

end Scan

/-! ## Ends of lines -/

/-- Without its first switch a stack takes one switch less to the limit. -/
theorem Grammar.settlesAt_limit_succ_iff {grammar : Grammar} {limit : Nat} {stack : Stack} :
    grammar.SettlesAt (limit + 1) stack (limit + 1) ↔
      ¬grammar.Settled stack ∧ grammar.SettlesAt limit (grammar.afterLineEnd stack) limit := by
  constructor
  · intro h
    refine ⟨h.moves 0 (Nat.succ_pos limit), Nat.le_refl limit, ?_, ?_⟩
    · intro earlier hearlier
      exact h.moves (earlier + 1) (Nat.succ_lt_succ hearlier)
    · intro hless
      exact absurd hless (Nat.lt_irrefl limit)
  · rintro ⟨hmoves, h⟩
    exact h.succ hmoves

theorem mem_notices_of_settleLineEnd {grammar : Grammar} {limit : Nat} {stack settled : Stack}
    {notices : List Notice} (h : settleLineEnd grammar limit stack = .ok (settled, notices))
    {notice : Notice} (hguard : notice.isGuard = true) :
    notice ∈ notices ↔ grammar.SettlesAt limit stack limit ∧ ∃ context,
      grammar.contexts[settled.current]? = some context ∧
        notice = .lineEndUnsettled context.name := by
  induction limit generalizing stack notices with
  | zero =>
    obtain ⟨context, hcontext, rfl, rfl⟩ := settleLineEnd_zero_eq_ok_iff.1 h
    have hget := Grammar.getElem?_of_context hcontext
    obtain ⟨count, hsettles, -⟩ := Grammar.exists_settlesAt h
    obtain rfl : count = 0 := Nat.le_zero.1 hsettles.count_le
    rw [List.mem_singleton]
    constructor
    · exact fun hnotice => ⟨hsettles, context, hget, hnotice⟩
    · rintro ⟨-, other, hother, hnotice⟩
      obtain rfl : context = other := Option.some.inj (hget.symm.trans hother)
      exact hnotice
  | succ limit ih =>
    obtain ⟨context, hcontext, hswitch⟩ := settleLineEnd_succ_eq_ok_iff.1 h
    have hget := Grammar.getElem?_of_context hcontext
    rw [Grammar.settlesAt_limit_succ_iff, Grammar.settled_iff hget]
    split at hswitch
    · next hsame =>
      obtain ⟨-, rfl⟩ := hswitch
      refine iff_of_false (Switch.not_mem_of_isGuard hguard) ?_
      rintro ⟨⟨hmoves, -⟩, -⟩
      exact hmoves hsame
    · next hchanges =>
      obtain ⟨more, hlater, rfl⟩ := hswitch
      rw [← Grammar.afterLineEnd_eq hget] at hlater
      rw [List.mem_append, or_iff_right (Switch.not_mem_of_isGuard hguard), ih hlater,
        and_iff_right hchanges]

/-- Behind a line the notice is given where no stack on the way is settled, up to the limit. -/
theorem mem_notices_of_nextLineStack {grammar : Grammar} {stack next : Stack}
    {notices : List Notice} (h : nextLineStack grammar stack = .ok (next, notices))
    {notice : Notice} (hguard : notice.isGuard = true) :
    notice ∈ notices ↔ grammar.SettlesAt lineEndLimit stack lineEndLimit ∧ ∃ context,
      grammar.contexts[(grammar.afterLineEnd^[lineEndLimit] stack).current]? = some context ∧
        notice = .lineEndUnsettled context.name := by
  obtain ⟨settled, first, context, hsettle, -, -, rfl⟩ := nextLineStack_eq_ok_iff.1 h
  obtain ⟨count, hsettles, rfl⟩ := Grammar.exists_settlesAt hsettle
  rw [List.mem_append, or_iff_left (Switch.not_mem_of_isGuard hguard),
    mem_notices_of_settleLineEnd hsettle hguard]
  refine and_congr_right fun hlimit => ?_
  rw [hsettles.unique hlimit]

/-! ## Lines -/

section

variable {grammar : Grammar} {line : List Char} {stack : Stack} {result : Highlighted} {count : Nat}
  {last : Scan} (hresult : highlightLine grammar line stack = .ok result)
  (hreaches : Scan.Reaches grammar (leadingBlanks line) count (Scan.start line stack) last)
  (hend : last.rest = [])

include hresult hreaches hend

/-- The notice about an offset of a line. -/
theorem tooManySwitches_mem_iff {offset : Nat} {name : String} :
    Notice.tooManySwitches offset name ∈ result.notices ↔ ∃ steps scan context found,
      Scan.Reaches grammar (leadingBlanks line) steps (Scan.start line stack) scan ∧
        scan.Spent grammar (leadingBlanks line) context found ∧ scan.offset = offset ∧
        context.name = name := by
  obtain ⟨ending, hnotices, hclosing⟩ := notices_of_highlightLine hresult hreaches hend
  have hending : Notice.tooManySwitches offset name ∉ ending := by
    split at hclosing
    · rw [hclosing.2]
      exact List.not_mem_nil
    · intro hmem
      obtain ⟨-, context, -, hnotice⟩ := (mem_notices_of_nextLineStack hclosing rfl).1 hmem
      cases hnotice
  rw [hnotices, List.mem_append, or_iff_left hending, List.mem_reverse,
    hreaches.mem_notices rfl hend]
  constructor
  · rintro (hmem | ⟨steps, scan, context, found, hscan, hspent, hnotice⟩)
    · cases hmem
    · cases hnotice
      exact ⟨steps, scan, context, found, hscan, hspent, rfl, rfl⟩
  · rintro ⟨steps, scan, context, found, hscan, hspent, rfl, rfl⟩
    exact .inr ⟨steps, scan, context, found, hscan, hspent, rfl⟩

/-- The notice about the end of a line. -/
theorem lineEndUnsettled_mem_iff {name : String} :
    Notice.lineEndUnsettled name ∈ result.notices ↔ result.lineContinue = false ∧
      grammar.SettlesAt lineEndLimit last.stack lineEndLimit ∧ ∃ context,
        grammar.contexts[(grammar.afterLineEnd^[lineEndLimit] last.stack).current]? = some context ∧
          context.name = name := by
  obtain ⟨ending, hnotices, hclosing⟩ := notices_of_highlightLine hresult hreaches hend
  have hscanned : Notice.lineEndUnsettled name ∉ last.notices := by
    intro hmem
    rcases (hreaches.mem_notices rfl hend).1 hmem with hstart | ⟨_, _, _, _, -, -, hnotice⟩
    · cases hstart
    · cases hnotice
  rw [hnotices, List.mem_append, List.mem_reverse, or_iff_right hscanned]
  split at hclosing
  · next hcontinue =>
    rw [hclosing.2, hcontinue]
    exact iff_of_false List.not_mem_nil fun h => Bool.false_ne_true h.1.symm
  · next hcontinue =>
    have hended : result.lineContinue = false := by simpa using hcontinue
    rw [mem_notices_of_nextLineStack hclosing rfl, and_iff_right hended]
    refine and_congr_right fun _ => exists_congr fun context => and_congr_right fun _ => ?_
    exact ⟨fun hnotice => (Notice.lineEndUnsettled.inj hnotice).symm, fun h => by rw [h]⟩

end

/-- A line of a built grammar notes an offset exactly if the limit is reached there and either a
switch is refused or none would change the stack any more.  It notes its end exactly if the switches
behind it stop at a stack that is not settled or are just as many as are allowed. -/
theorem highlightLine_guard_notices {description : GrammarDef} {grammar : Grammar}
    (hbuild : description.build.result = .ok grammar) (line : List Char) {stack : Stack}
    (hstack : stack.Within grammar.contexts.length) :
    ∃ result count last switches, highlightLine grammar line stack = .ok result ∧
      Scan.Reaches grammar (leadingBlanks line) count (Scan.start line stack) last ∧
      last.rest = [] ∧ grammar.SettlesAt lineEndLimit last.stack switches ∧
      (∀ offset, (∃ name, .tooManySwitches offset name ∈ result.notices) ↔ ∃ steps scan,
        Scan.Reaches grammar (leadingBlanks line) steps (Scan.start line stack) scan ∧
          scan.offset = offset ∧ (scan.Refuses grammar (leadingBlanks line) ∨
            scan.Idles grammar (leadingBlanks line))) ∧
      ((∃ name, .lineEndUnsettled name ∈ result.notices) ↔ result.lineContinue = false ∧
        (¬grammar.Settled (grammar.afterLineEnd^[switches] last.stack) ∨
          switches = lineEndLimit)) := by
  have hresolved : grammar.Resolved := Grammar.Built.resolved ⟨description, hbuild⟩
  obtain ⟨result, count, last, hresult, hreaches, hend, -, -⟩ :=
    exists_highlightLine hresolved line hstack
  obtain ⟨-, hwithin⟩ := hreaches.invariant hresolved (Scan.at_start line stack) hstack
  obtain ⟨settled, notices, hsettle, hsettled⟩ :=
    exists_settleLineEnd hresolved lineEndLimit hwithin
  obtain ⟨switches, hsettles, rfl⟩ := Grammar.exists_settlesAt hsettle
  refine ⟨result, count, last, switches, hresult, hreaches, hend, hsettles, ?_, ?_⟩
  · intro offset
    constructor
    · rintro ⟨name, hnotice⟩
      obtain ⟨steps, scan, context, found, hscan, hspent, hoffset, -⟩ :=
        (tooManySwitches_mem_iff hresult hreaches hend).1 hnotice
      exact ⟨steps, scan, hscan, hoffset, Scan.refuses_or_idles.2 ⟨context, found, hspent⟩⟩
    · rintro ⟨steps, scan, hscan, hoffset, hguard⟩
      obtain ⟨context, found, hspent⟩ := Scan.refuses_or_idles.1 hguard
      exact ⟨context.name, (tooManySwitches_mem_iff hresult hreaches hend).2
        ⟨steps, scan, context, found, hscan, hspent, hoffset, rfl⟩⟩
  · constructor
    · rintro ⟨name, hnotice⟩
      obtain ⟨hended, hlimit, -⟩ := (lineEndUnsettled_mem_iff hresult hreaches hend).1 hnotice
      exact ⟨hended, .inr (hsettles.unique hlimit)⟩
    · rintro ⟨hended, hstops⟩
      have hlimit : switches = lineEndLimit := by
        rcases hstops with hunsettled | hlimit
        · by_contra hne
          exact hunsettled (hsettles.settled (Nat.lt_of_le_of_ne hsettles.count_le hne))
        · exact hlimit
      subst hlimit
      obtain ⟨context, hcontext, -, -⟩ := Grammar.exists_context hresolved hsettled.current_lt
      exact ⟨context.name, (lineEndUnsettled_mem_iff hresult hreaches hend).2
        ⟨hended, hsettles, context, Grammar.getElem?_of_context hcontext, rfl⟩⟩

/-- What that is for one character in the language whose contexts go in circles. -/
theorem highlightLine_guard_notices_swinging :
    ∃ grammar result count last switches, swinging.build.result = .ok grammar ∧
      ((Stack.single 0).push 1 none).Within grammar.contexts.length ∧
      highlightLine grammar ['x'] ((Stack.single 0).push 1 none) = .ok result ∧
      Scan.Reaches grammar 0 count (Scan.start ['x'] ((Stack.single 0).push 1 none)) last ∧
      last.rest = [] ∧ grammar.SettlesAt lineEndLimit last.stack switches ∧
      (∀ offset, (∃ name, .tooManySwitches offset name ∈ result.notices) ↔ ∃ steps scan,
        Scan.Reaches grammar 0 steps (Scan.start ['x'] ((Stack.single 0).push 1 none)) scan ∧
          scan.offset = offset ∧ (scan.Refuses grammar 0 ∨ scan.Idles grammar 0)) ∧
      ((∃ name, .lineEndUnsettled name ∈ result.notices) ↔ result.lineContinue = false ∧
        (¬grammar.Settled (grammar.afterLineEnd^[switches] last.stack) ∨
          switches = lineEndLimit)) := by
  obtain ⟨grammar, hbuild, hlength⟩ := swinging_build
  have hstack : ((Stack.single 0).push 1 none).Within grammar.contexts.length := by
    rw [hlength]
    exact (Stack.within_single (by decide)).push (by decide) none
  obtain ⟨result, count, last, switches, h⟩ := highlightLine_guard_notices hbuild ['x'] hstack
  exact ⟨grammar, result, count, last, switches, hbuild, hstack, h⟩

/-! ### A limit that is just enough -/

/-- A small language in which one context leaves text to the one under it, and that one ends with
its line. -/
def passingText : GrammarDef where
  name := "Passing text"
  contexts :=
    [{ name := "Text" }, { name := "Waiting", lineEnd := "#pop" },
      { name := "Passing", fallthrough := "#pop" }]

namespace PassingText

def text : Context :=
  .ofRules "Text" []

def waiting : Context :=
  { Context.ofRules "Waiting" [] with lineEnd := ⟨1, none⟩ }

def passing : Context :=
  { Context.ofRules "Passing" [] with fallthrough := ⟨1, none⟩ }

theorem exists_build : ∃ grammar, passingText.build.result = .ok grammar ∧
    grammar.contexts = [text, waiting, passing] := by
  obtain ⟨grammar, hbuild, hcontexts, -⟩ :=
    @GrammarDef.exists_build_of_acyclic passingText [] [text, waiting, passing]
      (by simp [passingText]) (by decide) rfl rfl (Graph.firstCycle?_of_increasing (by decide))
  exact ⟨grammar, hbuild, hcontexts⟩

/-- Some frames of one context on a stack. -/
def pile (stack : Stack) (place : Nat) : Nat → Stack
  | 0 => stack
  | count + 1 => (pile stack place count).push place none

/-- As many frames that end with their line as switches are allowed there. -/
def lineStack : Stack :=
  pile (.single 0) 1 lineEndLimit

/-- The scan at the start of a line with some switches taken and some still to take. -/
def switching (taken left : Nat) : Scan :=
  { Scan.start ['x'] (pile lineStack 2 left) with zeroWidth := taken }

theorem within_pile {stack : Stack} {size place : Nat} (hstack : stack.Within size)
    (hplace : place < size) (count : Nat) : (pile stack place count).Within size := by
  induction count with
  | zero => exact hstack
  | succ count ih => exact ih.push hplace none

variable {grammar : Grammar}

/-- The contexts have no rules, so that their fallthrough switches decide. -/
theorem step_eq {scan next : Scan} {leading : Nat} {context : Context}
    (hcontext : grammar.contexts[scan.stack.current]? = some context) (hrules : context.rules = [])
    (hnext : scan.perform context (scan.fallThrough context).1 = .ok next) :
    scan.step grammar leading = .ok (next.note (scan.fallThrough context).2) := by
  have hnone : grammar.tryRules context.rules (scan.cursor grammar leading) = .ok {} := by
    rw [hrules, Grammar.tryRules]
  simp only [Scan.step, Grammar.context_eq_ok hcontext, hnone, Scan.chooseMove, hnext, bind,
    Except.bind]
  rfl

theorem fallThrough_switching {taken left : Nat} (h : taken < zeroWidthLimit) :
    (switching taken (left + 1)).fallThrough passing = (.divert (pile lineStack 2 left), []) := by
  have hpop : passing.fallthrough.apply (switching taken (left + 1)).stack none =
      pile lineStack 2 left := Switch.apply_pop _ none
  have hquiet : passing.fallthrough.notices (switching taken (left + 1)).stack = [] :=
    Switch.notices_pop_push _ _ _
  have hchanges : pile lineStack 2 left ≠ (switching taken (left + 1)).stack :=
    Stack.push_ne _ _ _
  rw [Scan.fallThrough, if_pos (show (switching taken (left + 1)).zeroWidth < _ from h),
    if_neg (by decide)]
  simp only [hpop, hquiet, if_neg hchanges]

section

variable (hcontexts : grammar.contexts = [text, waiting, passing])

include hcontexts

theorem step_switching {taken left : Nat} (h : taken < zeroWidthLimit) :
    (switching taken (left + 1)).step grammar 0 = .ok (switching (taken + 1) left) := by
  have hget : grammar.contexts[(switching taken (left + 1)).stack.current]? = some passing := by
    rw [hcontexts]
    rfl
  have hmove : (switching taken (left + 1)).fallThrough passing =
      (.divert (pile lineStack 2 left), []) := fallThrough_switching h
  have hstep : (switching taken (left + 1)).step grammar 0 = _ :=
    step_eq hget rfl (by rw [hmove]; rfl)
  rwa [hmove] at hstep

theorem reaches_switching {taken left : Nat} (h : taken + left = zeroWidthLimit) :
    Scan.Reaches grammar 0 left (switching taken left) (switching zeroWidthLimit 0) := by
  induction left generalizing taken with
  | zero =>
    rw [← h, Nat.add_zero]
    exact .refl _
  | succ left ih =>
    exact .head (List.cons_ne_nil _ _) (step_switching hcontexts (by omega)) (ih (by omega))

/-- Behind the last switch that is allowed there is none to take. -/
theorem spent_switching : (switching zeroWidthLimit 0).Spent grammar 0 waiting none where
  rest := List.cons_ne_nil _ _
  context_eq := by
    rw [hcontexts]
    rfl
  found_eq := ⟨{}, by rw [show waiting.rules = [] from rfl, Grammar.tryRules], rfl⟩
  consumes := by
    rintro ⟨matched, hmatched, -⟩
    cases hmatched
  limit := Nat.le_refl _

theorem not_refuses {taken left : Nat} (h : taken + left = zeroWidthLimit) :
    ¬(switching taken left).Refuses grammar 0 := by
  rintro ⟨context, found, hspent, hswitch⟩
  have hlimit : zeroWidthLimit ≤ taken := hspent.limit
  obtain rfl : left = 0 := by omega
  obtain rfl : taken = zeroWidthLimit := by omega
  have hown := spent_switching hcontexts
  obtain rfl : waiting = context :=
    Option.some.inj (hown.context_eq.symm.trans hspent.context_eq)
  obtain ⟨trial, htrial, rfl⟩ := hspent.found_eq
  obtain ⟨other, hother, hnone⟩ := hown.found_eq
  obtain rfl : other = trial := Except.ok.inj (hother.symm.trans htrial)
  rcases hswitch with ⟨matched, hmatched, -⟩ | hchanges
  · rw [hnone] at hmatched
    cases hmatched
  · exact hchanges (Switch.apply_of_isStay rfl _ none)

/-- Along the line the frames that pass are taken away one by one, and the others stay. -/
theorem reaches_cases {count taken left : Nat} {last : Scan} (h : taken + left = zeroWidthLimit)
    (hreaches : Scan.Reaches grammar 0 count (switching taken left) last) :
    (∃ taken left, taken + left = zeroWidthLimit ∧ last = switching taken left) ∨
      last.rest = [] ∧ last.stack = lineStack ∧ last.lineContinue = false := by
  induction count generalizing taken left with
  | zero =>
    cases hreaches
    exact .inl ⟨taken, left, h, rfl⟩
  | succ count ih =>
    cases hreaches with
    | head rest step_eq reaches =>
      cases left with
      | succ left =>
        rw [step_switching hcontexts (by omega)] at step_eq
        cases step_eq
        exact ih (by omega) reaches
      | zero =>
        obtain rfl : taken = zeroWidthLimit := h
        have hspent := spent_switching hcontexts
        have hmove : ((switching zeroWidthLimit 0).fallThrough waiting).1 = .pass := by
          rw [Scan.fallThrough, if_neg (show ¬(switching zeroWidthLimit 0).zeroWidth < _ from
            Nat.lt_irrefl zeroWidthLimit)]
        have hstep : (switching zeroWidthLimit 0).step grammar 0 = _ :=
          PassingText.step_eq hspent.context_eq rfl (by rw [hmove]; rfl)
        rw [step_eq] at hstep
        cases hstep
        cases reaches with
        | refl => exact .inr ⟨rfl, rfl, rfl⟩
        | head rest => exact absurd rfl rest

theorem settlesAt_pile (count : Nat) :
    grammar.SettlesAt count (pile (.single 0) 1 count) count ∧
      grammar.afterLineEnd^[count] (pile (.single 0) 1 count) = .single 0 := by
  induction count with
  | zero =>
    refine ⟨⟨Nat.le_refl 0, fun earlier hearlier => ?_, fun hless => ?_⟩, rfl⟩
    · cases hearlier
    · cases hless
  | succ count ih =>
    have hget : grammar.contexts[(pile (.single 0) 1 (count + 1)).current]? = some waiting := by
      rw [hcontexts]
      rfl
    have hpop : waiting.lineEnd.apply (pile (.single 0) 1 (count + 1)) none =
        pile (.single 0) 1 count := Switch.apply_pop _ none
    have hafter := Grammar.afterLineEnd_eq hget
    rw [hpop] at hafter
    rw [Grammar.settlesAt_limit_succ_iff, Grammar.settled_iff hget, hpop,
      Function.iterate_succ_apply, hafter]
    exact ⟨⟨Stack.push_ne _ _ _, ih.1⟩, ih.2⟩

end

/-- A line may have both notices although no switch is refused in it and the switches behind it lead
to a stack that is settled: each time the limit is just as many as there are. -/
theorem exists_needless_notices :
    ∃ grammar result count last, passingText.build.result = .ok grammar ∧
      (pile lineStack 2 zeroWidthLimit).Within grammar.contexts.length ∧
      highlightLine grammar ['x'] (pile lineStack 2 zeroWidthLimit) = .ok result ∧
      Scan.Reaches grammar 0 count (Scan.start ['x'] (pile lineStack 2 zeroWidthLimit)) last ∧
      last.rest = [] ∧
      .tooManySwitches 0 "Waiting" ∈ result.notices ∧
      (¬∃ steps scan,
        Scan.Reaches grammar 0 steps (Scan.start ['x'] (pile lineStack 2 zeroWidthLimit)) scan ∧
          scan.offset = 0 ∧ scan.Refuses grammar 0) ∧
      .lineEndUnsettled "Text" ∈ result.notices ∧
      grammar.SettlesAt lineEndLimit last.stack lineEndLimit ∧
      grammar.Settled (grammar.afterLineEnd^[lineEndLimit] last.stack) := by
  obtain ⟨grammar, hbuild, hcontexts⟩ := exists_build
  have hstack : (pile lineStack 2 zeroWidthLimit).Within grammar.contexts.length := by
    rw [hcontexts]
    exact within_pile (within_pile (Stack.within_single (by decide)) (by decide) _) (by decide) _
  obtain ⟨result, count, last, hresult, hreaches, hend, hcloses, -⟩ :=
    exists_highlightLine (Grammar.Built.resolved ⟨passingText, hbuild⟩) ['x'] hstack
  have hcases : ∀ {count : Nat} {scan : Scan},
      Scan.Reaches grammar 0 count (Scan.start ['x'] (pile lineStack 2 zeroWidthLimit)) scan → _ :=
    fun h => reaches_cases hcontexts (Nat.zero_add zeroWidthLimit) h
  obtain ⟨hlineStack, hended⟩ : last.stack = lineStack ∧ last.lineContinue = false := by
    rcases hcases hreaches with ⟨taken, left, -, rfl⟩ | ⟨-, hlast⟩
    · cases hend
    · exact hlast
  obtain ⟨hsettles, hsettled⟩ := settlesAt_pile hcontexts lineEndLimit
  have htext : grammar.contexts[(Stack.single 0).current]? = some text := by
    rw [hcontexts]
    rfl
  refine ⟨grammar, result, count, last, hbuild, hstack, hresult, hreaches, hend, ?_, ?_, ?_, ?_, ?_⟩
  · have hmiddle := reaches_switching hcontexts (Nat.zero_add zeroWidthLimit)
    exact (tooManySwitches_mem_iff hresult hreaches hend).2
      ⟨_, _, waiting, none, hmiddle, spent_switching hcontexts, rfl, rfl⟩
  · rintro ⟨steps, scan, hscan, -, hrefuses⟩
    rcases hcases hscan with ⟨taken, left, htaken, rfl⟩ | ⟨hrest, -⟩
    · exact not_refuses hcontexts htaken hrefuses
    · obtain ⟨context, found, hspent, -⟩ := hrefuses
      exact hspent.rest hrest
  · refine (lineEndUnsettled_mem_iff hresult hreaches hend).2
      ⟨hcloses.lineContinue.trans hended, ?_, text, ?_, rfl⟩
    · rw [hlineStack]
      exact hsettles
    · rw [hlineStack, show lineStack = pile (.single 0) 1 lineEndLimit from rfl, hsettled, htext]
  · rw [hlineStack]
    exact hsettles
  · rw [hlineStack, show lineStack = pile (.single 0) 1 lineEndLimit from rfl, hsettled]
    exact (Grammar.settled_iff htext).2 (Switch.apply_of_isStay rfl _ none)

end PassingText

end Highlight
