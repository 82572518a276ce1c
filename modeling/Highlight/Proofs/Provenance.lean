import Highlight.Proofs.Incremental
import Highlight.Proofs.Splicing

/-!
# Where the frames of a stack come from

A stack keeps its contexts and their captured groups, but not what pushed them.  `Visits` follows the
highlighting of a document through all its stacks and keeps beside each of them, as a list of
origins, what pushed each of its frames.  With that it can be said what a frame holds: captured
groups are there for a dynamic context that the match of a pattern has pushed, they are the groups of
that match, and in all other frames there are none (`visits_sound`).

There are six groups.

* Flags.  A switch says by itself whether the context that it pushes is dynamic.  In a built grammar
  it says what the description of that context says (`GrammarDef.declared_of_build`).
* Captured groups.  What a rule detects comes with groups if the rule is a pattern and its switch
  pushes a dynamic context.
* Origins.  `Turn` is a switch that is taken and what it comes from, `Frame.From` what a frame that
  it pushed holds, and `Stack.Sound` the invariant.  `Stack.Sound.apply` is the one place where a
  stack changes.
* Visits.  `Scan.Turns` says which turn a step of a scan takes, there is one at most
  (`Scan.Turns.unique`), and `Visits` has a constructor for each way in which highlighting goes on.
* Ways.  `Spot.Leads` follows highlighting from one place to another.  That highlighting a document
  is such a way is an induction along each of its loops: the steps of a scan, the switches for the
  end of a line, and the lines.
* Documents.  Every stack that highlighting a document computes is visited.
-/

namespace Highlight

/-! ## Flags -/

theorem ContextTable.getElem?_of_find? {table : ContextTable} {name : String} {context : Nat}
    {dynamic : Bool} (h : table.find? name = some (context, dynamic)) :
    table[context]? = some (name, dynamic) := by
  obtain ⟨index, hindex, hget⟩ := Option.bind_eq_some_iff.1 h
  obtain ⟨entry, hentry, heq⟩ := Option.map_eq_some_iff.1 hget
  cases heq
  obtain ⟨hlt, hname, -⟩ := List.findIdx?_eq_some_iff_getElem.1 hindex
  obtain ⟨_, hsame⟩ := List.getElem?_eq_some_iff.1 hentry
  rw [hsame] at hname
  rw [hentry, ← eq_of_beq hname]

/-- The context that a switch pushes stands in the table, with the name and the flag that the switch
has. -/
def Switch.Declared (table : ContextTable) (switch : Switch) : Prop :=
  ∀ target, switch.target = some target →
    table[target.context]? = some (target.name, target.dynamic)

/-- The switches of a context and of its rules push what stands in the table. -/
structure Context.Declared (table : ContextTable) (context : Context) : Prop where
  rules : ∀ rule ∈ context.rules, rule.switch.Declared table
  lineEnd : context.lineEnd.Declared table
  lineBegin : context.lineBegin.Declared table
  fallthrough : context.fallthrough.Declared table

theorem SwitchOp.declared_resolve {operation : SwitchOp} {owner : String} {table : ContextTable}
    {switch : Switch} (h : (operation.resolve owner table).result = .ok switch) :
    switch.Declared table := by
  unfold SwitchOp.resolve at h
  split at h
  · cases h
    intro target htarget
    cases htarget
  · next name hname =>
    split at h
    · cases h
    · next context dynamic hfound =>
      cases h
      intro target htarget
      cases htarget
      exact ContextTable.getElem?_of_find? hfound

namespace Resolver

variable {resolver : Resolver}

theorem declared_switch {context operation : String} {switch : Switch}
    (h : (resolver.switch context operation).result = .ok switch) :
    switch.Declared resolver.contexts := by
  obtain ⟨parsed, -, hresolve⟩ := Reported.andThen_eq_ok_iff.1 h
  exact SwitchOp.declared_resolve hresolve

theorem declared_rule {context : String} {contextStyle : Style} {written : RuleDef} {rule : Rule}
    (h : (resolver.rule context contextStyle written).result = .ok rule) :
    rule.switch.Declared resolver.contexts := by
  obtain ⟨kind, options, children⟩ := written
  rw [Resolver.rule] at h
  obtain ⟨resolved, -, h⟩ := Reported.andThen_eq_ok_iff.1 h
  obtain ⟨extending, -, h⟩ := Reported.andThen_eq_ok_iff.1 h
  obtain ⟨style, -, h⟩ := Reported.andThen_eq_ok_iff.1 h
  obtain ⟨switch, hswitch, h⟩ := Reported.andThen_eq_ok_iff.1 h
  cases h
  exact declared_switch hswitch

theorem declared_rules {context : String} {contextStyle : Style} {written : List RuleDef}
    {rules : List Rule} (h : (resolver.rules context contextStyle written).result = .ok rules) :
    ∀ rule ∈ rules, rule.switch.Declared resolver.contexts := by
  induction written generalizing rules with
  | nil =>
    rw [Resolver.rules] at h
    cases h
    intro rule hrule
    cases hrule
  | cons first rest ih =>
    rw [Resolver.rules] at h
    obtain ⟨head, hhead, h⟩ := Reported.andThen_eq_ok_iff.1 h
    obtain ⟨tail, htail, h⟩ := Reported.andThen_eq_ok_iff.1 h
    cases h
    intro rule hrule
    rcases List.mem_cons.1 hrule with rfl | hrule
    · exact declared_rule hhead
    · exact ih htail rule hrule

/-- A context is resolved under its name. -/
theorem declared_context {written : ContextDef} {context : Context}
    (h : (resolver.context written).result = .ok context) :
    context.name = written.name ∧ context.Declared resolver.contexts := by
  obtain ⟨style, -, h⟩ := Reported.andThen_eq_ok_iff.1 h
  obtain ⟨fallthrough, hfallthrough, h⟩ := Reported.andThen_eq_ok_iff.1 h
  obtain ⟨rules, hrules, h⟩ := Reported.andThen_eq_ok_iff.1 h
  obtain ⟨lineEnd, hlineEnd, h⟩ := Reported.andThen_eq_ok_iff.1 h
  obtain ⟨lineBegin, hlineBegin, h⟩ := Reported.andThen_eq_ok_iff.1 h
  cases h
  exact ⟨rfl, declared_rules hrules, declared_switch hlineEnd, declared_switch hlineBegin,
    declared_switch hfallthrough⟩

end Resolver

namespace GrammarDef

/-- The context with a number was described as dynamic. -/
def Dynamic (description : GrammarDef) (index : Nat) : Prop :=
  ∃ written, description.contexts[index]? = some written ∧ written.dynamic = true

variable {description : GrammarDef} {grammar : Grammar}

/-- A built grammar has the contexts that were described, in their order, and its switches push what
was described. -/
theorem declared_of_build (h : description.build.result = .ok grammar) :
    grammar.contexts.map Context.name = description.contexts.map ContextDef.name ∧
      ∀ context ∈ grammar.contexts, context.Declared description.contextTable := by
  obtain ⟨-, -, styles, -, hcontexts, -⟩ := GrammarDef.build_eq_ok h
  refine ⟨?_, ?_⟩
  · have hnames : List.Forall₂ Eq (description.contexts.map ContextDef.name)
        (grammar.contexts.map Context.name) := by
      rw [List.forall₂_map_left_iff, List.forall₂_map_right_iff]
      exact hcontexts.imp fun _ _ hcontext => (Resolver.declared_context hcontext).1.symm
    rw [List.forall₂_eq_eq_eq] at hnames
    exact hnames.symm
  · intro context hcontext
    obtain ⟨index, hindex, rfl⟩ := List.mem_iff_getElem.1 hcontext
    have hlength : description.contexts.length = grammar.contexts.length := hcontexts.length_eq
    have hresult := hcontexts.get (by omega) hindex
    exact (Resolver.declared_context hresult).2

theorem length_contextTable_of_build (h : description.build.result = .ok grammar) :
    description.contextTable.length = grammar.contexts.length := by
  obtain ⟨-, -, styles, -, hcontexts, -⟩ := GrammarDef.build_eq_ok h
  rw [contextTable, List.length_map, hcontexts.length_eq]

theorem getElem?_contextTable {index : Nat} {name : String} {dynamic : Bool}
    (h : description.contextTable[index]? = some (name, dynamic)) :
    dynamic = true ↔ description.Dynamic index := by
  rw [contextTable, List.getElem?_map, Option.map_eq_some_iff] at h
  obtain ⟨written, hwritten, heq⟩ := h
  cases heq
  constructor
  · intro hdynamic
    exact ⟨written, hwritten, hdynamic⟩
  · rintro ⟨other, hother, hdynamic⟩
    rw [hwritten] at hother
    cases hother
    exact hdynamic

end GrammarDef

/-! ## Captured groups -/

/-- The groups that a pattern captures at a cursor. -/
def RegexRule.HasGroups (regex : RegexRule) (cursor : Cursor) (groups : Captures) : Prop :=
  ∃ compiled found, regex.regexAt cursor = .ok compiled ∧
    compiled.search cursor.rest = some found ∧
    groups = found.groups cursor.rest compiled.groupCount

theorem RegexRule.HasGroups.unique {regex : RegexRule} {cursor : Cursor} {groups other : Captures}
    (h : regex.HasGroups cursor groups) (hother : regex.HasGroups cursor other) :
    groups = other := by
  obtain ⟨compiled, found, hcompiled, hfound, rfl⟩ := h
  obtain ⟨compiled', found', hcompiled', hfound', rfl⟩ := hother
  rw [hcompiled] at hcompiled'
  cases hcompiled'
  rw [hfound] at hfound'
  cases hfound'
  rfl

/-- A pattern that finds something gives its groups if they are wanted. -/
theorem RegexRule.exists_hasGroups_of_find {regex : RegexRule} {cursor : Cursor}
    {wantGroups : Bool} {length : Nat} {captures : Option Captures}
    (h : (regex.find cursor wantGroups).found = some (length, captures)) :
    ∃ groups, regex.HasGroups cursor groups ∧
      captures = if wantGroups then some groups else none := by
  unfold find at h
  split at h
  · split at h
    · cases h
    · next compiled hcompiled =>
      split at h
      · cases h
      · next found hfound =>
        simp only at h
        split at h
        · cases h
        · cases h
          exact ⟨_, ⟨compiled, found, hcompiled, hfound, rfl⟩, rfl⟩
  · cases h

/-- What a rule detects comes with groups exactly if the rule is a pattern and its switch pushes a
dynamic context, and then with those that the pattern captures. -/
theorem Rule.captures_eq_some_iff_of_detect {rule : Rule} {cursor : Cursor}
    {attempt : Attempt (Nat × Option Captures)} {length : Nat} {captures : Option Captures}
    (hdetect : rule.detect cursor = .ok attempt)
    (hfound : attempt.found = some (length, captures)) (groups : Captures) :
    captures = some groups ↔ rule.switch.pushesDynamic = true ∧
      ∃ regex, rule.kind = .regex regex ∧ regex.HasGroups cursor groups := by
  unfold detect at hdetect
  split at hdetect
  · next regex hkind =>
    cases hdetect
    split at hfound
    · cases hfound
    · obtain ⟨captured, hcaptured, rfl⟩ := RegexRule.exists_hasGroups_of_find hfound
      constructor
      · intro hgroups
        split at hgroups
        · next hdynamic =>
          cases hgroups
          exact ⟨hdynamic, regex, hkind, hcaptured⟩
        · cases hgroups
      · rintro ⟨hdynamic, other, hother, hgroups⟩
        rw [hkind] at hother
        cases hother
        rw [if_pos hdynamic, hcaptured.unique hgroups]
  · next hkind =>
    simp only [bind, Except.bind] at hdetect
    split at hdetect
    · cases hdetect
    · cases hdetect
      obtain ⟨taken, -, heq⟩ := Option.map_eq_some_iff.1 hfound
      cases heq
      constructor
      · intro hgroups
        cases hgroups
      · rintro ⟨-, regex, hregex, -⟩
        exact absurd hregex (hkind regex)

theorem Rule.exists_hasGroups_of_detect {rule : Rule} {regex : RegexRule} {cursor : Cursor}
    {attempt : Attempt (Nat × Option Captures)} {length : Nat} {captures : Option Captures}
    (hkind : rule.kind = .regex regex) (hdetect : rule.detect cursor = .ok attempt)
    (hfound : attempt.found = some (length, captures)) :
    ∃ groups, regex.HasGroups cursor groups := by
  obtain rfl : (if cursor.rest.isEmpty then {} else
      regex.find cursor rule.switch.pushesDynamic) = attempt := by
    rw [detect, hkind] at hdetect
    exact Except.ok.inj hdetect
  split at hfound
  · cases hfound
  · obtain ⟨groups, hgroups, -⟩ := RegexRule.exists_hasGroups_of_find hfound
    exact ⟨groups, hgroups⟩

/-- What a spliced rule finds has the switch of the rule, unless that stays, and the groups that the
rule captures for a dynamic context. -/
theorem Spliced.switch_and_captures_of_finds {grammar : Grammar} {cursor : Cursor}
    {spliced : Spliced} {matched : RuleMatch} (hplain : spliced.rule.includedContext? = none)
    (h : spliced.finds grammar cursor = some matched) :
    (∀ stack, matched.nextStack stack = spliced.rule.switch.apply stack matched.captures) ∧
      ∀ groups, matched.captures = some groups ↔ spliced.rule.switch.pushesDynamic = true ∧
        ∃ regex, spliced.rule.kind = .regex regex ∧ regex.HasGroups cursor groups := by
  obtain ⟨attempt, length, hdetect, hattempt, hswitch, -⟩ := exists_detect_of_finds hplain h
  refine ⟨?_, Rule.captures_eq_some_iff_of_detect hdetect hattempt⟩
  intro stack
  rw [RuleMatch.nextStack, hswitch]
  by_cases hstay : spliced.rule.switch.isStay = true
  · rw [if_pos hstay, Switch.apply_of_isStay hstay]
  · rw [if_neg hstay]

/-! ## Origins -/

/-- What pushed a frame. -/
inductive Origin where
  /-- A document starts with the frame. -/
  | base
  /-- The match of a rule at a cursor. -/
  | rule (rule : Rule) (cursor : Cursor)
  | fallthrough
  | lineEnd
  | lineBegin
  deriving Repr, Inhabited

/-- A switch that is taken, with the groups that it is given and what it comes from. -/
structure Turn where
  switch : Switch
  data : Option Captures
  origin : Origin
  deriving Repr, Inhabited

namespace Turn

/-- The stack behind a turn. -/
def apply (turn : Turn) (stack : Stack) : Stack :=
  turn.switch.apply stack turn.data

/-- The origins of the frames behind a turn, from those of the frames before it. -/
def trace (turn : Turn) (origins : List Origin) : List Origin :=
  origins.take (max 1 (origins.length - turn.switch.pops)) ++
    if turn.switch.target.isSome then [turn.origin] else []

end Turn

/-- What a frame holds that was pushed by something.  Only a pattern leaves groups, only in a dynamic
context, and those are the groups of its match. -/
def Frame.From (description : GrammarDef) (frame : Frame) : Origin → Prop
  | .base => frame = ⟨Grammar.defaultContext, none⟩
  | .rule rule cursor =>
    (rule.switch.target.map Target.context = some frame.context) ∧
      ∀ groups, frame.data = some groups ↔ description.Dynamic frame.context ∧
        ∃ regex, rule.kind = .regex regex ∧ regex.HasGroups cursor groups
  | .fallthrough | .lineEnd | .lineBegin => frame.data = none

/-- The invariant of highlighting: the base is the default context without groups, every context is
one of the grammar, the depth is the number of frames, and each frame holds what its origin has
left. -/
structure Stack.Sound (description : GrammarDef) (grammar : Grammar) (origins : List Origin)
    (stack : Stack) : Prop where
  base : stack.frames.head? = some ⟨Grammar.defaultContext, none⟩
  within : stack.Within grammar.contexts.length
  depth_eq : stack.depth = stack.frames.length
  depth_pos : 1 ≤ stack.depth
  frames : List.Forall₂ (Frame.From description) stack.frames origins

/-- What a turn pushes is described, and the frame holds what the origin of the turn leaves. -/
structure Turn.Sound (description : GrammarDef) (turn : Turn) : Prop where
  declared : turn.switch.Declared description.contextTable
  pushed : ∀ target, turn.switch.target = some target →
    Frame.From description ⟨target.context, if target.dynamic then turn.data else none⟩ turn.origin

variable {description : GrammarDef} {grammar : Grammar}

theorem Switch.frames_apply (switch : Switch) (stack : Stack) (data : Option Captures) :
    (switch.apply stack data).frames = stack.frames.take (max 1 (stack.depth - switch.pops)) ++
      (switch.target.map fun target =>
        (⟨target.context, if target.dynamic then data else none⟩ : Frame)).toList := by
  unfold apply
  split
  · next htarget =>
    rw [htarget, Option.map_none, Option.toList_none, List.append_nil, Stack.frames_popMany]
  · next target htarget =>
    rw [htarget, Option.map_some, Option.toList_some, Stack.frames_push, Stack.frames_popMany]

/-- A sound turn keeps the invariant. -/
theorem Stack.Sound.apply (hbuild : description.build.result = .ok grammar) {stack : Stack}
    {origins : List Origin} (h : stack.Sound description grammar origins) {turn : Turn}
    (hturn : turn.Sound description) :
    (turn.apply stack).Sound description grammar (turn.trace origins) := by
  have hlength : origins.length = stack.depth := by
    rw [h.depth_eq, h.frames.length_eq]
  have hwithin : turn.switch.Within grammar.contexts.length := by
    intro target htarget
    rw [← GrammarDef.length_contextTable_of_build hbuild]
    exact (List.getElem?_eq_some_iff.1 (hturn.declared target htarget)).1
  refine ⟨?_, h.within.apply hwithin turn.data, (Stack.length_frames _).symm, ?_, ?_⟩
  · rw [Turn.apply, Switch.frames_apply, List.head?_append, List.head?_take,
      if_neg (by omega), h.base]
    rfl
  · rw [(turn.apply stack).depth_eq]
    exact Nat.succ_pos _
  · rw [Turn.apply, Switch.frames_apply, Turn.trace, hlength]
    refine List.rel_append (List.forall₂_take _ h.frames) ?_
    cases htarget : turn.switch.target with
    | none => exact .nil
    | some target => exact .cons (hturn.pushed target htarget) .nil

theorem Grammar.sound_initialStack (hbuild : description.build.result = .ok grammar) :
    Grammar.initialStack.Sound description grammar [.base] := by
  have hresolved : grammar.Resolved := Grammar.Built.resolved ⟨description, hbuild⟩
  exact ⟨rfl, hresolved.within_initialStack, rfl, Nat.le_refl 1, .cons rfl .nil⟩

/-- A switch without groups leaves none. -/
theorem Turn.sound_of_data_eq_none {turn : Turn}
    (hdeclared : turn.switch.Declared description.contextTable) (hdata : turn.data = none)
    (horigin : ∀ frame : Frame, frame.data = none → Frame.From description frame turn.origin) :
    turn.Sound description := by
  refine ⟨hdeclared, ?_⟩
  intro target htarget
  apply horigin
  rw [hdata, ite_self]

/-! ## Visits -/

/-- What a search finds is what the first member that gives something gives. -/
theorem findSome?_eq_some_iff_find? {α β : Type} {f : α → Option β} {as : List α} {b : β} :
    as.findSome? f = some b ↔ ∃ a, as.find? (fun a => (f a).isSome) = some a ∧ f a = some b := by
  induction as with
  | nil => simp
  | cons a rest ih =>
    cases h : f a with
    | none => simp [h, ih]
    | some c => simp [h, eq_comm]

/-- The turn that a step of a scan takes. -/
inductive Scan.Turns (grammar : Grammar) (leading : Nat) (scan : Scan) : Turn → Prop
  /-- The first rule of the context that finds something, with the inclusions written out, takes
  its switch if it takes text, or else if the switch changes the stack and the limit allows it. -/
  | matched {context : Context} {spliced : Spliced} {matched : RuleMatch}
      (context_eq : grammar.context scan.stack.current = .ok context)
      (first : (grammar.flatten context.rules).find?
        (fun other => (other.finds grammar (scan.cursor grammar leading)).isSome) = some spliced)
      (finds : spliced.finds grammar (scan.cursor grammar leading) = some matched)
      (taken : Consumes (some matched) ∨ Diverts (some matched) scan.stack scan.zeroWidth) :
      Turns grammar leading scan
        ⟨spliced.rule.switch, matched.captures, .rule spliced.rule (scan.cursor grammar leading)⟩
  /-- If no match decides, the fallthrough switch is taken, if it changes the stack and the limit
  allows it. -/
  | fallThrough {context : Context} {found : Option RuleMatch}
      (context_eq : grammar.context scan.stack.current = .ok context)
      (found_eq : found = (grammar.flatten context.rules).findSome?
        (Spliced.finds grammar (scan.cursor grammar leading)))
      (consumes : ¬Consumes found) (diverts : ¬Diverts found scan.stack scan.zeroWidth)
      (fallsThrough : FallsThrough context scan.stack scan.zeroWidth) :
      Turns grammar leading scan ⟨context.fallthrough, none, .fallthrough⟩

namespace Scan

variable {leading : Nat} {scan next : Scan}

/-- A turn that a step takes is sound. -/
theorem Turns.sound (hbuild : description.build.result = .ok grammar) {turn : Turn}
    (h : scan.Turns grammar leading turn) : turn.Sound description := by
  obtain ⟨-, hdeclared⟩ := GrammarDef.declared_of_build hbuild
  cases h with
  | @matched context spliced matched context_eq first finds taken =>
    have hcontext := List.mem_of_getElem? (Grammar.getElem?_of_context context_eq)
    obtain ⟨hplain, hmember⟩ := Grammar.mem_of_mem_flatten (List.mem_of_find?_eq_some first)
    obtain ⟨-, hcaptures⟩ := Spliced.switch_and_captures_of_finds hplain finds
    have hswitch : spliced.rule.switch.Declared description.contextTable := by
      rcases hmember with hmember | ⟨owner, howner, hmember⟩
      · exact (hdeclared context hcontext).rules _ hmember
      · exact (hdeclared owner howner).rules _ hmember
    refine ⟨hswitch, ?_⟩
    intro target htarget
    refine ⟨by rw [htarget, Option.map_some], ?_⟩
    intro groups
    rw [← GrammarDef.getElem?_contextTable (hswitch target htarget)]
    have hpushes : spliced.rule.switch.pushesDynamic = target.dynamic := by
      rw [Switch.pushesDynamic, htarget, Option.any_some]
    rw [hpushes] at hcaptures
    split
    · next hdynamic => exact hcaptures groups
    · next hstatic => simp [hstatic]
  | @fallThrough context found context_eq found_eq consumes diverts fallsThrough =>
    have hcontext := List.mem_of_getElem? (Grammar.getElem?_of_context context_eq)
    exact Turn.sound_of_data_eq_none (hdeclared context hcontext).fallthrough rfl
      fun frame hframe => hframe

/-- A step takes one turn at most. -/
theorem Turns.unique {turn other : Turn} (h : scan.Turns grammar leading turn)
    (hother : scan.Turns grammar leading other) : turn = other := by
  cases h with
  | @matched context spliced matched context_eq first finds taken =>
    have hfound := findSome?_eq_some_iff_find?.2 ⟨spliced, first, finds⟩
    cases hother with
    | matched context_eq' first' finds' taken' =>
      rw [context_eq] at context_eq'
      cases context_eq'
      rw [first] at first'
      cases first'
      rw [finds] at finds'
      cases finds'
      rfl
    | fallThrough context_eq' found_eq' consumes' diverts' fallsThrough' =>
      rw [context_eq] at context_eq'
      cases context_eq'
      rw [hfound] at found_eq'
      cases found_eq'
      exact absurd taken (not_or.2 ⟨consumes', diverts'⟩)
  | @fallThrough context found context_eq found_eq consumes diverts fallsThrough =>
    cases hother with
    | matched context_eq' first' finds' taken' =>
      rw [context_eq] at context_eq'
      cases context_eq'
      rw [findSome?_eq_some_iff_find?.2 ⟨_, first', finds'⟩] at found_eq
      cases found_eq
      exact absurd taken' (not_or.2 ⟨consumes, diverts⟩)
    | fallThrough context_eq' found_eq' consumes' diverts' fallsThrough' =>
      rw [context_eq] at context_eq'
      cases context_eq'
      rfl

/-- What a step does is decided by what the first rule in the flat list of the context finds. -/
theorem exists_follows_first_spliced (hresolved : grammar.Resolved)
    (hstack : scan.stack.Within grammar.contexts.length) (hrest : scan.rest ≠ [])
    (hstep : scan.step grammar leading = .ok next) :
    ∃ context, grammar.context scan.stack.current = .ok context ∧
      scan.Follows context ((grammar.flatten context.rules).findSome?
        (Spliced.finds grammar (scan.cursor grammar leading))) next := by
  obtain ⟨context, trial, hcontext, htrial, hfollows, -⟩ :=
    follows_of_step hresolved hstack hrest hstep
  rw [(firstMatch_of_tryRules htrial).eq_findSome?] at hfollows
  exact ⟨context, hcontext, hfollows⟩

/-- A turn that a step takes leads to the next stack. -/
theorem Turns.stack_eq (hresolved : grammar.Resolved)
    (hstack : scan.stack.Within grammar.contexts.length) (hrest : scan.rest ≠ [])
    (hstep : scan.step grammar leading = .ok next) {turn : Turn}
    (h : scan.Turns grammar leading turn) : next.stack = turn.apply scan.stack := by
  obtain ⟨other, hother, move, moved, notices, hdecides, hperforms, rfl⟩ :=
    exists_follows_first_spliced hresolved hstack hrest hstep
  cases h with
  | @matched context spliced matched context_eq first finds taken =>
    obtain rfl : context = other := by
      rw [context_eq] at hother
      exact Except.ok.inj hother
    obtain ⟨hplain, -⟩ := Grammar.mem_of_mem_flatten (List.mem_of_find?_eq_some first)
    obtain ⟨hswitch, -⟩ := Spliced.switch_and_captures_of_finds hplain finds
    rw [findSome?_eq_some_iff_find?.2 ⟨spliced, first, finds⟩] at hdecides
    rw [Turn.apply, ← hswitch]
    cases hdecides with
    | consume found_eq length =>
      cases found_eq
      cases hperforms
      rfl
    | divert found_eq length changes limit =>
      cases found_eq
      cases hperforms
      rfl
    | fallThrough consumes diverts changes limit => exact absurd taken (not_or.2 ⟨consumes, diverts⟩)
    | pass consumes diverts fallsThrough => exact absurd taken (not_or.2 ⟨consumes, diverts⟩)
  | @fallThrough context found context_eq found_eq consumes diverts fallsThrough =>
    obtain rfl : context = other := by
      rw [context_eq] at hother
      exact Except.ok.inj hother
    rw [← found_eq] at hdecides
    cases hdecides with
    | consume found_eq length => exact absurd ⟨_, found_eq, length⟩ consumes
    | divert found_eq length changes limit =>
      exact absurd ⟨_, found_eq, length, changes, limit⟩ diverts
    | fallThrough consumes diverts changes limit =>
      cases hperforms
      rfl
    | pass consumes diverts passes => exact absurd fallsThrough passes

/-- A step that takes no turn leaves the stack alone. -/
theorem stack_eq_of_not_turns (hresolved : grammar.Resolved)
    (hstack : scan.stack.Within grammar.contexts.length) (hrest : scan.rest ≠ [])
    (hstep : scan.step grammar leading = .ok next)
    (h : ∀ turn, ¬scan.Turns grammar leading turn) : next.stack = scan.stack := by
  obtain ⟨context, hcontext, move, moved, notices, hdecides, hperforms, rfl⟩ :=
    exists_follows_first_spliced hresolved hstack hrest hstep
  have hmatch : ∀ matched, (grammar.flatten context.rules).findSome?
      (Spliced.finds grammar (scan.cursor grammar leading)) = some matched →
      ¬(Consumes (some matched) ∨ Diverts (some matched) scan.stack scan.zeroWidth) := by
    intro matched hmatched htaken
    obtain ⟨spliced, hfirst, hfinds⟩ := findSome?_eq_some_iff_find?.1 hmatched
    exact h _ (.matched hcontext hfirst hfinds htaken)
  cases hdecides with
  | consume found_eq length => exact absurd (.inl ⟨_, rfl, length⟩) (hmatch _ found_eq)
  | divert found_eq length changes limit =>
    exact absurd (.inr ⟨_, rfl, length, changes, limit⟩) (hmatch _ found_eq)
  | fallThrough consumes diverts changes limit =>
    exact absurd (.fallThrough hcontext rfl consumes diverts ⟨changes, limit⟩) (h _)
  | pass consumes diverts fallsThrough =>
    cases hperforms
    rfl

end Scan

/-- A place in the highlighting of a document. -/
inductive Spot where
  /-- Before a line. -/
  | between (stack : Stack)
  /-- In a line. -/
  | scanning (line : List Char) (scan : Scan)
  /-- Behind the text of a line, where so many switches for its end may still be taken. -/
  | ending (limit : Nat) (stack : Stack)
  deriving Repr

/-- The stack at a place. -/
def Spot.stack : Spot → Stack
  | .between stack => stack
  | .scanning _ scan => scan.stack
  | .ending _ stack => stack

/-- The places that highlighting a document from the initial stack comes to, whatever its lines are,
and the origins of the frames of the stack there. -/
inductive Visits (grammar : Grammar) : Spot → List Origin → Prop
  | start : Visits grammar (.between Grammar.initialStack) [.base]
  /-- Any line may be the next one. -/
  | line {stack : Stack} {origins : List Origin} (line : List Char)
      (visits : Visits grammar (.between stack) origins) :
      Visits grammar (.scanning line (Scan.start line stack)) origins
  /-- A step that takes a turn. -/
  | turn {line : List Char} {scan next : Scan} {origins : List Origin} {turn : Turn}
      (visits : Visits grammar (.scanning line scan) origins) (rest : scan.rest ≠ [])
      (step_eq : scan.step grammar (leadingBlanks line) = .ok next)
      (turns : scan.Turns grammar (leadingBlanks line) turn) :
      Visits grammar (.scanning line next) (turn.trace origins)
  /-- A step that takes none. -/
  | pass {line : List Char} {scan next : Scan} {origins : List Origin}
      (visits : Visits grammar (.scanning line scan) origins) (rest : scan.rest ≠ [])
      (step_eq : scan.step grammar (leadingBlanks line) = .ok next)
      (stays : ∀ turn, ¬scan.Turns grammar (leadingBlanks line) turn) :
      Visits grammar (.scanning line next) origins
  /-- A line that is continued hands its stack to the next one. -/
  | continued {line : List Char} {scan : Scan} {origins : List Origin}
      (visits : Visits grammar (.scanning line scan) origins) (rest : scan.rest = [])
      (lineContinue : scan.lineContinue = true) : Visits grammar (.between scan.stack) origins
  | ended {line : List Char} {scan : Scan} {origins : List Origin}
      (visits : Visits grammar (.scanning line scan) origins) (rest : scan.rest = [])
      (lineContinue : scan.lineContinue = false) :
      Visits grammar (.ending lineEndLimit scan.stack) origins
  /-- One switch for the end of the line. -/
  | lineEnd {limit : Nat} {stack : Stack} {context : Context} {origins : List Origin}
      (visits : Visits grammar (.ending (limit + 1) stack) origins)
      (context_eq : grammar.context stack.current = .ok context)
      (changes : context.lineEnd.apply stack none ≠ stack) :
      Visits grammar (.ending limit (context.lineEnd.apply stack none))
        (Turn.trace ⟨context.lineEnd, none, .lineEnd⟩ origins)
  /-- The switch for the beginning of the next line, where no other follows for the end of this
  one. -/
  | lineBegin {limit : Nat} {stack : Stack} {context : Context} {origins : List Origin}
      (visits : Visits grammar (.ending limit stack) origins)
      (context_eq : grammar.context stack.current = .ok context)
      (settled : limit = 0 ∨ context.lineEnd.apply stack none = stack) :
      Visits grammar (.between (context.lineBegin.apply stack none))
        (Turn.trace ⟨context.lineBegin, none, .lineBegin⟩ origins)

/-- The invariant holds at every place that is visited. -/
theorem Visits.sound (hbuild : description.build.result = .ok grammar) {spot : Spot}
    {origins : List Origin} (h : Visits grammar spot origins) :
    spot.stack.Sound description grammar origins := by
  have hresolved : grammar.Resolved := Grammar.Built.resolved ⟨description, hbuild⟩
  obtain ⟨-, hdeclared⟩ := GrammarDef.declared_of_build hbuild
  induction h with
  | start => exact Grammar.sound_initialStack hbuild
  | line line visits ih => exact ih
  | @turn line scan next origins turn visits rest step_eq turns ih =>
    have hstack : next.stack = turn.apply scan.stack :=
      turns.stack_eq hresolved ih.within rest step_eq
    simp only [Spot.stack, hstack]
    exact ih.apply hbuild (turns.sound hbuild)
  | @pass line scan next origins visits rest step_eq stays ih =>
    have hstack : next.stack = scan.stack :=
      Scan.stack_eq_of_not_turns hresolved ih.within rest step_eq stays
    simp only [Spot.stack, hstack]
    exact ih
  | continued visits rest lineContinue ih => exact ih
  | ended visits rest lineContinue ih => exact ih
  | @lineEnd limit stack context origins visits context_eq changes ih =>
    have hcontext := List.mem_of_getElem? (Grammar.getElem?_of_context context_eq)
    have hturn : Turn.Sound description ⟨context.lineEnd, none, .lineEnd⟩ :=
      Turn.sound_of_data_eq_none (hdeclared context hcontext).lineEnd rfl
        fun frame hframe => hframe
    exact ih.apply hbuild hturn
  | @lineBegin limit stack context origins visits context_eq settled ih =>
    have hcontext := List.mem_of_getElem? (Grammar.getElem?_of_context context_eq)
    have hturn : Turn.Sound description ⟨context.lineBegin, none, .lineBegin⟩ :=
      Turn.sound_of_data_eq_none (hdeclared context hcontext).lineBegin rfl
        fun frame hframe => hframe
    exact ih.apply hbuild hturn

/-! ## Ways -/

/-- Highlighting goes on from a place in a line, or behind it, to the next one, with the turn that it
takes there if it takes one. -/
inductive Spot.Step (grammar : Grammar) : Spot → Option Turn → Spot → Prop
  | turn {line : List Char} {scan next : Scan} {turn : Turn} (rest : scan.rest ≠ [])
      (step_eq : scan.step grammar (leadingBlanks line) = .ok next)
      (turns : scan.Turns grammar (leadingBlanks line) turn) :
      Step grammar (.scanning line scan) (some turn) (.scanning line next)
  | pass {line : List Char} {scan next : Scan} (rest : scan.rest ≠ [])
      (step_eq : scan.step grammar (leadingBlanks line) = .ok next)
      (stays : ∀ turn, ¬scan.Turns grammar (leadingBlanks line) turn) :
      Step grammar (.scanning line scan) none (.scanning line next)
  | continued {line : List Char} {scan : Scan} (rest : scan.rest = [])
      (lineContinue : scan.lineContinue = true) :
      Step grammar (.scanning line scan) none (.between scan.stack)
  | ended {line : List Char} {scan : Scan} (rest : scan.rest = [])
      (lineContinue : scan.lineContinue = false) :
      Step grammar (.scanning line scan) none (.ending lineEndLimit scan.stack)
  | lineEnd {limit : Nat} {stack : Stack} {context : Context}
      (context_eq : grammar.context stack.current = .ok context)
      (changes : context.lineEnd.apply stack none ≠ stack) :
      Step grammar (.ending (limit + 1) stack) (some ⟨context.lineEnd, none, .lineEnd⟩)
        (.ending limit (context.lineEnd.apply stack none))
  | lineBegin {limit : Nat} {stack : Stack} {context : Context}
      (context_eq : grammar.context stack.current = .ok context)
      (settled : limit = 0 ∨ context.lineEnd.apply stack none = stack) :
      Step grammar (.ending limit stack) (some ⟨context.lineBegin, none, .lineBegin⟩)
        (.between (context.lineBegin.apply stack none))

/-- Highlighting comes from one place to another.  These lines begin on the way, and no switch that is
taken there reaches so many of the lowest frames. -/
inductive Spot.Leads (grammar : Grammar) (height : Nat) (start : Spot) :
    List (List Char) → Spot → Prop
  | refl : Leads grammar height start [] start
  | line {lines : List (List Char)} {stack : Stack} (line : List Char)
      (leads : Leads grammar height start lines (.between stack)) :
      Leads grammar height start (lines ++ [line]) (.scanning line (Scan.start line stack))
  | step {lines : List (List Char)} {spot next : Spot} {turn : Option Turn}
      (leads : Leads grammar height start lines spot) (step : spot.Step grammar turn next)
      (keeps : ∀ taken ∈ turn, height ≤ max 1 (spot.stack.depth - taken.switch.pops)) :
      Leads grammar height start lines next

theorem Visits.step {spot next : Spot} {origins : List Origin} {turn : Option Turn}
    (h : Visits grammar spot origins) (hstep : spot.Step grammar turn next) :
    Visits grammar next (turn.elim origins fun taken => taken.trace origins) := by
  cases hstep with
  | turn rest step_eq turns => exact h.turn rest step_eq turns
  | pass rest step_eq stays => exact h.pass rest step_eq stays
  | continued rest lineContinue => exact h.continued rest lineContinue
  | ended rest lineContinue => exact h.ended rest lineContinue
  | lineEnd context_eq changes => exact h.lineEnd context_eq changes
  | lineBegin context_eq settled => exact h.lineBegin context_eq settled

/-- Highlighting a document comes to a place. -/
def Visited (grammar : Grammar) (spot : Spot) : Prop :=
  ∃ origins, Visits grammar spot origins

theorem Visited.within (hbuild : description.build.result = .ok grammar) {spot : Spot}
    (h : Visited grammar spot) : spot.stack.Within grammar.contexts.length := by
  obtain ⟨origins, hvisits⟩ := h
  exact (hvisits.sound hbuild).within

theorem Visited.leads {start spot : Spot} {height : Nat} {lines : List (List Char)}
    (hstart : Visited grammar start) (h : start.Leads grammar height lines spot) :
    Visited grammar spot := by
  induction h with
  | refl => exact hstart
  | line line leads ih =>
    obtain ⟨origins, hvisits⟩ := ih
    exact ⟨_, hvisits.line line⟩
  | step leads step keeps ih =>
    obtain ⟨origins, hvisits⟩ := ih
    exact ⟨_, hvisits.step step⟩

namespace Spot.Leads

variable {start : Spot} {lines : List (List Char)}

/-- One more step, where no frames are to be kept. -/
theorem go {spot next : Spot} {turn : Option Turn} (h : start.Leads grammar 0 lines spot)
    (hstep : spot.Step grammar turn next) : start.Leads grammar 0 lines next :=
  h.step hstep fun _ _ => Nat.zero_le _

/-- The way goes on with the steps of a scan. -/
theorem of_reaches {line : List Char} {count : Nat} {scan last : Scan}
    (h : start.Leads grammar 0 lines (.scanning line scan))
    (hreaches : Scan.Reaches grammar (leadingBlanks line) count scan last) :
    start.Leads grammar 0 lines (.scanning line last) := by
  induction hreaches with
  | refl scan => exact h
  | @head count scan next last rest step_eq reaches ih =>
    by_cases hturns : ∃ turn, scan.Turns grammar (leadingBlanks line) turn
    · obtain ⟨turn, hturn⟩ := hturns
      exact ih (h.go (.turn rest step_eq hturn))
    · exact ih (h.go (.pass rest step_eq (not_exists.1 hturns)))

/-- It goes on with the switches for the end of a line, however many are allowed of those that were
left. -/
theorem of_settleLineEnd {rounds left : Nat} {stack settled : Stack} {notices : List Notice}
    (h : start.Leads grammar 0 lines (.ending (rounds + left) stack))
    (hsettles : settleLineEnd grammar rounds stack = .ok (settled, notices)) :
    ∃ limit context, start.Leads grammar 0 lines (.ending limit settled) ∧
      grammar.context settled.current = .ok context ∧
      (limit = left ∨ context.lineEnd.apply settled none = settled) := by
  induction rounds generalizing stack notices with
  | zero =>
    obtain ⟨context, hcontext, rfl, -⟩ := settleLineEnd_zero_eq_ok_iff.1 hsettles
    rw [Nat.zero_add] at h
    exact ⟨left, context, h, hcontext, .inl rfl⟩
  | succ rounds ih =>
    obtain ⟨context, hcontext, hswitch⟩ := settleLineEnd_succ_eq_ok_iff.1 hsettles
    split at hswitch
    · next hsame =>
      obtain ⟨rfl, -⟩ := hswitch
      exact ⟨_, context, h, hcontext, .inr hsame⟩
    · next hchanges =>
      obtain ⟨more, hlater, -⟩ := hswitch
      rw [Nat.succ_add] at h
      exact ih (h.go (.lineEnd hcontext hchanges)) hlater

theorem of_nextLineStack {stack next : Stack} {notices : List Notice}
    (h : start.Leads grammar 0 lines (.ending lineEndLimit stack))
    (hnext : nextLineStack grammar stack = .ok (next, notices)) :
    start.Leads grammar 0 lines (.between next) := by
  obtain ⟨settled, first, context, hsettled, hcontext, rfl, -⟩ := nextLineStack_eq_ok_iff.1 hnext
  have hall : start.Leads grammar 0 lines (.ending (lineEndLimit + 0) stack) := h
  obtain ⟨limit, other, hlast, hother, hend⟩ := hall.of_settleLineEnd hsettled
  obtain rfl : context = other := by
    rw [hcontext] at hother
    exact Except.ok.inj hother
  exact hlast.go (.lineBegin hcontext hend)

/-- A line leads to the stack that it ends with. -/
theorem endStack (hresolved : grammar.Resolved) {line : List Char} {stack : Stack}
    {result : Highlighted} (h : start.Leads grammar 0 lines (.between stack))
    (hstack : stack.Within grammar.contexts.length)
    (hline : highlightLine grammar line stack = .ok result) :
    start.Leads grammar 0 (lines ++ [line]) (.between result.endStack) := by
  obtain ⟨other, count, last, hother, hreaches, hend, hcloses, -⟩ :=
    exists_highlightLine hresolved line hstack
  obtain rfl : result = other := by
    rw [hline] at hother
    exact Except.ok.inj hother
  have hlast := (h.line line).of_reaches hreaches
  cases hcontinue : last.lineContinue with
  | true =>
    rw [hcloses.continued hcontinue]
    exact hlast.go (.continued hend hcontinue)
  | false =>
    obtain ⟨notices, hnext⟩ := hcloses.ended hcontinue
    exact (hlast.go (.ended hend hcontinue)).of_nextLineStack hnext

/-- Highlighting some lines succeeds and leads to the stack behind the last of them. -/
theorem exists_highlightDocument (hbuild : description.build.result = .ok grammar) {stack : Stack}
    (hstart : Visited grammar start) (h : start.Leads grammar 0 lines (.between stack))
    (more : List (List Char)) :
    ∃ entries, highlightDocument grammar stack more = .ok entries ∧
      start.Leads grammar 0 (lines ++ more)
        (.between ((entries.getLast?.map LineEntry.endStack).getD stack)) := by
  have hresolved : grammar.Resolved := Grammar.Built.resolved ⟨description, hbuild⟩
  induction more generalizing stack lines with
  | nil =>
    rw [List.append_nil]
    exact ⟨[], rfl, h⟩
  | cons line more ih =>
    have hstack : stack.Within grammar.contexts.length := (hstart.leads h).within hbuild
    obtain ⟨result, -, -, hline, -⟩ := exists_highlightLine hresolved line hstack
    obtain ⟨entries, hentries, hlast⟩ := ih (h.endStack hresolved hstack hline)
    refine ⟨_, highlightDocument_cons hline hentries, ?_⟩
    have hbehind : (((result.entry :: entries).getLast?).map LineEntry.endStack).getD stack =
        (entries.getLast?.map LineEntry.endStack).getD result.endStack := by
      rw [List.getLast?_cons, Option.map_some, Option.getD_some]
      cases entries.getLast? with
      | none => rfl
      | some entry => rfl
    rw [hbehind]
    rw [List.append_assoc] at hlast
    exact hlast

end Spot.Leads

/-! ## Documents -/

namespace Visited

/-- The scans that a visited one comes to are visited. -/
theorem of_reaches {line : List Char} {count : Nat} {scan last : Scan}
    (h : Visited grammar (.scanning line scan))
    (hreaches : Scan.Reaches grammar (leadingBlanks line) count scan last) :
    Visited grammar (.scanning line last) :=
  h.leads (Spot.Leads.refl.of_reaches hreaches)

/-- So are the stacks that the switches for the end of a line lead to. -/
theorem of_settleLineEnd {rounds left : Nat} {stack settled : Stack} {notices : List Notice}
    (h : Visited grammar (.ending (rounds + left) stack))
    (hsettles : settleLineEnd grammar rounds stack = .ok (settled, notices)) :
    ∃ limit context, Visited grammar (.ending limit settled) ∧
      grammar.context settled.current = .ok context ∧
      (limit = left ∨ context.lineEnd.apply settled none = settled) := by
  obtain ⟨limit, context, hleads, hsettled⟩ := Spot.Leads.refl.of_settleLineEnd hsettles
  exact ⟨limit, context, h.leads hleads, hsettled⟩

/-- The stack that a line ends with is visited if the one it starts with is. -/
theorem endStack (hresolved : grammar.Resolved) {line : List Char} {stack : Stack}
    {result : Highlighted} (h : Visited grammar (.between stack))
    (hstack : stack.Within grammar.contexts.length)
    (hline : highlightLine grammar line stack = .ok result) :
    Visited grammar (.between result.endStack) :=
  h.leads (Spot.Leads.refl.endStack hresolved hstack hline)

/-- Highlighting some lines succeeds and comes to the stack behind the last of them. -/
theorem exists_highlightDocument (hbuild : description.build.result = .ok grammar) {start : Stack}
    (h : Visited grammar (.between start)) (lines : List (List Char)) :
    ∃ entries, highlightDocument grammar start lines = .ok entries ∧
      Visited grammar (.between ((entries.getLast?.map LineEntry.endStack).getD start)) := by
  obtain ⟨entries, hentries, hleads⟩ := Spot.Leads.exists_highlightDocument hbuild h .refl lines
  exact ⟨entries, hentries, h.leads hleads⟩

end Visited

/-- Highlighting a document with a built grammar, whatever its lines are, has at every place a stack
whose base is the first context that was described, without groups, whose contexts are all in the
grammar, and whose frames hold what pushed them has left.  The places are those of `Visits`, and
these are all that highlighting comes to: each scan of each line, each stack on the way through the
switches for its end, and the stack for the next line. -/
theorem visits_sound (hbuild : description.build.result = .ok grammar) :
    grammar.contexts.map Context.name = description.contexts.map ContextDef.name ∧
      (∀ spot origins, Visits grammar spot origins →
        spot.stack.Sound description grammar origins) ∧
      ∀ lines line, ∃ entries result,
        highlightDocument grammar Grammar.initialStack lines = .ok entries ∧
        highlightLine grammar line (stackBehind entries.getLast?) = .ok result ∧
        (∀ count scan, Scan.Reaches grammar (leadingBlanks line) count
            (Scan.start line (stackBehind entries.getLast?)) scan →
          Visited grammar (.scanning line scan) ∧
            (scan.rest = [] → scan.lineContinue = false → ∀ rounds ≤ lineEndLimit,
              ∃ settled notices limit,
                settleLineEnd grammar rounds scan.stack = .ok (settled, notices) ∧
                Visited grammar (.ending limit settled))) ∧
        Visited grammar (.between result.endStack) := by
  have hresolved : grammar.Resolved := Grammar.Built.resolved ⟨description, hbuild⟩
  refine ⟨(GrammarDef.declared_of_build hbuild).1, fun spot origins => Visits.sound hbuild, ?_⟩
  intro lines line
  have hinitial : Visited grammar (.between Grammar.initialStack) := ⟨_, .start⟩
  obtain ⟨entries, hentries, hvisited⟩ := hinitial.exists_highlightDocument hbuild lines
  have hstack : (stackBehind entries.getLast?).Within grammar.contexts.length :=
    Visited.within hbuild hvisited
  obtain ⟨result, -, -, hline, -⟩ := exists_highlightLine hresolved line hstack
  refine ⟨entries, result, hentries, hline, ?_, hvisited.endStack hresolved hstack hline⟩
  intro count scan hreaches
  obtain ⟨origins, hvisits⟩ := hvisited
  have hscan : Visited grammar (.scanning line scan) :=
    Visited.of_reaches ⟨_, .line line hvisits⟩ hreaches
  refine ⟨hscan, ?_⟩
  intro hrest hended rounds hrounds
  obtain ⟨settled, notices, hsettled, -⟩ :=
    exists_settleLineEnd hresolved rounds (hscan.within hbuild)
  obtain ⟨behind, hlast⟩ := hscan
  have hending : Visited grammar (.ending (rounds + (lineEndLimit - rounds)) scan.stack) := by
    rw [Nat.add_sub_of_le hrounds]
    exact ⟨_, .ended hlast hrest hended⟩
  obtain ⟨limit, -, hsettledVisited, -⟩ := hending.of_settleLineEnd hsettled
  exact ⟨settled, notices, limit, hsettled, hsettledVisited⟩

/-- A small language with a dynamic context: a tag opens a part that knows the letter of the tag. -/
def taggedText : GrammarDef where
  name := "Tagged text"
  contexts :=
    [{ name := "Text"
       rules :=
        [{ kind := .regex ['<', '(', 'a', '|', 'b', ')', '>']
           options := { switch := "Tagged", dynamic := true } }] },
      { name := "Tagged", dynamic := true, lineEnd := "#pop" }]

namespace TaggedText

/-- The pattern of a tag, which is compiled where it is tried. -/
def pattern : RegexRule where
  text := ['<', '(', 'a', '|', 'b', ')', '>']
  compiled := none
  caseless := false
  minimal := false
  wordStart := false
  lineStart := false

/-- The compiled pattern. -/
def regex : Regex :=
  let letter (c : Char) : Regex.Pattern := .char {} (.range c c)
  ⟨.seq (.look .textStart) (.seq (letter '<')
    (.seq (.group 1 (.alt (letter 'a') (letter 'b'))) (letter '>'))), 2⟩

/-- The rule for a tag, resolved. -/
def tag : Rule :=
  { RuleKind.toRule (.regex pattern) with
    switch := ⟨0, some ⟨1, "Tagged", true⟩⟩, dynamic := true }

def text : Context :=
  .ofRules "Text" [tag]

def tagged : Context :=
  { Context.ofRules "Tagged" [] with dynamic := true, lineEnd := ⟨1, none⟩ }

theorem exists_build : ∃ grammar, taggedText.build.result = .ok grammar ∧
    grammar.contexts = [text, tagged] := by
  obtain ⟨grammar, hbuild, hcontexts, -⟩ :=
    @GrammarDef.exists_build taggedText [] [text, tagged] (by simp [taggedText]) (by decide) rfl
      rfl (by decide)
  exact ⟨grammar, hbuild, hcontexts⟩

theorem compile_pattern : Regex.compile pattern.text false false = .ok regex := by
  have hsome : (Regex.compile pattern.text false false).toOption = some regex := by
    decide +kernel
  cases hcompile : Regex.compile pattern.text false false with
  | error error =>
    rw [hcompile] at hsome
    cases hsome
  | ok compiled =>
    rw [hcompile] at hsome
    rw [Option.some.inj hsome]

/-- The start of a line with a tag. -/
def start : Scan :=
  Scan.start ['<', 'a', '>', 'x'] Grammar.initialStack

/-- The match of the tag, with its letter. -/
def tagMatch : RuleMatch :=
  tag.toMatch 3 (some [['<', 'a', '>'], ['a']])

theorem find_pattern (grammar : Grammar) :
    pattern.find (start.cursor grammar 0) true = ⟨[], some (3, some [['<', 'a', '>'], ['a']])⟩ := by
  have hanchors : pattern.anchorsHold (start.cursor grammar 0) = true := rfl
  have hfilled : fillIn (fun index => Regex.escape ((start.cursor grammar 0).capture index))
      pattern.text = pattern.text := rfl
  have hregex : pattern.regexAt (start.cursor grammar 0) = .ok regex := by
    rw [RegexRule.regexAt, hfilled]
    simp only [show pattern.compiled = none from rfl, show pattern.caseless = false from rfl,
      show pattern.minimal = false from rfl, compile_pattern]
  have hsearch : regex.search (start.cursor grammar 0).rest =
      some ⟨0, 3, ⟨[(1, 1)], [(1, 1, 2)]⟩⟩ := by
    show regex.search ['<', 'a', '>', 'x'] = _
    decide +kernel
  simp only [RegexRule.find, hanchors, hregex, hsearch, if_true]
  rfl

theorem finds_tag (grammar : Grammar) :
    (Spliced.plain tag).finds grammar (start.cursor grammar 0) = some tagMatch := by
  have hdetect : tag.detect (start.cursor grammar 0) =
      .ok ⟨[], some (3, some [['<', 'a', '>'], ['a']])⟩ :=
    congrArg Except.ok (find_pattern grammar)
  have htrial : grammar.tryRule tag (start.cursor grammar 0) = .ok ⟨[], some tagMatch⟩ := by
    rw [Grammar.tryRule, hdetect]
    rfl
  exact Spliced.finds_plain rfl htrial

/-- The tag takes its turn at the start of the line. -/
theorem turns_start {grammar : Grammar} {others : List Context}
    (hcontexts : grammar.contexts = text :: others) :
    start.Turns grammar 0
      ⟨tag.switch, some [['<', 'a', '>'], ['a']], .rule tag (start.cursor grammar 0)⟩ := by
  have hcontext : grammar.context start.stack.current = .ok text := by
    rw [Grammar.context, hcontexts]
    rfl
  have hflat : grammar.flatten text.rules = [.plain tag] := Grammar.flatten_of_plain rfl
  have hfirst : (grammar.flatten text.rules).find?
      (fun other => (other.finds grammar (start.cursor grammar 0)).isSome) = some (.plain tag) := by
    rw [hflat, List.find?_cons_of_pos]
    rw [finds_tag, Option.isSome_some]
  exact .matched hcontext hfirst (finds_tag grammar) (.inl ⟨tagMatch, rfl, by decide⟩)

end TaggedText

/-- Behind a tag the stack has a frame with the groups of the tag. -/
theorem visits_sound_taggedText :
    ∃ grammar spot origins, taggedText.build.result = .ok grammar ∧
      Visits grammar spot origins ∧
      spot.stack.frames = [⟨0, none⟩, ⟨1, some [['<', 'a', '>'], ['a']]⟩] ∧
      spot.stack.Sound taggedText grammar origins := by
  obtain ⟨grammar, hbuild, hcontexts⟩ := TaggedText.exists_build
  have hresolved : grammar.Resolved := Grammar.Built.resolved ⟨taggedText, hbuild⟩
  have hturns := TaggedText.turns_start hcontexts
  have hrest : TaggedText.start.rest ≠ [] := List.cons_ne_nil _ _
  have hstack : TaggedText.start.stack.Within grammar.contexts.length :=
    hresolved.within_initialStack
  obtain ⟨-, -, next, -, -, hstep, -, -⟩ := Scan.exists_step hresolved 0 hstack hrest
  have hvisits : Visits grammar (.scanning ['<', 'a', '>', 'x'] next) _ :=
    .turn (.line _ .start) hrest hstep hturns
  refine ⟨grammar, _, _, hbuild, hvisits, ?_, (visits_sound hbuild).2.1 _ _ hvisits⟩
  simp only [Spot.stack, hturns.stack_eq hresolved hstack hrest hstep]
  rfl

end Highlight
