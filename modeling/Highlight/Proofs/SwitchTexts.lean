import Highlight.Proofs.BrokenDescriptions
import Mathlib.Data.List.TakeWhile

/-!
# The text of a switch

A switch is written as text: a number of pops, and behind them nothing, a mark and the name of a
context, or a word that stays; or a name alone.  Reading is greedy, so that a name behind a mark may
begin with anything, and a name alone may not.  This module writes the grammar down without the
reader and shows that reading accepts its texts and no others, and that a switch of a grammar writes
a text that is read back to it (`switchText_grammar`).

There are four groups.

* White space.  `Unicode.TrimsTo` says what is left of a text without the white space at its ends,
  and `Unicode.trimsTo_trim` that there is such a part.
* Pops.  `SwitchOp.countPops_popping` and `SwitchOp.eq_popping_append` say that as many pops are counted as
  the text begins with.
* The grammar.  `SwitchOp.Denotes` has a constructor for each form of a text.  One lemma for each of
  them says what is read, and `SwitchOp.denotes_of_parse` that nothing else is.
* The written form.  `SwitchOp.text` is what a switch writes.  It is in the grammar again, in the form
  that needs no warning (`SwitchOp.parse_text`).
-/

namespace Highlight

/-! ## White space -/

namespace Unicode

/-- A text has no white space at its ends. -/
structure Trimmed (text : List Char) : Prop where
  head : ∀ c ∈ text.head?, isBlank c = false
  last : ∀ c ∈ text.getLast?, isBlank c = false

/-- All of a text but white space at its ends is in a part that has none there. -/
def TrimsTo (text core : List Char) : Prop :=
  Trimmed core ∧ ∃ front back, text = front ++ core ++ back ∧
    (∀ c ∈ front, isBlank c = true) ∧ ∀ c ∈ back, isBlank c = true

variable {text core : List Char}

theorem Trimmed.trimsTo (h : Trimmed text) : TrimsTo text text :=
  ⟨h, [], [], by simp, by simp, by simp⟩

theorem dropBlanks_eq_self (h : ∀ c ∈ text.head?, isBlank c = false) : dropBlanks text = text := by
  cases text with
  | nil => rfl
  | cons c rest => exact List.dropWhile_cons_of_neg (by simp [h c rfl])

theorem exists_dropBlanks (text : List Char) :
    ∃ front, text = front ++ dropBlanks text ∧ ∀ c ∈ front, isBlank c = true :=
  ⟨text.takeWhile isBlank, List.takeWhile_append_dropWhile.symm, fun _ => List.mem_takeWhile_imp⟩

theorem head?_dropBlanks (text : List Char) : ∀ c ∈ (dropBlanks text).head?, isBlank c = false := by
  intro c hc
  have hstop := List.head?_dropWhile_not isBlank text
  rw [show (text.dropWhile isBlank).head? = some c from hc] at hstop
  exact hstop

/-- White space at the ends is dropped, and nothing else. -/
theorem trimsTo_trim (text : List Char) : TrimsTo text (trim text) := by
  obtain ⟨front, hfront, hfrontBlank⟩ := exists_dropBlanks text
  obtain ⟨back, hback, hbackBlank⟩ := exists_dropBlanks (dropBlanks text).reverse
  have hsplit : dropBlanks text = trim text ++ back.reverse := by
    have hreverse := congrArg List.reverse hback
    rw [List.reverse_reverse, List.reverse_append] at hreverse
    exact hreverse
  refine ⟨⟨?_, ?_⟩, front, back.reverse, ?_, hfrontBlank, ?_⟩
  · intro c hc
    apply head?_dropBlanks text
    rw [hsplit, List.head?_append, Option.mem_def.1 hc]
    rfl
  · intro c hc
    apply head?_dropBlanks (dropBlanks text).reverse
    rw [trim, List.getLast?_reverse] at hc
    exact hc
  · rw [List.append_assoc, ← hsplit]
    exact hfront
  · intro c hc
    exact hbackBlank c (List.mem_reverse.1 hc)

/-- There is one such part. -/
theorem TrimsTo.trim_eq (h : TrimsTo text core) : trim text = core := by
  obtain ⟨hcore, front, back, rfl, hfront, hback⟩ := h
  have hdropped : dropBlanks (front ++ core ++ back) = dropBlanks (core ++ back) := by
    rw [List.append_assoc]
    exact List.dropWhile_append_of_pos hfront
  unfold trim
  rw [hdropped]
  cases hshape : core with
  | nil =>
    have hnone : dropBlanks back = [] := List.dropWhile_eq_nil_iff.2 hback
    rw [List.nil_append, hnone]
    rfl
  | cons c rest =>
    have hkept : dropBlanks (core ++ back) = core ++ back := by
      apply dropBlanks_eq_self
      have hhead := hcore.head
      rw [hshape] at hhead ⊢
      exact hhead
    have hreversed : dropBlanks (back.reverse ++ core.reverse) = dropBlanks core.reverse :=
      List.dropWhile_append_of_pos fun d hd => hback d (List.mem_reverse.1 hd)
    have hlast : dropBlanks core.reverse = core.reverse := by
      apply dropBlanks_eq_self
      rw [List.head?_reverse]
      exact hcore.last
    rw [← hshape, hkept, List.reverse_append, hreversed, hlast, List.reverse_reverse]

end Unicode

open Unicode (Trimmed TrimsTo)

namespace SwitchOp

/-! ## Pops -/

/-- The word that pops a context. -/
def popWord : List Char :=
  ['#', 'p', 'o', 'p']

/-- A number of pops, one behind the other. -/
def popping (count : Nat) : List Char :=
  (List.replicate count popWord).flatten

theorem popping_succ (count : Nat) : popping (count + 1) = popWord ++ popping count := rfl

theorem popping_succ' (count : Nat) : popping (count + 1) = popping count ++ popWord := by
  rw [popping, List.replicate_succ', List.flatten_concat, popping]

theorem countPops_popWord (rest : List Char) :
    countPops (popWord ++ rest) = ((countPops rest).1 + 1, (countPops rest).2) := rfl

theorem countPops_of_not_popWord {text : List Char} (h : ¬popWord <+: text) :
    countPops text = (0, text) := by
  unfold countPops
  split
  · next rest => exact absurd ⟨rest, rfl⟩ h
  · rfl

/-- The pops are counted up to what is no pop. -/
theorem countPops_popping {rest : List Char} (h : ¬popWord <+: rest) (count : Nat) :
    countPops (popping count ++ rest) = (count, rest) := by
  induction count with
  | zero => exact countPops_of_not_popWord h
  | succ count ih => rw [popping_succ, List.append_assoc, countPops_popWord, ih]

/-- What is counted stands there, and no pop is left behind it. -/
theorem eq_popping_append (text : List Char) :
    text = popping (countPops text).1 ++ (countPops text).2 ∧ ¬popWord <+: (countPops text).2 := by
  induction text using countPops.induct with
  | case1 rest ih =>
    show popWord ++ rest = popping ((countPops rest).1 + 1) ++ (countPops rest).2 ∧ _
    rw [popping_succ, List.append_assoc, ← ih.1]
    exact ⟨rfl, ih.2⟩
  | case2 text hother =>
    have hnone : ¬popWord <+: text := by
      intro hpop
      obtain ⟨rest, hrest⟩ := hpop
      exact hother rest hrest.symm
    rw [countPops_of_not_popWord hnone]
    exact ⟨rfl, hnone⟩

/-! ## The grammar -/

/-- What a text without white space at its ends means as a switch. -/
inductive Denotes : List Char → SwitchOp → Prop
  /-- Any number of pops, none at all included. -/
  | pops (count : Nat) : Denotes (popping count) ⟨count, none⟩
  /-- The word for staying says nothing more. -/
  | stays (count : Nat) : Denotes (popping count ++ stayText) ⟨count, none⟩
  /-- A mark stands between a pop and a name, which may be any. -/
  | replaces {count : Nat} {name : List Char} (popped : 1 ≤ count) (named : name ≠ []) :
      Denotes (popping count ++ '!' :: name) ⟨count, some (String.ofList name)⟩
  /-- A name alone does not begin like one of the others. -/
  | pushes {name : List Char} (named : name ≠ []) (not_popping : ¬popWord <+: name)
      (not_staying : ¬stayText <+: name) (not_marked : ¬['!'] <+: name) :
      Denotes name ⟨0, some (String.ofList name)⟩

section

variable {text : String}

theorem parse_pops {count : Nat} (h : TrimsTo text.toList (popping count)) :
    parse text = .done ⟨count, none⟩ := by
  have hcount : countPops (popping count) = (count, []) := by
    have hnone : ¬popWord <+: [] := by decide
    have hpops := countPops_popping hnone count
    rwa [List.append_nil] at hpops
  simp only [parse, h.trim_eq, hcount]

theorem parse_stays {count : Nat} (h : TrimsTo text.toList (popping count ++ stayText)) :
    parse text =
      if count = 0 then .done ⟨0, none⟩ else .noted (.stayAfterPop text) ⟨count, none⟩ := by
  have hnone : ¬popWord <+: stayText := by decide
  simp only [parse, h.trim_eq, countPops_popping hnone count]
  simp [stayText]

theorem parse_replaces {count : Nat} {name : List Char} (hcount : 1 ≤ count) (hname : name ≠ [])
    (h : TrimsTo text.toList (popping count ++ '!' :: name)) :
    parse text = .done ⟨count, some (String.ofList name)⟩ := by
  have hnone : ¬popWord <+: '!' :: name := by
    intro hpop
    exact absurd (List.cons_prefix_cons.1 hpop).1 (by decide)
  have hplain : (count == 0 || name.isEmpty) = false := by
    have hpositive : count ≠ 0 := by omega
    simp [hpositive, hname]
  simp only [parse, h.trim_eq, countPops_popping hnone count, hplain]
  rfl

theorem parse_pushes {name : List Char} (hname : name ≠ []) (hpop : ¬popWord <+: name)
    (hstay : ¬stayText <+: name) (hmark : ¬['!'] <+: name) (h : TrimsTo text.toList name) :
    parse text = .done ⟨0, some (String.ofList name)⟩ := by
  have hword : name ≠ stayText := fun heq => hstay (heq ▸ List.prefix_rfl)
  have hplain : stayText.isPrefixOf name = false := by
    rw [Bool.eq_false_iff, ne_eq, List.isPrefixOf_iff_prefix]
    exact hstay
  simp only [parse, h.trim_eq, countPops_of_not_popWord hpop]
  split
  · next _ => exact absurd rfl hname
  · next rest => exact absurd ⟨rest, rfl⟩ hmark
  · simp [hword, hplain]

/-- A text of the grammar is read as what it means. -/
theorem parse_of_denotes {core : List Char} {operation : SwitchOp}
    (hcore : TrimsTo text.toList core) (h : Denotes core operation) :
    (parse text).result = .ok operation := by
  cases h with
  | pops count => rw [parse_pops hcore]; rfl
  | stays count =>
    rw [parse_stays hcore]
    split
    · next hzero => rw [hzero]; rfl
    · rfl
  | replaces popped named => rw [parse_replaces popped named hcore]; rfl
  | pushes named not_popping not_staying not_marked =>
    rw [parse_pushes named not_popping not_staying not_marked hcore]
    rfl

/-- What is read is in the grammar. -/
theorem denotes_of_parse {operation : SwitchOp} (h : (parse text).result = .ok operation) :
    Denotes (Unicode.trim text.toList) operation := by
  obtain ⟨hsplit, hpop⟩ := eq_popping_append (Unicode.trim text.toList)
  unfold parse at h
  generalize countPops (Unicode.trim text.toList) = counted at h hsplit hpop
  obtain ⟨count, rest⟩ := counted
  rw [hsplit]
  dsimp only at h hpop ⊢
  split at h
  · cases h
    rw [List.append_nil]
    exact .pops count
  · next name =>
    split at h
    · cases h
    · next hplain =>
      cases h
      simp only [Bool.or_eq_true, beq_iff_eq, List.isEmpty_iff, not_or] at hplain
      have hpopped : 1 ≤ count := by omega
      exact .replaces hpopped hplain.2
  · next hnil hmark =>
    split at h
    · next hstay =>
      rw [beq_iff_eq.1 hstay]
      have hoperation : operation = ⟨count, none⟩ := by
        split at h
        · next hzero =>
          rw [beq_iff_eq.1 hzero]
          exact (Except.ok.inj h).symm
        · exact (Except.ok.inj h).symm
      rw [hoperation]
      exact .stays count
    · split at h
      · cases h
      · next hplain =>
        cases h
        simp only [Bool.or_eq_true, bne_iff_ne, ne_eq, List.isPrefixOf_iff_prefix, not_or,
          not_not] at hplain
        obtain ⟨rfl, hstay⟩ := hplain
        refine .pushes (fun hempty => hnil hempty) hpop hstay ?_
        intro hmarked
        obtain ⟨name, hname⟩ := hmarked
        exact hmark name hname.symm

/-- A text that is not read is refused as it was written. -/
theorem parse_eq_error (h : ∀ operation, (parse text).result ≠ .ok operation) :
    (parse text).result = .error (.invalidOperation text) := by
  cases hresult : (parse text).result with
  | ok operation => exact absurd hresult (h operation)
  | error error => rw [eq_invalidOperation_of_parse hresult]

end

/-! ## The written form -/

/-- What a switch writes: no word for staying behind a pop. -/
def text : SwitchOp → List Char
  | ⟨0, none⟩ => stayText
  | ⟨count + 1, none⟩ => popping (count + 1)
  | ⟨0, some name⟩ => name.toList
  | ⟨count + 1, some name⟩ => popping (count + 1) ++ '!' :: name.toList

theorem trimmed_stayText : Trimmed stayText := by
  refine ⟨?_, ?_⟩
  · intro c hc
    cases hc
    decide
  · intro c hc
    cases hc
    decide

theorem trimmed_popping_succ (count : Nat) : Trimmed (popping (count + 1)) := by
  refine ⟨?_, ?_⟩
  · intro c hc
    rw [popping_succ] at hc
    cases hc
    decide
  · intro c hc
    rw [popping_succ', List.getLast?_append] at hc
    cases hc
    decide

/-- What is in the grammar is written without white space at its ends, and is read without a
warning. -/
theorem parse_text {core : List Char} {operation : SwitchOp} (hcore : Trimmed core)
    (h : Denotes core operation) {written : String} (hwritten : written.toList = operation.text) :
    parse written = .done operation := by
  have htrims : Trimmed operation.text → TrimsTo written.toList operation.text := by
    intro htrimmed
    rw [hwritten]
    exact htrimmed.trimsTo
  -- The word for staying may have been dropped, or have been put where there was no pop.
  have hstill : ∀ count, Trimmed (text ⟨count, none⟩) ∧
      (TrimsTo written.toList (text ⟨count, none⟩) → parse written = .done ⟨count, none⟩) := by
    intro count
    cases count with
    | zero =>
      refine ⟨trimmed_stayText, fun hstay => ?_⟩
      have hword : TrimsTo written.toList (popping 0 ++ stayText) := hstay
      exact parse_stays hword
    | succ count => exact ⟨trimmed_popping_succ count, fun hpops => parse_pops hpops⟩
  cases h with
  | pops count => exact (hstill count).2 (htrims (hstill count).1)
  | stays count => exact (hstill count).2 (htrims (hstill count).1)
  | @replaces count name popped named =>
    obtain ⟨fewer, rfl⟩ := Nat.exists_eq_add_of_le' popped
    have hsame : text ⟨fewer + 1, some (String.ofList name)⟩ = popping (fewer + 1) ++ '!' :: name := by
      rw [text, String.toList_ofList]
    rw [hsame] at htrims
    exact parse_replaces popped named (htrims hcore)
  | pushes named not_popping not_staying not_marked =>
    have hsame : text ⟨0, some (String.ofList core)⟩ = core := String.toList_ofList
    rw [hsame] at htrims
    exact parse_pushes named not_popping not_staying not_marked (htrims hcore)

/-- Resolving keeps the pops and the name, and does not ask who owns the switch. -/
theorem resolve_eq_ok {operation : SwitchOp} {owner : String} {table : ContextTable}
    {switch : Switch} (h : (operation.resolve owner table).result = .ok switch) :
    operation = ⟨switch.pops, switch.target.map Target.name⟩ ∧
      ∀ other, operation.resolve other table = .done switch := by
  obtain ⟨count, target⟩ := operation
  cases target with
  | none =>
    cases h
    exact ⟨rfl, fun _ => rfl⟩
  | some name =>
    unfold resolve at h ⊢
    dsimp only at h ⊢
    cases hfound : table.find? name with
    | none =>
      rw [hfound] at h
      cases h
    | some found =>
      rw [hfound] at h
      cases h
      exact ⟨rfl, fun _ => rfl⟩

end SwitchOp

/-- A resolved switch is rendered as what was read for it is written. -/
theorem Switch.toList_render (switch : Switch) :
    switch.render.toList = SwitchOp.text ⟨switch.pops, switch.target.map Target.name⟩ := by
  obtain ⟨count, target⟩ := switch
  have hpops : (String.join (List.replicate count "#pop")).toList = SwitchOp.popping count := by
    rw [String.toList_join, SwitchOp.popping, List.flatMap_replicate]
    rfl
  cases target with
  | none =>
    cases count with
    | zero => rfl
    | succ count => exact hpops
  | some target =>
    cases count with
    | zero => rfl
    | succ count =>
      show (String.join (List.replicate (count + 1) "#pop") ++ "!" ++ target.name).toList = _
      rw [String.toList_append, String.toList_append, hpops, List.append_assoc]
      rfl

/-- The text of a switch is read if and only if it is in the grammar apart from white space at its
ends, and is read as what it means there; any other text is refused as it was written.  A switch that
a text is resolved to is rendered as a text that is resolved to it again, without a warning. -/
theorem switchText_grammar :
    (∀ (text : String) (operation : SwitchOp), (SwitchOp.parse text).result = .ok operation ↔
      ∃ core, TrimsTo text.toList core ∧ SwitchOp.Denotes core operation) ∧
    (∀ text : String,
      (¬∃ core operation, TrimsTo text.toList core ∧ SwitchOp.Denotes core operation) →
      (SwitchOp.parse text).result = .error (.invalidOperation text)) ∧
    ∀ (owner : String) (table : ContextTable) (text : String) (switch : Switch),
      (Switch.ofText owner table text).result = .ok switch →
      ∀ other, Switch.ofText other table switch.render = .done switch := by
  have hreads : ∀ (text : String) (operation : SwitchOp),
      (SwitchOp.parse text).result = .ok operation ↔
        ∃ core, TrimsTo text.toList core ∧ SwitchOp.Denotes core operation := by
    intro text operation
    constructor
    · intro h
      exact ⟨_, Unicode.trimsTo_trim text.toList, SwitchOp.denotes_of_parse h⟩
    · intro h
      obtain ⟨core, hcore, hdenotes⟩ := h
      exact SwitchOp.parse_of_denotes hcore hdenotes
  refine ⟨hreads, ?_, ?_⟩
  · intro text hnone
    apply SwitchOp.parse_eq_error
    intro operation hparse
    obtain ⟨core, hcore, hdenotes⟩ := (hreads text operation).1 hparse
    exact hnone ⟨core, operation, hcore, hdenotes⟩
  · intro owner table text switch h other
    obtain ⟨operation, hparse, hresolve⟩ := Reported.andThen_eq_ok_iff.1 h
    obtain ⟨core, hcore, hdenotes⟩ := (hreads text operation).1 hparse
    obtain ⟨hoperation, hresolves⟩ := SwitchOp.resolve_eq_ok hresolve
    have hwritten : switch.render.toList = operation.text := by
      rw [hoperation]
      exact switch.toList_render
    have hagain : SwitchOp.parse switch.render = .done operation :=
      SwitchOp.parse_text hcore.1 hdenotes hwritten
    rw [Switch.ofText, hagain]
    exact hresolves other

/-- A name behind a mark may look like a pop and begin with a blank. -/
theorem switchText_grammar_popLike :
    (Switch.ofText "Text" [("Text", false), (" #pop", true)] "\t#pop#pop! #pop ").result =
        .ok ⟨2, some ⟨1, " #pop", true⟩⟩ ∧
      Switch.ofText "" [("Text", false), (" #pop", true)] "#pop#pop! #pop" =
        .done ⟨2, some ⟨1, " #pop", true⟩⟩ := by
  have hresult :
      (Switch.ofText "Text" [("Text", false), (" #pop", true)] "\t#pop#pop! #pop ").result =
        .ok ⟨2, some ⟨1, " #pop", true⟩⟩ := by rfl
  exact ⟨hresult, switchText_grammar.2.2 _ _ _ _ hresult ""⟩

end Highlight
