import Highlight.Proofs.ReadingAlone

/-!
# Reading a set with a bracket behind the text

A set in square brackets is read part by part (`readSet_eq`), with the open brackets on a stack.  A
part is read up to a round bracket behind the text or takes it up (`goesOnAlone_readSetPart`).  A
round bracket does not close a set, so by induction on the text a set that is accepted ends before
it (`acceptsAlone_readSet`).
-/

namespace Highlight.Regex

/-! ## The start of a set -/

theorem readHyphens_of_ne {flags : Flags} {items : SetItems} {text : List Char}
    (h : ∀ rest, text ≠ '-' :: rest) : readHyphens flags items text = (items, text) := by
  unfold readHyphens
  split
  · next rest => exact absurd rfl (h rest)
  · rfl

theorem readsAlone_readHyphens (flags : Flags) (items : SetItems) (text : List Char) :
    ReadsAlone (readHyphens flags items text) (readHyphens flags items (text ++ [')'])) := by
  induction hn : text.length using Nat.strongRecOn generalizing items text with
  | ind n ih =>
  by_cases hhyphen : ∃ rest, text = '-' :: rest
  · obtain ⟨rest, rfl⟩ := hhyphen
    rw [List.cons_append, readHyphens, readHyphens]
    rcases flags.skip_append rest with hskip | hskip
    · rw [hskip]
      exact .inl (by rw [readHyphens_of_ne (by simp)])
    · rw [hskip]
      have hlength := flags.length_skip_le rest
      exact ih (flags.skip rest).length (by simp at hn; omega) _ (flags.skip rest) rfl
  · have hlong : ∀ rest, text ++ [')'] ≠ '-' :: rest := by
      intro rest heq
      obtain ⟨left, -, htext⟩ := exists_of_cons_eq_append (by decide) heq.symm
      exact hhyphen ⟨left, htext⟩
    rw [readHyphens_of_ne hlong, readHyphens_of_ne fun rest heq => hhyphen ⟨rest, heq⟩]
    exact .inr rfl

/-- The mark at the start of a set that negates it. -/
def readNegation (flags : Flags) (text : List Char) : Bool × List Char :=
  match flags.skip text with
  | '^' :: rest => (true, flags.skip rest)
  | rest => (false, rest)

/-- The members at the start of a set that would mean something else further behind. -/
def readFirstItems (flags : Flags) (text : List Char) : SetItems × List Char :=
  match readHyphens flags {} text with
  | (items, ']' :: rest) =>
    if items.count == 0 then (items.add ⟨.single ']', 0⟩, flags.skip rest)
    else (items, ']' :: rest)
  | (items, rest) => (items, rest)

theorem readSetStart_eq (flags : Flags) (text : List Char) :
    readSetStart flags text =
      ((readNegation flags text).1, readFirstItems flags (readNegation flags text).2) := by
  have hnegation : readSetStart flags text =
      match readHyphens flags {} (readNegation flags text).2 with
      | (items, ']' :: rest) =>
        if items.count == 0 then
          ((readNegation flags text).1, items.add ⟨.single ']', 0⟩, flags.skip rest)
        else ((readNegation flags text).1, items, ']' :: rest)
      | (items, rest) => ((readNegation flags text).1, items, rest) := rfl
  rw [hnegation, readFirstItems]
  split
  · split <;> rfl
  · rfl

theorem readsAlone_readNegation (flags : Flags) (text : List Char) :
    ReadsAlone (readNegation flags text) (readNegation flags (text ++ [')'])) := by
  unfold readNegation
  rcases flags.skip_append text with hskip | hskip
  · rw [hskip]
    exact .inl rfl
  · rw [hskip]
    cases flags.skip text with
    | nil => exact .inr rfl
    | cons c rest =>
      by_cases hcaret : c = '^'
      · subst hcaret
        exact (flags.skip_append rest).imp id fun hleft => congrArg (Prod.mk true) hleft
      · simp [ReadsAlone, hcaret]

theorem readsAlone_readFirstItems (flags : Flags) (text : List Char) :
    ReadsAlone (readFirstItems flags text) (readFirstItems flags (text ++ [')'])) := by
  unfold readFirstItems
  rcases readsAlone_readHyphens flags {} text with hleft | hleft
  · generalize readHyphens flags {} (text ++ [')']) = long at hleft ⊢
    obtain ⟨items, rest⟩ := long
    cases hleft
    exact .inl rfl
  · rw [hleft]
    obtain ⟨items, rest⟩ := readHyphens flags {} text
    cases rest with
    | nil => exact .inr rfl
    | cons c rest =>
      by_cases hbracket : c = ']'
      · subst hbracket
        simp only [List.cons_append]
        split
        · exact (flags.skip_append rest).imp id fun hrest => congrArg (Prod.mk _) hrest
        · exact .inr rfl
      · simp [ReadsAlone, hbracket]

/-- What a set begins with may be nothing but a bracket. -/
theorem readsAlone_readSetStart (flags : Flags) (text : List Char) :
    (readSetStart flags (text ++ [')'])).2.2 = [] ∨
      readSetStart flags (text ++ [')']) =
        ((readSetStart flags text).1, (readSetStart flags text).2.1,
          (readSetStart flags text).2.2 ++ [')']) := by
  simp only [readSetStart_eq]
  rcases readsAlone_readNegation flags text with hnegation | hnegation
  · rw [hnegation]
    exact .inl (by rw [readFirstItems, readHyphens_of_ne (by simp)])
  · rw [hnegation]
    exact (readsAlone_readFirstItems flags (readNegation flags text).2).imp id fun hitems => by
      rw [hitems]

/-- A named class behind its colon and the mark that negates it. -/
def readClassName? (negated : Bool) (text : List Char) : Option (NamedClass × Bool × List Char) :=
  match text.dropWhile fun c => c != ':' with
  | ':' :: ']' :: rest =>
    (NamedClass.byName.lookup (text.takeWhile fun c => c != ':')).map fun kind =>
      (kind, negated, rest)
  | _ => none

theorem readClassName?_append (negated : Bool) (text : List Char) :
    readClassName? negated (text ++ [')']) =
      (readClassName? negated text).map fun (kind, negated, rest) =>
        (kind, negated, rest ++ [')']) := by
  unfold readClassName?
  rcases takeWhile_ne_append (c := ':') (by decide) text with ⟨-, hlong, halone⟩ | ⟨htake, hdrop⟩
  · rw [hlong, halone]
    rfl
  · rw [htake, hdrop]
    match text.dropWhile fun c => c != ':' with
    | [] => rfl
    | [c] => simp
    | c :: d :: rest =>
      by_cases hend : c = ':' ∧ d = ']'
      · obtain ⟨rfl, rfl⟩ := hend
        simp only [List.cons_append, Option.map_map]
        rfl
      · simp only [not_and] at hend
        simp only [List.cons_append]
        split
        · next heq =>
          simp only [List.cons.injEq] at heq
          exact absurd heq.2.1 (hend heq.1)
        · split
          · next heq =>
            simp only [List.cons.injEq] at heq
            exact absurd heq.2.1 (hend heq.1)
          · rfl

theorem readNamedClass?_append (text : List Char) :
    readNamedClass? (text ++ [')']) =
      (readNamedClass? text).map fun (kind, negated, rest) => (kind, negated, rest ++ [')']) := by
  match text with
  | [] => rfl
  | c :: rest =>
    by_cases hcolon : c = ':'
    · subst hcolon
      by_cases hcaret : ∃ others, rest = '^' :: others
      · obtain ⟨others, rfl⟩ := hcaret
        exact readClassName?_append true others
      · rw [List.cons_append, readNamedClass?.eq_2, readNamedClass?.eq_2]
        · exact readClassName?_append false rest
        · exact fun others heq => hcaret ⟨others, heq⟩
        · intro others heq
          obtain ⟨left, -, hrest⟩ := exists_of_cons_eq_append (by decide) heq.symm
          exact hcaret ⟨left, hrest⟩
    · simp [readNamedClass?, hcolon]

theorem readSetOp?_append (c : Char) (text : List Char) :
    readSetOp? c (text ++ [')']) = (readSetOp? c text).map fun (op, rest) => (op, rest ++ [')']) := by
  cases text with
  | nil =>
    by_cases hc : c = ')'
    · subst hc
      rfl
    · simp [readSetOp?, hc]
  | cons d rest =>
    simp only [List.cons_append, readSetOp?]
    split
    · rfl
    · split
      · rfl
      · split
        · rfl
        · split <;> rfl

/-- In a set a word boundary is refused, so it does not matter what is left behind it. -/
theorem acceptsAlone_readSetAtom {flags : Flags} {text rest : List Char} {atom : Atom}
    (h : readSetAtom flags (text ++ [')']) = .ok (atom, rest)) :
    (rest = [] ∨ ∃ left, rest = left ++ [')'] ∧ readSetAtom flags text = .ok (atom, left)) ∨
      ∃ condition, atom = .look condition := by
  match text with
  | [] =>
    cases h
    exact .inl (.inl rfl)
  | c :: behind =>
    by_cases hescape : c = '\\'
    · subst hescape
      rcases acceptsAlone_readEscape h with halone | ⟨condition, inside, hatom, -⟩
      · exact .inl halone
      · exact .inr ⟨condition, hatom⟩
    · rw [List.cons_append, readSetAtom.eq_3 _ _ _ hescape] at h
      cases h
      exact .inl (.inr ⟨behind, rfl, readSetAtom.eq_3 _ _ _ hescape⟩)

/-- The range between two ends, and the text behind it. -/
def closeRange (flags : Flags) (first last : Atom) (rest : List Char) :
    Except PatternError (CharSet × List Char) :=
  match first, last with
  | .literal low _, .literal high _ =>
    if high < low then .error .badClass
    else if !flags.unicode && 128 ≤ high.toNat then .error .splitsCharacters
    else .ok (.range low high, rest)
  | _, _ => .error .badClass

theorem closeRange_of_eq_ok {flags : Flags} {first last : Atom} {rest left : List Char}
    {set : CharSet} (h : closeRange flags first last rest = .ok (set, left)) :
    left = rest ∧ ∀ other, closeRange flags first last other = .ok (set, other) := by
  unfold closeRange at h ⊢
  split at h
  · split at h
    · cases h
    · next horder =>
      split at h
      · cases h
      · next hbasic =>
        cases h
        exact ⟨rfl, fun other => by simp [horder, hbasic]⟩
  · cases h

theorem closeRange_look {flags : Flags} {first : Atom} {condition : Look} {rest : List Char} :
    closeRange flags first (.look condition) rest = .error .badClass := by
  cases first <;> rfl

/-- How a member of a set goes on behind its first end and a hyphen. -/
def readLastEnd (flags : Flags) (first : Atom) (behind text : List Char) :
    Except PatternError (CharSet × List Char) :=
  match text with
  | [] => .error .badClass
  | ']' :: _ | '-' :: _ => do .ok (← first.toSet flags, '-' :: behind)
  | text => do
    let (last, rest) ← readSetAtom flags text
    closeRange flags first last rest

/-- How a member of a set goes on behind its first end. -/
def readRangeEnd (flags : Flags) (first : Atom) (text : List Char) :
    Except PatternError (CharSet × List Char) :=
  match text with
  | [] => .error .badClass
  | '-' :: behind => readLastEnd flags first behind (flags.skip behind)
  | rest => do .ok (← first.toSet flags, rest)

theorem readSetRange_eq (flags : Flags) (text : List Char) :
    readSetRange flags text =
      readSetAtom flags text >>= fun (first, rest) => readRangeEnd flags first (flags.skip rest) :=
  rfl

theorem readLastEnd_look {flags : Flags} {condition : Look} {behind text rest : List Char}
    {set : CharSet} : readLastEnd flags (.look condition) behind text ≠ .ok (set, rest) := by
  intro h
  unfold readLastEnd at h
  split at h
  · cases h
  · cases h
  · cases h
  · obtain ⟨answer, -, h⟩ := bind_eq_ok_iff.1 h
    cases h

theorem readRangeEnd_look {flags : Flags} {condition : Look} {text rest : List Char}
    {set : CharSet} : readRangeEnd flags (.look condition) text ≠ .ok (set, rest) := by
  intro h
  unfold readRangeEnd at h
  split at h
  · cases h
  · exact readLastEnd_look h
  · cases h

theorem acceptsAlone_readLastEnd {flags : Flags} {first : Atom} {behind text rest : List Char}
    {set : CharSet}
    (h : readLastEnd flags first (behind ++ [')']) (text ++ [')']) = .ok (set, rest)) :
    rest = [] ∨
      ∃ left, rest = left ++ [')'] ∧ readLastEnd flags first behind text = .ok (set, left) := by
  by_cases hend : ∃ others, text = ']' :: others ∨ text = '-' :: others
  · refine .inr ⟨'-' :: behind, ?_⟩
    obtain ⟨others, rfl | rfl⟩ := hend
    all_goals
      obtain ⟨other, hother, heq⟩ := bind_eq_ok_iff.1 h
      cases heq
      exact ⟨rfl, bind_eq_ok_iff.2 ⟨set, hother, rfl⟩⟩
  · have hlong : ∀ c others, c ≠ ')' → text ++ [')'] = c :: others → ∃ left, text = c :: left := by
      intro c others hc heq
      obtain ⟨left, -, htext⟩ := exists_of_cons_eq_append hc heq.symm
      exact ⟨left, htext⟩
    rw [readLastEnd.eq_4 _ _ _ _ (by simp)
      (fun others heq => hend ((hlong _ others (by decide) heq).imp fun _ => .inl))
      (fun others heq => hend ((hlong _ others (by decide) heq).imp fun _ => .inr))] at h
    obtain ⟨⟨last, left⟩, hlast, hrange⟩ := bind_eq_ok_iff.1 h
    have hrange : closeRange flags first last left = .ok (set, rest) := hrange
    obtain ⟨rfl, hclose⟩ := closeRange_of_eq_ok hrange
    rcases acceptsAlone_readSetAtom hlast with (hrest | ⟨left, rfl, halone⟩) | ⟨condition, rfl⟩
    · exact .inl hrest
    · have hne : text ≠ [] := by
        rintro rfl
        cases halone
      refine .inr ⟨left, rfl, ?_⟩
      rw [readLastEnd.eq_4 _ _ _ _ hne (fun others heq => hend ⟨others, .inl heq⟩)
        (fun others heq => hend ⟨others, .inr heq⟩)]
      exact bind_eq_ok_iff.2 ⟨_, halone, hclose left⟩
    · rw [closeRange_look] at hrange
      cases hrange

theorem acceptsAlone_readRangeEnd {flags : Flags} {first : Atom} {text rest : List Char}
    {set : CharSet} (h : readRangeEnd flags first (text ++ [')']) = .ok (set, rest)) :
    rest = [] ∨ rest = [')'] ∨
      ∃ left, rest = left ++ [')'] ∧ readRangeEnd flags first text = .ok (set, left) := by
  cases text with
  | nil =>
    obtain ⟨other, -, heq⟩ := bind_eq_ok_iff.1 h
    cases heq
    exact .inr (.inl rfl)
  | cons c behind =>
    by_cases hhyphen : c = '-'
    · subst hhyphen
      simp only [List.cons_append, readRangeEnd] at h ⊢
      rcases flags.skip_append behind with hskip | hskip
      · rw [hskip] at h
        cases h
      · rw [hskip] at h
        exact (acceptsAlone_readLastEnd h).imp id .inr
    · rw [List.cons_append, readRangeEnd.eq_3 _ _ _ (by simp) (by simp [hhyphen])] at h
      obtain ⟨other, hother, heq⟩ := bind_eq_ok_iff.1 h
      cases heq
      refine .inr (.inr ⟨c :: behind, rfl, ?_⟩)
      rw [readRangeEnd.eq_3 _ _ _ (by simp) (by simp [hhyphen])]
      exact bind_eq_ok_iff.2 ⟨set, hother, rfl⟩

theorem acceptsAlone_readSetRange {flags : Flags} {text rest : List Char} {set : CharSet}
    (h : readSetRange flags (text ++ [')']) = .ok (set, rest)) :
    rest = [] ∨ rest = [')'] ∨
      ∃ left, rest = left ++ [')'] ∧ readSetRange flags text = .ok (set, left) := by
  rw [readSetRange_eq] at h ⊢
  obtain ⟨⟨first, behind⟩, hfirst, hend⟩ := bind_eq_ok_iff.1 h
  have hend : readRangeEnd flags first (flags.skip behind) = .ok (set, rest) := hend
  rcases acceptsAlone_readSetAtom hfirst with (rfl | ⟨left, rfl, halone⟩) | ⟨condition, rfl⟩
  · rw [flags.skip_nil] at hend
    cases hend
  · rcases flags.skip_append left with hskip | hskip
    · rw [hskip] at hend
      cases hend
    · rw [hskip] at hend
      refine (acceptsAlone_readRangeEnd hend).imp id (Or.imp id ?_)
      rintro ⟨others, hrest, hrange⟩
      exact ⟨others, hrest, bind_eq_ok_iff.2 ⟨_, halone, hrange⟩⟩
  · exact absurd hend readRangeEnd_look

/-- What reading one part of a set leads to. -/
inductive SetStep where
  /-- The outermost bracket is closed. -/
  | done (item : SetItem)
  | goesOn (frames : List SetFrame) (items : SetItems)

/-- The end of a set behind its bracket. -/
def closeSet (flags : Flags) (frames : List SetFrame) (items : SetItems) (rest : List Char) :
    Except PatternError (SetStep × List Char) :=
  match finishOperation items.toItem frames with
  | (item, .bracket outer negated :: frames) =>
    if negated && !flags.unicode then .error .splitsCharacters
    else
      let item := ⟨.bracket negated item.set, item.depth + 1⟩
      .ok (if frames.isEmpty then .done item else .goesOn frames (outer.add item), rest)
  | _ => .error .badClass

/-- A named class or the start of a set inside a set, behind its bracket. -/
def openSet (flags : Flags) (frames : List SetFrame) (items : SetItems) (rest : List Char) :
    Except PatternError (SetStep × List Char) :=
  match readNamedClass? rest with
  | some (kind, negated, rest') =>
    if negated && !flags.unicode then .error .splitsCharacters
    else if rest'.length < rest.length then
      .ok (.goesOn frames (items.add ⟨.named kind negated, 0⟩), rest')
    else .error .badClass
  | none =>
    let (negated, inner, rest') := readSetStart flags rest
    if rest'.length ≤ rest.length then .ok (.goesOn (.bracket items negated :: frames) inner, rest')
    else .error .badClass

/-- An operation or a member of a set that begins with the character `c`. -/
def readMember (flags : Flags) (frames : List SetFrame) (items : SetItems) (c : Char)
    (rest : List Char) : Except PatternError (SetStep × List Char) :=
  match readSetOp? c rest with
  | some (op, rest') =>
    let (left, frames) := finishOperation items.toItem frames
    if rest'.length ≤ rest.length then .ok (.goesOn (.operation op left :: frames) {}, rest')
    else .error .badClass
  | none =>
    match readSetRange flags (c :: rest) with
    | .error error => .error error
    | .ok (set, rest') =>
      if rest'.length ≤ rest.length then .ok (.goesOn frames (items.add ⟨set, 0⟩), rest')
      else .error .badClass

/-- One part of a set that begins with the character `c`, and the text behind it. -/
def readSetPart (flags : Flags) (frames : List SetFrame) (items : SetItems) (c : Char)
    (rest : List Char) : Except PatternError (SetStep × List Char) :=
  if c == ']' then closeSet flags frames items rest
  else if c == '[' then openSet flags frames items rest
  else readMember flags frames items c rest

/-- A set is read part by part. -/
theorem readSet_eq {flags : Flags} {frames : List SetFrame} {items : SetItems}
    {text rest : List Char} {c : Char} (h : flags.skip text = c :: rest) :
    readSet flags frames items text =
      match readSetPart flags frames items c rest with
      | .error error => .error error
      | .ok (.done item, rest) => .ok (item, rest)
      | .ok (.goesOn frames items, rest) => readSet flags frames items rest := by
  rw [readSet]
  split
  · next hnil =>
    rw [h] at hnil
    cases hnil
  · next d others hcons =>
    rw [h] at hcons
    cases hcons
    grind [readSetPart, closeSet, openSet, readMember]

theorem length_le_of_readSetPart {flags : Flags} {frames : List SetFrame} {items : SetItems}
    {c : Char} {rest left : List Char} {step : SetStep}
    (h : readSetPart flags frames items c rest = .ok (step, left)) : left.length ≤ rest.length := by
  grind [readSetPart, closeSet, openSet, readMember]

/-- As `AcceptsAlone`, for parts of a set: one that goes on may have nothing or only the bracket
left. -/
def GoesOnAlone (alone long : Except PatternError (SetStep × List Char)) : Prop :=
  ∀ step rest, long = .ok (step, rest) →
    (∃ frames items, step = .goesOn frames items ∧ (rest = [] ∨ rest = [')'])) ∨
      ∃ left, rest = left ++ [')'] ∧ alone = .ok (step, left)

theorem goesOnAlone_closeSet (flags : Flags) (frames : List SetFrame) (items : SetItems)
    (text : List Char) :
    GoesOnAlone (closeSet flags frames items text) (closeSet flags frames items (text ++ [')'])) := by
  intro step rest h
  unfold closeSet at h ⊢
  split at h
  · split at h
    · cases h
    · next hnegated =>
      cases h
      exact .inr ⟨text, rfl, by rw [if_neg hnegated]⟩
  · cases h

theorem goesOnAlone_openSet (flags : Flags) (frames : List SetFrame) (items : SetItems)
    (text : List Char) :
    GoesOnAlone (openSet flags frames items text) (openSet flags frames items (text ++ [')'])) := by
  intro step rest h
  unfold openSet at h ⊢
  rw [readNamedClass?_append] at h
  cases hname : readNamedClass? text with
  | some answer =>
    obtain ⟨kind, negated, behind⟩ := answer
    rw [hname] at h
    simp only [Option.map_some, List.length_append, Nat.add_lt_add_iff_right] at h
    split at h
    · cases h
    · next hnegated =>
      split at h
      · next hless =>
        cases h
        exact .inr ⟨behind, rfl, by simp only [if_neg hnegated, if_pos hless]⟩
      · cases h
  | none =>
    rw [hname] at h
    simp only [Option.map_none] at h
    split at h
    · next hle =>
      cases h
      rcases readsAlone_readSetStart flags text with hnil | hstart
      · exact .inl ⟨_, _, rfl, .inl hnil⟩
      · rw [hstart] at hle ⊢
        simp only [List.length_append, Nat.add_le_add_iff_right] at hle
        exact .inr ⟨_, rfl, by simp only [if_pos hle]⟩
    · cases h

theorem goesOnAlone_readMember (flags : Flags) (frames : List SetFrame) (items : SetItems)
    (c : Char) (text : List Char) :
    GoesOnAlone (readMember flags frames items c text)
      (readMember flags frames items c (text ++ [')'])) := by
  intro step rest h
  unfold readMember at h ⊢
  rw [readSetOp?_append] at h
  cases hop : readSetOp? c text with
  | some answer =>
    obtain ⟨op, behind⟩ := answer
    rw [hop] at h
    simp only [Option.map_some, List.length_append, Nat.add_le_add_iff_right] at h
    split at h
    · next hle =>
      cases h
      exact .inr ⟨behind, rfl, by simp only [if_pos hle]⟩
    · cases h
  | none =>
    rw [hop] at h
    simp only [Option.map_none] at h
    split at h
    · cases h
    · next set behind hrange =>
      split at h
      · next hle =>
        cases h
        have hrange : readSetRange flags ((c :: text) ++ [')']) = .ok _ := hrange
        rcases acceptsAlone_readSetRange hrange with hleft | hleft | ⟨behind, rfl, halone⟩
        · exact .inl ⟨_, _, rfl, .inl hleft⟩
        · exact .inl ⟨_, _, rfl, .inr hleft⟩
        · simp only [List.length_append, Nat.add_le_add_iff_right] at hle
          exact .inr ⟨behind, rfl, by simp only [halone, if_pos hle]⟩
      · cases h

theorem goesOnAlone_readSetPart (flags : Flags) (frames : List SetFrame) (items : SetItems)
    (c : Char) (text : List Char) :
    GoesOnAlone (readSetPart flags frames items c text)
      (readSetPart flags frames items c (text ++ [')'])) := by
  unfold readSetPart
  split
  · exact goesOnAlone_closeSet flags frames items text
  · split
    · exact goesOnAlone_openSet flags frames items text
    · exact goesOnAlone_readMember flags frames items c text

/-- A set does not end where nothing is left. -/
theorem readSet_nil {flags : Flags} {frames : List SetFrame} {items : SetItems} {text : List Char}
    (h : flags.skip text = []) : readSet flags frames items text = .error .badClass := by
  rw [readSet]
  split
  · rfl
  · next hcons =>
    rw [h] at hcons
    cases hcons

/-- A set does not end where only a round bracket is left. -/
theorem readSet_bracket {flags : Flags} {frames : List SetFrame} {items : SetItems}
    {text : List Char} (h : flags.skip text = [')']) :
    readSet flags frames items text = .error .badClass := by
  rw [readSet_eq h]
  have hrange : readSetRange flags [')'] = .error .badClass := by
    rw [readSetRange_eq]
    simp [readSetAtom, flags.skip_nil, readRangeEnd, bind, Except.bind]
  simp [readSetPart, readMember, readSetOp?, hrange]

theorem Flags.skip_bracket (flags : Flags) : flags.skip [')'] = [')'] := by
  unfold skip
  split
  · decide
  · rfl

/-- A set in brackets ends before a round bracket behind it. -/
theorem acceptsAlone_readSet {flags : Flags} {frames : List SetFrame} {items : SetItems}
    {text rest : List Char} {item : SetItem}
    (h : readSet flags frames items (text ++ [')']) = .ok (item, rest)) :
    ∃ left, rest = left ++ [')'] ∧ readSet flags frames items text = .ok (item, left) := by
  induction hn : text.length using Nat.strongRecOn generalizing frames items text with
  | ind n ih =>
  have hlength := flags.length_skip_le text
  rcases flags.skip_append text with hskip | hskip
  · rw [readSet_nil hskip] at h
    cases h
  · cases htext : flags.skip text with
    | nil =>
      rw [readSet_bracket (by rw [hskip, htext, List.nil_append])] at h
      cases h
    | cons c behind =>
      rw [htext] at hskip hlength
      rw [readSet_eq hskip] at h
      rw [readSet_eq htext]
      cases hpart : readSetPart flags frames items c (behind ++ [')']) with
      | error error =>
        simp only [List.append_eq] at h
        rw [hpart] at h
        cases h
      | ok answer =>
        obtain ⟨step, left⟩ := answer
        simp only [List.append_eq] at h
        rw [hpart] at h
        rcases goesOnAlone_readSetPart flags frames items c behind step left hpart with
          ⟨frames, items, rfl, rfl | rfl⟩ | ⟨left, rfl, halone⟩
        · cases (readSet_nil flags.skip_nil).symm.trans h
        · cases (readSet_bracket flags.skip_bracket).symm.trans h
        · rw [halone]
          cases step with
          | done item =>
            cases h
            exact ⟨left, rfl, rfl⟩
          | goesOn frames items =>
            have hless := length_le_of_readSetPart halone
            simp only [List.length_cons] at hlength
            exact ih left.length (by omega) h rfl

/-- A set behind its opening bracket. -/
def readBracket (flags : Flags) (text : List Char) : Except PatternError (SetItem × List Char) :=
  let start := readSetStart flags text
  readSet flags [.bracket {} start.1] start.2.1 start.2.2

theorem acceptsAlone_readBracket {flags : Flags} {text rest : List Char} {item : SetItem}
    (h : readBracket flags (text ++ [')']) = .ok (item, rest)) :
    ∃ left, rest = left ++ [')'] ∧ readBracket flags text = .ok (item, left) := by
  unfold readBracket at h ⊢
  rcases readsAlone_readSetStart flags text with hnil | hstart
  · cases (readSet_nil (by rw [hnil, flags.skip_nil])).symm.trans h
  · rw [hstart] at h
    exact acceptsAlone_readSet h

end Highlight.Regex
