import Highlight.Regex.Reader
import Mathlib.Data.List.Basic

/-!
# Reading with a bracket behind the text

A pattern is read one part after another, and a part never looks further than the text that it takes
up.  This file says so for a round bracket behind the text: a reader that accepts the longer text has
read the bracket as well, or it has left the bracket and accepts the text alone with the same answer
(`ReadsAlone`, `AcceptsAlone`).  It goes through the readers of numbers, escapes, heads of groups and
repetitions; sets in brackets follow in `Highlight.Proofs.SetsAlone`.

Two readers do not fit.  A word boundary may be followed by a brace that begins a count, so it can
leave the brace and the bracket where the text alone ends too early
(`acceptsAlone_readWordLook`); reading a count from there fails (`readCounts_bracket`).  And the
flags of a group end at a bracket that they leave (`acceptsAlone_readFlags`).
-/

namespace Highlight.Regex

/-! ## Texts with a bracket behind them -/

theorem skipVerbose_append (inComment : Bool) (text : List Char) :
    skipVerbose inComment (text ++ [')']) = [] ∨
      skipVerbose inComment (text ++ [')']) = skipVerbose inComment text ++ [')'] := by
  induction text generalizing inComment with
  | nil =>
    cases inComment with
    | true => exact .inl rfl
    | false => exact .inr (by decide)
  | cons c rest ih =>
    simp only [List.cons_append, skipVerbose]
    split
    · exact ih _
    · split
      · exact ih _
      · split
        · exact ih _
        · exact .inr rfl

theorem Flags.skip_nil (flags : Flags) : flags.skip [] = [] := by
  unfold skip
  split <;> rfl

/-- What may be skipped at the start of a text does not change with a bracket behind the text, unless
a comment runs up to it. -/
theorem Flags.skip_append (flags : Flags) (text : List Char) :
    flags.skip (text ++ [')']) = [] ∨ flags.skip (text ++ [')']) = flags.skip text ++ [')'] := by
  unfold skip
  split
  · exact skipVerbose_append false text
  · exact .inr rfl

/-- A text that does not start with the bracket starts alike without a bracket behind it. -/
theorem exists_of_cons_eq_append {c : Char} {rest text : List Char} (hc : c ≠ ')')
    (h : c :: rest = text ++ [')']) : ∃ left, rest = left ++ [')'] ∧ text = c :: left := by
  cases text with
  | nil => exact absurd (List.cons.inj h).1 hc
  | cons d left =>
    obtain ⟨rfl, rfl⟩ := List.cons.inj h
    exact ⟨left, rfl, rfl⟩

/-- What a text starts with behind what may be skipped does not change with a bracket behind it. -/
theorem Flags.exists_skip_of_append {flags : Flags} {text rest : List Char} {c : Char}
    (hc : c ≠ ')') (h : flags.skip (text ++ [')']) = c :: rest) :
    ∃ left, rest = left ++ [')'] ∧ flags.skip text = c :: left := by
  rcases flags.skip_append text with hskip | hskip
  · rw [hskip] at h
    cases h
  · rw [hskip] at h
    exact exists_of_cons_eq_append hc h.symm

/-- As `Flags.exists_skip_of_append`, for any character. -/
theorem Flags.skip_of_append_eq_cons {flags : Flags} {text rest : List Char} {c : Char}
    (h : flags.skip (text ++ [')']) = c :: rest) :
    rest = [] ∨ ∃ left, rest = left ++ [')'] ∧ flags.skip text = c :: left := by
  by_cases hc : c = ')'
  · subst hc
    rcases flags.skip_append text with hskip | hskip
    · rw [hskip] at h
      cases h
    · rw [hskip] at h
      cases htext : flags.skip text with
      | nil =>
        rw [htext] at h
        exact .inl (List.cons.inj h).2.symm
      | cons d left =>
        rw [htext] at h
        obtain ⟨rfl, rfl⟩ := List.cons.inj h
        exact .inr ⟨left, rfl, rfl⟩
  · exact .inr (flags.exists_skip_of_append hc h)

/-- What a reader answers for a text with a bracket behind it, where `alone` is its answer for the
text: it has read the bracket as well, or it has left the bracket and answers as for the text. -/
def ReadsAlone {α : Type} (alone long : α × List Char) : Prop :=
  long.2 = [] ∨ long = (alone.1, alone.2 ++ [')'])

/-- A reader that leaves a text with another character at its start has left the bracket. -/
theorem ReadsAlone.of_cons {α : Type} {alone long : α × List Char} (h : ReadsAlone alone long)
    {a : α} {c : Char} {rest : List Char} (hlong : long = (a, c :: rest)) (hc : c ≠ ')') :
    ∃ left, rest = left ++ [')'] ∧ alone = (a, c :: left) := by
  subst hlong
  rcases h with h | h
  · cases h
  · obtain ⟨b, text⟩ := alone
    rw [Prod.mk.injEq] at h
    obtain ⟨rfl, htext⟩ := h
    obtain ⟨left, hleft, rfl⟩ := exists_of_cons_eq_append hc htext
    exact ⟨left, hleft, rfl⟩

/-- A reader that has left something besides the bracket has left the bracket, or it has nothing left
behind what it stopped at. -/
theorem ReadsAlone.of_cons_or {α : Type} {alone long : α × List Char} (h : ReadsAlone alone long)
    {a : α} {c : Char} {rest : List Char} (hlong : long = (a, c :: rest)) :
    rest = [] ∨ ∃ left, rest = left ++ [')'] ∧ alone = (a, c :: left) := by
  by_cases hc : c = ')'
  · subst hc hlong
    rcases h with h | h
    · cases h
    · obtain ⟨b, text⟩ := alone
      rw [Prod.mk.injEq] at h
      obtain ⟨rfl, htext⟩ := h
      cases text with
      | nil => exact .inl (List.cons.inj htext).2
      | cons d left =>
        obtain ⟨rfl, rfl⟩ := List.cons.inj htext
        exact .inr ⟨left, rfl, rfl⟩
  · exact .inr (h.of_cons hlong hc)

theorem readsAlone_takeSkipping (flags : Flags) (kind : Char → Bool) (text : List Char) :
    ReadsAlone (takeSkipping flags kind text) (takeSkipping flags kind (text ++ [')'])) := by
  induction hn : text.length using Nat.strongRecOn generalizing text with
  | ind n ih =>
  cases text with
  | nil =>
    rw [List.nil_append, takeSkipping, takeSkipping]
    by_cases hkind : kind ')' = true
    · rw [if_pos hkind]
      rw [flags.skip_nil, takeSkipping]
      exact .inl rfl
    · rw [if_neg hkind]
      exact .inr rfl
  | cons c rest =>
    rw [List.cons_append, takeSkipping, takeSkipping]
    by_cases hkind : kind c = true
    · rw [if_pos hkind, if_pos hkind]
      rcases flags.skip_append rest with hskip | hskip
      · rw [hskip, takeSkipping]
        exact .inl rfl
      · rw [hskip]
        have hlength := flags.length_skip_le rest
        rcases ih (flags.skip rest).length (by simp at hn; omega) (flags.skip rest) rfl
          with hleft | hleft
        · exact .inl hleft
        · rw [hleft]
          exact .inr rfl
    · rw [if_neg hkind, if_neg hkind]
      exact .inr rfl

/-- As `readsAlone_takeSkipping`, where what may be skipped is skipped first. -/
theorem readsAlone_takeSkipping_skip (flags : Flags) (kind : Char → Bool) (text : List Char) :
    ReadsAlone (takeSkipping flags kind (flags.skip text))
      (takeSkipping flags kind (flags.skip (text ++ [')']))) := by
  rcases flags.skip_append text with hskip | hskip
  · rw [hskip, takeSkipping]
    exact .inl rfl
  · rw [hskip]
    exact readsAlone_takeSkipping flags kind (flags.skip text)

theorem takeWhile_ne_append {c : Char} (hc : c ≠ ')') (text : List Char) :
    ((text ++ [')']).takeWhile fun d => d != c) = text ++ [')'] ∧
        ((text ++ [')']).dropWhile fun d => d != c) = [] ∧
        (text.dropWhile fun d => d != c) = [] ∨
      ((text ++ [')']).takeWhile fun d => d != c) = (text.takeWhile fun d => d != c) ∧
        ((text ++ [')']).dropWhile fun d => d != c) = (text.dropWhile fun d => d != c) ++ [')'] := by
  induction text with
  | nil => simp [hc.symm]
  | cons d rest ih =>
    by_cases hd : d = c
    · simp [hd]
    · simpa [hd] using ih

theorem dropBlanks_append (text : List Char) :
    Unicode.dropBlanks (text ++ [')']) = Unicode.dropBlanks text ++ [')'] := by
  induction text with
  | nil => decide
  | cons c rest ih =>
    simp only [Unicode.dropBlanks, List.cons_append, List.dropWhile_cons] at ih ⊢
    split
    · exact ih
    · rfl

theorem readsAlone_readCount (flags : Flags) (text : List Char) :
    ReadsAlone (readCount flags text) (readCount flags (text ++ [')'])) := by
  simp only [readCount, dropBlanks_append]
  rcases readsAlone_takeSkipping flags Char.isDigit (Unicode.dropBlanks text) with hdigits | hdigits
  · rw [ReadsAlone, hdigits, takeSkipping]
    exact .inl rfl
  · rw [hdigits]
    rcases readsAlone_takeSkipping flags Unicode.isBlank
      (takeSkipping flags Char.isDigit (Unicode.dropBlanks text)).2 with hblanks | hblanks
    · exact .inl hblanks
    · exact .inr (by rw [hblanks])

theorem bind_eq_ok_iff {α β : Type} {first : Except PatternError α}
    {next : α → Except PatternError β} {b : β} :
    first >>= next = .ok b ↔ ∃ a, first = .ok a ∧ next a = .ok b := by
  cases first with
  | error error => simp [bind, Except.bind]
  | ok a => simp [bind, Except.bind]

theorem map_eq_ok_iff {α β : Type} {f : α → β} {first : Except PatternError α} {b : β} :
    first.map f = .ok b ↔ ∃ a, first = .ok a ∧ f a = b := by
  cases first with
  | error error => simp [Except.map]
  | ok a => simp [Except.map]

/-- As `ReadsAlone`, for a reader that can refuse a text. -/
def AcceptsAlone {α : Type} (alone long : Except PatternError (α × List Char)) : Prop :=
  ∀ a rest, long = .ok (a, rest) → rest = [] ∨ ∃ left, rest = left ++ [')'] ∧ alone = .ok (a, left)

theorem eq_nil_of_readFixedHex {flags : Flags} {value count code : Nat} {rest : List Char}
    (h : readFixedHex flags value count [] = .ok (code, rest)) : rest = [] := by
  cases count with
  | zero =>
    cases h
    rfl
  | succ count => cases h

theorem acceptsAlone_readFixedHex (flags : Flags) (value count : Nat) (text : List Char) :
    AcceptsAlone (readFixedHex flags value count text)
      (readFixedHex flags value count (text ++ [')'])) := by
  induction count generalizing value text with
  | zero =>
    intro code rest h
    cases h
    exact .inr ⟨text, rfl, rfl⟩
  | succ count ih =>
    intro code rest h
    cases text with
    | nil => cases h
    | cons c others =>
      rw [List.cons_append, readFixedHex] at h
      rw [readFixedHex]
      split at h
      · next digit hdigit =>
        rcases flags.skip_append others with hskip | hskip
        · rw [hskip] at h
          exact .inl (eq_nil_of_readFixedHex h)
        · rw [hskip] at h
          exact ih _ _ code rest h
      · cases h

/-! ## Escapes -/

/-- A word boundary may be followed by a brace that begins a count.  Only the bracket is behind such a
brace where the word look of the text alone has no end. -/
theorem acceptsAlone_readWordLook {flags : Flags} {text rest : List Char} {kind : WordLook}
    (h : readWordLook flags (text ++ [')']) = .ok (kind, rest)) :
    (rest = [] ∨ ∃ left, rest = left ++ [')'] ∧ readWordLook flags text = .ok (kind, left)) ∨
      ∃ inside, rest = '\x7b' :: inside ∧ flags.skip inside = [')'] := by
  match text with
  | [] =>
    cases h
    exact .inl (.inr ⟨[], rfl, rfl⟩)
  | c :: inside =>
    by_cases hbrace : c = '\x7b'
    · subst hbrace
      simp only [List.cons_append, readWordLook] at h
      rcases flags.skip_append inside with hskip | hskip
      · rw [hskip] at h
        cases h
      · cases hinside : flags.skip inside with
        | nil =>
          rw [hskip, hinside] at h
          cases h
          exact .inr ⟨inside ++ [')'], rfl, by rw [hskip, hinside, List.nil_append]⟩
        | cons d others =>
          rw [hskip, hinside] at h
          simp only [List.cons_append] at h
          split at h
          · next hname =>
            split at h
            · next name rest' htaken =>
              split at h
              · next look hlook =>
                cases h
                obtain ⟨left, rfl, halone⟩ :=
                  (readsAlone_takeSkipping flags _ (d :: others)).of_cons htaken (by decide)
                refine .inl (.inr ⟨left, rfl, ?_⟩)
                simp only [readWordLook, hinside, hname, if_true, halone, hlook]
              · cases h
            · cases h
          · next hname =>
            cases h
            refine .inl (.inr ⟨'\x7b' :: inside, rfl, ?_⟩)
            simp only [readWordLook, hinside, hname]
            rfl
    · rw [List.cons_append, readWordLook.eq_2 _ _ (by simp [hbrace])] at h
      cases h
      refine .inl (.inr ⟨c :: inside, rfl, ?_⟩)
      rw [readWordLook.eq_2 _ _ (by simp [hbrace])]

theorem acceptsAlone_readCharCode (flags : Flags) (letter : Char) (text : List Char) :
    AcceptsAlone (readCharCode flags letter text) (readCharCode flags letter (text ++ [')'])) := by
  intro atom rest h
  simp only [readCharCode] at h
  split at h
  · next inside hlong =>
    obtain ⟨inside, rfl, hskip⟩ := flags.exists_skip_of_append (by decide) hlong
    split at h
    · cases h
    · next digits behind hnonempty htaken =>
      obtain ⟨c, hc, heq⟩ := bind_eq_ok_iff.1 h
      cases heq
      obtain ⟨behind, rfl, halone⟩ :=
        (readsAlone_takeSkipping_skip flags _ inside).of_cons htaken (by decide)
      rcases flags.skip_append behind with hbehind | hbehind
      · exact .inl hbehind
      · refine .inr ⟨flags.skip behind, hbehind, ?_⟩
        simp only [readCharCode, hskip, halone, hc]
        rfl
    · cases h
  · next digits hdigits =>
    obtain ⟨⟨code, left⟩, hcode, h⟩ := bind_eq_ok_iff.1 h
    obtain ⟨c, hc, heq⟩ := bind_eq_ok_iff.1 h
    cases heq
    rcases flags.skip_append text with hskip | hskip
    · rw [hskip] at hcode
      exact .inl (eq_nil_of_readFixedHex hcode)
    · rw [hskip] at hcode hdigits
      rcases acceptsAlone_readFixedHex flags 0 _ _ _ _ hcode with hleft | ⟨left, rfl, halone⟩
      · exact .inl hleft
      · refine .inr ⟨left, rfl, ?_⟩
        simp only [readCharCode]
        split
        · next inside hinside => exact absurd (congrArg (· ++ [')']) hinside) (hdigits _)
        · rw [bind_eq_ok_iff]
          exact ⟨_, halone, bind_eq_ok_iff.2 ⟨c, hc, rfl⟩⟩

theorem acceptsAlone_readProperty (flags : Flags) (negated : Bool) (text : List Char) :
    AcceptsAlone (readProperty flags negated text)
      (readProperty flags negated (text ++ [')'])) := by
  intro atom rest h
  simp only [readProperty] at h
  split at h
  · cases h
  · next inside hlong =>
    obtain ⟨inside, rfl, hskip⟩ := flags.exists_skip_of_append (by decide) hlong
    split at h
    · next name c behind htaken =>
      obtain ⟨set, hset, heq⟩ := bind_eq_ok_iff.1 h
      cases heq
      rcases (readsAlone_takeSkipping_skip flags _ inside).of_cons_or htaken
        with hbehind | ⟨left, rfl, halone⟩
      · exact .inl hbehind
      · refine .inr ⟨left, rfl, ?_⟩
        simp only [readProperty, hskip, halone, hset]
        rfl
    · cases h
  · next c behind hbrace hlong =>
    split at h
    · cases h
    · next hbackslash =>
      obtain ⟨set, hset, heq⟩ := bind_eq_ok_iff.1 h
      cases heq
      rcases flags.skip_of_append_eq_cons hlong with rfl | ⟨behind, rfl, hskip⟩
      · exact .inl flags.skip_nil
      · rcases flags.skip_append behind with hbehind | hbehind
        · exact .inl hbehind
        · refine .inr ⟨flags.skip behind, hbehind, ?_⟩
          simp only [readProperty, hskip]
          rw [if_neg hbackslash, bind_eq_ok_iff]
          exact ⟨set, hset, rfl⟩

/-- How an escape goes on behind its first character: it is complete, or a code, a property or a word
look is read. -/
theorem readEscape_cons (flags : Flags) (c : Char) :
    (∃ atom, ∀ rest, readEscape flags (c :: rest) =
      (atom : Except PatternError Atom).map fun atom => (atom, rest)) ∨
    (∀ rest, readEscape flags (c :: rest) = readCharCode flags c rest) ∨
    (∃ negated, ∀ rest, readEscape flags (c :: rest) = readProperty flags negated rest) ∨
    ∀ rest, readEscape flags (c :: rest) = (readWordLook flags rest).map fun (kind, rest) =>
      (.look (.word kind flags.unicode), rest) := by
  simp only [readEscape]
  split
  case h_23 =>
    refine .inr (.inr (.inr fun rest => ?_))
    cases readWordLook flags rest <;> rfl
  case h_24 =>
    refine .inl ⟨if isEscapable c then .ok (.literal c false) else .error .badEscape, ?_⟩
    intro rest
    split <;> rfl
  all_goals first
    | exact .inr (.inl fun rest => rfl)
    | exact .inr (.inr (.inl ⟨_, fun rest => rfl⟩))
    | exact .inl ⟨letterSet _ _ _, fun rest => rfl⟩
    | exact .inl ⟨.ok _, fun rest => rfl⟩

/-- Reading an escape, the bracket can also be left behind the brace that follows a word boundary. -/
theorem acceptsAlone_readEscape {flags : Flags} {text rest : List Char} {atom : Atom}
    (h : readEscape flags (text ++ [')']) = .ok (atom, rest)) :
    (rest = [] ∨ ∃ left, rest = left ++ [')'] ∧ readEscape flags text = .ok (atom, left)) ∨
      ∃ condition inside, atom = .look condition ∧ rest = '\x7b' :: inside ∧
        flags.skip inside = [')'] := by
  cases text with
  | nil =>
    have hbracket : readEscape flags [')'] = .ok (.literal ')' false, []) := rfl
    rw [List.nil_append, hbracket] at h
    cases h
    exact .inl (.inl rfl)
  | cons c behind =>
    rw [List.cons_append] at h
    rcases readEscape_cons flags c with ⟨answer, hc⟩ | hc | ⟨negated, hc⟩ | hc
    · rw [hc] at h
      cases answer with
      | error error => cases h
      | ok other =>
        cases h
        exact .inl (.inr ⟨behind, rfl, by rw [hc]; rfl⟩)
    · rw [hc] at h ⊢
      exact .inl (acceptsAlone_readCharCode flags c behind atom rest h)
    · rw [hc] at h ⊢
      exact .inl (acceptsAlone_readProperty flags negated behind atom rest h)
    · rw [hc] at h ⊢
      cases hword : readWordLook flags (behind ++ [')']) with
      | error error =>
        rw [hword] at h
        cases h
      | ok answer =>
        rw [hword] at h
        cases h
        rcases acceptsAlone_readWordLook hword with (hrest | ⟨left, hrest, halone⟩) | ⟨inside, hrest⟩
        · exact .inl (.inl hrest)
        · exact .inl (.inr ⟨left, hrest, by rw [halone]; rfl⟩)
        · exact .inr ⟨_, inside, rfl, hrest⟩

/-! ## Groups -/

theorem acceptsAlone_readGroupName (text : List Char) :
    AcceptsAlone (readGroupName text) (readGroupName (text ++ [')'])) := by
  intro name rest h
  simp only [readGroupName] at h ⊢
  rcases takeWhile_ne_append (c := '>') (by decide) text with ⟨-, hlong, -⟩ | ⟨htake, hdrop⟩
  · rw [hlong] at h
    split at h
    · next heq => cases heq
    · cases h
  · rw [htake, hdrop] at h
    cases hbehind : text.dropWhile fun d => d != '>' with
    | nil =>
      rw [hbehind] at h
      split at h
      · next heq =>
        split at h
        · cases heq
          cases h
          exact .inl rfl
        · cases h
      · cases h
    | cons d behind =>
      rw [hbehind] at h
      cases hname : text.takeWhile fun d => d != '>' with
      | nil =>
        rw [hname] at h
        cases h
      | cons c more =>
        rw [hname] at h
        simp only [List.cons_append] at h
        split at h
        · next hchars =>
          cases h
          exact .inr ⟨behind, rfl, by simp only [if_pos hchars]⟩
        · cases h

theorem acceptsAlone_readFlags {flags given : Flags} {met text rest : List Char}
    (h : readFlags flags met (text ++ [')']) = .ok (given, rest)) :
    rest = [')'] ∨ ∃ left, rest = left ++ [')'] ∧ readFlags flags met text = .ok (given, left) := by
  induction text generalizing flags met with
  | nil =>
    simp only [List.nil_append, readFlags] at h
    split at h
    · split at h
      · cases h
      · cases h
        exact .inl rfl
    · next hend => simp at hend
  | cons c behind ih =>
    simp only [List.cons_append, readFlags] at h ⊢
    split at h
    · next hend =>
      rw [if_pos hend]
      split at h
      · cases h
      · next hhyphen =>
        cases h
        exact .inr ⟨c :: behind, rfl, by rw [if_neg hhyphen]⟩
    · next hend =>
      rw [if_neg hend]
      split at h
      · cases h
      · next hmet =>
        rw [if_neg hmet]
        split at h
        · next hhyphen =>
          rw [if_pos hhyphen]
          exact ih h
        · next hhyphen =>
          rw [if_neg hhyphen]
          split at h
          · next flags hset => exact ih h
          · cases h

theorem isPrefixOf_append {start : List Char} (h : ')' ∉ start) (text : List Char) :
    start.isPrefixOf (text ++ [')']) = start.isPrefixOf text := by
  induction start generalizing text with
  | nil => simp
  | cons c start ih =>
    simp only [List.mem_cons, not_or] at h
    cases text with
    | nil => simp [List.isPrefixOf, Ne.symm h.1]
    | cons d text => simp only [List.cons_append, List.isPrefixOf, ih h.2 text]

theorem looksAround_append (text : List Char) :
    looksAround (text ++ [')']) = looksAround text := by
  simp only [looksAround, List.any_cons, List.any_nil]
  rw [isPrefixOf_append (by decide), isPrefixOf_append (by decide), isPrefixOf_append (by decide),
    isPrefixOf_append (by decide)]

/-- The head of a group with flags, behind its question mark. -/
def readFlagsHead (flags : Flags) (text : List Char) :
    Except PatternError (GroupHead × List Char) := do
  match ← readFlags flags [] text with
  | (flags, ')' :: rest) => .ok (.directive flags, rest)
  | (flags, rest) => .ok (.plain flags, rest.tail)

/-- The head of a group with a name, behind what announces the name. -/
def readNamedHead (text : List Char) : Except PatternError (GroupHead × List Char) := do
  let (name, rest) ← readGroupName text
  .ok (.capture (some name), rest)

/-- What a group begins with behind a question mark. -/
def readMarkedHead (flags : Flags) (text : List Char) :
    Except PatternError (GroupHead × List Char) :=
  match text with
  | 'P' :: '<' :: rest | '<' :: rest => readNamedHead rest
  | ')' :: _ => .error .missingOperand
  | rest => readFlagsHead flags rest

theorem readGroupHead_eq (flags : Flags) (text : List Char) :
    readGroupHead flags text =
      if looksAround (flags.skip text) then .error .lookAround
      else
        match flags.skip text with
        | '?' :: rest => readMarkedHead flags rest
        | rest => .ok (.capture none, rest) := by
  simp only [readGroupHead]
  generalize flags.skip text = text
  split
  · rfl
  · split
    · rfl
    · rfl
    · rfl
    · next hname hmark hend _ => exact (readMarkedHead.eq_4 flags _ hname hmark hend).symm
    · next hquestion =>
      split
      · next rest => exact absurd rfl (hquestion _)
      · rfl

theorem acceptsAlone_readNamedHead (text : List Char) :
    AcceptsAlone (readNamedHead text) (readNamedHead (text ++ [')'])) := by
  intro head rest h
  obtain ⟨⟨name, behind⟩, hname, h⟩ := bind_eq_ok_iff.1 h
  cases h
  rcases acceptsAlone_readGroupName text name rest hname with hrest | ⟨left, hleft, halone⟩
  · exact .inl hrest
  · exact .inr ⟨left, hleft, bind_eq_ok_iff.2 ⟨_, halone, rfl⟩⟩

theorem acceptsAlone_readFlagsHead (flags : Flags) (text : List Char) :
    AcceptsAlone (readFlagsHead flags text) (readFlagsHead flags (text ++ [')'])) := by
  intro head rest h
  obtain ⟨⟨given, behind⟩, hflags, h⟩ := bind_eq_ok_iff.1 h
  rcases acceptsAlone_readFlags hflags with rfl | ⟨left, rfl, halone⟩
  · cases h
    exact .inl rfl
  · cases left with
    | nil =>
      cases h
      exact .inl rfl
    | cons c left =>
      by_cases hc : c = ')'
      · subst hc
        cases h
        exact .inr ⟨left, rfl, bind_eq_ok_iff.2 ⟨_, halone, rfl⟩⟩
      · have hplain : (.plain given, left ++ [')']) = (head, rest) := by simpa [hc] using h
        cases hplain
        exact .inr ⟨left, rfl, bind_eq_ok_iff.2 ⟨_, halone, by simp [hc]⟩⟩

theorem acceptsAlone_readMarkedHead (flags : Flags) (text : List Char) :
    AcceptsAlone (readMarkedHead flags text) (readMarkedHead flags (text ++ [')'])) := by
  by_cases hmark : ∃ rest, text = 'P' :: '<' :: rest ∨ text = '<' :: rest
  · obtain ⟨rest, rfl | rfl⟩ := hmark
    · exact acceptsAlone_readNamedHead rest
    · exact acceptsAlone_readNamedHead rest
  · intro head rest h
    rw [readMarkedHead.eq_def] at h
    split at h
    · next others heq =>
      obtain ⟨left, hleft, htext⟩ := exists_of_cons_eq_append (by decide) heq.symm
      obtain ⟨left, -, rfl⟩ := exists_of_cons_eq_append (by decide) hleft
      exact absurd ⟨left, .inl htext⟩ hmark
    · next others heq =>
      obtain ⟨left, -, htext⟩ := exists_of_cons_eq_append (by decide) heq.symm
      exact absurd ⟨left, .inr htext⟩ hmark
    · cases h
    · next hend =>
      rcases acceptsAlone_readFlagsHead flags text head rest h with hrest | ⟨left, rfl, halone⟩
      · exact .inl hrest
      · refine .inr ⟨left, rfl, ?_⟩
        rw [readMarkedHead.eq_4 _ _ (fun others heq => hmark ⟨others, .inl heq⟩)
          (fun others heq => hmark ⟨others, .inr heq⟩)
          (fun others heq => hend (others ++ [')']) (by rw [heq, List.cons_append]))]
        exact halone

theorem acceptsAlone_readGroupHead (flags : Flags) (text : List Char) :
    AcceptsAlone (readGroupHead flags text) (readGroupHead flags (text ++ [')'])) := by
  intro head rest h
  rw [readGroupHead_eq] at h ⊢
  rcases flags.skip_append text with hskip | hskip
  · rw [hskip] at h
    cases h
    exact .inl rfl
  · rw [hskip, looksAround_append] at h
    split at h
    · cases h
    · next haround =>
      rw [if_neg haround]
      cases hbehind : flags.skip text with
      | nil =>
        rw [hbehind] at h
        cases h
        exact .inr ⟨[], rfl, rfl⟩
      | cons c behind =>
        rw [hbehind] at h
        by_cases hc : c = '?'
        · subst hc
          exact acceptsAlone_readMarkedHead flags behind head rest h
        · have hplain : (.capture none, c :: behind ++ [')']) = (head, rest) := by
            simpa [hc] using h
          cases hplain
          exact .inr ⟨c :: behind, rfl, by simp [hc]⟩

/-! ## Repetitions -/

theorem readCount_nil (flags : Flags) : readCount flags [] = (.error .badCount, []) := by
  simp [readCount, Unicode.dropBlanks, takeSkipping]

theorem readCount_bracket (flags : Flags) : readCount flags [')'] = (.error .badCount, [')']) := by
  have hblank : Unicode.isBlank ')' = false := by decide
  simp [readCount, Unicode.dropBlanks, takeSkipping, hblank]

/-- The limits of a repetition behind the first count and a comma: the second one is missing or
read. -/
def readSecondLimit (flags : Flags) (first : Except PatternError Nat) (text : List Char) :
    Except PatternError (Nat × Option Nat × List Char) :=
  match text with
  | '\x7d' :: rest => do .ok (← first, none, '\x7d' :: rest)
  | rest => do
    let least ← first
    .ok (least, some (← (readCount flags rest).1), (readCount flags rest).2)

/-- The limits of a repetition behind the first count. -/
def readLimits (flags : Flags) (first : Except PatternError Nat) (text : List Char) :
    Except PatternError (Nat × Option Nat × List Char) :=
  match text with
  | ',' :: rest => readSecondLimit flags first (flags.skip rest)
  | rest => do
    let least ← first
    .ok (least, some least, rest)

/-- The end of a repetition's limits. -/
def closeLimits (least : Nat) (most : Option Nat) (text : List Char) :
    Except PatternError (Nat × Option Nat × List Char) :=
  match text with
  | '\x7d' :: rest => if most.any (· < least) then .error .badCount else .ok (least, most, rest)
  | _ => .error .badCount

theorem readCounts_eq (flags : Flags) (text : List Char) :
    readCounts flags text =
      readLimits flags (readCount flags (flags.skip text)).1 (readCount flags (flags.skip text)).2
        >>= fun limits => closeLimits limits.1 limits.2.1 limits.2.2 := by
  unfold readCounts
  generalize readCount flags (flags.skip text) = count
  obtain ⟨first, rest⟩ := count
  dsimp only
  split
  · next rest =>
    rw [readLimits]
    split
    · next inside hbrace =>
      rw [hbrace, readSecondLimit]
      cases first <;> rfl
    · next hbrace =>
      rw [readSecondLimit.eq_2 _ _ _ hbrace]
      cases first with
      | error error => rfl
      | ok least => cases (readCount flags (flags.skip rest)).1 <;> rfl
  · next hcomma =>
    rw [readLimits.eq_2 flags first rest hcomma]
    cases first <;> rfl

theorem acceptsAlone_closeLimits {least : Nat} {most : Option Nat} {text : List Char}
    {limits : Nat × Option Nat × List Char}
    (h : closeLimits least most (text ++ [')']) = .ok limits) :
    ∃ left, limits = (least, most, left ++ [')']) ∧
      closeLimits least most text = .ok (least, most, left) := by
  unfold closeLimits at h
  split at h
  · next rest heq =>
    obtain ⟨left, rfl, rfl⟩ := exists_of_cons_eq_append (by decide) heq.symm
    split at h
    · cases h
    · next hmost =>
      cases h
      exact ⟨left, rfl, by simp only [closeLimits, if_neg hmost]⟩
  · cases h

theorem acceptsAlone_readSecondLimit {flags : Flags} {first : Except PatternError Nat}
    {text rest : List Char} {least : Nat} {most : Option Nat}
    (h : readSecondLimit flags first (text ++ [')']) = .ok (least, most, rest)) :
    rest = [] ∨
      ∃ left, rest = left ++ [')'] ∧ readSecondLimit flags first text = .ok (least, most, left) := by
  by_cases hbrace : ∃ inside, text = '\x7d' :: inside
  · obtain ⟨inside, rfl⟩ := hbrace
    obtain ⟨value, rfl, heq⟩ := bind_eq_ok_iff.1 h
    cases heq
    exact .inr ⟨'\x7d' :: inside, rfl, rfl⟩
  · have hlong : ∀ inside, text ++ [')'] ≠ '\x7d' :: inside := by
      intro inside heq
      obtain ⟨left, -, htext⟩ := exists_of_cons_eq_append (by decide) heq.symm
      exact hbrace ⟨left, htext⟩
    rw [readSecondLimit.eq_2 _ _ _ hlong] at h
    obtain ⟨value, rfl, hvalue⟩ := bind_eq_ok_iff.1 h
    obtain ⟨second, hsecond, heq⟩ := bind_eq_ok_iff.1 hvalue
    cases heq
    rcases readsAlone_readCount flags text with hcount | hcount
    · exact .inl hcount
    · rw [hcount] at hsecond ⊢
      refine .inr ⟨_, rfl, ?_⟩
      rw [readSecondLimit.eq_2 _ _ _ fun inside heq => hbrace ⟨inside, heq⟩]
      exact bind_eq_ok_iff.2 ⟨least, rfl, bind_eq_ok_iff.2 ⟨second, hsecond, rfl⟩⟩

theorem acceptsAlone_readLimits {flags : Flags} {first : Except PatternError Nat}
    {text rest : List Char} {least : Nat} {most : Option Nat}
    (h : readLimits flags first (text ++ [')']) = .ok (least, most, rest)) :
    rest = [] ∨
      ∃ left, rest = left ++ [')'] ∧ readLimits flags first text = .ok (least, most, left) := by
  by_cases hcomma : ∃ behind, text = ',' :: behind
  · obtain ⟨behind, rfl⟩ := hcomma
    rw [List.cons_append, readLimits] at h
    rw [readLimits]
    rcases flags.skip_append behind with hskip | hskip
    · rw [hskip, readSecondLimit.eq_2 _ _ _ (by simp), readCount_nil] at h
      obtain ⟨value, -, h⟩ := bind_eq_ok_iff.1 h
      cases h
    · rw [hskip] at h
      exact acceptsAlone_readSecondLimit h
  · have hlong : ∀ behind, text ++ [')'] ≠ ',' :: behind := by
      intro behind heq
      obtain ⟨left, -, htext⟩ := exists_of_cons_eq_append (by decide) heq.symm
      exact hcomma ⟨left, htext⟩
    rw [readLimits.eq_2 _ _ _ hlong] at h
    obtain ⟨value, rfl, heq⟩ := bind_eq_ok_iff.1 h
    cases heq
    refine .inr ⟨text, rfl, ?_⟩
    rw [readLimits.eq_2 _ _ _ fun behind heq => hcomma ⟨behind, heq⟩]
    rfl

/-- A repetition ends before a bracket behind it. -/
theorem acceptsAlone_readCounts {flags : Flags} {text : List Char}
    {limits : Nat × Option Nat × List Char} (h : readCounts flags (text ++ [')']) = .ok limits) :
    ∃ least most left, limits = (least, most, left ++ [')']) ∧
      readCounts flags text = .ok (least, most, left) := by
  rw [readCounts_eq] at h
  obtain ⟨⟨least, most, behind⟩, hlimits, hclose⟩ := bind_eq_ok_iff.1 h
  have hnil : behind ≠ [] := by
    rintro rfl
    cases hclose
  have hread : readCount flags (flags.skip (text ++ [')'])) =
      ((readCount flags (flags.skip text)).1, (readCount flags (flags.skip text)).2 ++ [')']) := by
    rcases flags.skip_append text with hskip | hskip
    · rw [hskip, readCount_nil] at hlimits
      cases hlimits
    · rw [hskip] at hlimits ⊢
      rcases readsAlone_readCount flags (flags.skip text) with hcount | hcount
      · rw [hcount] at hlimits
        obtain ⟨value, -, heq⟩ := bind_eq_ok_iff.1 hlimits
        cases heq
        exact absurd rfl hnil
      · exact hcount
  rw [hread] at hlimits
  rcases acceptsAlone_readLimits hlimits with hrest | ⟨left, rfl, halone⟩
  · exact absurd hrest hnil
  · obtain ⟨others, rfl, hothers⟩ := acceptsAlone_closeLimits hclose
    refine ⟨least, most, others, rfl, ?_⟩
    rw [readCounts_eq]
    exact bind_eq_ok_iff.2 ⟨_, halone, hothers⟩

theorem readCounts_bracket {flags : Flags} {text : List Char} (h : flags.skip text = [')']) :
    ∀ limits, readCounts flags text ≠ .ok limits := by
  intro limits heq
  rw [readCounts_eq, h, readCount_bracket] at heq
  cases heq

end Highlight.Regex
