import Highlight.Proofs.SetsAlone

/-!
# Reading a pattern inside a group

Reading one part of a pattern first reads a move from the text, under the flags in force, and then
makes the move (`readPart_eq`).  The text of a move is read up to a bracket behind it
(`acceptsAlone_readMove`), and a move is made in the same way around an open group
(`Move.apply_enclosed`), unless it closes that group.  So what is read inside a group that the last
bracket closes is read alone in the same way, by induction on the text: either the text is a pattern
of its own, or it closes a group that it has not opened (`readFrom_enclosed`).
-/

namespace Highlight.Regex

/-! ## Moves -/

/-- What a part of a pattern does to what was read before it. -/
inductive Move where
  | enter (head : GroupHead)
  | close
  | nextBranch
  | add (pattern : Pattern) (depth : Nat)
  | repeatLast (least : Nat) (most : Option Nat) (greedy : Bool)

/-- Makes a move. -/
def Move.apply (reading : Reading) : Move → Except PatternError Reading
  | enter head => reading.enter head
  | close => reading.closeGroup
  | nextBranch => .ok reading.nextBranch
  | add pattern depth => .ok (reading.add pattern depth)
  | repeatLast least most greedy => reading.repeatLast least most greedy

/-- A repetition with some limits, in front of the mark that may prefer few rounds. -/
def readRepetition (least : Nat) (most : Option Nat) (rest : List Char) : Move × List Char :=
  (.repeatLast least most !(readLazyMark rest).1, (readLazyMark rest).2)

/-- The move that the character `c` begins, and the text behind it. -/
def readMove (flags : Flags) (c : Char) (rest : List Char) :
    Except PatternError (Move × List Char) := do
  match c with
  | '(' =>
    let (head, rest) ← readGroupHead flags rest
    .ok (.enter head, rest)
  | ')' => .ok (.close, rest)
  | '|' => .ok (.nextBranch, rest)
  | '[' =>
    let (item, rest) ← readBracket flags rest
    .ok (.add (.char flags.mode item.set) item.depth, rest)
  | '?' => .ok (readRepetition 0 (some 1) rest)
  | '*' => .ok (readRepetition 0 none rest)
  | '+' => .ok (readRepetition 1 none rest)
  | '\x7b' =>
    let (least, most, rest) ← readCounts flags rest
    .ok (readRepetition least most (flags.skip rest))
  | '\\' =>
    let (atom, rest) ← readEscape flags rest
    .ok (.add (← atom.toPattern flags) 0, rest)
  | '.' => .ok (.add (← pointPattern flags) 0, rest)
  | '^' =>
    let look : Look := if flags.multiLine then .lineStart flags.crlf else .textStart
    .ok (.add (.look look) 0, rest)
  | '$' => .ok (.add (.look (if flags.multiLine then .lineEnd flags.crlf else .textEnd)) 0, rest)
  | c => .ok (.add (.char flags.mode (.single c)) 0, rest)

theorem readPart_eq (reading : Reading) (c : Char) (rest : List Char) :
    readPart reading c rest =
      readMove reading.flags c rest >>= fun move =>
        move.1.apply reading >>= fun next => .ok (next, move.2) := by
  simp only [readPart]
  split
  all_goals simp only [readMove]
  · cases readGroupHead reading.flags rest <;> rfl
  · rfl
  · rfl
  · simp only [readBracket]
    cases readSet _ _ _ _ <;> rfl
  · rfl
  · rfl
  · rfl
  · cases readCounts reading.flags rest <;> rfl
  · cases readEscape reading.flags rest with
    | error error => rfl
    | ok answer =>
      simp only [bind, Except.bind]
      cases answer.1.toPattern reading.flags <;> rfl
  · cases pointPattern reading.flags <;> rfl
  · rfl
  · rfl
  · rfl

/-! ## The text of a move -/

/-- What is left behind a move when the bracket was used up, or when only a brace and the bracket are
left, which cannot be read on. -/
def Spent (flags : Flags) (move : Move) (text : List Char) : Prop :=
  (move ≠ .close ∧ text = []) ∨
    ∃ pattern depth inside, move = .add pattern depth ∧ text = '\x7b' :: inside ∧
      flags.skip inside = [')']

theorem readLazyMark_append (text : List Char) :
    readLazyMark (text ++ [')']) = ((readLazyMark text).1, (readLazyMark text).2 ++ [')']) := by
  cases text with
  | nil => rfl
  | cons c rest =>
    by_cases hc : c = '?'
    · subst hc
      rfl
    · simp [readLazyMark, hc]

theorem readRepetition_append (least : Nat) (most : Option Nat) (text : List Char) :
    readRepetition least most (text ++ [')']) =
      ((readRepetition least most text).1, (readRepetition least most text).2 ++ [')']) := by
  simp only [readRepetition, readLazyMark_append]

/-- The text of a move is read up to a bracket behind it. -/
theorem acceptsAlone_readMove {flags : Flags} {c : Char} {text rest : List Char} {move : Move}
    (h : readMove flags c (text ++ [')']) = .ok (move, rest)) :
    Spent flags move rest ∨
      ∃ left, rest = left ++ [')'] ∧ readMove flags c text = .ok (move, left) := by
  unfold readMove at h
  split at h
  all_goals simp only [readMove]
  · obtain ⟨⟨head, left⟩, hhead, heq⟩ := bind_eq_ok_iff.1 h
    cases heq
    rcases acceptsAlone_readGroupHead flags text head rest hhead with hrest | ⟨left, hleft, halone⟩
    · exact .inl (.inl ⟨nofun, hrest⟩)
    · exact .inr ⟨left, hleft, by rw [halone]; rfl⟩
  · cases h
    exact .inr ⟨text, rfl, rfl⟩
  · cases h
    exact .inr ⟨text, rfl, rfl⟩
  · obtain ⟨⟨item, left⟩, hset, heq⟩ := bind_eq_ok_iff.1 h
    cases heq
    obtain ⟨left, hleft, halone⟩ := acceptsAlone_readBracket hset
    exact .inr ⟨left, hleft, by rw [halone]; rfl⟩
  · rw [readRepetition_append] at h
    cases h
    exact .inr ⟨_, rfl, rfl⟩
  · rw [readRepetition_append] at h
    cases h
    exact .inr ⟨_, rfl, rfl⟩
  · rw [readRepetition_append] at h
    cases h
    exact .inr ⟨_, rfl, rfl⟩
  · obtain ⟨⟨least, most, left⟩, hcounts, heq⟩ := bind_eq_ok_iff.1 h
    obtain ⟨_, _, left, hleft, halone⟩ := acceptsAlone_readCounts hcounts
    cases hleft
    replace heq : readRepetition least most (flags.skip (left ++ [')'])) = (move, rest) :=
      Except.ok.inj heq
    rw [halone]
    rcases flags.skip_append left with hskip | hskip
    · rw [hskip] at heq
      cases heq
      exact .inl (.inl ⟨nofun, rfl⟩)
    · rw [hskip, readRepetition_append] at heq
      cases heq
      exact .inr ⟨_, rfl, rfl⟩
  · obtain ⟨⟨atom, left⟩, hescape, h⟩ := bind_eq_ok_iff.1 h
    obtain ⟨pattern, hpattern, heq⟩ := bind_eq_ok_iff.1 h
    cases heq
    rcases acceptsAlone_readEscape hescape with
      (hrest | ⟨left, hleft, halone⟩) | ⟨condition, inside, -, hrest, hskip⟩
    · exact .inl (.inl ⟨nofun, hrest⟩)
    · refine .inr ⟨left, hleft, bind_eq_ok_iff.2 ⟨_, halone, ?_⟩⟩
      exact bind_eq_ok_iff.2 ⟨pattern, hpattern, rfl⟩
    · exact .inl (.inr ⟨pattern, 0, inside, rfl, hrest, hskip⟩)
  · obtain ⟨pattern, hpattern, heq⟩ := bind_eq_ok_iff.1 h
    cases heq
    exact .inr ⟨text, rfl, by rw [hpattern]; rfl⟩
  all_goals
    cases h
    exact .inr ⟨text, rfl, rfl⟩

/-! ## Moves around an open group -/

/-- What was read, inside one more group. -/
def Reading.enclosed (group : OpenGroup) (reading : Reading) : Reading :=
  { reading with opened := reading.opened ++ [group] }

@[simp] theorem Reading.opened_enclosed (group : OpenGroup) (reading : Reading) :
    (reading.enclosed group).opened = reading.opened ++ [group] := rfl

/-- A move does not see the outermost group, unless it closes it. -/
theorem Move.apply_enclosed {group : OpenGroup} {reading : Reading} {move : Move}
    (h : move = .close → reading.opened ≠ []) :
    move.apply (reading.enclosed group) = (move.apply reading).map (Reading.enclosed group) := by
  cases move with
  | enter head =>
    cases head with
    | capture name =>
      simp only [apply, Reading.enter]
      by_cases hname : name.any reading.names.contains = true
      · have henclosed : name.any (reading.enclosed group).names.contains = true := hname
        rw [if_pos hname, if_pos henclosed]
        rfl
      · have henclosed : ¬name.any (reading.enclosed group).names.contains = true := hname
        rw [if_neg hname, if_neg henclosed]
        rfl
    | plain flags => rfl
    | directive flags => rfl
  | close =>
    simp only [apply, Reading.closeGroup, Reading.enclosed]
    cases hopened : reading.opened with
    | nil => exact absurd hopened (h rfl)
    | cons inner outer => rfl
  | nextBranch => rfl
  | add pattern depth => rfl
  | repeatLast least most greedy =>
    obtain ⟨flags, pieces, branches, opened, nextGroup, names⟩ := reading
    rcases pieces with _ | ⟨⟨_ | body, depth⟩, pieces⟩ <;> rfl

theorem Move.exists_of_apply_enclosed {group : OpenGroup} {reading next : Reading} {move : Move}
    (hmove : move = .close → reading.opened ≠ [])
    (h : move.apply (reading.enclosed group) = .ok next) :
    ∃ inner, move.apply reading = .ok inner ∧ next = inner.enclosed group := by
  rw [apply_enclosed hmove, map_eq_ok_iff] at h
  obtain ⟨inner, hinner, rfl⟩ := h
  exact ⟨inner, hinner, rfl⟩

/-! ## Reading -/

theorem readFrom_nil (reading : Reading) {text : List Char} (h : reading.flags.skip text = []) :
    readFrom reading text = .ok reading := by
  rw [readFrom]
  split
  · rfl
  · next hcons =>
    rw [h] at hcons
    cases hcons

/-- A pattern is read move by move. -/
theorem readFrom_eq (reading : Reading) {c : Char} {text rest : List Char}
    (h : reading.flags.skip text = c :: rest) :
    readFrom reading text =
      readMove reading.flags c rest >>= fun move =>
        move.1.apply reading >>= fun next => readFrom next move.2 := by
  have hpart : readFrom reading text =
      readPart reading c rest >>= fun part => readFrom part.1 part.2 := by
    rw [readFrom]
    split
    · next hnil =>
      rw [h] at hnil
      cases hnil
    · next d others hcons =>
      rw [h] at hcons
      cases hcons
      split
      · next error herror =>
        rw [herror]
        rfl
      · next next left hok =>
        rw [hok]
        rfl
  rw [hpart, readPart_eq]
  simp only [bind_assoc]
  rfl

/-- A move does not add to the text that is left. -/
theorem length_le_of_readMove {reading next : Reading} {c : Char} {rest left : List Char}
    {move : Move} (hmove : readMove reading.flags c rest = .ok (move, left))
    (hnext : move.apply reading = .ok next) : left.length ≤ rest.length := by
  have hpart := readPart_eq reading c rest
  rw [hmove] at hpart
  simp only [bind, Except.bind, hnext] at hpart
  exact length_le_of_readPart hpart

theorem readFrom_of_move {reading next : Reading} {c : Char} {text rest left : List Char}
    {move : Move} (hskip : reading.flags.skip text = c :: rest)
    (hmove : readMove reading.flags c rest = .ok (move, left))
    (hnext : move.apply reading = .ok next) : readFrom reading text = readFrom next left := by
  rw [readFrom_eq reading hskip, hmove]
  simp [bind, Except.bind, hnext]

theorem exists_of_readFrom {reading final : Reading} {c : Char} {text rest : List Char}
    (h : readFrom reading text = .ok final) (hskip : reading.flags.skip text = c :: rest) :
    ∃ move left next, readMove reading.flags c rest = .ok (move, left) ∧
      move.apply reading = .ok next ∧ left.length ≤ rest.length ∧
      readFrom next left = .ok final := by
  rw [readFrom_eq reading hskip] at h
  obtain ⟨⟨move, left⟩, hmove, h⟩ := bind_eq_ok_iff.1 h
  obtain ⟨next, hnext, h⟩ := bind_eq_ok_iff.1 h
  exact ⟨move, left, next, hmove, hnext, length_le_of_readMove hmove hnext, h⟩

/-- Nothing more is read where a move has left nothing that can be read on. -/
theorem eq_of_readFrom_spent {flags : Flags} {move : Move} {reading next final : Reading}
    {text : List Char} (hspent : Spent flags move text) (hflags : reading.flags = flags)
    (hmove : move.apply reading = .ok next) (h : readFrom next text = .ok final) :
    move ≠ .close ∧ final = next := by
  rcases hspent with ⟨hclose, rfl⟩ | ⟨pattern, depth, inside, rfl, rfl, hinside⟩
  · rw [readFrom_nil next next.flags.skip_nil] at h
    cases h
    exact ⟨hclose, rfl⟩
  · cases hmove
    have hbrace : flags.skip ('\x7b' :: inside) = '\x7b' :: inside := by
      unfold Flags.skip
      split
      · rfl
      · rfl
    rw [readFrom_eq _ (hflags ▸ hbrace)] at h
    obtain ⟨answer, hanswer, -⟩ := bind_eq_ok_iff.1 h
    obtain ⟨limits, hlimits, -⟩ := bind_eq_ok_iff.1 hanswer
    exact absurd hlimits (readCounts_bracket (hflags ▸ hinside) limits)

/-- What is read inside a group that the last bracket of the text closes is read alone in the same
way, unless it closes a group that it has not opened. -/
theorem readFrom_enclosed {group : OpenGroup} {reading final : Reading} {text : List Char}
    (h : readFrom (reading.enclosed group) (text ++ [')']) = .ok final)
    (hfinal : final.opened = []) :
    (∃ own, readFrom reading text = .ok own ∧ own.opened = [] ∧
        (own.enclosed group).closeGroup = .ok final) ∨
      readFrom reading text = .error .unopenedGroup := by
  induction hn : text.length using Nat.strongRecOn generalizing reading text with
  | ind n ih =>
  have hlength := reading.flags.length_skip_le text
  rcases reading.flags.skip_append text with hskip | hskip
  · rw [readFrom_nil (reading.enclosed group) hskip] at h
    cases h
    simp at hfinal
  · cases htext : reading.flags.skip text with
    | nil =>
      rw [htext] at hskip
      obtain ⟨move, left, next, hmove, hnext, -, h⟩ := exists_of_readFrom h hskip
      cases hmove
      rw [readFrom_nil next next.flags.skip_nil] at h
      cases h
      by_cases hopened : reading.opened = []
      · exact .inl ⟨reading, readFrom_nil reading htext, hopened, hnext⟩
      · obtain ⟨inner, -, rfl⟩ := Move.exists_of_apply_enclosed (fun _ => hopened) hnext
        simp at hfinal
    | cons c rest =>
      rw [htext] at hskip hlength
      obtain ⟨move, left, next, hmove, hnext, hle, h⟩ := exists_of_readFrom h hskip
      rcases acceptsAlone_readMove hmove with hspent | ⟨left, rfl, halone⟩
      · obtain ⟨hclose, rfl⟩ := eq_of_readFrom_spent hspent rfl hnext h
        obtain ⟨inner, -, rfl⟩ :=
          Move.exists_of_apply_enclosed (fun heq => absurd heq hclose) hnext
        simp at hfinal
      · replace halone : readMove reading.flags c rest = .ok (move, left) := halone
        by_cases hunopened : move = .close ∧ reading.opened = []
        · obtain ⟨rfl, hopened⟩ := hunopened
          right
          rw [readFrom_eq reading htext, halone]
          simp [bind, Except.bind, Move.apply, Reading.closeGroup, hopened]
        · obtain ⟨inner, hinner, rfl⟩ :=
            Move.exists_of_apply_enclosed (fun heq hnil => hunopened ⟨heq, hnil⟩) hnext
          replace hle : left.length ≤ rest.length := by simpa using hle
          rw [readFrom_of_move htext halone hinner]
          simp only [List.length_cons] at hlength
          exact ih left.length (by omega) h rfl

end Highlight.Regex
