import Highlight.Proofs.GroupReading

/-!
# Reading behind other parts

What was read before a text stays in front of what is read from it: parts in front of the branch at
the top, and finished branches in front of that branch (`Reading.behind`).  Moves see neither
(`Move.apply_behind`), with two exceptions.  A repetition at the start of the text has nothing to
repeat if no part was read before, and the first branch, once it ends, has the parts in it.  So a
text that is read behind other parts is read alone in the same way, but for the parts in front of its
first branch (`readFrom_behind`).
-/

namespace Highlight.Regex

/-- The open groups, with parts and branches put before all that was read around the outermost. -/
def putBefore (parts : List Piece) (finished : List (Pattern × Nat)) :
    List OpenGroup → List OpenGroup
  | [] => []
  | group :: outer =>
    (if outer.isEmpty then
      { group with pieces := group.pieces ++ parts, branches := group.branches ++ finished }
    else group) :: putBefore parts finished outer

namespace Reading

/-- What was read, with parts put before the branch at the top and branches before that. -/
def behind (parts : List Piece) (finished : List (Pattern × Nat)) (reading : Reading) : Reading :=
  { reading with
    pieces := if reading.opened.isEmpty then reading.pieces ++ parts else reading.pieces
    branches := if reading.opened.isEmpty then reading.branches ++ finished else reading.branches
    opened := putBefore parts finished reading.opened }

/-- The branches at the top that are finished. -/
def topBranches (reading : Reading) : List (Pattern × Nat) :=
  (reading.opened.getLast?.map OpenGroup.branches).getD reading.branches

theorem topBranches_of_nil {reading : Reading} (h : reading.opened = []) :
    reading.topBranches = reading.branches := by
  simp [topBranches, h]

@[simp] theorem flags_behind (parts : List Piece) (finished : List (Pattern × Nat))
    (reading : Reading) : (reading.behind parts finished).flags = reading.flags := rfl

theorem opened_eq_nil_of_behind {parts : List Piece} {finished : List (Pattern × Nat)}
    {reading : Reading} (h : (reading.behind parts finished).opened = []) :
    reading.opened = [] := by
  cases hopened : reading.opened with
  | nil => rfl
  | cons group outer => simp [behind, hopened, putBefore] at h

theorem behind_of_nil {parts : List Piece} {finished : List (Pattern × Nat)} {reading : Reading}
    (h : reading.opened = []) :
    reading.behind parts finished =
      { reading with
        pieces := reading.pieces ++ parts, branches := reading.branches ++ finished } := by
  simp [behind, h, putBefore]

end Reading

namespace Move

/-- Whether a move sees what stands in front of the branch at the top: it ends that branch, or
repeats a part where there is none in it. -/
def SeesFront (reading : Reading) : Move → Prop
  | nextBranch => reading.opened = []
  | repeatLast .. => reading.opened = [] ∧ reading.pieces = []
  | _ => False

/-- A move comes to the same behind other parts and branches, unless it sees the parts. -/
theorem apply_behind {parts : List Piece} {finished : List (Pattern × Nat)} {reading : Reading}
    {move : Move} (h : parts = [] ∨ ¬move.SeesFront reading) :
    move.apply (reading.behind parts finished) =
      (move.apply reading).map (Reading.behind parts finished) := by
  obtain ⟨flags, pieces, branches, opened, nextGroup, names⟩ := reading
  cases move with
  | enter head =>
    cases head with
    | capture name =>
      simp only [apply, Reading.enter, Reading.behind]
      split
      · rfl
      · cases opened <;> rfl
    | plain inner => cases opened <;> rfl
    | directive inner => cases opened <;> rfl
  | close =>
    rcases opened with _ | ⟨group, _ | ⟨outer, others⟩⟩ <;> rfl
  | nextBranch =>
    cases opened with
    | nil =>
      obtain rfl : parts = [] := h.resolve_right (not_not_intro rfl)
      simp [apply, Reading.behind, Reading.nextBranch, Reading.branch, putBefore, Except.map]
    | cons group outer => rfl
  | add pattern depth => cases opened <;> rfl
  | repeatLast least most greedy =>
    cases opened with
    | nil =>
      rcases pieces with _ | ⟨⟨_ | body, depth⟩, pieces⟩
      · obtain rfl : parts = [] := h.resolve_right (not_not_intro ⟨rfl, rfl⟩)
        rfl
      · rfl
      · rfl
    | cons group outer => rcases pieces with _ | ⟨⟨_ | body, depth⟩, pieces⟩ <;> rfl

/-- Only a move that sees the front of the branch at the top can finish that branch. -/
theorem topBranches_of_apply {reading next : Reading} {move : Move}
    (hmove : ¬move.SeesFront reading) (h : move.apply reading = .ok next) :
    next.topBranches = reading.topBranches := by
  obtain ⟨flags, pieces, branches, opened, nextGroup, names⟩ := reading
  cases move with
  | enter head =>
    cases head with
    | capture name =>
      simp only [apply, Reading.enter] at h
      split at h
      · cases h
      · cases h
        cases opened <;> rfl
    | plain inner =>
      cases h
      cases opened <;> rfl
    | directive inner =>
      cases h
      rfl
  | close =>
    rcases opened with _ | ⟨group, _ | ⟨outer, others⟩⟩
    · cases h
    · cases h
      rfl
    · cases h
      rfl
  | nextBranch =>
    cases opened with
    | nil => exact absurd rfl hmove
    | cons group outer =>
      cases h
      rfl
  | add pattern depth =>
    cases h
    rfl
  | repeatLast least most greedy =>
    rcases pieces with _ | ⟨⟨_ | body, depth⟩, pieces⟩
    · cases h
    · cases h
    · cases h
      rfl

end Move

/-- What is read behind finished branches is read alone in the same way. -/
theorem readFrom_finished (finished : List (Pattern × Nat)) (reading : Reading)
    (text : List Char) :
    readFrom (reading.behind [] finished) text =
      (readFrom reading text).map (Reading.behind [] finished) := by
  induction hn : text.length using Nat.strongRecOn generalizing reading text with
  | ind n ih =>
  have hlength := reading.flags.length_skip_le text
  cases hskip : reading.flags.skip text with
  | nil =>
    rw [readFrom_nil reading hskip, readFrom_nil (reading.behind [] finished) hskip]
    rfl
  | cons c rest =>
    rw [hskip, List.length_cons] at hlength
    rw [readFrom_eq reading hskip, readFrom_eq (reading.behind [] finished) hskip,
      Reading.flags_behind]
    cases hmove : readMove reading.flags c rest with
    | error error => rfl
    | ok answer =>
      obtain ⟨move, left⟩ := answer
      simp only [bind, Except.bind, Move.apply_behind (.inl rfl)]
      cases hnext : move.apply reading with
      | error error => rfl
      | ok next =>
        have hle := length_le_of_readMove hmove hnext
        exact ih left.length (by omega) next left rfl

/-- Ending the first branch behind other parts puts it in front of what comes next. -/
theorem Reading.nextBranch_behind {parts : List Piece} {reading : Reading}
    (hopened : reading.opened = []) (hbranches : reading.branches = []) :
    (reading.behind parts []).nextBranch =
      Reading.behind [] [(reading.behind parts []).branch]
        { reading with pieces := [], branches := [] } := by
  obtain ⟨flags, pieces, branches, opened, nextGroup, names⟩ := reading
  cases hopened
  cases hbranches
  rfl

theorem Reading.behind_nil (reading : Reading) : reading.behind [] [] = reading := by
  obtain ⟨flags, pieces, branches, opened, nextGroup, names⟩ := reading
  have hopened : putBefore [] [] opened = opened := by
    induction opened with
    | nil => rfl
    | cons group outer ih => simp [putBefore, ih]
  simp [behind, hopened]

/-- What is read behind other parts is read alone in the same way, but for these parts in front of
its first branch, unless a repetition repeats one of them. -/
theorem readFrom_behind {parts : List Piece} {reading final : Reading} {text : List Char}
    (h : readFrom (reading.behind parts []) text = .ok final) (htop : reading.topBranches = []) :
    (∃ alone, readFrom reading text = .ok alone ∧ alone.topBranches = [] ∧
        final = alone.behind parts []) ∨
      (∃ first others : Reading, first.opened = [] ∧
        readFrom reading text = .ok (others.behind [] [first.branch]) ∧
        final = others.behind [] [(first.behind parts []).branch]) ∨
      readFrom reading text = .error .missingOperand := by
  induction hn : text.length using Nat.strongRecOn generalizing reading text with
  | ind n ih =>
  have hlength := reading.flags.length_skip_le text
  cases hskip : reading.flags.skip text with
  | nil =>
    rw [readFrom_nil (reading.behind parts []) hskip] at h
    cases h
    exact .inl ⟨reading, readFrom_nil reading hskip, htop, rfl⟩
  | cons c rest =>
    obtain ⟨move, left, next, hmove, hnext, hle, h⟩ := exists_of_readFrom h hskip
    replace hmove : readMove reading.flags c rest = .ok (move, left) := hmove
    rw [hskip, List.length_cons] at hlength
    by_cases hfront : move.SeesFront reading
    · right
      cases move with
      | nextBranch =>
        -- the first branch is finished, and nothing looks at it again
        left
        have hopened : reading.opened = [] := hfront
        rw [Reading.topBranches_of_nil hopened] at htop
        have halone : Move.nextBranch.apply reading = .ok (Reading.behind [] [reading.branch]
            { reading with pieces := [], branches := [] }) := by
          have hsame : (reading.behind [] []).nextBranch = _ :=
            Reading.nextBranch_behind hopened htop
          rw [Reading.behind_nil] at hsame
          exact congrArg Except.ok hsame
        cases hnext
        rw [Reading.nextBranch_behind hopened htop, readFrom_finished, map_eq_ok_iff] at h
        obtain ⟨others, hothers, rfl⟩ := h
        refine ⟨reading, others, hopened, ?_, rfl⟩
        rw [readFrom_of_move hskip hmove halone, readFrom_finished, hothers]
        rfl
      | repeatLast least most greedy =>
        right
        have hmissing : Move.apply reading (.repeatLast least most greedy) =
            .error .missingOperand := by
          rw [Move.apply, Reading.repeatLast, hfront.2]
        rw [readFrom_eq reading hskip]
        simp [bind, Except.bind, hmove, hmissing]
      | _ => cases hfront
    · rw [Move.apply_behind (.inr hfront), map_eq_ok_iff] at hnext
      obtain ⟨alone, halone, rfl⟩ := hnext
      rw [readFrom_of_move hskip hmove halone]
      refine ih left.length (by omega) h ?_ rfl
      rw [Move.topBranches_of_apply hfront halone, htop]

end Highlight.Regex
