import Highlight.Regex.Search
import Mathlib.Data.List.Basic

/-!
# Exploring a place

Before a character is read, a thread is done, waits for the character, or can go on in several ways
(`outlook`).  Exploring a place is a depth-first walk along these ways that leaves out what it met
before (`explore_eq`), and every way has less work left (`workOf_lt_of_mem`), so proofs about it are
inductions on the work.  Two facts are proved that way.

* A property of lists of tasks that is handed on to the ways holds of all that exploring finds
  (`Frontier.Keeps.explore`).
* What was met before matters only if it can be met again, so lists of tasks with more work left
  make no difference (`Frontier.Agrees.explore`).  A condition in front of a pattern leaves only such
  lists behind (`Pattern.matchAt_seq_look`).
-/

namespace Highlight.Regex

/-! ## Ways to go on -/

/-- What a thread comes to at a place before a character is read. -/
inductive Outlook where
  /-- Nothing is left to do. -/
  | done
  /-- A character is to be read. -/
  | waits
  /-- There are ways to go on, the preferred one first. -/
  | goesOn (ways : List Thread)

/-- One more round of a repetition and its end, in the order that the repetition prefers. -/
def inOrder (greedy : Bool) (round leave : Thread) : List Thread :=
  if greedy then [round, leave] else [leave, round]

theorem mem_inOrder {greedy : Bool} {round leave way : Thread} :
    way ∈ inOrder greedy round leave ↔ way = round ∨ way = leave := by
  cases greedy with
  | true => simp [inOrder]
  | false => simp [inOrder, or_comm]

/-- What a thread with some tasks and marks comes to at a place. -/
def outlook (place : Place) (todo : List Task) (marks : Marks) : Outlook :=
  match todo with
  | [] => .done
  | .close group :: rest => .goesOn [⟨rest, marks.closeGroup group place.position⟩]
  | .again _ _ false :: _ => .goesOn []
  | .again body greedy true :: rest =>
    .goesOn (inOrder greedy ⟨.run body :: .again body greedy false :: rest, marks⟩ ⟨rest, marks⟩)
  | .run .empty :: rest => .goesOn [⟨rest, marks⟩]
  | .run (.char ..) :: _ => .waits
  | .run (.look condition) :: rest =>
    .goesOn (if condition.holds place.before place.rest then [⟨rest, marks⟩] else [])
  | .run (.group index body) :: rest =>
    .goesOn [⟨.run body :: .close index :: rest, marks.openGroup index place.position⟩]
  | .run (.seq first second) :: rest => .goesOn [⟨.run first :: .run second :: rest, marks⟩]
  | .run (.alt first second) :: rest =>
    .goesOn [⟨.run first :: rest, marks⟩, ⟨.run second :: rest, marks⟩]
  | .run (.times body (least + 2) none greedy) :: rest =>
    .goesOn [⟨.run body :: .run (.times body (least + 1) none greedy) :: rest, marks⟩]
  | .run (.times body 1 none greedy) :: rest =>
    .goesOn [⟨.run body :: .again body greedy true :: rest, marks⟩]
  | .run (.times body 0 none greedy) :: rest =>
    .goesOn (inOrder greedy ⟨.run body :: .again body greedy true :: rest, marks⟩ ⟨rest, marks⟩)
  | .run (.times body (least + 1) (some most) greedy) :: rest =>
    .goesOn [⟨.run body :: .run (.times body least (some (most - 1)) greedy) :: rest, marks⟩]
  | .run (.times _ 0 (some 0) _) :: rest => .goesOn [⟨rest, marks⟩]
  | .run (.times body 0 (some (most + 1)) greedy) :: rest =>
    .goesOn (inOrder greedy ⟨.run body :: .run (.times body 0 (some most) greedy) :: rest, marks⟩
      ⟨rest, marks⟩)

/-- Exploring leaves out what was met before and follows the ways to go on one after another. -/
theorem explore_eq (place : Place) (todo : List Task) (marks : Marks) (found : Frontier) :
    explore place todo marks found =
      if found.found.isSome || found.seen.contains (todo.map Task.erased) then found
      else
        let found := { found with seen := todo.map Task.erased :: found.seen }
        match outlook place todo marks with
        | .done => { found with found := some marks }
        | .waits => { found with threads := ⟨todo, marks⟩ :: found.threads }
        | .goesOn ways =>
          ways.foldl (fun found way => explore place way.todo way.marks found) found := by
  rw [explore]
  split
  · rfl
  · split
    · rfl
    · rfl
    · rfl
    · next body greedy rest _ =>
      cases greedy <;> rfl
    · next pattern rest _ =>
      cases pattern with
      | look condition =>
        simp only [outlook]
        split <;> rfl
      | times body least most greedy =>
        cases most with
        | none =>
          rcases least with _ | _ | least
          · cases greedy <;> rfl
          · rfl
          · rfl
        | some most =>
          rcases least with _ | _ | least
          · cases most with
            | zero => rfl
            | succ most => cases greedy <;> rfl
          · rfl
          · rfl
      | _ => rfl

/-- Where there is one way to go on, exploring follows it. -/
theorem explore_of_way {place : Place} {todo : List Task} {marks : Marks} {found : Frontier}
    {way : Thread} (hfound : found.found = none) (hfresh : todo.map Task.erased ∉ found.seen)
    (h : outlook place todo marks = .goesOn [way]) :
    explore place todo marks found =
      explore place way.todo way.marks
        { found with seen := todo.map Task.erased :: found.seen } := by
  rw [explore_eq place todo, if_neg (by simp [hfound, hfresh]), h]
  rfl

/-- Every way to go on has less work left. -/
theorem workOf_lt_of_mem {place : Place} {todo : List Task} {marks : Marks} {ways : List Thread}
    (h : outlook place todo marks = .goesOn ways) {way : Thread} (hway : way ∈ ways) :
    workOf way.todo < workOf todo := by
  unfold outlook at h
  split at h
  all_goals cases h
  all_goals simp only [mem_inOrder, List.mem_ite_nil_right, List.mem_cons, List.not_mem_nil,
    or_false] at hway
  all_goals first
    | (rcases hway with rfl | rfl)
    | (rcases hway with ⟨-, rfl⟩)
  all_goals simp only [workOf, Task.work, Pattern.work, Nat.add_mul, Nat.sub_mul, Nat.mul_add,
    Nat.succ_eq_add_one, Option.getD_some, Option.getD_none]
  all_goals omega

theorem eq_nil_of_outlook {place : Place} {todo : List Task} {marks : Marks}
    (h : outlook place todo marks = .done) : todo = [] := by
  unfold outlook at h
  split at h
  all_goals first
    | rfl
    | cases h

/-! ## Properties that exploring keeps -/

/-- What a frontier has found has a property of lists of tasks: each of its threads, and, if a
thread is done, the list of no tasks. -/
structure Frontier.Keeps (property : List Task → Prop) (frontier : Frontier) : Prop where
  threads : ∀ thread ∈ frontier.threads, property thread.todo
  found : frontier.found.isSome = true → property []

/-- A property that a list of tasks hands on to the ways to go on holds of all that exploring
finds. -/
theorem Frontier.Keeps.explore {property : List Task → Prop} {place : Place}
    (hways : ∀ todo marks ways, outlook place todo marks = .goesOn ways → property todo →
      ∀ way ∈ ways, property way.todo)
    {todo : List Task} (marks : Marks) {frontier : Frontier} (h : frontier.Keeps property)
    (htodo : property todo) : (explore place todo marks frontier).Keeps property := by
  induction hn : workOf todo using Nat.strongRecOn generalizing todo marks frontier with
  | ind n ih =>
  rw [explore_eq]
  split
  · exact h
  · cases hlook : outlook place todo marks with
    | done =>
      refine ⟨h.threads, fun _ => ?_⟩
      rw [eq_nil_of_outlook hlook] at htodo
      exact htodo
    | waits =>
      refine ⟨?_, h.found⟩
      intro thread hthread
      rcases List.mem_cons.1 hthread with rfl | hthread
      · exact htodo
      · exact h.threads thread hthread
    | goesOn ways =>
      refine List.foldlRecOn ways _ ⟨h.threads, h.found⟩ ?_
      intro found hfound way hway
      have hless := workOf_lt_of_mem hlook hway
      exact ih (workOf way.todo) (hn ▸ hless) way.marks hfound
        (hways todo marks ways hlook htodo way hway) rfl

/-! ## What was met before -/

/-- Telling threads apart does not add to their work. -/
theorem workOf_erased_le (todo : List Task) : workOf (todo.map Task.erased) ≤ workOf todo := by
  induction todo with
  | nil => exact Nat.le_refl _
  | cons task rest ih =>
    have htask : task.erased.work ≤ task.work := by
      cases task with
      | again body greedy fresh => cases fresh <;> simp [Task.erased, Task.work]
      | _ => exact Nat.le_refl _
    exact Nat.add_le_add htask ih

/-- Two frontiers have found the same, and have met the same lists of tasks that have no more work
left than a bound. -/
structure Frontier.Agrees (bound : Nat) (first second : Frontier) : Prop where
  threads : first.threads = second.threads
  found : first.found = second.found
  seen : ∀ key, workOf key ≤ bound → (key ∈ first.seen ↔ key ∈ second.seen)

/-- Exploring a list of tasks finds the same if the lists that were met before differ only in such as
have more work left. -/
theorem Frontier.Agrees.explore {bound : Nat} {place : Place} {todo : List Task} (marks : Marks)
    {first second : Frontier} (h : first.Agrees bound second) (htodo : workOf todo ≤ bound) :
    (explore place todo marks first).Agrees bound (explore place todo marks second) := by
  induction hn : workOf todo using Nat.strongRecOn generalizing todo marks first second with
  | ind n ih =>
  have hkey : todo.map Task.erased ∈ first.seen ↔ todo.map Task.erased ∈ second.seen :=
    h.seen _ (Nat.le_trans (workOf_erased_le todo) htodo)
  have hseen : ∀ key, workOf key ≤ bound →
      (key ∈ todo.map Task.erased :: first.seen ↔ key ∈ todo.map Task.erased :: second.seen) := by
    intro key hwork
    simp only [List.mem_cons, h.seen key hwork]
  rw [explore_eq, explore_eq]
  by_cases hmet : first.found.isSome = true ∨ todo.map Task.erased ∈ first.seen
  · have hmet' : second.found.isSome = true ∨ todo.map Task.erased ∈ second.seen := by
      rwa [← h.found, ← hkey]
    rw [if_pos (by simpa using hmet), if_pos (by simpa using hmet')]
    exact h
  · have hmet' : ¬(second.found.isSome = true ∨ todo.map Task.erased ∈ second.seen) := by
      rwa [← h.found, ← hkey]
    rw [if_neg (by simpa using hmet), if_neg (by simpa using hmet')]
    cases hlook : outlook place todo marks with
    | done => exact ⟨h.threads, rfl, hseen⟩
    | waits => exact ⟨congrArg (⟨todo, marks⟩ :: ·) h.threads, h.found, hseen⟩
    | goesOn ways =>
      refine List.foldl_rel ⟨h.threads, h.found, hseen⟩ ?_
      intro way hway one other hagrees
      have hless := workOf_lt_of_mem hlook hway
      exact ih (workOf way.todo) (hn ▸ hless) way.marks hagrees (by omega) rfl

/-- A condition that holds can be left out in front of a pattern. -/
theorem Pattern.matchAt_seq_look {condition : Look} {pattern : Pattern} {place : Place}
    (h : condition.holds place.before place.rest = true) :
    (Pattern.seq (.look condition) pattern).matchAt place = pattern.matchAt place := by
  have hexplore : explore place [.run (.seq (.look condition) pattern)] {} {} =
      explore place [.run pattern] {}
        { seen :=
            [[.run (.look condition), .run pattern], [.run (.seq (.look condition) pattern)]] } := by
    have hlook : outlook place [.run (.look condition), .run pattern] {} =
        .goesOn [⟨[.run pattern], {}⟩] := by
      simp [outlook, h]
    have hseq := @explore_of_way place [.run (.seq (.look condition) pattern)] {} {}
      ⟨[.run (.look condition), .run pattern], {}⟩ rfl List.not_mem_nil rfl
    rw [hseq, explore_of_way rfl (by simp) hlook]
    rfl
  -- the lists that were met on the way have more work left than the pattern
  have hagrees : (explore place [.run (.seq (.look condition) pattern)] {} {}).Agrees
      (workOf [.run pattern]) (explore place [.run pattern] {} {}) := by
    rw [hexplore]
    refine Frontier.Agrees.explore {} ⟨rfl, rfl, ?_⟩ (Nat.le_refl _)
    intro key hwork
    constructor
    · intro hkey
      simp only [List.mem_cons, List.not_mem_nil, or_false] at hkey
      rcases hkey with rfl | rfl
      all_goals
        simp only [workOf, Task.work, work] at hwork
        omega
    · intro hkey
      cases hkey
  simp only [matchAt, hagrees.threads, hagrees.found]

end Highlight.Regex
