import Highlight.Cursor
import Highlight.Proofs.Exploring

/-!
# What a pattern takes

`Pattern.Takes` says, without any search, which text a pattern can take between the character before
it and the text behind it.  The search is sound for it: what a match covers is taken by the pattern
(`covers_of_matchAt`).

There are three groups.

* Taking.  A list of tasks takes what its patterns take one after another (`Pattern.ofTasks`), and
  freshness does not matter to that.
* Ways to go on.  What one of the ways to go on takes, the tasks before it take
  (`takes_of_mem_outlook`).
* Reading.  `Leads` is the invariant of a thread: whatever completes it completes a match of the
  pattern.  Exploring keeps it by the lemma on ways, a character keeps it (`Leads.refreshed`), and so
  a whole run does (`covers_of_runThreads`).
-/

namespace Highlight.Regex

/-! ## Taking -/

/-- A pattern can take a text that stands behind the character `before` and in front of a rest.  Of
a repetition one round after another is taken; its limit counts once the least number is reached. -/
inductive Pattern.Takes : Pattern → Option Char → List Char → List Char → Prop
  | empty {before : Option Char} {rest : List Char} : Takes .empty before [] rest
  | char {mode : CharMode} {set : CharSet} {before : Option Char} {c : Char} {rest : List Char}
      (member : mode.any (set.contains mode) c = true) : Takes (.char mode set) before [c] rest
  | look {condition : Look} {before : Option Char} {rest : List Char}
      (holds : condition.holds before rest = true) : Takes (.look condition) before [] rest
  | group {index : Nat} {body : Pattern} {before : Option Char} {taken rest : List Char}
      (takes : Takes body before taken rest) : Takes (.group index body) before taken rest
  | seq {first second : Pattern} {before : Option Char} {taken more rest : List Char}
      (takes : Takes first before taken (more ++ rest))
      (behind : Takes second (lastChar before taken) more rest) :
      Takes (.seq first second) before (taken ++ more) rest
  | altFirst {first second : Pattern} {before : Option Char} {taken rest : List Char}
      (takes : Takes first before taken rest) : Takes (.alt first second) before taken rest
  | altSecond {first second : Pattern} {before : Option Char} {taken rest : List Char}
      (takes : Takes second before taken rest) : Takes (.alt first second) before taken rest
  | enough {body : Pattern} {most : Option Nat} {greedy : Bool} {before : Option Char}
      {rest : List Char} : Takes (.times body 0 most greedy) before [] rest
  | round {body : Pattern} {least : Nat} {most : Option Nat} {greedy : Bool}
      {before : Option Char} {taken more rest : List Char} (goesOn : 0 < least ∨ most ≠ some 0)
      (takes : Takes body before taken (more ++ rest))
      (behind : Takes (.times body (least - 1) (most.map (· - 1)) greedy)
        (lastChar before taken) more rest) :
      Takes (.times body least most greedy) before (taken ++ more) rest

theorem lastChar_append (before : Option Char) (first second : List Char) :
    lastChar before (first ++ second) = lastChar (lastChar before first) second := by
  simp only [lastChar, List.getLast?_append, Option.or_assoc]

/-- The pattern of a task. -/
def Task.pattern : Task → Pattern
  | run pattern => pattern
  | close _ => .empty
  | again body greedy _ => .times body 0 none greedy

/-- The pattern of tasks that are worked off one after another. -/
def Pattern.ofTasks : List Task → Pattern
  | [] => .empty
  | task :: rest => .seq task.pattern (ofTasks rest)

theorem Task.pattern_refreshed (task : Task) : task.refreshed.pattern = task.pattern := by
  cases task <;> rfl

theorem Pattern.ofTasks_refreshed (tasks : List Task) :
    ofTasks (tasks.map Task.refreshed) = ofTasks tasks := by
  induction tasks with
  | nil => rfl
  | cons task rest ih => simp only [List.map_cons, ofTasks, Task.pattern_refreshed, ih]

theorem Pattern.takes_ofTasks_cons {task : Task} {tasks : List Task} {before : Option Char}
    {taken rest : List Char} :
    (ofTasks (task :: tasks)).Takes before taken rest ↔
      ∃ first more, taken = first ++ more ∧ task.pattern.Takes before first (more ++ rest) ∧
        (ofTasks tasks).Takes (lastChar before first) more rest := by
  constructor
  · intro h
    cases h with
    | seq takes behind => exact ⟨_, _, rfl, takes, behind⟩
  · rintro ⟨first, more, rfl, htakes, hbehind⟩
    exact .seq htakes hbehind

/-- A task that takes nothing can stand before others. -/
theorem Pattern.takes_ofTasks_of_nil {task : Task} {tasks : List Task} {before : Option Char}
    {taken rest : List Char} (htask : task.pattern.Takes before [] (taken ++ rest))
    (h : (ofTasks tasks).Takes before taken rest) :
    (ofTasks (task :: tasks)).Takes before taken rest :=
  takes_ofTasks_cons.2 ⟨[], taken, rfl, htask, h⟩

/-- A task can stand for another that takes at least as much. -/
theorem Pattern.takes_ofTasks_of_head {first whole : Task} {tasks : List Task}
    {before : Option Char} {taken rest : List Char}
    (hwhole : ∀ {before taken left}, first.pattern.Takes before taken left →
      whole.pattern.Takes before taken left)
    (h : (ofTasks (first :: tasks)).Takes before taken rest) :
    (ofTasks (whole :: tasks)).Takes before taken rest := by
  obtain ⟨one, more, rfl, hone, hmore⟩ := takes_ofTasks_cons.1 h
  exact takes_ofTasks_cons.2 ⟨one, more, rfl, hwhole hone, hmore⟩

/-- Two tasks can stand as one whose pattern takes what they take one after the other. -/
theorem Pattern.takes_ofTasks_of_pair {first second whole : Task} {tasks : List Task}
    {before : Option Char} {taken rest : List Char}
    (hwhole : ∀ taken more left, first.pattern.Takes before taken (more ++ left) →
      second.pattern.Takes (lastChar before taken) more left →
      whole.pattern.Takes before (taken ++ more) left)
    (h : (ofTasks (first :: second :: tasks)).Takes before taken rest) :
    (ofTasks (whole :: tasks)).Takes before taken rest := by
  obtain ⟨one, others, rfl, hone, hothers⟩ := takes_ofTasks_cons.1 h
  obtain ⟨two, more, rfl, htwo, hmore⟩ := takes_ofTasks_cons.1 hothers
  refine takes_ofTasks_cons.2 ⟨one ++ two, more, by simp, ?_, ?_⟩
  · rw [List.append_assoc] at hone
    exact hwhole one two (more ++ rest) hone htwo
  · rw [lastChar_append]
    exact hmore

/-! ## Ways to go on -/

/-- What one of the ways to go on takes at a place, the tasks before it take. -/
theorem takes_of_mem_outlook {place : Place} {todo : List Task} {marks : Marks}
    {ways : List Thread} (h : outlook place todo marks = .goesOn ways) {way : Thread}
    (hway : way ∈ ways) {taken rest : List Char} (hplace : place.rest = taken ++ rest)
    (htakes : (Pattern.ofTasks way.todo).Takes place.before taken rest) :
    (Pattern.ofTasks todo).Takes place.before taken rest := by
  match todo with
  | [] => cases h
  | .close _ :: _ =>
    cases h
    rw [List.mem_singleton.1 hway] at htakes
    exact Pattern.takes_ofTasks_of_nil .empty htakes
  | .again _ _ false :: _ =>
    cases h
    cases hway
  | .again _ _ true :: _ =>
    cases h
    rcases mem_inOrder.1 hway with rfl | rfl
    · refine Pattern.takes_ofTasks_of_pair ?_ htakes
      intro taken more left hbody hrounds
      exact .round (.inr (by simp)) hbody hrounds
    · exact Pattern.takes_ofTasks_of_nil .enough htakes
  | .run .empty :: _ =>
    cases h
    rw [List.mem_singleton.1 hway] at htakes
    exact Pattern.takes_ofTasks_of_nil .empty htakes
  | .run (.char ..) :: _ => cases h
  | .run (.look condition) :: _ =>
    rw [outlook, Outlook.goesOn.injEq] at h
    rw [← h, List.mem_ite_nil_right, List.mem_singleton] at hway
    obtain ⟨hholds, rfl⟩ := hway
    rw [hplace] at hholds
    exact Pattern.takes_ofTasks_of_nil (.look hholds) htakes
  | .run (.group ..) :: _ =>
    cases h
    rw [List.mem_singleton.1 hway] at htakes
    refine Pattern.takes_ofTasks_of_pair ?_ htakes
    intro taken more left hbody hclose
    cases hclose
    rw [List.append_nil]
    exact .group hbody
  | .run (.seq ..) :: _ =>
    cases h
    rw [List.mem_singleton.1 hway] at htakes
    refine Pattern.takes_ofTasks_of_pair ?_ htakes
    intro taken more left hfirst hsecond
    exact .seq hfirst hsecond
  | .run (.alt ..) :: _ =>
    cases h
    rcases List.mem_pair.1 hway with rfl | rfl
    · exact Pattern.takes_ofTasks_of_head .altFirst htakes
    · exact Pattern.takes_ofTasks_of_head .altSecond htakes
  | .run (.times _ (_ + 2) none _) :: _ =>
    cases h
    rw [List.mem_singleton.1 hway] at htakes
    refine Pattern.takes_ofTasks_of_pair ?_ htakes
    intro taken more left hbody hrounds
    exact .round (.inl (Nat.succ_pos _)) hbody hrounds
  | .run (.times _ 1 none _) :: _ =>
    cases h
    rw [List.mem_singleton.1 hway] at htakes
    refine Pattern.takes_ofTasks_of_pair ?_ htakes
    intro taken more left hbody hrounds
    exact .round (.inl Nat.one_pos) hbody hrounds
  | .run (.times _ 0 none _) :: _ =>
    cases h
    rcases mem_inOrder.1 hway with rfl | rfl
    · refine Pattern.takes_ofTasks_of_pair ?_ htakes
      intro taken more left hbody hrounds
      exact .round (.inr (by simp)) hbody hrounds
    · exact Pattern.takes_ofTasks_of_nil .enough htakes
  | .run (.times _ (least + 1) (some _) _) :: _ =>
    cases least
    all_goals
      cases h
      rw [List.mem_singleton.1 hway] at htakes
      refine Pattern.takes_ofTasks_of_pair ?_ htakes
      intro taken more left hbody hrounds
      exact .round (.inl (Nat.succ_pos _)) hbody hrounds
  | .run (.times _ 0 (some 0) _) :: _ =>
    cases h
    rw [List.mem_singleton.1 hway] at htakes
    exact Pattern.takes_ofTasks_of_nil .enough htakes
  | .run (.times _ 0 (some (_ + 1)) _) :: _ =>
    cases h
    rcases mem_inOrder.1 hway with rfl | rfl
    · refine Pattern.takes_ofTasks_of_pair ?_ htakes
      intro taken more left hbody hrounds
      exact .round (.inr (by simp)) hbody hrounds
    · exact Pattern.takes_ofTasks_of_nil .enough htakes

/-! ## Reading -/

/-- The invariant of a thread at a place: whatever completes it there completes a match of the
pattern that began at `start`, `read` being the text between. -/
def Leads (pattern : Pattern) (start : Place) (read : List Char) (place : Place)
    (todo : List Task) : Prop :=
  ∀ taken rest, place.rest = taken ++ rest →
    (Pattern.ofTasks todo).Takes place.before taken rest →
    pattern.Takes start.before (read ++ taken) rest

/-- A character keeps the invariant. -/
theorem Leads.refreshed {pattern : Pattern} {start : Place} {read : List Char}
    {before : Option Char} {c : Char} {rest : List Char} {position next : Nat} {mode : CharMode}
    {set : CharSet} {tasks : List Task} (hmember : mode.any (set.contains mode) c = true)
    (h : Leads pattern start read ⟨before, c :: rest, position⟩ (.run (.char mode set) :: tasks)) :
    Leads pattern start (read ++ [c]) ⟨some c, rest, next⟩ (tasks.map Task.refreshed) := by
  intro taken left hrest htakes
  rw [Pattern.ofTasks_refreshed] at htakes
  rw [List.append_assoc]
  refine h ([c] ++ taken) left (congrArg (c :: ·) hrest) ?_
  exact Pattern.takes_ofTasks_cons.2 ⟨[c], taken, rfl, .char hmember, htakes⟩

theorem keeps_empty (property : List Task → Prop) : Frontier.Keeps property {} := by
  refine ⟨?_, ?_⟩
  · intro thread hthread
    cases hthread
  · intro hfound
    cases hfound

/-- Reading a character keeps the invariant of all threads. -/
theorem keeps_advance {pattern : Pattern} {start : Place} {read : List Char}
    {before : Option Char} {c : Char} {rest : List Char} {position : Nat} (next : Nat)
    {threads : List Thread}
    (h : ∀ thread ∈ threads, Leads pattern start read ⟨before, c :: rest, position⟩ thread.todo) :
    (advance c ⟨some c, rest, next⟩ threads).Keeps
      (Leads pattern start (read ++ [c]) ⟨some c, rest, next⟩) := by
  refine List.foldlRecOn threads _ (keeps_empty _) ?_
  intro found hfound thread hthread
  split
  · next mode set tasks htodo =>
    split
    · next hmember =>
      refine hfound.explore ?_ thread.marks ?_
      · intro todo marks ways hlook htodo way hway taken left hplace htakes
        exact htodo taken left hplace (takes_of_mem_outlook hlook hway hplace htakes)
      · have hlead := h thread hthread
        rw [htodo] at hlead
        exact hlead.refreshed hmember
    · exact hfound
  · exact hfound

/-- What a match from a place covers is taken there by a pattern. -/
def Match.Covers (pattern : Pattern) (place : Place) (found : Match) : Prop :=
  ∃ taken rest, place.rest = taken ++ rest ∧ found.start = place.position ∧
    found.stop = place.position + taken.length ∧ pattern.Takes place.before taken rest

/-- Reading on, the threads and the match that was found last keep what they say of the pattern. -/
theorem covers_of_runThreads {pattern : Pattern} {start : Place} (read : List Char)
    (place : Place) {threads : List Thread} {best : Option Match}
    (hstart : start.rest = read ++ place.rest)
    (hposition : place.position = start.position + read.length)
    (hthreads : ∀ thread ∈ threads, Leads pattern start read place thread.todo)
    (hbest : ∀ found, best = some found → found.Covers pattern start) {found : Match}
    (h : runThreads start.position place.position threads best place.rest = some found) :
    found.Covers pattern start := by
  obtain ⟨before, text, position⟩ := place
  induction text generalizing read before position threads best with
  | nil => exact hbest found h
  | cons c rest ih =>
    rw [runThreads] at h
    split at h
    · exact hbest found h
    · have hkeeps := keeps_advance (position + 1) hthreads
      have hread : start.rest = (read ++ [c]) ++ rest := by simpa using hstart
      have hnext : position + 1 = start.position + (read ++ [c]).length := by
        simp only [List.length_append, List.length_singleton]
        exact congrArg (· + 1) hposition
      refine ih (read ++ [c]) ?_ (some c) (position + 1) hread hnext ?_ h
      · intro other hother
        split at hother
        · next marks hmarks =>
          cases hother
          refine ⟨read ++ [c], rest, hread, rfl, hnext, ?_⟩
          have hdone := hkeeps.found (by rw [hmarks]; rfl) [] rest rfl .empty
          simpa using hdone
        · exact hbest other hother
      · intro thread hthread
        exact hkeeps.threads thread (List.mem_reverse.1 hthread)

/-- A match at a place covers text that the pattern takes there. -/
theorem covers_of_matchAt {pattern : Pattern} {place : Place} {found : Match}
    (h : pattern.matchAt place = some found) : found.Covers pattern place := by
  have hkeeps : (explore place [.run pattern] {} {}).Keeps (Leads pattern place [] place) := by
    refine (keeps_empty _).explore ?_ {} ?_
    · intro todo marks ways hlook htodo way hway taken left hplace htakes
      exact htodo taken left hplace (takes_of_mem_outlook hlook hway hplace htakes)
    · intro taken rest hplace htakes
      obtain ⟨first, more, rfl, hfirst, hmore⟩ := Pattern.takes_ofTasks_cons.1 htakes
      cases hmore
      rw [List.nil_append, List.append_nil]
      exact hfirst
  refine covers_of_runThreads [] place rfl rfl ?_ ?_ h
  · intro thread hthread
    exact hkeeps.threads thread (List.mem_reverse.1 hthread)
  · intro other hother
    obtain ⟨marks, hmarks, rfl⟩ := Option.map_eq_some_iff.1 hother
    have hdone := hkeeps.found (by rw [hmarks]; rfl) [] place.rest rfl .empty
    exact ⟨[], place.rest, rfl, rfl, rfl, by simpa using hdone⟩

end Highlight.Regex
