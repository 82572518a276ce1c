import Highlight.Proofs.PatternTakes

/-!
# The search finds what a pattern takes

`covers_of_matchAt` says that a match covers text that the pattern takes.  This module is the other
direction: where the pattern takes some text, the search finds a match (`isSome_matchAt_iff`).  The
search leaves two things out, and neither loses a match.

* A list of tasks that was met before at the place.  What has been met is closed under going on
  (`Frontier.Closed`), so the ways of the list were followed when it was met first.
* Another round of a repetition that took nothing in the last one.  `TasksTake` is what tasks take
  without coming to such a stale round before something is read, and a round that takes nothing can
  be dropped (`Pattern.Takes.nonemptyRound`).

The tasks that take a text thus lead to a thread that takes the next character of it
(`Frontier.Closed.exists_thread`), and on to the end of the text (`isSome_runThreads`).
-/

namespace Highlight.Regex

/-! ## Taking without stale rounds -/

/-- Whether a task is the end of a round that took nothing yet. -/
def Task.stale : Task → Bool
  | again _ _ fresh => !fresh
  | _ => false

theorem Task.stale_refreshed (task : Task) : task.refreshed.stale = false := by
  cases task <;> rfl

/-- Some tasks take a text one after another, and none that is stale is come to before something was
read, which may have been before the text already. -/
inductive TasksTake : Bool → List Task → Option Char → List Char → List Char → Prop
  | nil {hasRead : Bool} {before : Option Char} {rest : List Char} :
      TasksTake hasRead [] before [] rest
  | cons {hasRead : Bool} {task : Task} {tasks : List Task} {before : Option Char}
      {taken more rest : List Char} (fresh : task.stale = true → hasRead = true)
      (takes : task.pattern.Takes before taken (more ++ rest))
      (behind : TasksTake (hasRead || !taken.isEmpty) tasks (lastChar before taken) more rest) :
      TasksTake hasRead (task :: tasks) before (taken ++ more) rest

/-- A task that is not stale can be put in front at any time. -/
theorem TasksTake.consFresh {hasRead : Bool} {task : Task} {tasks : List Task}
    {before : Option Char} {taken more rest : List Char} (hfresh : task.stale = false)
    (takes : task.pattern.Takes before taken (more ++ rest))
    (behind : TasksTake (hasRead || !taken.isEmpty) tasks (lastChar before taken) more rest) :
    TasksTake hasRead (task :: tasks) before (taken ++ more) rest := by
  refine .cons ?_ takes behind
  intro hstale
  rw [hfresh] at hstale
  cases hstale

/-- Tasks of which none is stale take what their patterns take. -/
theorem TasksTake.of_takes {tasks : List Task} (hfresh : ∀ task ∈ tasks, task.stale = false)
    {hasRead : Bool} {before : Option Char} {taken rest : List Char}
    (h : (Pattern.ofTasks tasks).Takes before taken rest) :
    TasksTake hasRead tasks before taken rest := by
  induction tasks generalizing hasRead before taken with
  | nil =>
    cases h
    exact .nil
  | cons task tasks ih =>
    obtain ⟨first, more, rfl, hfirst, hmore⟩ := Pattern.takes_ofTasks_cons.1 h
    refine .consFresh (hfresh task List.mem_cons_self) hfirst ?_
    exact ih (fun other hother => hfresh other (List.mem_cons_of_mem _ hother)) hmore

theorem TasksTake.takes {hasRead : Bool} {tasks : List Task} {before : Option Char}
    {taken rest : List Char} (h : TasksTake hasRead tasks before taken rest) :
    (Pattern.ofTasks tasks).Takes before taken rest := by
  induction h with
  | nil => exact .empty
  | cons fresh takes behind ih => exact Pattern.takes_ofTasks_cons.2 ⟨_, _, rfl, takes, ih⟩

/-- Behind a character no task is stale. -/
theorem TasksTake.refreshed {tasks : List Task} {before : Option Char} {taken rest : List Char}
    (h : (Pattern.ofTasks tasks).Takes before taken rest) :
    TasksTake false (tasks.map Task.refreshed) before taken rest := by
  refine .of_takes ?_ ?_
  · intro task htask
    obtain ⟨other, -, rfl⟩ := List.mem_map.1 htask
    exact other.stale_refreshed
  · rw [Pattern.ofTasks_refreshed]
    exact h

/-- A task can be put in front of the tasks that take what it leaves. -/
theorem TasksTake.pair {first second : Task} {tasks : List Task} {before : Option Char}
    {one two more rest : List Char} (hfirst : first.stale = false)
    (hsecond : second.stale = true → one ≠ [])
    (hone : first.pattern.Takes before one (two ++ (more ++ rest)))
    (htwo : second.pattern.Takes (lastChar before one) two (more ++ rest))
    (hbehind : TasksTake (!(one ++ two).isEmpty) tasks (lastChar before (one ++ two)) more rest) :
    TasksTake false (first :: second :: tasks) before (one ++ two ++ more) rest := by
  rw [List.append_assoc]
  refine .consFresh hfirst (by rwa [List.append_assoc]) (.cons ?_ htwo ?_)
  · intro hstale
    simpa using hsecond hstale
  · rw [← lastChar_append]
    have hread : (false || !one.isEmpty || !two.isEmpty) = !(one ++ two).isEmpty := by
      cases one with
      | nil => simp
      | cons c one => rfl
    rw [hread]
    exact hbehind

/-- Two tasks of which none is stale can be put in front. -/
theorem TasksTake.pairFresh {first second : Task} {tasks : List Task} {before : Option Char}
    {one two more rest : List Char} (hfirst : first.stale = false) (hsecond : second.stale = false)
    (hone : first.pattern.Takes before one (two ++ (more ++ rest)))
    (htwo : second.pattern.Takes (lastChar before one) two (more ++ rest))
    (hbehind : TasksTake (!(one ++ two).isEmpty) tasks (lastChar before (one ++ two)) more rest) :
    TasksTake false (first :: second :: tasks) before (one ++ two ++ more) rest := by
  refine .pair hfirst ?_ hone htwo hbehind
  intro hstale
  rw [hsecond] at hstale
  cases hstale

/-- What a repetition without a limit takes is nothing, or begins with a round that takes something:
a round that takes nothing can be dropped. -/
theorem Pattern.Takes.nonemptyRound {body : Pattern} {greedy : Bool} {before : Option Char}
    {taken rest : List Char} (h : (Pattern.times body 0 none greedy).Takes before taken rest) :
    taken = [] ∨ ∃ first more, first ≠ [] ∧ taken = first ++ more ∧
      body.Takes before first (more ++ rest) ∧
      (Pattern.times body 0 none greedy).Takes (lastChar before first) more rest := by
  generalize hpattern : Pattern.times body 0 none greedy = pattern at h
  induction h with
  | enough => exact .inl rfl
  | @round body least most greedy before first more rest goesOn takes behind _ ih =>
    cases hpattern
    cases first with
    | nil => exact ih rfl
    | cons c first => exact .inr ⟨c :: first, more, by simp, rfl, takes, behind⟩
  | _ => cases hpattern

/-! ## Ways to go on -/

/-- Tasks that wait for a character take a text that begins with one they wait for. -/
theorem TasksTake.of_waits {place : Place} {todo : List Task} {marks : Marks}
    {before : Option Char} {taken rest : List Char} (h : TasksTake false todo before taken rest)
    (hlook : outlook place todo marks = .waits) :
    ∃ mode set tasks c more, todo = .run (.char mode set) :: tasks ∧ taken = c :: more ∧
      mode.any (set.contains mode) c = true ∧ (Pattern.ofTasks tasks).Takes (some c) more rest := by
  unfold outlook at hlook
  split at hlook
  all_goals try cases hlook
  cases h with
  | cons fresh takes behind =>
    cases takes with
    | char member => exact ⟨_, _, _, _, _, rfl, rfl, member, behind.takes⟩

/-- Tasks that can go on and take a text can go on in a way that takes it. -/
theorem TasksTake.exists_way {place : Place} {todo : List Task} {marks : Marks}
    {ways : List Thread} {taken rest : List Char}
    (h : TasksTake false todo place.before taken rest) (hplace : place.rest = taken ++ rest)
    (hlook : outlook place todo marks = .goesOn ways) :
    ∃ way ∈ ways, TasksTake false way.todo place.before taken rest := by
  cases h with
  | nil => cases hlook
  | @cons _ task tasks _ taken more _ fresh takes behind =>
    match task with
    | .close _ =>
      cases hlook
      cases takes
      exact ⟨_, List.mem_singleton_self _, behind⟩
    | .again _ _ false => cases fresh rfl
    | .again _ _ true =>
      cases hlook
      rcases takes.nonemptyRound with rfl | ⟨first, others, hne, rfl, hbody, hrounds⟩
      · exact ⟨_, mem_inOrder.2 (.inr rfl), behind⟩
      · refine ⟨_, mem_inOrder.2 (.inl rfl), ?_⟩
        exact .pair rfl (fun _ => hne) hbody hrounds behind
    | .run .empty =>
      cases hlook
      cases takes
      exact ⟨_, List.mem_singleton_self _, behind⟩
    | .run (.char ..) => cases hlook
    | .run (.look condition) =>
      rw [outlook, Outlook.goesOn.injEq] at hlook
      cases takes with
      | look holds =>
        have hholds : condition.holds place.before place.rest = true := by
          rw [hplace]
          exact holds
        rw [if_pos hholds] at hlook
        rw [← hlook]
        exact ⟨_, List.mem_singleton_self _, behind⟩
    | .run (.group index body) =>
      cases hlook
      cases takes with
      | group takes =>
        have hclose : TasksTake (!taken.isEmpty) (.close index :: tasks)
            (lastChar place.before taken) ([] ++ more) rest :=
          .consFresh rfl .empty (by simpa [lastChar] using behind)
        exact ⟨_, List.mem_singleton_self _, .consFresh rfl takes hclose⟩
    | .run (.seq ..) =>
      cases hlook
      cases takes with
      | seq takes second =>
        refine ⟨_, List.mem_singleton_self _, ?_⟩
        exact .pairFresh rfl rfl takes second behind
    | .run (.alt ..) =>
      cases hlook
      cases takes with
      | altFirst takes => exact ⟨_, List.mem_cons_self, .consFresh rfl takes behind⟩
      | altSecond takes =>
        exact ⟨_, List.mem_cons_of_mem _ (List.mem_singleton_self _), .consFresh rfl takes behind⟩
    | .run (.times _ (_ + 2) none _) =>
      cases hlook
      cases takes with
      | round goesOn takes rounds =>
        refine ⟨_, List.mem_singleton_self _, ?_⟩
        exact .pairFresh rfl rfl takes rounds behind
    | .run (.times _ 1 none _) =>
      cases hlook
      cases takes with
      | round goesOn takes rounds =>
        refine ⟨_, List.mem_singleton_self _, ?_⟩
        exact .pairFresh rfl rfl takes rounds behind
    | .run (.times _ 0 none _) =>
      cases hlook
      cases takes with
      | enough => exact ⟨_, mem_inOrder.2 (.inr rfl), behind⟩
      | round goesOn takes rounds =>
        refine ⟨_, mem_inOrder.2 (.inl rfl), ?_⟩
        exact .pairFresh rfl rfl takes rounds behind
    | .run (.times _ (least + 1) (some _) _) =>
      cases least
      all_goals
        cases hlook
        cases takes with
        | round goesOn takes rounds =>
          refine ⟨_, List.mem_singleton_self _, ?_⟩
          exact .pairFresh rfl rfl takes rounds behind
    | .run (.times _ 0 (some 0) _) =>
      cases hlook
      cases takes with
      | enough => exact ⟨_, List.mem_singleton_self _, behind⟩
      | round goesOn takes rounds => simp at goesOn
    | .run (.times _ 0 (some (_ + 1)) _) =>
      cases hlook
      cases takes with
      | enough => exact ⟨_, mem_inOrder.2 (.inr rfl), behind⟩
      | round goesOn takes rounds =>
        refine ⟨_, mem_inOrder.2 (.inl rfl), ?_⟩
        exact .pairFresh rfl rfl takes rounds behind

/-! ## What has been met -/

/-- What a task comes to does not depend on the tasks behind it: it waits, or there are tasks to put
in its place. -/
theorem exists_starts (place : Place) (task : Task) (marks : Marks) :
    (∀ tasks, outlook place (task :: tasks) marks = .waits) ∨
      ∃ starts : List Thread, ∀ tasks, outlook place (task :: tasks) marks =
        .goesOn (starts.map fun start => ⟨start.todo ++ tasks, start.marks⟩) := by
  match task with
  | .close group =>
    exact .inr ⟨[⟨[], marks.closeGroup group place.position⟩], fun _ => rfl⟩
  | .again _ _ false => exact .inr ⟨[], fun _ => rfl⟩
  | .again body greedy true =>
    refine .inr ⟨inOrder greedy ⟨[.run body, .again body greedy false], marks⟩ ⟨[], marks⟩, ?_⟩
    intro tasks
    cases greedy <;> rfl
  | .run .empty => exact .inr ⟨[⟨[], marks⟩], fun _ => rfl⟩
  | .run (.char ..) => exact .inl fun _ => rfl
  | .run (.look condition) =>
    refine .inr ⟨if condition.holds place.before place.rest then [⟨[], marks⟩] else [], ?_⟩
    intro tasks
    simp only [outlook]
    split <;> rfl
  | .run (.group index body) =>
    exact .inr ⟨[⟨[.run body, .close index], marks.openGroup index place.position⟩], fun _ => rfl⟩
  | .run (.seq first second) => exact .inr ⟨[⟨[.run first, .run second], marks⟩], fun _ => rfl⟩
  | .run (.alt first second) =>
    exact .inr ⟨[⟨[.run first], marks⟩, ⟨[.run second], marks⟩], fun _ => rfl⟩
  | .run (.times body (least + 2) none greedy) =>
    exact .inr ⟨[⟨[.run body, .run (.times body (least + 1) none greedy)], marks⟩], fun _ => rfl⟩
  | .run (.times body 1 none greedy) =>
    exact .inr ⟨[⟨[.run body, .again body greedy true], marks⟩], fun _ => rfl⟩
  | .run (.times body 0 none greedy) =>
    refine .inr ⟨inOrder greedy ⟨[.run body, .again body greedy true], marks⟩ ⟨[], marks⟩, ?_⟩
    intro tasks
    cases greedy <;> rfl
  | .run (.times body (least + 1) (some most) greedy) =>
    refine .inr ⟨[⟨[.run body, .run (.times body least (some (most - 1)) greedy)], marks⟩], ?_⟩
    intro tasks
    cases least <;> rfl
  | .run (.times _ 0 (some 0) _) => exact .inr ⟨[⟨[], marks⟩], fun _ => rfl⟩
  | .run (.times body 0 (some (most + 1)) greedy) =>
    refine .inr ⟨inOrder greedy ⟨[.run body, .run (.times body 0 (some most) greedy)], marks⟩
      ⟨[], marks⟩, ?_⟩
    intro tasks
    cases greedy <;> rfl

/-- Tasks that were told apart from others only by freshness. -/
theorem Task.eq_or_stale_of_erased {task other : Task} (h : other.erased = task.erased)
    (hfresh : task.stale = false) : other = task ∨ other.stale = true := by
  cases task with
  | again body greedy fresh =>
    cases other with
    | again otherBody otherGreedy otherFresh =>
      cases h
      cases fresh with
      | false => cases hfresh
      | true =>
        cases otherFresh with
        | false => exact .inr rfl
        | true => exact .inl rfl
    | _ => cases h
  | _ =>
    cases other <;> cases h
    exact .inl rfl

/-- A frontier has followed some tasks at a place: what they come to was found, waits, or was
met. -/
def Frontier.Follows (place : Place) (frontier : Frontier) (todo : List Task) : Prop :=
  ∃ marks,
    match outlook place todo marks with
    | .done => frontier.found.isSome = true
    | .waits => ∃ thread ∈ frontier.threads, thread.todo.map Task.erased = todo.map Task.erased
    | .goesOn ways => ∀ way ∈ ways, way.todo.map Task.erased ∈ frontier.seen

/-- Tasks that are told apart only by freshness are followed together, if the first of them that was
followed is not stale. -/
theorem Frontier.Follows.of_erased_eq {place : Place} {frontier : Frontier}
    {todo other : List Task} (h : frontier.Follows place todo)
    (hkey : other.map Task.erased = todo.map Task.erased)
    (hfresh : ∀ task ∈ todo.head?, task.stale = false) : frontier.Follows place other := by
  obtain ⟨marks, h⟩ := h
  refine ⟨marks, ?_⟩
  cases todo with
  | nil =>
    obtain rfl := List.map_eq_nil_iff.1 hkey
    exact h
  | cons task tasks =>
    obtain ⟨first, others, rfl, hfirst, hothers⟩ := List.map_eq_cons_iff.1 hkey
    rcases Task.eq_or_stale_of_erased hfirst (hfresh task rfl) with rfl | hstale
    · rcases exists_starts place first marks with hwaits | ⟨starts, hstarts⟩
      · rw [hwaits] at h ⊢
        obtain ⟨thread, hthread, heq⟩ := h
        exact ⟨thread, hthread, heq.trans hkey.symm⟩
      · rw [hstarts] at h ⊢
        intro way hway
        obtain ⟨start, hstart, rfl⟩ := List.mem_map.1 hway
        have hmet := h _ (List.mem_map_of_mem hstart)
        simpa [hothers] using hmet
    · cases first with
      | again body greedy fresh =>
        cases fresh with
        | true => cases hstale
        | false => exact fun way hway => by cases hway
      | _ => cases hstale

/-- What was met after an earlier frontier was followed, and nothing has been lost. -/
structure Frontier.Extends (place : Place) (earlier frontier : Frontier) : Prop where
  seen : earlier.seen ⊆ frontier.seen
  threads : earlier.threads ⊆ frontier.threads
  follows : ∀ todo : List Task, todo.map Task.erased ∈ frontier.seen →
    todo.map Task.erased ∉ earlier.seen → frontier.Follows place todo

theorem Frontier.Extends.refl (place : Place) (frontier : Frontier) :
    frontier.Extends place frontier :=
  ⟨List.Subset.refl _, List.Subset.refl _, fun _ hseen hnew => absurd hseen hnew⟩

/-- What was followed stays followed. -/
theorem Frontier.Follows.mono {place : Place} {earlier frontier : Frontier} {todo : List Task}
    (h : earlier.Follows place todo) (hfound : earlier.found = none)
    (hextends : earlier.Extends place frontier) : frontier.Follows place todo := by
  obtain ⟨marks, h⟩ := h
  refine ⟨marks, ?_⟩
  cases hlook : outlook place todo marks with
  | done =>
    rw [hlook, hfound] at h
    cases h
  | waits =>
    rw [hlook] at h
    obtain ⟨thread, hthread, heq⟩ := h
    exact ⟨thread, hextends.threads hthread, heq⟩
  | goesOn ways =>
    rw [hlook] at h
    exact fun way hway => hextends.seen (h way hway)

theorem Frontier.Extends.trans {place : Place} {first second third : Frontier}
    (hfirst : first.Extends place second) (hsecond : second.Extends place third)
    (hfound : second.found = none) : first.Extends place third := by
  refine ⟨List.Subset.trans hfirst.seen hsecond.seen,
    List.Subset.trans hfirst.threads hsecond.threads, ?_⟩
  intro todo hseen hnew
  by_cases hmet : todo.map Task.erased ∈ second.seen
  · exact (hfirst.follows todo hmet hnew).mono hfound hsecond
  · exact hsecond.follows todo hseen hmet

/-- Stale tasks are at the head of tasks that were met. -/
def Frontier.KnowsStale (frontier : Frontier) (todo : List Task) : Prop :=
  ∀ task tasks, task :: tasks <:+ todo → task.stale = true →
    (task :: tasks).map Task.erased ∈ frontier.seen

/-- A way to go on makes no task stale, but for the one that its tasks begin with. -/
theorem stale_of_suffix_way {place : Place} {todo : List Task} {marks : Marks}
    {ways : List Thread} (hlook : outlook place todo marks = .goesOn ways) {way : Thread}
    (hway : way ∈ ways) {task : Task} {tasks : List Task} (hsuffix : task :: tasks <:+ way.todo)
    (hstale : task.stale = true) :
    task :: tasks <:+ todo ∨ (task :: tasks).map Task.erased = todo.map Task.erased := by
  unfold outlook at hlook
  split at hlook
  all_goals cases hlook
  all_goals simp only [mem_inOrder, List.mem_ite_nil_right, List.mem_cons, List.not_mem_nil,
    or_false] at hway
  all_goals first
    | (rcases hway with rfl | rfl)
    | (rcases hway with ⟨-, rfl⟩)
  all_goals simp only [List.suffix_cons_iff, List.cons.injEq] at hsuffix ⊢
  -- the way begins with no task of its own, with one or with two
  all_goals first
    | exact .inl (.inr hsuffix)
    | (rcases hsuffix with ⟨rfl, -⟩ | hsuffix
       · cases hstale
       · exact .inl (.inr hsuffix))
    | (rcases hsuffix with ⟨rfl, -⟩ | ⟨rfl, rfl⟩ | hsuffix
       · cases hstale
       · first
           | exact .inr rfl
           | cases hstale
       · exact .inl (.inr hsuffix))

/-- Exploring leaves a frontier alone that has found a match. -/
theorem explore_of_found {place : Place} {todo : List Task} {marks : Marks} {frontier : Frontier}
    (h : frontier.found.isSome = true) : explore place todo marks frontier = frontier := by
  rw [explore_eq, if_pos (by simp [h])]

/-- Ways are followed one after another, unless one of them finds a match. -/
theorem Frontier.extends_foldl (place : Place) (ways : List Thread) (frontier : Frontier)
    (hway : ∀ way ∈ ways, ∀ other : Frontier, frontier.seen ⊆ other.seen →
      (explore place way.todo way.marks other).found.isSome = true ∨
        other.Extends place (explore place way.todo way.marks other) ∧
          way.todo.map Task.erased ∈ (explore place way.todo way.marks other).seen) :
    (ways.foldl (fun found way => explore place way.todo way.marks found)
        frontier).found.isSome = true ∨
      frontier.Extends place
          (ways.foldl (fun found way => explore place way.todo way.marks found) frontier) ∧
        ∀ way ∈ ways, way.todo.map Task.erased ∈
          (ways.foldl (fun found way => explore place way.todo way.marks found) frontier).seen := by
  induction ways generalizing frontier with
  | nil => exact .inr ⟨.refl place frontier, nofun⟩
  | cons first others ih =>
    rw [List.foldl_cons]
    cases hfound : (explore place first.todo first.marks frontier).found with
    | some marks =>
      -- nothing is added behind a match
      left
      have hstays : ∀ ways : List Thread, ways.foldl
          (fun found way => explore place way.todo way.marks found)
          (explore place first.todo first.marks frontier) =
          explore place first.todo first.marks frontier := by
        intro ways
        induction ways with
        | nil => rfl
        | cons way ways ihWays =>
          rw [List.foldl_cons, explore_of_found (by rw [hfound]; rfl), ihWays]
      rw [hstays, hfound]
      rfl
    | none =>
      have hfirst := hway first List.mem_cons_self frontier (List.Subset.refl _)
      rw [hfound] at hfirst
      obtain ⟨hextends, hmet⟩ := hfirst.resolve_left Bool.false_ne_true
      have hothers := ih (explore place first.todo first.marks frontier)
        fun way hmem other hsubset =>
          hway way (List.mem_cons_of_mem _ hmem) other (List.Subset.trans hextends.seen hsubset)
      rcases hothers with hlater | ⟨hlater, hmetLater⟩
      · exact .inl hlater
      · refine .inr ⟨hextends.trans hlater hfound, ?_⟩
        intro way hmem
        rcases List.mem_cons.1 hmem with rfl | hmem
        · exact hlater.seen hmet
        · exact hmetLater way hmem

/-- Exploring follows all that it meets, unless it finds a match. -/
theorem Frontier.extends_explore (place : Place) {todo : List Task} (marks : Marks)
    {frontier : Frontier} (hknows : frontier.KnowsStale todo) :
    (explore place todo marks frontier).found.isSome = true ∨
      frontier.Extends place (explore place todo marks frontier) ∧
        todo.map Task.erased ∈ (explore place todo marks frontier).seen := by
  induction hn : workOf todo using Nat.strongRecOn generalizing todo marks frontier with
  | ind n ih =>
  rw [explore_eq]
  split
  · next hmet =>
    rcases Bool.or_eq_true _ _ ▸ hmet with hfound | hseen
    · exact .inl hfound
    · exact .inr ⟨.refl place frontier, by simpa using hseen⟩
  · next hmet =>
    have hnew : todo.map Task.erased ∉ frontier.seen := by
      intro hseen
      exact hmet (by simp [hseen])
    -- what has the key of these tasks was not followed as a stale one
    have hfresh : ∀ task ∈ todo.head?, task.stale = false := by
      intro task htask
      cases hstale : task.stale with
      | false => rfl
      | true =>
        obtain ⟨tasks, rfl⟩ := List.head?_eq_some_iff.1 htask
        exact absurd (hknows task tasks (List.suffix_refl _) hstale) hnew
    -- so these tasks are followed as soon as what they come to is
    have hextends : ∀ last : Frontier,
        Frontier.Extends place { frontier with seen := todo.map Task.erased :: frontier.seen }
          last → last.Follows place todo →
        frontier.Extends place last ∧ todo.map Task.erased ∈ last.seen := by
      intro last hlast hfollows
      refine ⟨⟨?_, hlast.threads, ?_⟩, hlast.seen List.mem_cons_self⟩
      · exact fun key hkey => hlast.seen (List.mem_cons_of_mem _ hkey)
      · intro other hseen hother
        by_cases hkey : other.map Task.erased = todo.map Task.erased
        · exact hfollows.of_erased_eq hkey hfresh
        · refine hlast.follows other hseen ?_
          rw [List.mem_cons]
          exact not_or.2 ⟨hkey, hother⟩
    cases hlook : outlook place todo marks with
    | done => exact .inl rfl
    | waits =>
      right
      refine hextends _ ⟨List.Subset.refl _, List.subset_cons_self _ _, ?_⟩ ?_
      · intro other hseen hother
        exact absurd hseen hother
      · refine ⟨marks, ?_⟩
        rw [hlook]
        exact ⟨_, List.mem_cons_self, rfl⟩
    | goesOn ways =>
      have hfold := Frontier.extends_foldl place ways
        { frontier with seen := todo.map Task.erased :: frontier.seen }
        fun way hway other hsubset => by
          have hless := workOf_lt_of_mem hlook hway
          refine ih (workOf way.todo) (hn ▸ hless) way.marks ?_ rfl
          intro task tasks hsuffix hstale
          rcases stale_of_suffix_way hlook hway hsuffix hstale with hold | hkey
          · exact hsubset (List.mem_cons_of_mem _ (hknows task tasks hold hstale))
          · rw [hkey]
            exact hsubset List.mem_cons_self
      rcases hfold with hfound | ⟨hlast, hways⟩
      · exact .inl hfound
      · right
        refine hextends _ hlast ⟨marks, ?_⟩
        rw [hlook]
        exact hways

/-- A frontier has followed all that it has met. -/
def Frontier.Closed (place : Place) (frontier : Frontier) : Prop :=
  ∀ todo : List Task, todo.map Task.erased ∈ frontier.seen → frontier.Follows place todo

theorem Frontier.Extends.closed {place : Place} {frontier : Frontier}
    (h : Frontier.Extends place {} frontier) : frontier.Closed place :=
  fun todo hseen => h.follows todo hseen List.not_mem_nil

/-! ## Reading -/

/-- One of some threads takes the next character of a text and then more of it. -/
def Awaits (threads : List Thread) (text : List Char) : Prop :=
  ∃ thread ∈ threads, ∃ mode set tasks c more rest, thread.todo = .run (.char mode set) :: tasks ∧
    text = c :: (more ++ rest) ∧ mode.any (set.contains mode) c = true ∧
    (Pattern.ofTasks tasks).Takes (some c) more rest

theorem Pattern.ofTasks_erased (tasks : List Task) :
    ofTasks (tasks.map Task.erased) = ofTasks tasks := by
  induction tasks with
  | nil => rfl
  | cons task tasks ih =>
    have hpattern : task.erased.pattern = task.pattern := by cases task <;> rfl
    simp only [List.map_cons, ofTasks, hpattern, ih]

/-- Tasks that were met and take a text lead to a match, or to a thread that takes the text. -/
theorem Frontier.Closed.awaits {place : Place} {frontier : Frontier}
    (hclosed : frontier.Closed place) {todo : List Task} {taken rest : List Char}
    (hplace : place.rest = taken ++ rest) (hseen : todo.map Task.erased ∈ frontier.seen)
    (h : TasksTake false todo place.before taken rest) :
    frontier.found.isSome = true ∨ Awaits frontier.threads place.rest := by
  induction hn : workOf todo using Nat.strongRecOn generalizing todo with
  | ind n ih =>
  obtain ⟨marks, hfollows⟩ := hclosed todo hseen
  cases hlook : outlook place todo marks with
  | done =>
    rw [hlook] at hfollows
    exact .inl hfollows
  | waits =>
    rw [hlook] at hfollows
    obtain ⟨thread, hthread, hkey⟩ := hfollows
    obtain ⟨mode, set, tasks, c, more, rfl, rfl, hmember, htakes⟩ := h.of_waits hlook
    obtain ⟨first, others, htodo, hfirst, hothers⟩ := List.map_eq_cons_iff.1 hkey
    have hrun : first = .run (.char mode set) := by
      cases first <;> cases hfirst
      rfl
    right
    refine ⟨thread, hthread, mode, set, others, c, more, rest, by rw [htodo, hrun], hplace,
      hmember, ?_⟩
    rw [← Pattern.ofTasks_erased, hothers, Pattern.ofTasks_erased]
    exact htakes
  | goesOn ways =>
    rw [hlook] at hfollows
    obtain ⟨way, hway, htakes⟩ := h.exists_way hplace hlook
    have hless := workOf_lt_of_mem hlook hway
    exact ih (workOf way.todo) (hn ▸ hless) (hfollows way hway) htakes rfl

/-- No task is stale behind a character. -/
theorem Frontier.knowsStale_refreshed (frontier : Frontier) (tasks : List Task) :
    frontier.KnowsStale (tasks.map Task.refreshed) := by
  intro task others hsuffix hstale
  obtain ⟨other, -, rfl⟩ := List.mem_map.1 (hsuffix.subset List.mem_cons_self)
  rw [other.stale_refreshed] at hstale
  cases hstale

/-- What a thread has left to do behind a character, if it takes that. -/
def Thread.behind? (c : Char) (thread : Thread) : Option Thread :=
  match thread.todo with
  | .run (.char mode set) :: tasks =>
    if mode.any (set.contains mode) c then some ⟨tasks.map Task.refreshed, thread.marks⟩ else none
  | _ => none

theorem Thread.behind?_of_waits {c : Char} {thread : Thread} {mode : CharMode} {set : CharSet}
    {tasks : List Task} (h : thread.todo = .run (.char mode set) :: tasks) :
    thread.behind? c =
      if mode.any (set.contains mode) c then some ⟨tasks.map Task.refreshed, thread.marks⟩
      else none := by
  rw [behind?, h]

theorem Thread.behind?_eq_none {c : Char} {thread : Thread}
    (h : ∀ mode set tasks, thread.todo ≠ .run (.char mode set) :: tasks) :
    thread.behind? c = none := by
  unfold behind?
  split
  · next htodo => exact absurd htodo (h _ _ _)
  · rfl

/-- Behind a character the threads that take it are explored one after another. -/
theorem advance_eq_foldl (c : Char) (place : Place) (threads : List Thread) :
    advance c place threads =
      (threads.filterMap (Thread.behind? c)).foldl
        (fun found way => explore place way.todo way.marks found) {} := by
  rw [List.foldl_filterMap, advance]
  congr 1
  funext found thread
  split
  · next mode set tasks htodo =>
    rw [Thread.behind?_of_waits htodo]
    by_cases hmember : mode.any (set.contains mode) c = true
    · rw [if_pos hmember, if_pos hmember]
    · rw [if_neg hmember, if_neg hmember]
  · next hother => rw [Thread.behind?_eq_none hother]

/-- Behind a character that a thread takes, a match is found or a thread waits for the text that is
left. -/
theorem Awaits.advance {threads : List Thread} {c : Char} {text : List Char} (position : Nat)
    (h : Awaits threads (c :: text)) :
    (advance c ⟨some c, text, position⟩ threads).found.isSome = true ∨
      Awaits (advance c ⟨some c, text, position⟩ threads).threads text := by
  obtain ⟨thread, hthread, mode, set, tasks, d, more, rest, htodo, htext, hmember, htakes⟩ := h
  obtain ⟨rfl, hrest⟩ := List.cons.inj htext
  have hbehind : thread.behind? c = some ⟨tasks.map Task.refreshed, thread.marks⟩ := by
    rw [Thread.behind?_of_waits htodo, if_pos hmember]
  rw [advance_eq_foldl]
  have hfold := Frontier.extends_foldl ⟨some c, text, position⟩
    (threads.filterMap (Thread.behind? c)) {} fun way hway other _ => by
      obtain ⟨source, -, hsource⟩ := List.mem_filterMap.1 hway
      refine Frontier.extends_explore _ way.marks ?_
      unfold Thread.behind? at hsource
      split at hsource
      · split at hsource
        · cases hsource
          exact Frontier.knowsStale_refreshed other _
        · cases hsource
      · cases hsource
  rcases hfold with hfound | ⟨hextends, hseen⟩
  · exact .inl hfound
  · have hmet := hseen _ (List.mem_filterMap.2 ⟨thread, hthread, hbehind⟩)
    exact hextends.closed.awaits hrest hmet (.refreshed htakes)

/-- Reading on finds a match if one was found or a thread takes the text that is left. -/
theorem isSome_runThreads {start position : Nat} {threads : List Thread} {best : Option Match}
    {text : List Char} (h : best.isSome = true ∨ Awaits threads text) :
    (runThreads start position threads best text).isSome = true := by
  induction text generalizing position threads best with
  | nil =>
    rcases h with hbest | ⟨thread, -, mode, set, tasks, c, more, rest, -, htext, -⟩
    · exact hbest
    · cases htext
  | cons c text ih =>
    rw [runThreads]
    split
    · next hempty =>
      rcases h with hbest | ⟨thread, hthread, -⟩
      · exact hbest
      · rw [List.isEmpty_iff.1 hempty] at hthread
        cases hthread
    · refine ih ?_
      cases hfound : (advance c ⟨some c, text, position + 1⟩ threads).found with
      | some marks => exact .inl rfl
      | none =>
        rcases h with hbest | hawaits
        · exact .inl hbest
        · have hnext := hawaits.advance (position + 1)
          rw [hfound] at hnext
          obtain ⟨thread, hthread, htakes⟩ := hnext.resolve_left Bool.false_ne_true
          exact .inr ⟨thread, List.mem_reverse.2 hthread, htakes⟩

/-- The search finds a match at a place where the pattern takes some text, and only there. -/
theorem isSome_matchAt_iff {pattern : Pattern} {place : Place} :
    (pattern.matchAt place).isSome = true ↔
      ∃ taken rest, place.rest = taken ++ rest ∧ pattern.Takes place.before taken rest := by
  constructor
  · intro h
    obtain ⟨found, hfound⟩ := Option.isSome_iff_exists.1 h
    obtain ⟨taken, rest, hrest, -, -, htakes⟩ := covers_of_matchAt hfound
    exact ⟨taken, rest, hrest, htakes⟩
  · rintro ⟨taken, rest, hrest, htakes⟩
    refine isSome_runThreads ?_
    have hknows : Frontier.KnowsStale {} [.run pattern] :=
      Frontier.knowsStale_refreshed {} [.run pattern]
    rcases Frontier.extends_explore place {} hknows with hfound | ⟨hextends, hseen⟩
    · left
      rw [Option.isSome_map]
      exact hfound
    · have hstart : TasksTake false [.run pattern] place.before taken rest := by
        refine .of_takes ?_ ?_
        · intro task htask
          rw [List.mem_singleton.1 htask]
          rfl
        · have htasks : (Pattern.ofTasks []).Takes (lastChar place.before taken) [] rest := .empty
          exact Pattern.takes_ofTasks_cons.2 ⟨taken, [], by simp, htakes, htasks⟩
      rcases hextends.closed.awaits hrest hseen hstart with hfound | hawaits
      · left
        rw [Option.isSome_map]
        exact hfound
      · obtain ⟨thread, hthread, hmore⟩ := hawaits
        exact .inr ⟨thread, List.mem_reverse.2 hthread, hmore⟩

end Highlight.Regex
