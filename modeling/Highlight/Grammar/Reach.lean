/-!
# Reachability in a finite graph

The vertices of a graph are the numbers below its size.  `reach` lists what can be reached from a
vertex by one edge or more.  Where no vertex reaches itself, every edge leads to a vertex of lower
`rank` (`rank_lt_of_edge`), which is what recursion along the edges needs to end.
-/

namespace Highlight

/-- A finite directed graph. -/
structure Graph where
  size : Nat
  targets : Nat → List Nat

namespace Graph

/-- How many vertices of the graph are not in a list. -/
def missing (graph : Graph) (seen : List Nat) : Nat :=
  (List.range graph.size).countP fun v => !seen.contains v

theorem missing_cons_lt {graph : Graph} {seen : List Nat} {v : Nat} (hseen : v ∉ seen)
    (hv : v < graph.size) : graph.missing (v :: seen) < graph.missing seen := by
  unfold missing
  generalize hall : List.range graph.size = all
  have hmem : v ∈ all := by simp [← hall, hv]
  clear hall
  induction all with
  | nil => simp at hmem
  | cons w rest ih =>
    have hle : rest.countP (fun u => !(v :: seen).contains u) ≤
        rest.countP fun u => !seen.contains u := by
      apply List.countP_mono_left
      simp
    simp only [List.countP_cons]
    by_cases hw : w = v
    · subst hw
      simp [hseen] at hle ⊢
      omega
    · have := ih (by simpa [Ne.symm hw] using hmem)
      have heq : (v :: seen).contains w = seen.contains w := by simp [hw]
      rw [heq]
      omega

/-- Adds to `seen` the vertices of `pending` and what they lead to. -/
def collect (graph : Graph) (seen : List Nat) : List Nat → List Nat
  | [] => seen
  | v :: pending =>
    if _ : v ∈ seen ∨ graph.size ≤ v then graph.collect seen pending
    else graph.collect (v :: seen) (graph.targets v ++ pending)
termination_by pending => (graph.missing seen, pending.length)
decreasing_by
  · apply Prod.Lex.right
    simp
  · apply Prod.Lex.left
    exact missing_cons_lt (by simp_all) (by simp_all)

/-- The vertices that a path of one edge or more leads to. -/
def reach (graph : Graph) (v : Nat) : List Nat :=
  graph.collect [] (graph.targets v)

/-- Whether a set of vertices holds all that an edge from it leads to. -/
def Closed (graph : Graph) (set : Nat → Prop) : Prop :=
  ∀ v, set v → ∀ w ∈ graph.targets v, w < graph.size → set w

theorem mem_collect_of_mem_seen {graph : Graph} {seen pending : List Nat} {v : Nat}
    (h : v ∈ seen) : v ∈ graph.collect seen pending := by
  fun_induction collect graph seen pending with
  | case1 => exact h
  | case2 seen w pending _ ih => exact ih h
  | case3 seen w pending _ ih => exact ih (List.mem_cons_of_mem _ h)

theorem mem_collect_of_mem_pending {graph : Graph} {seen pending : List Nat} {v : Nat}
    (h : v ∈ pending) (hv : v < graph.size) : v ∈ graph.collect seen pending := by
  fun_induction collect graph seen pending with
  | case1 => simp at h
  | case2 seen w pending hw ih =>
    rcases List.mem_cons.1 h with rfl | h
    · rcases hw with hw | hw
      · exact mem_collect_of_mem_seen hw
      · omega
    · exact ih h
  | case3 seen w pending _ ih =>
    rcases List.mem_cons.1 h with rfl | h
    · exact mem_collect_of_mem_seen (List.mem_cons_self ..)
    · exact ih (List.mem_append_right _ h)

theorem closed_collect {graph : Graph} {seen pending : List Nat}
    (h : ∀ v ∈ seen, ∀ w ∈ graph.targets v, w < graph.size → w ∈ seen ∨ w ∈ pending) :
    graph.Closed (· ∈ graph.collect seen pending) := by
  fun_induction collect graph seen pending with
  | case1 seen =>
    intro v hv w hw hsize
    simpa using h v hv w hw hsize
  | case2 seen u pending hu ih =>
    apply ih
    intro v hv w hw hsize
    rcases h v hv w hw hsize with hmem | hmem
    · exact .inl hmem
    · rcases List.mem_cons.1 hmem with rfl | hmem
      · rcases hu with hu | hu
        · exact .inl hu
        · omega
      · exact .inr hmem
  | case3 seen u pending hu ih =>
    apply ih
    intro v hv w hw hsize
    rcases List.mem_cons.1 hv with rfl | hv
    · exact .inr (List.mem_append_left _ hw)
    · rcases h v hv w hw hsize with hmem | hmem
      · exact .inl (List.mem_cons_of_mem _ hmem)
      · rcases List.mem_cons.1 hmem with rfl | hmem
        · exact .inl (List.mem_cons_self ..)
        · exact .inr (List.mem_append_right _ hmem)

theorem collect_subset {graph : Graph} {seen pending : List Nat} {set : Nat → Prop}
    (hclosed : graph.Closed set) (hseen : ∀ v ∈ seen, set v)
    (hpending : ∀ v ∈ pending, v < graph.size → set v) :
    ∀ v ∈ graph.collect seen pending, set v := by
  fun_induction collect graph seen pending with
  | case1 => exact hseen
  | case2 seen u pending hu ih => exact ih hseen fun v hv => hpending v (List.mem_cons_of_mem _ hv)
  | case3 seen u pending hu ih =>
    have huset : set u := hpending u (List.mem_cons_self ..) (by simp_all)
    apply ih
    · intro v hv
      rcases List.mem_cons.1 hv with rfl | hv
      · exact huset
      · exact hseen v hv
    · intro v hv hsize
      rcases List.mem_append.1 hv with hv | hv
      · exact hclosed u huset v hv hsize
      · exact hpending v (List.mem_cons_of_mem _ hv) hsize

/-- What is reached is closed under edges. -/
theorem closed_reach (graph : Graph) (v : Nat) : graph.Closed (· ∈ graph.reach v) :=
  closed_collect (by simp)

/-- An edge reaches its target. -/
theorem mem_reach_of_edge {graph : Graph} {v w : Nat} (h : w ∈ graph.targets v)
    (hw : w < graph.size) : w ∈ graph.reach v :=
  mem_collect_of_mem_pending h hw

/-- What a target reaches, its source reaches. -/
theorem reach_subset_of_edge {graph : Graph} {v w : Nat} (h : w ∈ graph.targets v)
    (hw : w < graph.size) : ∀ u ∈ graph.reach w, u ∈ graph.reach v :=
  collect_subset (graph.closed_reach v) (by simp) fun u hu hsize =>
    graph.closed_reach v w (mem_reach_of_edge h hw) u hu hsize

/-- How many vertices a vertex reaches. -/
def rank (graph : Graph) (v : Nat) : Nat :=
  (List.range graph.size).countP fun u => (graph.reach v).contains u

/-- Whether no vertex reaches itself. -/
def Acyclic (graph : Graph) : Prop :=
  ∀ v, v < graph.size → v ∉ graph.reach v

theorem countP_lt_countP {p q : Nat → Bool} {all : List Nat} {v : Nat} (h : ∀ u, p u → q u)
    (hmem : v ∈ all) (hp : p v = false) (hq : q v = true) : all.countP p < all.countP q := by
  induction all with
  | nil => simp at hmem
  | cons w rest ih =>
    have hle : rest.countP p ≤ rest.countP q := List.countP_mono_left fun u _ => h u
    simp only [List.countP_cons]
    by_cases hw : w = v
    · subst hw
      simp [hp, hq]
      omega
    · have := ih (by simpa [Ne.symm hw] using hmem)
      have hone : (if p w then 1 else 0) ≤ if q w then 1 else 0 := by
        have := h w
        cases hpw : p w <;> simp_all
      exact Nat.add_lt_add_of_lt_of_le this hone

/-- In an acyclic graph an edge leads to a vertex of lower rank. -/
theorem rank_lt_of_edge {graph : Graph} (hacyclic : graph.Acyclic) {v w : Nat}
    (h : w ∈ graph.targets v) (hw : w < graph.size) : graph.rank w < graph.rank v := by
  apply countP_lt_countP (v := w)
  · intro u hu
    simpa using reach_subset_of_edge h hw u (by simpa using hu)
  · simpa using hw
  · simpa using hacyclic w hw
  · simpa using mem_reach_of_edge h hw

/-- The first vertex that reaches itself. -/
def firstCycle? (graph : Graph) : Option Nat :=
  (List.range graph.size).find? fun v => (graph.reach v).contains v

theorem acyclic_of_firstCycle? {graph : Graph} (h : graph.firstCycle? = none) : graph.Acyclic := by
  intro v hv
  have := List.find?_eq_none.1 h v (by simpa using hv)
  simpa using this

end Graph

end Highlight
