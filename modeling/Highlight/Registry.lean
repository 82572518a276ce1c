/-!
# Registries

Values under keys, at most one for each key.  `find?_insert` and `find?_erase` say all that a reader
needs to know about the order of the entries: it does not matter.
-/

namespace Highlight

/-- Values under keys. -/
structure Registry (κ α : Type) where
  entries : List (κ × α) := []
  deriving Inhabited

namespace Registry

variable {κ α : Type} [DecidableEq κ]

/-- The value of a key. -/
def find? (registry : Registry κ α) (key : κ) : Option α :=
  (registry.entries.find? fun entry => entry.1 == key).map Prod.snd

/-- The registry without a key. -/
def erase (registry : Registry κ α) (key : κ) : Registry κ α :=
  ⟨registry.entries.filter fun entry => entry.1 != key⟩

/-- The registry with a value for a key in place of the one it had. -/
def insert (registry : Registry κ α) (key : κ) (value : α) : Registry κ α :=
  ⟨(key, value) :: (registry.erase key).entries⟩

/-- All keys. -/
def keys (registry : Registry κ α) : List κ :=
  registry.entries.map Prod.fst

theorem find?_insert (registry : Registry κ α) (key other : κ) (value : α) :
    (registry.insert key value).find? other =
      if key = other then some value else registry.find? other := by
  unfold insert find? erase
  by_cases h : key = other
  · simp [h]
  · rw [List.find?_cons_of_neg (by simpa using h)]
    simp only [h, if_false]
    congr 1
    rw [List.find?_filter]
    congr 1
    funext entry
    by_cases heq : entry.1 = other
    · simp [heq, Ne.symm h]
    · simp [heq]

theorem find?_erase (registry : Registry κ α) (key other : κ) :
    (registry.erase key).find? other = if key = other then none else registry.find? other := by
  unfold find? erase
  rw [List.find?_filter]
  by_cases h : key = other
  · subst h
    simp
  · simp only [h, if_false]
    congr 2
    funext entry
    by_cases heq : entry.1 = other
    · simp [heq, Ne.symm h]
    · simp [heq]

end Registry

end Highlight
