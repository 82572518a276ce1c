import Highlight.Notice
import Highlight.Grammar.Error

/-!
# Results with notices

Resolving a description reports notices on the way, and those reported before an error stay
reported.
-/

namespace Highlight

/-- What was noticed, and the value or the error that it led to. -/
structure Reported (α : Type) where
  notices : List Notice
  result : Except GrammarError α

namespace Reported

/-- A value about which there is nothing to report. -/
def done {α : Type} (a : α) : Reported α :=
  ⟨[], .ok a⟩

/-- An error. -/
def fail {α : Type} (error : GrammarError) : Reported α :=
  ⟨[], .error error⟩

/-- A value that was noticed to be doubtful. -/
def noted {α : Type} (notice : Notice) (a : α) : Reported α :=
  ⟨[notice], .ok a⟩

/-- Goes on with a value; the notices of both parts are kept in order. -/
def andThen {α β : Type} (first : Reported α) (next : α → Reported β) : Reported β :=
  match first.result with
  | .error error => ⟨first.notices, .error error⟩
  | .ok a => ⟨first.notices ++ (next a).notices, (next a).result⟩

instance : Monad Reported where
  pure := done
  bind := andThen

/-- A value that may be missing, with the error for that case. -/
def require {α : Type} (error : GrammarError) : Option α → Reported α
  | some a => done a
  | none => fail error

/-- Handles the members of a list in order, up to the first error. -/
def each {α β : Type} (f : α → Reported β) : List α → Reported (List β)
  | [] => done []
  | a :: rest => (f a).andThen fun b => (each f rest).andThen fun bs => done (b :: bs)

end Reported

end Highlight
