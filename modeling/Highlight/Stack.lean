import Highlight.Cursor

/-!
# Context stacks

The state that is carried from one line to the next: which contexts are open, each with the groups
that were captured when it was entered.  A stack is never empty.  Its frames are read from the base
to the top (`Stack.frames`); the lemmas say what each operation does to that list.
-/

namespace Highlight

/-- An open context, by its place in the grammar, with its captured groups. -/
structure Frame where
  context : Nat
  data : Option Captures
  deriving Repr, DecidableEq, Inhabited

/-- A non-empty stack of frames, with their number at hand. -/
structure Stack where
  top : Frame
  /-- The frames under the top, the nearest first. -/
  below : List Frame
  depth : Nat
  depth_eq : depth = below.length + 1
  deriving Repr

namespace Stack

/-- Stacks are compared by their depth first, so that stacks of different depth are told apart at
once. -/
instance : DecidableEq Stack := fun first second =>
  if hdepth : first.depth = second.depth then
    if hframes : first.top = second.top ∧ first.below = second.below then
      isTrue (by
        cases first
        cases second
        simp_all)
    else isFalse (by
      rintro rfl
      exact hframes ⟨rfl, rfl⟩)
  else isFalse (by
    rintro rfl
    exact hdepth rfl)

/-- The stack with one frame, without captured groups. -/
def single (context : Nat) : Stack :=
  { top := ⟨context, none⟩, below := [], depth := 1, depth_eq := rfl }

instance : Inhabited Stack := ⟨single 0⟩

/-- The context on top. -/
def current (stack : Stack) : Nat :=
  stack.top.context

/-- The captured groups of the context on top. -/
def currentData (stack : Stack) : Option Captures :=
  stack.top.data

/-- The frames from the base to the top. -/
def frames (stack : Stack) : List Frame :=
  (stack.top :: stack.below).reverse

/-- The stack with one more frame on top. -/
def push (stack : Stack) (context : Nat) (data : Option Captures) : Stack :=
  { top := ⟨context, data⟩, below := stack.top :: stack.below, depth := stack.depth + 1
    depth_eq := by simp [stack.depth_eq] }

/-- The stack without its top frame, unless that is the base. -/
def pop (stack : Stack) : Stack :=
  match h : stack.below with
  | [] => stack
  | top :: below =>
    { top, below, depth := stack.depth - 1
      depth_eq := by simp [stack.depth_eq, h] }

/-- The stack without its `count` upper frames; the base stays. -/
def popMany (stack : Stack) : Nat → Stack
  | 0 => stack
  | count + 1 => if stack.depth = 1 then stack else stack.pop.popMany count

/-- Whether the stack has fewer frames above its base than are to be popped. -/
def popsTooMany (stack : Stack) (count : Nat) : Bool :=
  stack.depth - 1 < count

/-! ## The frames of a stack -/

theorem ext_frames {first second : Stack} (h : first.frames = second.frames) : first = second := by
  have hlist := List.reverse_inj.1 h
  cases first
  cases second
  simp_all

theorem length_frames (stack : Stack) : stack.frames.length = stack.depth := by
  simp [frames, stack.depth_eq]

@[simp] theorem frames_single (context : Nat) : (single context).frames = [⟨context, none⟩] := rfl

@[simp] theorem frames_push (stack : Stack) (context : Nat) (data : Option Captures) :
    (stack.push context data).frames = stack.frames ++ [⟨context, data⟩] := by
  simp [frames, push]

theorem frames_pop (stack : Stack) :
    stack.pop.frames = stack.frames.take (max 1 (stack.depth - 1)) := by
  unfold pop
  split
  · next h => simp [frames, h, stack.depth_eq]
  · next top below h =>
    have hsplit : stack.frames = (top :: below).reverse ++ [stack.top] := by simp [frames, h]
    rw [hsplit, List.take_left' (by simp [stack.depth_eq, h])]
    rfl

theorem depth_pop (stack : Stack) : stack.pop.depth = max 1 (stack.depth - 1) := by
  have hpos := stack.depth_eq
  rw [← length_frames, frames_pop, List.length_take, length_frames]
  omega

/-- Popping keeps the first frames, and the base in any case. -/
theorem frames_popMany (stack : Stack) (count : Nat) :
    (stack.popMany count).frames = stack.frames.take (max 1 (stack.depth - count)) := by
  have hpos := stack.depth_eq
  induction count generalizing stack with
  | zero =>
    rw [popMany, List.take_of_length_le]
    rw [length_frames]
    omega
  | succ count ih =>
    rw [popMany]
    split
    · rw [List.take_of_length_le]
      rw [length_frames]
      omega
    · rw [ih _ stack.pop.depth_eq, frames_pop, depth_pop, List.take_take]
      congr 1
      omega

end Stack

end Highlight
