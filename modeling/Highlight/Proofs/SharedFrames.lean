import Highlight.Proofs.Provenance

/-!
# Stacks that share their frames

A document keeps a stack for every line, and these stacks have most of their frames in common.  So a
frame is kept once: it knows its depth and the frame under it, a stack is known by its top, and two
stacks are compared from their tops down, at most to the first frame that they share.  None of that
shows.  A stack is a list of frames that is never empty, from the base to the top.

There are three groups.

* Linked frames.  Every frame has a place of its own.  `LinkedFrame.stack` reads the frames from a
  place downwards, and each operation on linked frames is the one on the stack that is read
  (`stack_pop`, `stack_apply`).
* Places.  `Built` makes stacks from each other in any order.  It puts every new frame at a new
  place, so two frames at one place are the same (`Built.kept`).  That is what the comparison relies
  on (`same_iff`).
* Lists.  What a stack is and what becomes of it, told by its frames alone, is
  `stacks_refine_lists`.
-/

namespace Highlight

/-! ## Linked frames -/

/-- A frame at its place, linked to the frame under it.  The base has no captured groups. -/
inductive LinkedFrame where
  | base (place context : Nat)
  /-- The depth counts the frames down to the base, this one and the base included. -/
  | upper (place : Nat) (frame : Frame) (depth : Nat) (below : LinkedFrame)
  deriving Repr, DecidableEq, Inhabited

namespace LinkedFrame

def place : LinkedFrame → Nat
  | base place _ => place
  | upper place _ _ _ => place

def depth : LinkedFrame → Nat
  | base _ _ => 1
  | upper _ _ depth _ => depth

/-- A new frame over this one. -/
def push (link : LinkedFrame) (place context : Nat) (data : Option Captures) : LinkedFrame :=
  upper place ⟨context, data⟩ (link.depth + 1) link

/-- Goes down by some frames, at most to the base, and says whether there were too few of them. -/
def pop : LinkedFrame → Nat → LinkedFrame × Bool
  | link, 0 => (link, false)
  | base place context, _ + 1 => (base place context, true)
  | upper _ _ _ below, count + 1 => below.pop count

/-- Takes a switch.  A frame that is pushed is put at a place. -/
def apply (link : LinkedFrame) (place : Nat) (switch : Switch) (data : Option Captures) :
    LinkedFrame × List Notice :=
  if switch.isStay then (link, [])
  else
    let (popped, clamped) := link.pop switch.pops
    let notices := if clamped then [.popTooBig link.depth switch.pops] else []
    match switch.target with
    | none => (popped, notices)
    | some target =>
      (popped.push place target.context (if target.dynamic then data else none), notices)

/-- Compares two stacks from their tops down.  Frames at one place need no further comparison, and
frames that differ in their depth end it at once. -/
def same : LinkedFrame → LinkedFrame → Bool
  | base place context, base otherPlace other => place == otherPlace || context == other
  | upper place frame depth below, upper otherPlace other otherDepth otherBelow =>
    place == otherPlace || depth == otherDepth && frame == other && below.same otherBelow
  | link, other => link.place == other.place

/-- The stack of a frame and those under it. -/
def stack : LinkedFrame → Stack
  | base _ context => .single context
  | upper _ frame _ below => below.stack.push frame.context frame.data

/-- The frames down to the base, as they are linked. -/
def parts : LinkedFrame → List LinkedFrame
  | base place context => [base place context]
  | upper place frame depth below => upper place frame depth below :: below.parts

/-- Every depth is one more than the depth of the frame below. -/
def Counted : LinkedFrame → Prop
  | base _ _ => True
  | upper _ _ depth below => depth = below.depth + 1 ∧ below.Counted

theorem mem_parts_self (link : LinkedFrame) : link ∈ link.parts := by
  cases link with
  | base place context => exact List.mem_singleton_self _
  | upper place frame depth below => exact List.mem_cons_self

theorem parts_subset {part link : LinkedFrame} (h : part ∈ link.parts) :
    ∀ inner ∈ part.parts, inner ∈ link.parts := by
  induction link with
  | base place context =>
    rw [parts, List.mem_singleton] at h
    rw [h]
    exact fun inner hinner => hinner
  | upper place frame depth below ih =>
    rcases List.mem_cons.1 h with rfl | h
    · exact fun inner hinner => hinner
    · exact fun inner hinner => List.mem_cons_of_mem _ (ih h inner hinner)

theorem Counted.of_mem_parts {part link : LinkedFrame} (h : link.Counted)
    (hpart : part ∈ link.parts) : part.Counted := by
  induction link with
  | base place context =>
    rw [parts, List.mem_singleton] at hpart
    rwa [hpart]
  | upper place frame depth below ih =>
    rcases List.mem_cons.1 hpart with rfl | hpart
    · exact h
    · exact ih h.2 hpart

theorem Counted.push {link : LinkedFrame} (h : link.Counted) (place context : Nat)
    (data : Option Captures) : (link.push place context data).Counted :=
  ⟨rfl, h⟩

/-- The depth that a frame holds is the number of frames of its stack. -/
theorem Counted.depth_eq {link : LinkedFrame} (h : link.Counted) :
    link.depth = link.stack.depth := by
  induction link with
  | base place context => rfl
  | upper place frame depth below ih =>
    obtain ⟨hdepth, hbelow⟩ := h
    show depth = below.stack.depth + 1
    rw [hdepth, ih hbelow]

theorem stack_push (link : LinkedFrame) (place context : Nat) (data : Option Captures) :
    (link.push place context data).stack = link.stack.push context data := rfl

/-- Going down leads to a frame that is linked from the top. -/
theorem pop_mem_parts (link : LinkedFrame) (count : Nat) : (link.pop count).1 ∈ link.parts := by
  fun_induction pop link count with
  | case1 link => exact link.mem_parts_self
  | case2 place context count => exact mem_parts_self _
  | case3 place frame depth below count ih => exact List.mem_cons_of_mem _ ih

/-- Going down by some frames pops them, and it meets the base where the stack has too few. -/
theorem stack_pop (link : LinkedFrame) (count : Nat) :
    (link.pop count).1.stack = link.stack.popMany count ∧
      (link.pop count).2 = link.stack.popsTooMany count := by
  fun_induction pop link count with
  | case1 link => exact ⟨rfl, by simp [Stack.popsTooMany]⟩
  | case2 place context count =>
    exact ⟨rfl, by simp [Stack.popsTooMany, stack, Stack.single]⟩
  | case3 place frame depth below count ih =>
    have hpos := below.stack.depth_eq
    have hdepth : (below.stack.push frame.context frame.data).depth = below.stack.depth + 1 := rfl
    obtain ⟨hpopped, hclamped⟩ := ih
    constructor
    · rw [hpopped, stack, Stack.popMany, hdepth, if_neg (by omega)]
      rfl
    · rw [hclamped, stack, Stack.popsTooMany, Stack.popsTooMany, hdepth]
      congr 1
      apply propext
      omega

/-- Taking a switch on linked frames takes it on their stack. -/
theorem stack_apply {link : LinkedFrame} (hcounted : link.Counted) (place : Nat)
    (switch : Switch) (data : Option Captures) :
    (link.apply place switch data).1.stack = switch.apply link.stack data ∧
      (link.apply place switch data).2 = switch.notices link.stack := by
  by_cases hstay : switch.isStay = true
  · rw [apply, if_pos hstay, Switch.notices_of_isStay hstay, Switch.apply_of_isStay hstay]
    exact ⟨rfl, rfl⟩
  · obtain ⟨hpopped, hclamped⟩ := link.stack_pop switch.pops
    rw [apply, if_neg hstay, Switch.apply, Switch.notices, ← hpopped, ← hclamped,
      ← hcounted.depth_eq]
    cases switch.target with
    | none => exact ⟨rfl, rfl⟩
    | some target => exact ⟨rfl, rfl⟩

/-- A switch leads to a frame that was there before, or to a new one over such a frame. -/
theorem apply_cases (link : LinkedFrame) (place : Nat) (switch : Switch)
    (data : Option Captures) :
    (link.apply place switch data).1 ∈ link.parts ∨
      ∃ part ∈ link.parts, ∃ context data',
        (link.apply place switch data).1 = part.push place context data' := by
  rw [apply]
  split
  · exact .inl link.mem_parts_self
  · cases switch.target with
    | none => exact .inl (link.pop_mem_parts switch.pops)
    | some target => exact .inr ⟨_, link.pop_mem_parts switch.pops, _, _, rfl⟩

/-! ## Places -/

/-- The tops of the stacks that were made so far, each at the start of a document or from one that
was made before, with the next place that is free. -/
inductive Built : Nat → List LinkedFrame → Prop
  | nothing : Built 0 []
  | base {next : Nat} {made : List LinkedFrame} (built : Built next made) (context : Nat) :
      Built (next + 1) (.base next context :: made)
  | push {next : Nat} {made : List LinkedFrame} {link : LinkedFrame} (built : Built next made)
      (member : link ∈ made) (context : Nat) (data : Option Captures) :
      Built (next + 1) (link.push next context data :: made)
  | pop {next : Nat} {made : List LinkedFrame} {link : LinkedFrame} (built : Built next made)
      (member : link ∈ made) (count : Nat) : Built next ((link.pop count).1 :: made)
  | switch {next : Nat} {made : List LinkedFrame} {link : LinkedFrame} (built : Built next made)
      (member : link ∈ made) (switch : Switch) (data : Option Captures) :
      Built (next + 1) ((link.apply next switch data).1 :: made)

/-- What is true of the frames of all stacks that were made: their places are taken, there is one
frame at each place, and their depths are right. -/
structure Kept (next : Nat) (made : List LinkedFrame) : Prop where
  taken : ∀ link ∈ made, ∀ part ∈ link.parts, part.place < next
  counted : ∀ link ∈ made, link.Counted
  unique : ∀ link ∈ made, ∀ other ∈ made, ∀ part ∈ link.parts, ∀ otherPart ∈ other.parts,
    part.place = otherPart.place → part = otherPart

namespace Kept

variable {next : Nat} {made : List LinkedFrame}

/-- The frames stay as they are while more places are taken. -/
theorem mono {more : Nat} (h : Kept next made) (hmore : next ≤ more) : Kept more made :=
  ⟨fun link hlink part hpart => Nat.lt_of_lt_of_le (h.taken link hlink part hpart) hmore,
    h.counted, h.unique⟩

/-- One more stack whose frames are all there. -/
theorem cons_part (h : Kept next made) {link part : LinkedFrame} (hlink : link ∈ made)
    (hpart : part ∈ link.parts) : Kept next (part :: made) := by
  have hold : ∀ other ∈ part :: made, ∃ owner ∈ made, ∀ inner ∈ other.parts,
      inner ∈ owner.parts := by
    intro other hother
    rcases List.mem_cons.1 hother with rfl | hother
    · exact ⟨link, hlink, parts_subset hpart⟩
    · exact ⟨other, hother, fun inner hinner => hinner⟩
  refine ⟨?_, ?_, ?_⟩
  · intro other hother inner hinner
    obtain ⟨owner, howner, hinside⟩ := hold other hother
    exact h.taken owner howner inner (hinside inner hinner)
  · intro other hother
    rcases List.mem_cons.1 hother with rfl | hother
    · exact (h.counted link hlink).of_mem_parts hpart
    · exact h.counted other hother
  · intro first hfirst second hsecond inner hinner otherInner hotherInner
    obtain ⟨owner, howner, hinside⟩ := hold first hfirst
    obtain ⟨otherOwner, hotherOwner, hotherInside⟩ := hold second hsecond
    exact h.unique owner howner otherOwner hotherOwner inner (hinside inner hinner) otherInner
      (hotherInside otherInner hotherInner)

/-- One more stack whose top is new, and whose other frames are all there. -/
theorem cons_new (h : Kept next made) {top : LinkedFrame} (hplace : top.place = next)
    (hcounted : top.Counted)
    (hbelow : ∀ part ∈ top.parts, part = top ∨ ∃ link ∈ made, part ∈ link.parts) :
    Kept (next + 1) (top :: made) := by
  have hold : ∀ other ∈ top :: made, ∀ part ∈ other.parts,
      part = top ∨ ∃ link ∈ made, part ∈ link.parts := by
    intro other hother part hpart
    rcases List.mem_cons.1 hother with rfl | hother
    · exact hbelow part hpart
    · exact .inr ⟨other, hother, hpart⟩
  refine ⟨?_, ?_, ?_⟩
  · intro other hother part hpart
    rcases hold other hother part hpart with rfl | ⟨link, hlink, hpart⟩
    · omega
    · exact Nat.lt_succ_of_lt (h.taken link hlink part hpart)
  · intro other hother
    rcases List.mem_cons.1 hother with rfl | hother
    · exact hcounted
    · exact h.counted other hother
  · -- The new place is above all that are taken, so the new top is at no place of another frame.
    intro first hfirst second hsecond part hpart otherPart hotherPart hsame
    rcases hold first hfirst part hpart with rfl | ⟨link, hlink, hpart⟩
    · rcases hold second hsecond otherPart hotherPart with rfl | ⟨other, hother, hotherPart⟩
      · rfl
      · have hless := h.taken other hother otherPart hotherPart
        omega
    · have hless := h.taken link hlink part hpart
      rcases hold second hsecond otherPart hotherPart with rfl | ⟨other, hother, hotherPart⟩
      · omega
      · exact h.unique link hlink other hother part hpart otherPart hotherPart hsame

/-- One more stack with a new frame over one that is there. -/
theorem cons_push (h : Kept next made) {link part : LinkedFrame} (hlink : link ∈ made)
    (hpart : part ∈ link.parts) (context : Nat) (data : Option Captures) :
    Kept (next + 1) (part.push next context data :: made) := by
  refine h.cons_new rfl (((h.counted link hlink).of_mem_parts hpart).push next context data) ?_
  intro inner hinner
  rcases List.mem_cons.1 hinner with rfl | hinner
  · exact .inl rfl
  · exact .inr ⟨link, hlink, parts_subset hpart inner hinner⟩

end Kept

/-- Making stacks keeps the frames of all stacks that were made. -/
theorem Built.kept {next : Nat} {made : List LinkedFrame} (h : Built next made) :
    Kept next made := by
  induction h with
  | nothing => constructor <;> simp
  | @base next made built context ih =>
    refine ih.cons_new rfl trivial ?_
    intro part hpart
    exact .inl (List.mem_singleton.1 hpart)
  | @push next made link built member context data ih =>
    exact ih.cons_push member link.mem_parts_self context data
  | @pop next made link built member count ih =>
    exact ih.cons_part member (link.pop_mem_parts count)
  | @switch next made link built member switch data ih =>
    rcases link.apply_cases next switch data with hpart | ⟨part, hpart, context, pushed, happly⟩
    · exact (ih.cons_part member hpart).mono (Nat.le_succ next)
    · rw [happly]
      exact ih.cons_push member hpart context pushed

/-- Two stacks are the same if their upper frames are and the stacks below. -/
theorem stack_upper_eq_iff {place otherPlace depth otherDepth : Nat} {frame other : Frame}
    {below otherBelow : LinkedFrame} :
    (upper place frame depth below).stack = (upper otherPlace other otherDepth otherBelow).stack ↔
      frame = other ∧ below.stack = otherBelow.stack := by
  constructor
  · intro h
    have hframes := congrArg Stack.frames h
    rw [stack, stack, Stack.frames_push, Stack.frames_push] at hframes
    obtain ⟨hbelow, htop⟩ := List.append_inj' hframes rfl
    exact ⟨List.singleton_inj.1 htop, Stack.ext_frames hbelow⟩
  · rintro ⟨rfl, hbelow⟩
    rw [stack, stack, hbelow]

/-- A base has one frame, so no stack with a frame over its base is the same. -/
theorem stack_base_ne_upper {place context otherPlace depth : Nat} {other : Frame}
    {below : LinkedFrame} :
    (base place context).stack ≠ (upper otherPlace other depth below).stack := by
  intro h
  have hdepth : 1 = below.stack.depth + 1 := congrArg Stack.depth h
  have hpos := below.stack.depth_eq
  omega

/-- Where frames at one place are the same, the comparison tells exactly whether two stacks are
equal. -/
theorem same_iff {first second : LinkedFrame} (hfirst : first.Counted) (hsecond : second.Counted)
    (hunique : ∀ part ∈ first.parts, ∀ other ∈ second.parts, part.place = other.place →
      part = other) :
    first.same second = true ↔ first.stack = second.stack := by
  -- The shortcut is taken at equal places only, where the frames themselves are equal.
  have hplace := hunique first first.mem_parts_self second second.mem_parts_self
  fun_induction same first second with
  | case1 place context otherPlace other =>
    rw [Bool.or_eq_true, beq_iff_eq, beq_iff_eq]
    constructor
    · rintro (heq | rfl)
      · rw [hplace heq]
      · rfl
    · intro hstack
      exact .inr (congrArg Stack.current hstack)
  | case2 place frame depth below otherPlace other otherDepth otherBelow ih =>
    have hbelow : below.same otherBelow = true ↔ below.stack = otherBelow.stack := by
      refine ih hfirst.2 hsecond.2 (fun part hpart inner hinner => ?_) ?_
      · exact hunique part (List.mem_cons_of_mem _ hpart) inner (List.mem_cons_of_mem _ hinner)
      · exact hunique below (List.mem_cons_of_mem _ below.mem_parts_self) otherBelow
          (List.mem_cons_of_mem _ otherBelow.mem_parts_self)
    rw [Bool.or_eq_true, Bool.and_eq_true, Bool.and_eq_true, beq_iff_eq, beq_iff_eq, beq_iff_eq,
      hbelow, stack_upper_eq_iff]
    constructor
    · rintro (heq | ⟨⟨-, hframe⟩, hstack⟩)
      · rw [← stack_upper_eq_iff, hplace heq]
      · exact ⟨hframe, hstack⟩
    · rintro ⟨hframe, hstack⟩
      have hdepth : depth = otherDepth := by
        rw [hfirst.1, hsecond.1, hfirst.2.depth_eq, hsecond.2.depth_eq, hstack]
      exact .inr ⟨⟨hdepth, hframe⟩, hstack⟩
  | case3 link other hbases huppers =>
    -- One of the two is a base and the other is not, so neither the places nor the stacks agree.
    rw [beq_iff_eq]
    cases link with
    | base place context =>
      cases other with
      | base otherPlace otherContext =>
        exact absurd rfl (hbases place context otherPlace otherContext rfl)
      | upper otherPlace otherFrame depth below =>
        exact iff_of_false (fun heq => nomatch hplace heq) stack_base_ne_upper
    | upper place frame depth below =>
      cases other with
      | base otherPlace context =>
        exact iff_of_false (fun heq => nomatch hplace heq) stack_base_ne_upper.symm
      | upper otherPlace otherFrame otherDepth otherBelow =>
        exact absurd rfl (huppers _ _ _ _ _ _ _ _ rfl)

end LinkedFrame

/-! ## Lists -/

/-- What a stack is and what becomes of it, told by its frames alone. -/
structure Stack.ReadsAsList (stack : Stack) : Prop where
  nonempty : stack.frames ≠ []
  depth : stack.depth = stack.frames.length
  pushed : ∀ context data,
    (stack.push context data).frames = stack.frames ++ [⟨context, data⟩]
  popped : ∀ count, (stack.popMany count).frames =
    stack.frames.take (max 1 (stack.frames.length - count))
  clamped : ∀ count, stack.popsTooMany count = true ↔ stack.frames.length - 1 < count
  switched : ∀ (switch : Switch) data target, switch.target = some target →
    (switch.apply stack data).frames =
      stack.frames.take (max 1 (stack.frames.length - switch.pops)) ++
        [⟨target.context, if target.dynamic then data else none⟩]
  switchedBack : ∀ (switch : Switch) data, switch.target = none →
    (switch.apply stack data).frames =
      stack.frames.take (max 1 (stack.frames.length - switch.pops))
  stayed : ∀ (switch : Switch) data, switch.pops = 0 → switch.target = none →
    switch.apply stack data = stack
  noticed : ∀ switch : Switch, switch.notices stack =
    if stack.frames.length - 1 < switch.pops then [.popTooBig stack.frames.length switch.pops]
    else []
  compared : ∀ other : Stack, (stack == other) = true ↔ stack.frames = other.frames

/-- Each operation on a linked frame is the one on the stack that is read from there. -/
structure LinkedFrame.ReadsAsStack (link : LinkedFrame) : Prop where
  depth : link.depth = link.stack.depth
  pushed : ∀ place context data,
    (link.push place context data).stack = link.stack.push context data
  popped : ∀ count, (link.pop count).1.stack = link.stack.popMany count
  clamped : ∀ count, (link.pop count).2 = link.stack.popsTooMany count
  switched : ∀ place switch data,
    (link.apply place switch data).1.stack = switch.apply link.stack data
  noticed : ∀ place switch data, (link.apply place switch data).2 = switch.notices link.stack

theorem Stack.readsAsList (stack : Stack) : stack.ReadsAsList where
  nonempty := by
    rw [frames, List.reverse_ne_nil_iff]
    exact List.cons_ne_nil _ _
  depth := stack.length_frames.symm
  pushed := stack.frames_push
  popped count := by rw [length_frames, frames_popMany]
  clamped count := by rw [length_frames, popsTooMany, decide_eq_true_iff]
  switched switch data target htarget := by
    rw [length_frames, Switch.frames_apply, htarget]
    rfl
  switchedBack switch data htarget := by
    rw [length_frames, Switch.frames_apply, htarget]
    exact List.append_nil _
  stayed switch data hpops htarget := by
    apply Switch.apply_of_isStay
    rw [Switch.isStay, hpops, htarget]
    rfl
  noticed switch := by
    rw [length_frames, Switch.notices]
    simp only [popsTooMany, decide_eq_true_eq]
  compared other := by
    rw [beq_iff_eq]
    exact ⟨congrArg frames, ext_frames⟩

theorem LinkedFrame.Counted.readsAsStack {link : LinkedFrame} (h : link.Counted) :
    link.ReadsAsStack where
  depth := h.depth_eq
  pushed := link.stack_push
  popped count := (link.stack_pop count).1
  clamped count := (link.stack_pop count).2
  switched place switch data := (stack_apply h place switch data).1
  noticed place switch data := (stack_apply h place switch data).2

/-- A stack is a list of frames that is never empty, and it is no more than that although stacks
share their frames: what is done to a linked frame is done to its stack, the comparison that stops
at a shared frame tells whether the stacks are equal, and all of it can be told from the frames. -/
theorem stacks_refine_lists {next : Nat} {made : List LinkedFrame}
    (h : LinkedFrame.Built next made) :
    (∀ place context, (LinkedFrame.base place context).stack = Stack.single context ∧
        (Stack.single context).frames = [⟨context, none⟩]) ∧
      (∀ stack : Stack, stack.ReadsAsList) ∧
      (∀ link ∈ made, link.ReadsAsStack) ∧
      ∀ first ∈ made, ∀ second ∈ made,
        (first.same second = true ↔ first.stack.frames = second.stack.frames) := by
  have hkept := h.kept
  refine ⟨fun place context => ⟨rfl, Stack.frames_single context⟩, Stack.readsAsList,
    fun link hlink => (hkept.counted link hlink).readsAsStack, ?_⟩
  intro first hfirst second hsecond
  rw [LinkedFrame.same_iff (hkept.counted first hfirst) (hkept.counted second hsecond)
    (hkept.unique first hfirst second hsecond)]
  exact ⟨congrArg Stack.frames, Stack.ext_frames⟩

/-- The stack at the start of a document. -/
def plainBase : LinkedFrame :=
  .base 0 0

/-- The stack in a context that was entered with the captured text `EOF`. -/
def markedTop (place : Nat) : LinkedFrame :=
  plainBase.push place 3 (some [['E', 'O', 'F']])

/-- Leaves more contexts than there are and enters one without captured text. -/
def leaveAll : Switch :=
  ⟨2, some ⟨5, "Text", false⟩⟩

theorem stacks_refine_lists_marked :
    LinkedFrame.Built 3 [markedTop 2, markedTop 1, plainBase] ∧
      (markedTop 1).stack.ReadsAsList ∧
      ((markedTop 1).apply 3 leaveAll none).1.stack.frames = [⟨0, none⟩, ⟨5, none⟩] ∧
      ((markedTop 1).apply 3 leaveAll none).2 = [.popTooBig 2 2] ∧
      markedTop 1 ≠ markedTop 2 ∧ (markedTop 1).same (markedTop 2) = true ∧
      (markedTop 1).same plainBase = false := by
  have hbuilt : LinkedFrame.Built 3 [markedTop 2, markedTop 1, plainBase] :=
    .push (.push (.base .nothing 0) (by simp [plainBase]) 3 _) (by simp [plainBase]) 3 _
  obtain ⟨-, hlists, hstacks, hsame⟩ := stacks_refine_lists hbuilt
  have hdiffer : ¬ (markedTop 1).same plainBase = true := by
    rw [hsame _ (by simp) _ (by simp)]
    decide
  have hstack := hstacks (markedTop 1) (by simp)
  refine ⟨hbuilt, hlists _, ?_, ?_, by decide, ?_, Bool.eq_false_iff.2 hdiffer⟩
  · rw [hstack.switched, (hlists _).switched leaveAll none _ rfl]
    rfl
  · rw [hstack.noticed, (hlists _).noticed]
    rfl
  · exact (hsame _ (by simp) _ (by simp)).2 rfl

end Highlight
