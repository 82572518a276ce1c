import Highlight.Reported
import Highlight.Stack
import Highlight.Unicode.Blank

/-!
# Context switches

A grammar writes transitions as text: `#stay`, `#pop#pop`, `#pop!Comment` or the name of a context.
`SwitchOp.parse` reads such a text, `SwitchOp.resolve` looks its target up, and the resulting
`Switch` takes a stack to the next one.
-/

namespace Highlight

/-- The text of a switch, read: how many contexts to pop and the name of the one to push. -/
structure SwitchOp where
  pops : Nat
  target : Option String
  deriving Repr, DecidableEq, Inhabited

namespace SwitchOp

/-- How often `#pop` stands at the start of a text, and the text behind that. -/
def countPops : List Char → Nat × List Char
  | '#' :: 'p' :: 'o' :: 'p' :: rest => ((countPops rest).1 + 1, (countPops rest).2)
  | rest => (0, rest)

/-- The text that keeps the context. -/
def stayText : List Char :=
  ['#', 's', 't', 'a', 'y']

/-- Reads the text of a switch: any number of pops followed by nothing, by `#stay`, or by `!` and a
name, or a name alone.  Staying after a pop means no more than the pop and is worth a warning. -/
def parse (operation : String) : Reported SwitchOp :=
  let (pops, rest) := countPops (Unicode.trim operation.toList)
  match rest with
  | [] => .done ⟨pops, none⟩
  | '!' :: name =>
    if pops == 0 || name.isEmpty then .fail (.invalidOperation operation)
    else .done ⟨pops, some (String.ofList name)⟩
  | rest =>
    if rest == stayText then
      if pops == 0 then .done ⟨0, none⟩ else .noted (.stayAfterPop operation) ⟨pops, none⟩
    else if pops != 0 || stayText.isPrefixOf rest then .fail (.invalidOperation operation)
    else .done ⟨0, some (String.ofList rest)⟩

end SwitchOp

/-- The context that a switch pushes. -/
structure Target where
  context : Nat
  name : String
  /-- Whether the context keeps the groups captured on entry. -/
  dynamic : Bool
  deriving Repr, DecidableEq, Inhabited

/-- A transition between stacks. -/
structure Switch where
  pops : Nat
  target : Option Target
  deriving Repr, DecidableEq, Inhabited

namespace Switch

/-- The transition that changes nothing. -/
def stay : Switch :=
  ⟨0, none⟩

/-- Whether the switch leaves every stack alone. -/
def isStay (switch : Switch) : Bool :=
  switch.pops == 0 && switch.target.isNone

/-- Whether the pushed context keeps captured groups. -/
def pushesDynamic (switch : Switch) : Bool :=
  switch.target.any Target.dynamic

/-- The next stack.  Captured groups are kept only by a dynamic context. -/
def apply (switch : Switch) (stack : Stack) (data : Option Captures) : Stack :=
  let popped := stack.popMany switch.pops
  match switch.target with
  | none => popped
  | some target => popped.push target.context (if target.dynamic then data else none)

/-- The warning that is due when a stack has too few frames for the pops of a switch. -/
def notices (switch : Switch) (stack : Stack) : List Notice :=
  if stack.popsTooMany switch.pops then [.popTooBig stack.depth switch.pops] else []

/-- The text that stands for a switch. -/
def render (switch : Switch) : String :=
  if switch.isStay then "#stay"
  else
    let pops := String.join (List.replicate switch.pops "#pop")
    match switch.target with
    | none => pops
    | some target => if switch.pops == 0 then target.name else pops ++ "!" ++ target.name

theorem apply_of_isStay {switch : Switch} (h : switch.isStay) (stack : Stack)
    (data : Option Captures) : switch.apply stack data = stack := by
  simp only [isStay, Bool.and_eq_true, beq_iff_eq, Option.isNone_iff_eq_none] at h
  simp [apply, h.1, h.2, Stack.popMany]

end Switch

/-! ## Resolving targets -/

/-- What switches and inclusions can refer to: the names of the contexts in their order, each with
whether it is dynamic. -/
abbrev ContextTable := List (String × Bool)

/-- The place of a context and whether it is dynamic. -/
def ContextTable.find? (table : ContextTable) (name : String) : Option (Nat × Bool) :=
  (table.findIdx? fun entry => entry.1 == name).bind fun index =>
    table[index]?.map fun entry => (index, entry.2)

/-- The switch that a text stands for, in a context called `owner`. -/
def SwitchOp.resolve (operation : SwitchOp) (owner : String) (table : ContextTable) :
    Reported Switch :=
  match operation.target with
  | none => .done ⟨operation.pops, none⟩
  | some name =>
    match table.find? name with
    | none => .fail (.unknownContext owner name)
    | some (context, dynamic) => .done ⟨operation.pops, some ⟨context, name, dynamic⟩⟩

/-- Reads and resolves the text of a switch. -/
def Switch.ofText (owner : String) (table : ContextTable) (operation : String) : Reported Switch :=
  (SwitchOp.parse operation).andThen fun operation => operation.resolve owner table

end Highlight
