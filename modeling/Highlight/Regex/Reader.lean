import Highlight.Regex.Pattern
import Highlight.Unicode.Category
import Highlight.Unicode.PropertyName
import Highlight.Unicode.Table

/-!
# Reading patterns

The notation of regular expressions.  The text is read from left to right with the groups that are
still open on a stack; inside brackets a second stack holds the open brackets and the set operations
that wait for their right side.  Flags are worked into the parts of the pattern as they are read.
Both loops end because each round leaves a shorter text.
-/

namespace Highlight.Regex

/-- Why a text is no regular expression. -/
inductive PatternError where
  | badEscape
  | badClass
  | badProperty
  | badFlags
  | badGroupName
  | badCount
  | missingOperand
  | unopenedGroup
  | unclosedGroup
  | lookAround
  | splitsCharacters
  | tooDeep
  | tooBig
  deriving Repr, DecidableEq, Inhabited

/-- The flags in force at a place of a pattern. -/
structure Flags where
  caseless : Bool := false
  multiLine : Bool := false
  dotAll : Bool := false
  swapGreed : Bool := false
  unicode : Bool := true
  crlf : Bool := false
  verbose : Bool := false
  deriving Repr, DecidableEq, Inhabited

/-- How characters are understood under some flags. -/
def Flags.mode (flags : Flags) : CharMode :=
  { caseless := flags.caseless, unicode := flags.unicode }

/-! ## Blanks and comments -/

/-- A text without the white space and the comments that it starts with. -/
def skipVerbose (inComment : Bool) : List Char → List Char
  | [] => []
  | c :: rest =>
    if inComment then skipVerbose (c != '\n') rest
    else if Unicode.isBlank c then skipVerbose false rest
    else if c == '#' then skipVerbose true rest
    else c :: rest

/-- A text without what the flags allow to be skipped. -/
def Flags.skip (flags : Flags) (text : List Char) : List Char :=
  if flags.verbose then skipVerbose false text else text

theorem length_skipVerbose_le (inComment : Bool) (text : List Char) :
    (skipVerbose inComment text).length ≤ text.length := by
  induction text generalizing inComment with
  | nil => simp [skipVerbose]
  | cons c rest ih =>
    simp only [skipVerbose]
    split
    · exact Nat.le_succ_of_le (ih _)
    · split
      · exact Nat.le_succ_of_le (ih _)
      · split
        · exact Nat.le_succ_of_le (ih _)
        · exact Nat.le_refl _

theorem Flags.length_skip_le (flags : Flags) (text : List Char) :
    (flags.skip text).length ≤ text.length := by
  unfold Flags.skip
  split
  · exact length_skipVerbose_le _ _
  · exact Nat.le_refl _

/-- The characters of a kind that a text starts with, and what follows them; what may be skipped is
skipped behind each of them. -/
def takeSkipping (flags : Flags) (kind : Char → Bool) : List Char → List Char × List Char
  | [] => ([], [])
  | c :: rest =>
    if kind c then
      let (taken, left) := takeSkipping flags kind (flags.skip rest)
      (c :: taken, left)
    else ([], c :: rest)
termination_by text => text.length
decreasing_by
  have := flags.length_skip_le rest
  simp
  omega

theorem length_takeSkipping_le (flags : Flags) (kind : Char → Bool) (text : List Char) :
    (takeSkipping flags kind text).2.length ≤ text.length := by
  fun_induction takeSkipping flags kind text with
  | case1 => exact Nat.le_refl _
  | case2 c rest hkind taken left htaken ih =>
    have hskip := flags.length_skip_le rest
    rw [htaken] at ih
    exact Nat.le_succ_of_le (Nat.le_trans ih hskip)
  | case3 c rest hkind => exact Nat.le_refl _

/-! ## Numbers -/

/-- Repetition counts are below two to the power of thirty-two. -/
def countLimit : Nat :=
  0x100000000

/-- The value of decimal digits. -/
def decimalValue (digits : List Char) : Nat :=
  digits.foldl (fun value c => value * 10 + (c.toNat - '0'.toNat)) 0

/-- The value of hexadecimal digits. -/
def hexValue (digits : List Char) : Nat :=
  (Unicode.readHex 0 digits).1

/-- Reads a count; white space around it does not matter. -/
def readCount (flags : Flags) (text : List Char) : Except PatternError Nat × List Char :=
  let (digits, rest) := takeSkipping flags Char.isDigit (Unicode.dropBlanks text)
  let rest := (takeSkipping flags Unicode.isBlank rest).2
  let value := decimalValue digits
  (if digits.isEmpty || countLimit ≤ value then .error .badCount else .ok value, rest)

theorem length_readCount_le (flags : Flags) (text : List Char) :
    (readCount flags text).2.length ≤ text.length := by
  have hblanks : (Unicode.dropBlanks text).length ≤ text.length :=
    (List.dropWhile_suffix Unicode.isBlank).length_le
  have hdigits := length_takeSkipping_le flags Char.isDigit (Unicode.dropBlanks text)
  have hrest := length_takeSkipping_le flags Unicode.isBlank
    (takeSkipping flags Char.isDigit (Unicode.dropBlanks text)).2
  simp only [readCount]
  omega

/-- The character with a number. -/
def charOfCode (code : Nat) : Except PatternError Char :=
  if code.isValidChar then .ok (Char.ofNat code) else .error .badEscape

/-- Reads exactly `count` hexadecimal digits. -/
def readFixedHex (flags : Flags) (value : Nat) :
    Nat → List Char → Except PatternError (Nat × List Char)
  | 0, text => .ok (value, text)
  | _ + 1, [] => .error .badEscape
  | count + 1, c :: rest =>
    match Unicode.hexDigit? c with
    | some digit => readFixedHex flags (value * 16 + digit) count (flags.skip rest)
    | none => .error .badEscape

theorem length_le_of_readFixedHex {flags : Flags} {value count code : Nat}
    {text rest : List Char} (h : readFixedHex flags value count text = .ok (code, rest)) :
    rest.length ≤ text.length := by
  fun_induction readFixedHex flags value count text with
  | case1 value text =>
    cases h
    exact Nat.le_refl _
  | case2 => cases h
  | case3 value count c text digit hdigit ih =>
    have hskip := flags.length_skip_le text
    have hrest := ih h
    simp only [List.length_cons]
    omega
  | case4 => cases h

/-! ## Escapes -/

/-- One item of a pattern that is not a set in brackets. -/
inductive Atom where
  /-- A character; a byte is one that was given by two hexadecimal digits. -/
  | literal (c : Char) (byte : Bool)
  | oneOf (set : CharSet)
  | look (condition : Look)
  deriving Repr, DecidableEq, Inhabited

/-- The characters with a meaning of their own. -/
def isMeta (c : Char) : Bool :=
  "\\.+*?()|[]\x7b\x7d^$#&-~".toList.contains c

/-- Characters that a backslash turns into themselves: those with a meaning, and any other of the
basic alphabet that is no letter, digit or angle bracket. -/
def isEscapable (c : Char) : Bool :=
  isMeta c || (c.toNat < 128 && !c.isAlphanum && c != '<' && c != '>')

/-- The words that name a word boundary in braces. -/
def wordLookByName : List (List Char × WordLook) :=
  [("start".toList, .start), ("end".toList, .stop), ("start-half".toList, .startHalf),
    ("end-half".toList, .stopHalf)]

/-- Reads what may follow the escape of a word boundary: a word in braces that says which kind.
Braces that hold something else are left to be read as a count. -/
def readWordLook (flags : Flags) (text : List Char) : Except PatternError (WordLook × List Char) :=
  match text with
  | '\x7b' :: inside =>
    let inside := flags.skip inside
    match inside with
    | [] => .error .badEscape
    | c :: _ =>
      if c.isAlpha || c == '-' then
        match takeSkipping flags (fun c => c.isAlpha || c == '-') inside with
        | (name, '\x7d' :: rest) =>
          match wordLookByName.lookup name with
          | some kind => .ok (kind, rest)
          | none => .error .badEscape
        | _ => .error .badEscape
      else .ok (.boundary, text)
  | _ => .ok (.boundary, text)

theorem length_le_of_readWordLook {flags : Flags} {text rest : List Char} {kind : WordLook}
    (h : readWordLook flags text = .ok (kind, rest)) : rest.length ≤ text.length := by
  simp only [readWordLook] at h
  split at h
  · next inside =>
    have hskip := flags.length_skip_le inside
    have hname := length_takeSkipping_le flags (fun c => c.isAlpha || c == '-') (flags.skip inside)
    split at h
    · cases h
    · next c more hinside =>
      split at h
      · split at h
        · next name left htake =>
          rw [htake] at hname
          split at h
          · cases h
            simp only [List.length_cons] at hname ⊢
            omega
          · cases h
        · cases h
      · cases h
        exact Nat.le_refl _
  · cases h
    exact Nat.le_refl _

/-- Reads the number of a character behind the letter that announces it. -/
def readCharCode (flags : Flags) (letter : Char) (text : List Char) :
    Except PatternError (Atom × List Char) := do
  match flags.skip text with
  | '\x7b' :: inside =>
    match takeSkipping flags (fun c => (Unicode.hexDigit? c).isSome) (flags.skip inside) with
    | ([], _) => .error .badEscape
    | (digits, '\x7d' :: rest) =>
      let c ← charOfCode (hexValue digits)
      .ok (.literal c false, flags.skip rest)
    | _ => .error .badEscape
  | digits =>
    let count := if letter == 'x' then 2 else if letter == 'u' then 4 else 8
    let (code, rest) ← readFixedHex flags 0 count digits
    let c ← charOfCode code
    .ok (.literal c (letter == 'x'), rest)

theorem length_le_of_readCharCode {flags : Flags} {letter : Char} {text rest : List Char}
    {atom : Atom} (h : readCharCode flags letter text = .ok (atom, rest)) :
    rest.length ≤ text.length := by
  have hskip := flags.length_skip_le text
  simp only [readCharCode, bind, Except.bind] at h
  split at h
  · next inside htext =>
    rw [htext, List.length_cons] at hskip
    have hinside := flags.length_skip_le inside
    have hdigits := length_takeSkipping_le flags (fun c => (Unicode.hexDigit? c).isSome)
      (flags.skip inside)
    split at h
    · cases h
    · next digits left _ htake =>
      rw [htake, List.length_cons] at hdigits
      split at h
      · cases h
      · cases h
        have hleft := flags.length_skip_le left
        omega
    · cases h
  · next digits hdigits =>
    split at h
    · cases h
    · next found hfound =>
      split at h
      · cases h
      · cases h
        have hread := length_le_of_readFixedHex hfound
        omega

/-- The property that a name stands for, asked for under some flags. -/
def propertySet (flags : Flags) (negated : Bool) (property : Option (Unicode.Property × Bool)) :
    Except PatternError CharSet :=
  match property with
  | none => .error .badProperty
  | some (property, inverted) =>
    if flags.unicode then .ok (.property property (negated != inverted)) else .error .badProperty

/-- Reads the name of a property: one letter, or a name in braces. -/
def readProperty (flags : Flags) (negated : Bool) (text : List Char) :
    Except PatternError (Atom × List Char) := do
  match flags.skip text with
  | [] => .error .badEscape
  | '\x7b' :: inside =>
    match takeSkipping flags (fun c => c != '\x7d') (flags.skip inside) with
    | (name, _ :: rest) =>
      let set ← propertySet flags negated (Unicode.Property.ofText? name)
      .ok (.oneOf set, rest)
    | _ => .error .badEscape
  | c :: rest =>
    if c == '\\' then .error .badEscape
    else
      let set ← propertySet flags negated (Unicode.Property.ofText? [c])
      .ok (.oneOf set, flags.skip rest)

theorem length_le_of_readProperty {flags : Flags} {negated : Bool} {text rest : List Char}
    {atom : Atom} (h : readProperty flags negated text = .ok (atom, rest)) :
    rest.length ≤ text.length := by
  have hskip := flags.length_skip_le text
  simp only [readProperty, bind, Except.bind] at h
  split at h
  · cases h
  · next inside htext =>
    rw [htext, List.length_cons] at hskip
    have hinside := flags.length_skip_le inside
    have hname := length_takeSkipping_le flags (fun c => c != '\x7d') (flags.skip inside)
    split at h
    · next name last left htake =>
      rw [htake, List.length_cons] at hname
      split at h
      · cases h
      · cases h
        omega
    · cases h
  · next c left _ htext =>
    rw [htext, List.length_cons] at hskip
    have hleft := flags.length_skip_le left
    split at h
    · cases h
    · split at h
      · cases h
      · cases h
        omega

/-- The class of a letter; without the larger alphabet its complement would split characters. -/
def letterSet (flags : Flags) (kind : LetterClass) (negated : Bool) : Except PatternError Atom :=
  if negated && !flags.unicode then .error .splitsCharacters
  else .ok (.oneOf (.letter kind negated))

/-- Reads an escape behind its backslash. -/
def readEscape (flags : Flags) : List Char → Except PatternError (Atom × List Char)
  | [] => .error .badEscape
  | c :: rest => do
    match c with
    | 'x' | 'u' | 'U' => readCharCode flags c rest
    | 'p' => readProperty flags false rest
    | 'P' => readProperty flags true rest
    | 'd' => .ok (← letterSet flags .digit false, rest)
    | 'D' => .ok (← letterSet flags .digit true, rest)
    | 's' => .ok (← letterSet flags .space false, rest)
    | 'S' => .ok (← letterSet flags .space true, rest)
    | 'w' => .ok (← letterSet flags .word false, rest)
    | 'W' => .ok (← letterSet flags .word true, rest)
    | 'a' => .ok (.literal '\x07' false, rest)
    | 'f' => .ok (.literal '\x0c' false, rest)
    | 't' => .ok (.literal '\t' false, rest)
    | 'n' => .ok (.literal '\n' false, rest)
    | 'r' => .ok (.literal '\r' false, rest)
    | 'v' => .ok (.literal '\x0b' false, rest)
    | 'A' => .ok (.look .textStart, rest)
    | 'z' => .ok (.look .textEnd, rest)
    | 'B' => .ok (.look (.word .noBoundary flags.unicode), rest)
    | '<' => .ok (.look (.word .start flags.unicode), rest)
    | '>' => .ok (.look (.word .stop flags.unicode), rest)
    | 'b' =>
      let (kind, rest) ← readWordLook flags rest
      .ok (.look (.word kind flags.unicode), rest)
    | c => if isEscapable c then .ok (.literal c false, rest) else .error .badEscape

theorem length_le_of_readEscape {flags : Flags} {text rest : List Char} {atom : Atom}
    (h : readEscape flags text = .ok (atom, rest)) : rest.length ≤ text.length := by
  cases text with
  | nil => cases h
  | cons c left =>
    refine Nat.le_succ_of_le ?_
    simp only [readEscape, bind, Except.bind] at h
    split at h
    · exact length_le_of_readCharCode h
    · exact length_le_of_readCharCode h
    · exact length_le_of_readCharCode h
    · exact length_le_of_readProperty h
    · exact length_le_of_readProperty h
    -- the six classes of letters, then eleven characters and conditions
    iterate 6
      · split at h
        · cases h
        · cases h
          exact Nat.le_refl _
    iterate 11
      · cases h
        exact Nat.le_refl _
    · split at h
      · cases h
      · next found hfound =>
        cases h
        exact length_le_of_readWordLook hfound
    · split at h
      · cases h
        exact Nat.le_refl _
      · cases h

/-! ## Sets in brackets -/

/-- A set that is being read, with how deep its brackets are nested. -/
structure SetItem where
  set : CharSet
  depth : Nat
  deriving Repr, DecidableEq, Inhabited

/-- The members that were read since the last bracket or operation. -/
structure SetItems where
  union : CharSet := .none
  count : Nat := 0
  depth : Nat := 0
  deriving Repr, DecidableEq, Inhabited

/-- The members with one more. -/
def SetItems.add (items : SetItems) (item : SetItem) : SetItems :=
  { union := if items.count == 0 then item.set else .union items.union item.set
    count := items.count + 1
    depth := max items.depth item.depth }

/-- The members as one set. -/
def SetItems.toItem (items : SetItems) : SetItem :=
  { set := items.union
    depth := if items.count ≤ 1 then items.depth else items.depth + 1 }

/-- What waits for the end of the set that is being read. -/
inductive SetFrame where
  /-- The members around an open bracket. -/
  | bracket (outer : SetItems) (negated : Bool)
  /-- An operation and its left side. -/
  | operation (op : SetOp) (left : SetItem)
  deriving Repr, DecidableEq, Inhabited

/-- Applies the operation that waits for its right side, if there is one. -/
def finishOperation (right : SetItem) : List SetFrame → SetItem × List SetFrame
  | .operation op left :: frames =>
    (⟨.combined op left.set right.set, max left.depth right.depth + 1⟩, frames)
  | frames => (right, frames)

/-- Reads a named class behind its opening bracket. -/
def readNamedClass? (text : List Char) : Option (NamedClass × Bool × List Char) :=
  match text with
  | ':' :: rest =>
    let (negated, rest) :=
      match rest with
      | '^' :: rest => (true, rest)
      | rest => (false, rest)
    let name := rest.takeWhile fun c => c != ':'
    match rest.dropWhile fun c => c != ':' with
    | ':' :: ']' :: rest => (NamedClass.byName.lookup name).map fun kind => (kind, negated, rest)
    | _ => none
  | _ => none

/-- The hyphens at the start of a set stand for themselves. -/
def readHyphens (flags : Flags) (items : SetItems) : List Char → SetItems × List Char
  | '-' :: rest => readHyphens flags (items.add ⟨.single '-', 0⟩) (flags.skip rest)
  | rest => (items, rest)
termination_by text => text.length
decreasing_by
  have := flags.length_skip_le rest
  simp
  omega

theorem length_readHyphens_le (flags : Flags) (items : SetItems) (text : List Char) :
    (readHyphens flags items text).2.length ≤ text.length := by
  fun_induction readHyphens flags items text with
  | case1 items rest ih =>
    have hskip := flags.length_skip_le rest
    simp only [List.length_cons]
    omega
  | case2 => exact Nat.le_refl _

/-- Reads the start of a set behind its bracket: whether it is negated, and the hyphens and the
closing bracket that stand for themselves there. -/
def readSetStart (flags : Flags) (text : List Char) : Bool × SetItems × List Char :=
  let (negated, text) :=
    match flags.skip text with
    | '^' :: rest => (true, flags.skip rest)
    | rest => (false, rest)
  match readHyphens flags {} text with
  | (items, ']' :: rest) =>
    if items.count == 0 then (negated, items.add ⟨.single ']', 0⟩, flags.skip rest)
    else (negated, items, ']' :: rest)
  | (items, rest) => (negated, items, rest)

theorem length_readSetStart_le (flags : Flags) (text : List Char) :
    (readSetStart flags text).2.2.length ≤ text.length := by
  have hinside : (match flags.skip text with
      | '^' :: rest => (true, flags.skip rest)
      | rest => (false, rest) : Bool × List Char).2.length ≤ text.length := by
    have hskip := flags.length_skip_le text
    split
    · next rest htext =>
      have hrest := flags.length_skip_le rest
      rw [htext, List.length_cons] at hskip
      exact Nat.le_trans hrest (Nat.le_of_succ_le hskip)
    · exact hskip
  have hhyphens := Nat.le_trans (length_readHyphens_le flags {} _) hinside
  simp only [readSetStart]
  split
  · next items rest hread =>
    have hskip := flags.length_skip_le rest
    rw [hread] at hhyphens
    simp only [List.length_cons] at hhyphens
    split
    · exact Nat.le_trans hskip (Nat.le_of_succ_le hhyphens)
    · exact hhyphens
  · next items rest _ hread =>
    rw [hread] at hhyphens
    exact hhyphens

/-- Reads one end of a range, or a member that is no range. -/
def readSetAtom (flags : Flags) : List Char → Except PatternError (Atom × List Char)
  | [] => .error .badClass
  | '\\' :: rest => readEscape flags rest
  | c :: rest => .ok (.literal c false, rest)

/-- The set of a member that is no range. -/
def Atom.toSet (flags : Flags) : Atom → Except PatternError CharSet
  | literal c _ =>
    if flags.unicode || c.toNat < 128 then .ok (.single c) else .error .splitsCharacters
  | oneOf set => .ok set
  | look _ => .error .badClass

/-- Reads a range or a single member of a set. -/
def readSetRange (flags : Flags) (text : List Char) :
    Except PatternError (CharSet × List Char) := do
  let (first, rest) ← readSetAtom flags text
  match flags.skip rest with
  | [] => .error .badClass
  | '-' :: behind =>
    match flags.skip behind with
    | [] => .error .badClass
    | ']' :: _ | '-' :: _ => .ok (← first.toSet flags, '-' :: behind)
    | behind =>
      let (last, rest) ← readSetAtom flags behind
      match first, last with
      | .literal low _, .literal high _ =>
        if high < low then .error .badClass
        else if !flags.unicode && 128 ≤ high.toNat then .error .splitsCharacters
        else .ok (.range low high, rest)
      | _, _ => .error .badClass
  | rest => .ok (← first.toSet flags, rest)

/-- The operation that two equal characters stand for in a set, and the text behind them. -/
def readSetOp? (c : Char) : List Char → Option (SetOp × List Char)
  | [] => none
  | d :: rest =>
    if c != d then none
    else if c == '&' then some (.intersection, rest)
    else if c == '-' then some (.difference, rest)
    else if c == '~' then some (.symmetricDifference, rest)
    else none

/-- Reads a set behind its opening bracket, with the brackets around it and their members on the
stack, and answers it with the text behind its closing bracket. -/
def readSet (flags : Flags) (frames : List SetFrame) (items : SetItems) (text : List Char) :
    Except PatternError (SetItem × List Char) :=
  match _hskip : flags.skip text with
  | [] => .error .badClass
  | c :: rest =>
    have _hlength := flags.length_skip_le text
    if c == ']' then
      match finishOperation items.toItem frames with
      | (item, .bracket outer negated :: frames) =>
        if negated && !flags.unicode then .error .splitsCharacters
        else
          let item := ⟨.bracket negated item.set, item.depth + 1⟩
          if frames.isEmpty then .ok (item, rest) else readSet flags frames (outer.add item) rest
      | _ => .error .badClass
    else if c == '[' then
      match readNamedClass? rest with
      | some (kind, negated, rest') =>
        if negated && !flags.unicode then .error .splitsCharacters
        else if rest'.length < rest.length then
          readSet flags frames (items.add ⟨.named kind negated, 0⟩) rest'
        else .error .badClass
      | none =>
        let (negated, inner, rest') := readSetStart flags rest
        if rest'.length ≤ rest.length then
          readSet flags (.bracket items negated :: frames) inner rest'
        else .error .badClass
    else
      match readSetOp? c rest with
      | some (op, rest') =>
        let (left, frames) := finishOperation items.toItem frames
        if rest'.length ≤ rest.length then
          readSet flags (.operation op left :: frames) {} rest'
        else .error .badClass
      | none =>
        match readSetRange flags (c :: rest) with
        | .error error => .error error
        | .ok (set, rest') =>
          if rest'.length ≤ rest.length then readSet flags frames (items.add ⟨set, 0⟩) rest'
          else .error .badClass
termination_by text.length
decreasing_by
  all_goals simp_all
  all_goals omega

theorem length_le_of_readSet {flags : Flags} {frames : List SetFrame} {items : SetItems}
    {text rest : List Char} {item : SetItem}
    (h : readSet flags frames items text = .ok (item, rest)) : rest.length ≤ text.length := by
  fun_induction readSet flags frames items text
  -- the set ends, or goes on behind a bracket, a member or an operation
  case case3 hskip _ _ _ _ _ _ _ _ =>
    obtain ⟨-, rfl⟩ := Prod.mk.inj (Except.ok.inj h)
    simp_all only [List.length_cons]
    omega
  case case4 ih =>
    have hrest := ih h
    simp_all only [List.length_cons]
    omega
  case case7 ih =>
    have hrest := ih h
    simp_all only [List.length_cons]
    omega
  case case9 ih =>
    have hrest := ih h
    simp_all only [List.length_cons]
    omega
  case case11 ih =>
    have hrest := ih h
    simp_all only [List.length_cons]
    omega
  case case14 ih =>
    have hrest := ih h
    simp_all only [List.length_cons]
    omega
  all_goals cases h

/-! ## Groups -/

/-- How a group begins. -/
inductive GroupHead where
  /-- A numbered group, which may have a name. -/
  | capture (name : Option (List Char))
  /-- A group without a number, with the flags inside it. -/
  | plain (flags : Flags)
  /-- No group, but flags for the rest of the group around it. -/
  | directive (flags : Flags)
  deriving Repr, DecidableEq, Inhabited

/-- Whether a character can stand in the name of a group. -/
def isNameChar (first : Bool) (c : Char) : Bool :=
  if first then c == '_' || Unicode.isAlphabetic c
  else
    c == '_' || c == '.' || c == '[' || c == ']' || Unicode.isAlphabetic c || Unicode.isNumeric c

/-- Reads the name of a group up to its closing bracket. -/
def readGroupName (text : List Char) : Except PatternError (List Char × List Char) :=
  let name := text.takeWhile fun c => c != '>'
  match name, text.dropWhile fun c => c != '>' with
  | c :: more, _ :: rest =>
    if isNameChar true c && more.all (isNameChar false) then .ok (c :: more, rest)
    else .error .badGroupName
  | _, _ => .error .badGroupName

theorem length_le_of_readGroupName {text name rest : List Char}
    (h : readGroupName text = .ok (name, rest)) : rest.length ≤ text.length := by
  have hdrop := (List.dropWhile_suffix (l := text) fun c => c != '>').length_le
  simp only [readGroupName] at h
  split at h
  · next behind hbehind =>
    rw [hbehind, List.length_cons] at hdrop
    split at h
    · cases h
      omega
    · cases h
  · cases h

/-- The flags with one of them, given by its letter, set or cleared. -/
def Flags.set? (flags : Flags) (letter : Char) (value : Bool) : Option Flags :=
  match letter with
  | 'i' => some { flags with caseless := value }
  | 'm' => some { flags with multiLine := value }
  | 's' => some { flags with dotAll := value }
  | 'U' => some { flags with swapGreed := value }
  | 'u' => some { flags with unicode := value }
  | 'R' => some { flags with crlf := value }
  | 'x' => some { flags with verbose := value }
  | _ => none

/-- Reads flags up to the colon or bracket that ends them.  No letter may come twice, and a hyphen,
of which there is at most one, clears the flags behind it. -/
def readFlags (flags : Flags) (met : List Char) :
    List Char → Except PatternError (Flags × List Char)
  | [] => .error .badFlags
  | c :: rest =>
    if c == ':' || c == ')' then
      if met.head? == some '-' then .error .badFlags else .ok (flags, c :: rest)
    else if met.contains c then .error .badFlags
    else if c == '-' then readFlags flags (c :: met) rest
    else
      match flags.set? c (!met.contains '-') with
      | some flags => readFlags flags (c :: met) rest
      | none => .error .badFlags

theorem length_le_of_readFlags {flags next : Flags} {met text rest : List Char}
    (h : readFlags flags met text = .ok (next, rest)) : rest.length ≤ text.length := by
  fun_induction readFlags flags met text with
  | case1 => cases h
  | case2 => cases h
  | case3 =>
    cases h
    exact Nat.le_refl _
  | case4 => cases h
  | case5 flags met c text _ _ _ ih => exact Nat.le_succ_of_le (ih h)
  | case6 flags met c text _ _ _ set _ ih => exact Nat.le_succ_of_le (ih h)
  | case7 => cases h

/-- Whether a text asks for the text around it, which patterns cannot do. -/
def looksAround (text : List Char) : Bool :=
  ["?=".toList, "?!".toList, "?<=".toList, "?<!".toList].any (·.isPrefixOf text)

/-- Reads the start of a group behind its bracket. -/
def readGroupHead (flags : Flags) (text : List Char) :
    Except PatternError (GroupHead × List Char) := do
  let text := flags.skip text
  if looksAround text then .error .lookAround
  else
    match text with
    | '?' :: 'P' :: '<' :: rest | '?' :: '<' :: rest =>
      let (name, rest) ← readGroupName rest
      .ok (.capture (some name), rest)
    | '?' :: ')' :: _ => .error .missingOperand
    | '?' :: rest =>
      match ← readFlags flags [] rest with
      | (flags, ')' :: rest) => .ok (.directive flags, rest)
      | (flags, rest) => .ok (.plain flags, rest.tail)
    | _ => .ok (.capture none, text)

theorem length_le_of_readGroupHead {flags : Flags} {text rest : List Char} {head : GroupHead}
    (h : readGroupHead flags text = .ok (head, rest)) : rest.length ≤ text.length := by
  have hskip := flags.length_skip_le text
  simp only [readGroupHead, bind, Except.bind] at h
  split at h
  · cases h
  · split at h
    · next left htext =>
      rw [htext] at hskip
      split at h
      · cases h
      · next found hfound =>
        cases h
        have hname := length_le_of_readGroupName hfound
        simp only [List.length_cons] at hskip
        omega
    · next left htext =>
      rw [htext] at hskip
      split at h
      · cases h
      · next found hfound =>
        cases h
        have hname := length_le_of_readGroupName hfound
        simp only [List.length_cons] at hskip
        omega
    · cases h
    · next left _ _ _ htext =>
      rw [htext, List.length_cons] at hskip
      split at h
      · cases h
      · next found hfound =>
        split at h
        · next next behind =>
          cases h
          have hflags := length_le_of_readFlags hfound
          simp only [List.length_cons] at hflags
          omega
        · next next behind _ =>
          cases h
          have hflags := length_le_of_readFlags hfound
          rw [List.length_tail]
          omega
    · cases h
      exact hskip

/-! ## Repetitions -/

/-- Reads a count in braces behind the opening one. -/
def readCounts (flags : Flags) (text : List Char) :
    Except PatternError (Nat × Option Nat × List Char) := do
  let (first, rest) := readCount flags (flags.skip text)
  let (least, most, rest) ←
    match rest with
    | ',' :: rest =>
      match flags.skip rest with
      | '\x7d' :: rest => do .ok (← first, none, '\x7d' :: rest)
      | rest => do
        let least ← first
        let (second, rest) := readCount flags rest
        .ok (least, some (← second), rest)
    | rest => do
      let least ← first
      .ok (least, some least, rest)
  match rest with
  | '\x7d' :: rest => if most.any (· < least) then .error .badCount else .ok (least, most, rest)
  | _ => .error .badCount

theorem length_le_of_readCounts {flags : Flags} {text rest : List Char} {least : Nat}
    {most : Option Nat} (h : readCounts flags text = .ok (least, most, rest)) :
    rest.length ≤ text.length := by
  have hfirst := Nat.le_trans (length_readCount_le flags (flags.skip text))
    (flags.length_skip_le text)
  -- the closing bracket stands behind the last count that was read
  have hclose : ∀ {count : Nat} {limit : Option Nat} {behind : List Char},
      behind.length ≤ text.length →
      (match behind with
        | '\x7d' :: rest =>
          if limit.any (· < count) then .error .badCount else .ok (count, limit, rest)
        | _ => .error .badCount : Except PatternError (Nat × Option Nat × List Char)) =
        .ok (least, most, rest) → rest.length ≤ text.length := by
    intro count limit behind hbehind hread
    split at hread
    · split at hread
      · cases hread
      · cases hread
        exact Nat.le_of_succ_le hbehind
    · cases hread
  simp only [readCounts, bind, Except.bind] at h
  split at h
  · next behind hcomma =>
    have hskip := flags.length_skip_le behind
    rw [hcomma, List.length_cons] at hfirst
    split at h
    · next left hleft =>
      rw [hleft, List.length_cons] at hskip
      split at h
      · cases h
      · split at h
        · cases h
        · cases h
          omega
    · have hsecond := length_readCount_le flags (flags.skip behind)
      split at h
      · cases h
      · split at h
        · cases h
        · exact hclose (by omega) h
  · split at h
    · cases h
    · exact hclose hfirst h

/-- A repetition.  What matches no text is not repeated, and what is repeated exactly once stands
for itself. -/
def Pattern.repeated (body : Pattern) (least : Nat) (most : Option Nat) (greedy : Bool) : Pattern :=
  let least := if body.onlyEmpty then min least 1 else least
  let most := if body.onlyEmpty then some (min (most.getD 1) 1) else most
  if most == some 0 then .empty
  else if least == 1 && most == some 1 then body
  else .times body least most greedy

/-! ## Patterns -/

/-- A part of a pattern that was read, or nothing for flags, and how deep its parts are nested. -/
structure Piece where
  pattern : Option Pattern
  depth : Nat
  deriving Repr, DecidableEq, Inhabited

/-- What was read before an open group, and what holds again behind it. -/
structure OpenGroup where
  pieces : List Piece
  branches : List (Pattern × Nat)
  flags : Flags
  index : Option Nat
  deriving Repr, DecidableEq, Inhabited

/-- How far a pattern is read. -/
structure Reading where
  flags : Flags := {}
  /-- The parts of the branch that is being read, the last one first. -/
  pieces : List Piece := []
  /-- The finished branches beside it, the last one first, with their depths. -/
  branches : List (Pattern × Nat) := []
  /-- The groups that are open, the innermost first. -/
  opened : List OpenGroup := []
  /-- The number of the next group. -/
  nextGroup : Nat := 1
  names : List (List Char) := []
  deriving Repr, DecidableEq, Inhabited

namespace Reading

/-- Adds a part to the branch. -/
def add (reading : Reading) (pattern : Pattern) (depth : Nat) : Reading :=
  { reading with pieces := ⟨some pattern, depth⟩ :: reading.pieces }

/-- The branch that is being read, and its depth. -/
def branch (reading : Reading) : Pattern × Nat :=
  let pieces := reading.pieces.reverse
  let depth := pieces.foldl (fun depth piece => max depth piece.depth) 0
  (.sequence (pieces.filterMap Piece.pattern), if pieces.length ≤ 1 then depth else depth + 1)

/-- The alternatives that are being read, and their depth. -/
def alternatives (reading : Reading) : Pattern × Nat :=
  let branches := (reading.branch :: reading.branches).reverse
  let depth := branches.foldl (fun depth branch => max depth branch.2) 0
  (.choice (branches.map Prod.fst), if branches.length ≤ 1 then depth else depth + 1)

/-- Begins another alternative. -/
def nextBranch (reading : Reading) : Reading :=
  { reading with pieces := [], branches := reading.branch :: reading.branches }

/-- Opens a group. -/
def openGroup (reading : Reading) (index : Option Nat) (flags : Flags) : Reading :=
  { reading with
    opened := ⟨reading.pieces, reading.branches, reading.flags, index⟩ :: reading.opened
    pieces := [], branches := [], flags }

/-- Begins what a group's head announces. -/
def enter (reading : Reading) : GroupHead → Except PatternError Reading
  | .directive flags =>
    .ok { reading with flags, pieces := ⟨none, 0⟩ :: reading.pieces }
  | .plain flags => .ok (reading.openGroup none flags)
  | .capture name =>
    if name.any reading.names.contains then .error .badGroupName
    else
      .ok { reading.openGroup (some reading.nextGroup) reading.flags with
        nextGroup := reading.nextGroup + 1, names := name.toList ++ reading.names }

/-- Closes the innermost group. -/
def closeGroup (reading : Reading) : Except PatternError Reading :=
  match reading.opened with
  | [] => .error .unopenedGroup
  | group :: opened =>
    let (body, depth) := reading.alternatives
    let pattern :=
      match group.index with
      | some index => .group index body
      | none => body
    .ok { reading with
      opened, flags := group.flags, branches := group.branches
      pieces := ⟨some pattern, depth + 1⟩ :: group.pieces }

/-- Repeats the last part of the branch. -/
def repeatLast (reading : Reading) (least : Nat) (most : Option Nat) (greedy : Bool) :
    Except PatternError Reading :=
  match reading.pieces with
  | ⟨some body, depth⟩ :: pieces =>
    let pattern := body.repeated least most (greedy != reading.flags.swapGreed)
    .ok { reading with pieces := ⟨some pattern, depth + 1⟩ :: pieces }
  | _ => .error .missingOperand

end Reading

/-- The pattern of an atom. -/
def Atom.toPattern (flags : Flags) : Atom → Except PatternError Pattern
  | literal c byte =>
    if byte && !flags.unicode && 128 ≤ c.toNat then .error .splitsCharacters
    else .ok (.char flags.mode (.single c))
  | oneOf set => .ok (.char flags.mode set)
  | look condition => .ok (.look condition)

/-- The pattern of a point: any character, though a line end only if the flags say so. -/
def pointPattern (flags : Flags) : Except PatternError Pattern :=
  if !flags.unicode then .error .splitsCharacters
  else if flags.dotAll then .ok (.char {} .all)
  else .ok (.char {} (.allBut (if flags.crlf then ['\r', '\n'] else ['\n'])))

/-- Whether the repetition that was read is followed by the mark that prefers few rounds, and the
text behind it. -/
def readLazyMark : List Char → Bool × List Char
  | '?' :: rest => (true, rest)
  | rest => (false, rest)

theorem length_readLazyMark_le (text : List Char) :
    (readLazyMark text).2.length ≤ text.length := by
  unfold readLazyMark
  split
  · exact Nat.le_succ _
  · exact Nat.le_refl _

/-- One part of a pattern that begins with the character `c`, and the text behind it. -/
def readPart (reading : Reading) (c : Char) (rest : List Char) :
    Except PatternError (Reading × List Char) := do
  let flags := reading.flags
  match c with
  | '(' =>
    let (head, rest) ← readGroupHead flags rest
    .ok (← reading.enter head, rest)
  | ')' => .ok (← reading.closeGroup, rest)
  | '|' => .ok (reading.nextBranch, rest)
  | '[' =>
    let (negated, items, rest) := readSetStart flags rest
    let (item, rest) ← readSet flags [.bracket {} negated] items rest
    .ok (reading.add (.char flags.mode item.set) item.depth, rest)
  | '?' =>
    let (few, rest) := readLazyMark rest
    .ok (← reading.repeatLast 0 (some 1) (!few), rest)
  | '*' =>
    let (few, rest) := readLazyMark rest
    .ok (← reading.repeatLast 0 none (!few), rest)
  | '+' =>
    let (few, rest) := readLazyMark rest
    .ok (← reading.repeatLast 1 none (!few), rest)
  | '\x7b' =>
    let (least, most, rest) ← readCounts flags rest
    let (few, rest) := readLazyMark (flags.skip rest)
    .ok (← reading.repeatLast least most (!few), rest)
  | '\\' =>
    let (atom, rest) ← readEscape flags rest
    .ok (reading.add (← atom.toPattern flags) 0, rest)
  | '.' => .ok (reading.add (← pointPattern flags) 0, rest)
  | '^' =>
    let look : Look := if flags.multiLine then .lineStart flags.crlf else .textStart
    .ok (reading.add (.look look) 0, rest)
  | '$' =>
    .ok (reading.add (.look (if flags.multiLine then .lineEnd flags.crlf else .textEnd)) 0, rest)
  | c => .ok (reading.add (.char flags.mode (.single c)) 0, rest)

/-- A part does not add to the text that is left. -/
theorem length_le_of_readPart {reading next : Reading} {c : Char} {text rest : List Char}
    (h : readPart reading c text = .ok (next, rest)) : rest.length ≤ text.length := by
  have hmark := length_readLazyMark_le text
  simp only [readPart, bind, Except.bind] at h
  split at h
  · split at h
    · cases h
    · next found hfound =>
      split at h
      · cases h
      · cases h
        exact length_le_of_readGroupHead hfound
  · split at h
    · cases h
    · cases h
      exact Nat.le_refl _
  · cases h
    exact Nat.le_refl _
  · split at h
    · cases h
    · next found hfound =>
      cases h
      exact Nat.le_trans (length_le_of_readSet hfound)
        (length_readSetStart_le reading.flags text)
  · split at h
    · cases h
    · cases h
      exact hmark
  · split at h
    · cases h
    · cases h
      exact hmark
  · split at h
    · cases h
    · cases h
      exact hmark
  · split at h
    · cases h
    · next found hfound =>
      split at h
      · cases h
      · cases h
        have hskip := reading.flags.length_skip_le found.2.2
        have hlazy := length_readLazyMark_le (reading.flags.skip found.2.2)
        exact Nat.le_trans hlazy (Nat.le_trans hskip (length_le_of_readCounts hfound))
  · split at h
    · cases h
    · next found hfound =>
      split at h
      · cases h
      · cases h
        exact length_le_of_readEscape hfound
  · split at h
    · cases h
    · cases h
      exact Nat.le_refl _
  all_goals
    cases h
    exact Nat.le_refl _

/-- Reads a pattern from a place on. -/
def readFrom (reading : Reading) (text : List Char) : Except PatternError Reading :=
  match _hskip : reading.flags.skip text with
  | [] => .ok reading
  | c :: rest =>
    match _hpart : readPart reading c rest with
    | .error error => .error error
    | .ok (next, left) => readFrom next left
termination_by text.length
decreasing_by
  have hskip := reading.flags.length_skip_le text
  have hpart := length_le_of_readPart _hpart
  rw [_hskip, List.length_cons] at hskip
  omega

/-- How deep the parts of a pattern may be nested. -/
def depthLimit : Nat := 250

/-- Reads a pattern. -/
def Pattern.ofText (text : List Char) : Except PatternError Pattern := do
  let reading ← readFrom {} text
  if !reading.opened.isEmpty then .error .unclosedGroup
  else
    let (pattern, depth) := reading.alternatives
    if depthLimit < depth then .error .tooDeep else .ok pattern

end Highlight.Regex
