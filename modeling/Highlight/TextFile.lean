/-!
# Text files

What reading a file gives: its bytes, which may be no text, or the reason why there are none.
-/

namespace Highlight

/-- Why a file gives no text. -/
inductive ReadError where
  | notFound
  | directory
  /-- The bytes are not the UTF-8 form of a text. -/
  | notText
  /-- Another reason that the operating system gives, by its description and its number. -/
  | system (description : String) (code : Nat)
  deriving Repr, DecidableEq, Inhabited

/-- What is said about a file that cannot be read. -/
def ReadError.message : ReadError → String
  | notFound => "No such file or directory (os error 2)"
  | directory => "Is a directory (os error 21)"
  | notText => "stream did not contain valid UTF-8"
  | system description code => s!"{description} (os error {code})"

/-- What reading a file gave. -/
abbrev FileBytes := Except ReadError ByteArray

/-- The text of a file. -/
def FileBytes.text (bytes : FileBytes) : Except ReadError (List Char) := do
  match String.fromUTF8? (← bytes) with
  | some text => .ok text.toList
  | none => .error .notText

/-! ## Lines -/

/-- A line, given from its end to its start, without a carriage return at its end. -/
def finishLine : List Char → List Char
  | '\r' :: line => line.reverse
  | line => line.reverse

/-- The lines of a text of which a part of the first line was read, the last character first. -/
def textLinesFrom (line : List Char) : List Char → List (List Char)
  | [] => if line.isEmpty then [] else [line.reverse]
  | '\n' :: rest => finishLine line :: textLinesFrom [] rest
  | c :: rest => textLinesFrom (c :: line) rest

/-- The lines of a text.  A line ends with a newline, before which a carriage return does not count;
text behind the last newline is a line of its own. -/
def textLines (text : List Char) : List (List Char) :=
  textLinesFrom [] text

theorem textLinesFrom_append {line : List Char} (hline : '\n' ∉ line) (before rest : List Char) :
    textLinesFrom before (line ++ rest) = textLinesFrom (line.reverse ++ before) rest := by
  induction line generalizing before with
  | nil => rfl
  | cons c line ih =>
    rw [List.mem_cons, not_or] at hline
    rw [List.cons_append, textLinesFrom, ih hline.2, List.reverse_cons, List.append_assoc]
    · rfl
    · exact Ne.symm hline.1

theorem finishLine_reverse {line : List Char} (hline : line.getLast? ≠ some '\r') :
    finishLine line.reverse = line := by
  unfold finishLine
  split
  · next rest heq =>
    rw [List.reverse_eq_iff] at heq
    simp [heq] at hline
  · exact List.reverse_reverse line

/-- Lines that are written with a newline behind each are read back. -/
theorem textLines_flatMap {lines : List (List Char)}
    (hlines : ∀ line ∈ lines, '\n' ∉ line ∧ line.getLast? ≠ some '\r') :
    textLines (lines.flatMap fun line => line ++ ['\n']) = lines := by
  unfold textLines
  induction lines with
  | nil => rfl
  | cons line lines ih =>
    obtain ⟨hnewline, hreturn⟩ := hlines line (List.mem_cons_self ..)
    rw [List.flatMap_cons, List.append_assoc, textLinesFrom_append hnewline, List.append_nil,
      List.singleton_append, textLinesFrom, finishLine_reverse hreturn,
      ih fun other hother => hlines other (List.mem_cons_of_mem _ hother)]

end Highlight
