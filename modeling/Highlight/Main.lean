import Highlight.CommandLine

/-!
# The program

The surroundings of the command line on a real system.
-/

namespace Highlight.Main

/-- The number of an error of the operating system, which may be given as a negative number. -/
def errorNumber (code : UInt32) : Nat :=
  if code.toNat < 0x80000000 then code.toNat else 0x100000000 - code.toNat

/-- An error of the operating system by its number and its description. -/
def systemError (code : UInt32) (description : String) : ReadError :=
  match errorNumber code with
  | 2 => .notFound
  | 21 => .directory
  | number => .system description.capitalize number

/-- The reason for an operation that failed. -/
def readError : IO.Error → ReadError
  | .noFileOrDirectory .. => .notFound
  | .inappropriateType _ code description | .permissionDenied _ code description
  | .invalidArgument _ code description | .otherError code description =>
    systemError code description
  | error => .system error.toString 5

/-- What an operation reads, or why it fails. -/
def attempt (operation : IO ByteArray) : IO FileBytes :=
  try
    return .ok (← operation)
  catch error =>
    return .error (readError error)

/-- Reads all of a file. -/
def readFile (path : String) : IO FileBytes :=
  attempt (IO.FS.readBinFile path)

/-- The path of a file in a directory.  The empty path is that of the working directory. -/
def pathIn (directory name : String) : String :=
  if directory.isEmpty || directory.endsWith "/" then directory ++ name
  else directory ++ "/" ++ name

/-- Reads the settings file in the home directory. -/
def readSettings : IO FileBytes := do
  match ← IO.getEnv "HOME" with
  | some home => readFile (pathIn home CommandLine.settingsFile)
  | none => return .error .notFound

/-- The system. -/
def surroundings : CommandLine.Surroundings IO where
  settingsBytes := readSettings
  fileBytes := readFile
  inputBytes := do attempt (← IO.getStdin).readBinToEnd
  terminal := do (← IO.getStdout).isTty

end Highlight.Main

/-- Runs the program on the system. -/
def main (arguments : List String) : IO UInt32 := do
  let outcome ← Highlight.CommandLine.run arguments Highlight.Main.surroundings
  IO.print outcome.output
  IO.eprint outcome.diagnostics
  return outcome.code.toUInt32
