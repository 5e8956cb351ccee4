import ChipEight.Text.Quoted

/-!
# Why a program cannot be loaded

A file may be out of reach, and a program may be longer than the memory above its start.
-/

namespace ChipEight

open Text

/-- Why a file cannot be read. -/
inductive ReadFault where
  | missing
  /-- Something on the way to the file is no directory. -/
  | notADirectory
  | isADirectory
  /-- Any other error of the system that keeps the file from being opened, with its number. -/
  | other (number : Nat) (text : String)
  /-- An error behind the opening, which does not name the file any more. -/
  | interrupted (number : Nat) (text : String)
  deriving DecidableEq, Repr

/-- The number of the error and what it is called. -/
def ReadFault.cause : ReadFault → Nat × String
  | .missing => (2, "No such file or directory")
  | .notADirectory => (20, "Not a directory")
  | .isADirectory => (21, "Is a directory")
  | .other number text | .interrupted number text => (number, text)

/-- Whether the error names the file. -/
def ReadFault.namesFile : ReadFault → Bool
  | .interrupted _ _ => false
  | _ => true

/-- What is said of the file at a path. -/
def ReadFault.message (e : ReadFault) (path : String) : String :=
  "[Errno " ++ toString e.cause.1 ++ "] " ++ e.cause.2 ++
    if e.namesFile then ": " ++ quoted path else ""

/-- The number of bytes between the start of a program and the end of memory. -/
abbrev programLimit : Nat := 3584

inductive LoadFault where
  | tooLong (size : Nat)
  | fileTooLong (path : String) (size : Nat)
  | unreadable (path : String) (cause : ReadFault)
  /-- The path holds the character that ends paths. -/
  | badPath
  deriving DecidableEq, Repr

def LoadFault.message : LoadFault → String
  | .tooLong size =>
    "Program is " ++ toString size ++ " bytes, only " ++ toString programLimit ++
      " fit above 0x200"
  | .fileTooLong path size =>
    "ROM '" ++ path ++ "' is " ++ toString size ++ " bytes (max " ++ toString programLimit ++ ")"
  | .unreadable path cause =>
    "Cannot read ROM '" ++ path ++ "': " ++ cause.message path
  | .badPath => "embedded null byte"

end ChipEight
