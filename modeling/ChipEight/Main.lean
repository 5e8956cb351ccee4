import ChipEight.CommandLine.Run

/-!
# The program

Reads the file that the command line names, runs the command line and prints what it gives. There
is no window to open.
-/

open ChipEight CommandLine

namespace ChipEight.Program

/-- Why the system could not read a file. -/
def faultOf : IO.Error → ReadFault
  | .noFileOrDirectory _ _ _ => .missing
  | .inappropriateType _ 21 _ => .isADirectory
  | .inappropriateType _ _ _ => .notADirectory
  | .permissionDenied _ _ _ => .other 13 "Permission denied"
  | .hardwareFault code _ => .interrupted code.toNat "Input/output error"
  | e => .other 5 (toString e)

def readFile (path : String) : BaseIO (Except ReadFault (List UInt8)) := do
  match ← EIO.toBaseIO (IO.FS.readBinFile path) with
  | .ok content => return .ok content.toList
  | .error e => return .error (faultOf e)

/-- The content of the file that the arguments name, if they can be read at all. -/
def contentFor (args : List String) : BaseIO (Except ReadFault (List UInt8)) :=
  match CommandLine.read args with
  | .ok q => readFile q.file
  | .error _ => return .error .missing

def crashMessage : Crash → String
  | .load e => e.message
  | .machine e => e.message
  | .window (.machine e) => e.message
  | .window (.tone e) => e.message
  | .window (.picture e) => e.message
  | .window (.refused _ reason) => reason

/-- Prints a result. The answer is the status of the program. -/
def present (r : Result) : IO UInt32 := do
  IO.print (printed r.out)
  IO.eprint (printed r.err)
  match r.ending with
  | .returned status | .dismissed status => return status.toUInt32
  | .crashed c =>
    IO.eprintln (crashMessage c)
    return 1

end ChipEight.Program

def main (args : List String) : IO UInt32 := do
  let content ← Program.contentFor args
  let seed ← IO.rand 0 0xFFFFFFFFFFFFFFFF
  Program.present (run args ⟨fun _ => content, .error noWindow, seed⟩)
