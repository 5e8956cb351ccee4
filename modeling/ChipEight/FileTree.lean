import ChipEight.LoadFault

/-!
# Files

To a program, the files of its host are a function from paths to contents. A path is a text; a host
may have files whose names are bytes that no text stands for, and these have no path here.
`FileTree.read` is that function for a tree of named files and directories under the working
directory. Above it lie directories of which nothing else is known.
-/

namespace ChipEight

/-- What reading a path gives. -/
abbrev Files := String → Except ReadFault (List UInt8)

structure FileTree where
  files : List (String × List UInt8)
  directories : List String

namespace FileTree

/-- The names between the slashes of a path, without those that stay where they are. -/
def names (path : String) : List String :=
  (path.splitOn "/").filter fun name => name ≠ "" && name ≠ "."

/-- The content of the file with the given names. -/
def file? (t : FileTree) (location : List String) : Option (List UInt8) :=
  (t.files.findRev? fun entry => names entry.1 = location).map (·.2)

/-- Whether the names lead to a directory, be it only because something lies in it. -/
def isDirectory (t : FileTree) (location : List String) : Bool :=
  (t.directories.any fun name => location.isPrefixOf (names name)) ||
    (t.files.any fun entry => location.isPrefixOf (names entry.1) && location ≠ names entry.1)

/-- The directory above, `none` being any directory above the working directory. -/
def parent : Option (List String) → Option (List String)
  | none => none
  | some [] => none
  | some here => some here.dropLast

/-- Follows names from a directory, which is given by its own names. -/
def follow (t : FileTree) (here : Option (List String)) :
    List String → Except ReadFault (List UInt8)
  | [] => .error .isADirectory
  | name :: rest =>
    if name = "" ∨ name = "." then t.follow here rest
    else if name = ".." then t.follow (parent here) rest
    else
      match here with
      | none => .error .missing
      | some here =>
        let there := here ++ [name]
        match t.file? there with
        | some content => if rest = [] then .ok content else .error .notADirectory
        | none => if t.isDirectory there then t.follow (some there) rest else .error .missing

/-- The content of the file at a path. -/
def read (t : FileTree) : Files := fun path =>
  if path = "" then .error .missing
  else if path.startsWith "/" then
    if names path = [] then .error .isADirectory else .error .missing
  else t.follow (some []) (path.splitOn "/")

end FileTree

end ChipEight
