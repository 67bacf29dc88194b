import LabelScheduler.Scenario.File

/-!
# Paths and the working directory

A path is a list of names, from the working directory or from the root. The working directory is
given by the files in it, and nothing is known of what lies outside. No name may be longer than 255
bytes, and no path may reach 4096.
-/

namespace LabelScheduler.CommandLine

/-- The names in a path, without redundant ones. -/
def pathNames (path : String) : List String :=
  ((Text.piecesAt '/' path.toList).filter fun p => !p.isEmpty && p != ['.']).map String.ofList

/-- How a path begins: with nothing, with the root, or with the root written twice. -/
def pathRoot (path : String) : String :=
  match path.toList.takeWhile (· = '/') with
  | [] => ""
  | ['/', '/'] => "//"
  | _ => "/"

/-- A path without redundant names; the empty path is the working directory. -/
def normalPath (path : String) : String :=
  let joined := pathRoot path ++ "/".intercalate (pathNames path)
  if joined.isEmpty then "." else joined

/-- The files of the working directory, by name. -/
abbrev Directory := String → Option (List UInt8)

namespace Directory

/-- The number of bytes that a name may have. -/
def nameLimit : Nat := 255

/-- The number of bytes at which a path is too long. -/
def pathLimit : Nat := 4096

/-- What is found under names, from the working directory or, if `outside`, from beyond it. -/
def findNames (d : Directory) : (outside : Bool) → List String → File
  | _, [] => .directory
  | outside, n :: ns =>
    if n = ".." then d.findNames true ns
    else if nameLimit < n.utf8ByteSize then .nameTooLong
    else if outside then .missing
    else
      match d n, ns with
      | some content, [] => .bytes content
      | _, _ => .missing

/-- What is found under a path. -/
def find (d : Directory) (path : String) : File :=
  if path.toList.contains '\x00' then .missing
  else if pathLimit ≤ path.utf8ByteSize then .nameTooLong
  else d.findNames (pathRoot path ≠ "") (pathNames path)

end Directory

end LabelScheduler.CommandLine
