import Reshape.Text.Splitting

/-! Files as they are found by their paths. A path is walked part by part from
the directory that holds the files: a point alone stays where it is, two points
lead to the directory above, and a name leads to what has that name. Only at a
file does the walk give a text, and only as the end of the path. -/
namespace Reshape.CommandLine

/-- Why a file cannot be read. -/
inductive ReadError where
  | absent
  | denied
  /-- The path goes on behind a file. -/
  | notDirectory
  /-- The path ends at a directory. -/
  | isDirectory
  | nameTooLong
  /-- What the file holds is no text. -/
  | notText
  | other (cause : String)
deriving DecidableEq, Repr

/-- The text of an error. -/
def ReadError.cause : ReadError → String
  | .absent => "No such file or directory (os error 2)"
  | .denied => "Permission denied (os error 13)"
  | .notDirectory => "Not a directory (os error 20)"
  | .isDirectory => "Is a directory (os error 21)"
  | .nameTooLong => "File name too long (os error 36)"
  | .notText => "stream did not contain valid UTF-8"
  | .other cause => cause

/-- Some files by name, and nothing else. A name with slashes stands for a file
in a directory below. -/
abbrev Files := List (String × String)

/-- The parts of a path between its slashes. -/
def pathParts (path : String) : List String :=
  (Text.parts '/' path.toList).map String.ofList

/-- Where a walk has come to. -/
inductive Place where
  /-- A directory above the one that holds the files. -/
  | above
  /-- What these names lead to, from the directory that holds the files. -/
  | below (names : List String)
deriving DecidableEq, Repr

/-- The directory that a directory is in. Above the files, there is always
another one. -/
def Place.parent : Place → Place
  | .above | .below [] => .above
  | .below names => .below names.dropLast

namespace Files

/-- The text of the file at a place, if a file is there. -/
def text? (files : Files) : Place → Option String
  | .above => none
  | .below names =>
    (files.find? fun (name, _) => pathParts name = names).map (·.2)

/-- The place with a name in a directory, if there is one. Of what else is in
the directories above, nothing is known. -/
def child? (files : Files) (name : String) : Place → Option Place
  | .above => none
  | .below names =>
    let names := names ++ [name]
    if files.any fun (name, _) => names.isPrefixOf (pathParts name) then some (.below names)
    else none

/-- The longest name in bytes. -/
def longestName : Nat := 255

/-- The longest path in bytes. -/
def longestPath : Nat := 4095

/-- Reads the file to which the parts of a path lead from a place. -/
def readFrom (files : Files) : Place → (parts : List String) → Except ReadError String
  | place, [] =>
    match files.text? place with
    | some text => .ok text
    | none => .error .isDirectory
  | place, part :: rest =>
    if (files.text? place).isSome then .error .notDirectory
    else if part = "" ∨ part = "." then files.readFrom place rest
    else if part = ".." then files.readFrom place.parent rest
    else if longestName < part.utf8ByteSize then .error .nameTooLong
    else match files.child? part place with
      | some place => files.readFrom place rest
      | none => .error .absent

/-- Reads the file at a path. One that starts with a slash starts above. -/
def read (files : Files) (path : String) : Except ReadError String :=
  if longestPath < path.utf8ByteSize then .error .nameTooLong
  else match pathParts path with
    | "" :: parts => files.readFrom .above parts
    | parts => files.readFrom (.below []) parts

end Files
end Reshape.CommandLine
