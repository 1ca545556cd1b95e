/-!
# Places: where a path leads

A path is a row of names between slashes, and leads from the root of a file system to the place of a
file.  An empty name and a single dot stay where they are, two dots go one directory up, and every
other name goes one down; the root is above itself.

* `Place.file?` follows the names of a path to a file, through directories that are there;
* `Place.ofPath?` does so for the text of a path that starts at the root.
-/

namespace NoWait.Console

/-- A place in a file system: the names on the way down to it from the root. -/
abbrev Place := List String

namespace Place

/-- The most bytes in a name. -/
def nameLimit : Nat := 255

/-- The most bytes in a path. -/
def pathLimit : Nat := 4095

/-- Where a name leads from a directory. -/
def step (place : Place) (name : String) : Place :=
  if name = "" || name = "." then place
  else if name = ".." then place.dropLast
  else place ++ [name]

/-- Whether a name can be that of a file. -/
def isFileName (name : String) : Bool :=
  ["", ".", ".."].all (· ≠ name) && name.utf8ByteSize ≤ nameLimit

/-- The place of the file to which names lead from a directory, if every directory on the way is
there. -/
def file? (isDirectory : Place → Bool) (place : Place) : List String → Option Place
  | [] => none
  | [name] => if isFileName name then some (place.step name) else none
  | name :: rest =>
    if isDirectory (place.step name) then file? isDirectory (place.step name) rest else none

/-- The place of the file to which a path leads from the root. -/
def ofPath? (isDirectory : Place → Bool) (path : String) : Option Place :=
  if pathLimit < path.utf8ByteSize then none else file? isDirectory [] (path.splitOn "/")

end Place

end NoWait.Console
