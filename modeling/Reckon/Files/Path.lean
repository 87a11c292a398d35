import Reckon.Text.Cut

/-!
# Paths

A path names the directories from the root or from the working directory to a file,
with a slash between them.
-/

namespace Reckon.Path

/-- The names between the slashes. -/
def parts (path : String) : List String :=
  (Text.splitChars '/' path.toList).map String.ofList

/-- A path from the root. -/
def isRooted (path : String) : Bool := path.toList.head? = some '/'

/-- Goes one name further, the last of the names so far being the first of the list. -/
def step (rooted : Bool) (taken : List String) (part : String) : List String :=
  if part = "" || part = "." then taken
  else if part = ".." then
    match taken with
    | [] => if rooted then [] else [".."]
    | last :: others => if last = ".." then ".." :: taken else others
  else part :: taken

/-- The path of some names. -/
def ofParts (rooted : Bool) (parts : List String) : String :=
  if rooted then "/" ++ "/".intercalate parts
  else if parts.isEmpty then "."
  else "/".intercalate parts

/-- The names of a path without detours. -/
def cleanParts (path : String) : List String :=
  ((parts path).foldl (step (isRooted path)) []).reverse

/-- The shortest path to the same place. -/
def clean (path : String) : String := ofParts (isRooted path) (cleanParts path)

/-- The path to the last of some places, each seen from the one before it. The empty ones at the front do not count. -/
def join (places : List String) : String :=
  match places.dropWhile (· = "") with
  | [] => ""
  | places => clean ("/".intercalate places)

/-- The directory of a file. -/
def parent (path : String) : String :=
  clean (String.ofList (path.toList.reverse.dropWhile (· ≠ '/')).reverse)

/-- The directories on the way to a directory, the outermost first and itself last. -/
def ancestors (directory : String) : List String :=
  let names := cleanParts directory
  if names.isEmpty then [directory]
  else (List.range names.length).map fun n => ofParts (isRooted directory) (names.take (n + 1))

end Reckon.Path
