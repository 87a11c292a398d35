import Reckon.Files.Failure
import Reckon.Files.Path

/-!
# Trees of files

Directories and the texts of files, by the names on the way from the root.
-/

namespace Reckon

/-- A directory or a file with its text. -/
inductive FileNode
  | directory
  | file (text : String)
deriving DecidableEq, Repr

/-- The nodes by their places. -/
structure FileTree where
  nodes : List (List String × FileNode)

namespace FileTree

/-- The root alone. -/
def empty : FileTree := ⟨[]⟩

/-- What is at a place. The root is a directory. -/
def node? (tree : FileTree) (place : List String) : Option FileNode :=
  if place.isEmpty then some .directory else tree.nodes.lookup place

/-- Puts a node at a place. -/
def put (tree : FileTree) (place : List String) (node : FileNode) : FileTree :=
  ⟨(place, node) :: tree.nodes.filter fun entry => entry.1 ≠ place⟩

/-- Follows names from a place. All but the last must lead to a directory. -/
def walk (tree : FileTree) (place : List String) : List String → Except FileFailure (List String)
  | [] => .ok place
  | part :: parts =>
    match tree.node? place with
    | none => .error .notFound
    | some (.file _) => .error .notDirectory
    | some .directory =>
      if part = "" || part = "." then tree.walk place parts
      else if part = ".." then tree.walk place.dropLast parts
      else tree.walk (place ++ [part]) parts

/-- The place of a path, which starts at the working directory unless it is rooted. -/
def place (tree : FileTree) (working path : String) : Except FileFailure (List String) :=
  if path = "" then .error .notFound
  else tree.walk (if Path.isRooted path then [] else Path.cleanParts working) (Path.parts path)

/-- What is at a path. -/
def lookup (tree : FileTree) (working path : String) : Except FileFailure FileNode :=
  match tree.place working path with
  | .error e => .error e
  | .ok place =>
    match tree.node? place with
    | none => .error .notFound
    | some node => .ok node

/-- The text of the file at a path. -/
def read (tree : FileTree) (working path : String) : Except FileFailure String :=
  match tree.lookup working path with
  | .error e => .error e
  | .ok .directory => .error .isDirectory
  | .ok (.file text) => .ok text

/-- Writes a file, whose directory must be there. -/
def write (tree : FileTree) (working path text : String) : Except FileFailure FileTree :=
  match tree.lookup working path with
  | .ok .directory => .error .isDirectory
  | _ =>
    match tree.place working path with
    | .error e => .error e
    | .ok place =>
      match tree.node? place.dropLast with
      | some .directory => .ok (tree.put place (.file text))
      | some (.file _) => .error .notDirectory
      | none => .error .notFound

/-- Makes a directory inside of one that is there. -/
def makeDirectory (tree : FileTree) (working path : String) : Except FileFailure FileTree :=
  match tree.place working path with
  | .error e => .error e
  | .ok place => .ok (tree.put place .directory)

end FileTree

end Reckon
