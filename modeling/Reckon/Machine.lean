import Reckon.Program

/-!
# Described machines

A machine with a tree of files on which the program runs without any effect: what
it prints and writes is part of the machine afterwards.
-/

namespace Reckon

/-- The files of a machine and what was printed on it. -/
structure Machine where
  files : FileTree
  output : String
  errors : String

namespace Machine

/-- A machine on which nothing was printed. -/
def new (files : FileTree) : Machine := ⟨files, "", ""⟩

/-- Changes the files, unless that fails. -/
def change (operation : FileTree → Except FileFailure FileTree) :
    StateM Machine (Except FileFailure Unit) :=
  fun machine =>
    match operation machine.files with
    | .error e => (.error e, machine)
    | .ok files => (.ok (), { machine with files := files })

/-- The system of machines with a working directory, a directory for configuration and a clock
    that stands still. -/
def system (working directory : String) (clock : Int) : System (StateM Machine) where
  directory := some directory
  terminal := false
  clock := return clock
  isDirectory path := fun machine =>
    (match machine.files.lookup working path with
      | .error e => .error e
      | .ok node => .ok (node = .directory), machine)
  read path := fun machine => (machine.files.read working path, machine)
  write path text := change fun files => files.write working path text
  makeDirectory path := change fun files => files.makeDirectory working path
  print text := modify fun machine => { machine with output := machine.output ++ text }
  report text := modify fun machine => { machine with errors := machine.errors ++ text }

end Machine

/-- How a run of the program ends: its exit code, what it prints, and the files after it. -/
structure Report where
  code : UInt32
  output : String
  errors : String
  files : FileTree

/-- Runs the program on described files with its arguments and its input, in a directory that
    is also that of the user's configuration. -/
def Program.runOn (files : FileTree) (directory : String) (clock : Int) (args : List String)
    (input : String) : Report :=
  let lines := (Text.pieces input).map fun piece => piece.text
  let (code, machine) := Program.run (Machine.system directory directory clock) args lines
    (Machine.new files)
  ⟨code, machine.output, machine.errors, machine.files⟩

end Reckon
