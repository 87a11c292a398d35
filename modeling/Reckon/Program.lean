import Reckon.Files.Tree
import Reckon.History
import Reckon.Settings
import Reckon.Settings.File
import Reckon.Shell
import Reckon.Text.Control

/-!
# The program

The program runs the command among its arguments, or without one the lines of its
input. It asks a system for files and for output, so that it runs on a real machine
and on a described one alike.
-/

namespace Reckon

/-- What the program asks of the system around it. -/
structure System (m : Type → Type) where
  /-- The directory of the user's configuration, if there is one. -/
  directory : Option String
  /-- Whether the output goes to a terminal. -/
  terminal : Bool
  /-- The time in milliseconds. -/
  clock : m Int
  /-- Whether a path leads to a directory, or why it leads nowhere. -/
  isDirectory : String → m (Except FileFailure Bool)
  /-- The text of a file. -/
  read : String → m (Except FileFailure String)
  /-- Writes a file. -/
  write : String → String → m (Except FileFailure Unit)
  /-- Makes a directory inside of one that is there. -/
  makeDirectory : String → m (Except FileFailure Unit)
  /-- Prints a text. -/
  print : String → m Unit
  /-- Prints a text among the errors. -/
  report : String → m Unit

namespace Program

/-- What the program holds between two lines. -/
structure Session where
  settings : Settings
  shell : Shell
  history : History

/-- What is left to do once the program has started. -/
inductive Started
  | ended (code : UInt32)
  | command (session : Session) (line : String)
  | lines (session : Session)

variable {m : Type → Type} [Monad m] (system : System m)

/-! ## Files -/

/-- Makes directories that are not there, from the outermost on, or says why it cannot. -/
def makeDirectories : List String → m (Option String)
  | [] => return none
  | path :: paths => do
    match ← system.isDirectory path with
    | .ok true => makeDirectories paths
    | .ok false => return some (FileFailure.notDirectory.message "mkdir" path)
    | .error _ =>
      match ← system.makeDirectory path with
      | .error failure => return some (failure.message "mkdir" path)
      | .ok () => makeDirectories paths

/-- Makes the directory of a file, or says why it cannot. -/
def makeParent (path : String) : m (Option String) :=
  makeDirectories system (Path.ancestors (Path.parent path))

/-- The message of a store that cannot be opened. -/
def openMessage (path : String) (failure : FileFailure) : String :=
  "opening " ++ path ++ ": " ++ failure.message "open" path

/-- Opens the store in a file. -/
def openFile (path file : String) : Except String Store :=
  (Engine.Store.openFile path .listed file).mapError StoreError.message

/-- Opens the store at a path, a new one if there is none, or says why it cannot. -/
def openStore (path : String) : m (Except String Store) := do
  match ← makeParent system path with
  | some message => return .error message
  | none =>
    match ← system.read path with
    | .error .notFound =>
      match openFile path Tables.engine.newFile with
      | .error message => return .error message
      | .ok store =>
        match ← system.write path store.file with
        | .error failure => return .error (openMessage path failure)
        | .ok () => return .ok store
    | .error failure => return .error (openMessage path failure)
    | .ok file => return openFile path file

/-- Writes the store of a session to its file. -/
def saveStore (session : Session) : m Unit := do
  match session.shell.store with
  | none => return ()
  | some store => discard <| system.write session.settings.store store.file

/-- The history in the file of the settings, if it can be read. -/
def readHistory (path : String) : m History := do
  if path = "" then return .empty
  else
    match ← system.read path with
    | .error _ => return .empty
    | .ok text => return .ofText text

/-- Writes the history of a session to its file. -/
def saveHistory (session : Session) : m Unit := do
  let path := session.settings.history
  if path = "" then return ()
  else
    match ← makeParent system path with
    | some message => system.report (message ++ "\n")
    | none =>
      match ← system.write path session.history.text with
      | .error failure => system.report (failure.message "open" path ++ "\n")
      | .ok () => return ()

/-! ## Starting -/

/-- The store of the settings, if there is one and it can be opened. -/
def findStore (settings : Settings) : m (Option Store) := do
  if settings.store = "" then return none
  else
    match ← openStore system settings.store with
    | .error message =>
      system.report ("definitions will not be saved: " ++ message ++ "\n")
      return none
    | .ok store => return some store

/-- Starts with settings and the words of a command. -/
def startWith (settings : Settings) (words : List String) : m Started := do
  let store ← findStore system settings
  let context := (Context.new (← system.clock)).withLimit settings.depth
  let loaded := Shell.load ⟨context, store, settings.color.colors system.terminal, false⟩
  system.report loaded.log
  match loaded.error with
  | some e =>
    system.report (e.message ++ "\n")
    return .ended 1
  | none =>
    let session : Session := ⟨settings, loaded.shell, .empty⟩
    saveStore system session
    if words.isEmpty then
      return .lines { session with history := ← readHistory system settings.history }
    else return .command session (" ".intercalate words)

/-- Starts with the arguments of the program. A bad flag is told before and after the flags are
    explained. -/
def start (args : List String) : m Started := do
  match Flags.parse args with
  | .error .help =>
    system.report (Flags.usage system.directory)
    return .ended 0
  | .error e =>
    system.report (e.message ++ "\n" ++ Flags.usage system.directory ++ Text.endLine e.message)
    return .ended 1
  | .ok flags =>
    let contents ← system.read (flags.file system.directory)
    match Settings.ofFlags (Draft.decoder fun _ => contents) .listed system.directory flags with
    | .error e =>
      system.report (e.message ++ "\n")
      return .ended 1
    | .ok settings => startWith system settings flags.rest

/-! ## Running -/

/-- Runs a line, prints its output or its error, and tells whether it succeeds. -/
def execute (session : Session) (line : String) : m (Session × Bool) := do
  let clock ← system.clock
  let shell := { session.shell with context := { session.shell.context with clock := clock } }
  let outcome := shell.run line
  let session := { session with shell := outcome.shell }
  system.print outcome.output
  saveStore system session
  match outcome.error with
  | none => return (session, true)
  | some e =>
    let message := "\t" ++ e.message
    system.report ((if session.shell.color then Markup.red message else message) ++ "\n")
    return (session, false)

/-- Takes a line of input: a blank one is passed over, another is noted and run. -/
def take (session : Session) (line : String) : m Session := do
  if Text.trim line = "" then return session
  else
    let (session, _) ← execute system { session with history := session.history.add line } line
    return session

/-- A prompt that can be printed. -/
def promptFits (prompt : String) : Bool := !prompt.toList.any Text.isControl

/-- Ends the lines of input. -/
def finish (session : Session) : m Unit := do
  system.print "\n"
  saveHistory system session

/-- Takes lines, each after a prompt, until there are no more. -/
def takeAll (session : Session) : List String → m Session
  | [] => do
    system.print session.settings.prompt
    return session
  | line :: lines => do
    system.print session.settings.prompt
    takeAll (← take system session line) lines

/-- Takes all lines of an input, unless the prompt before them cannot be printed. -/
def converse (session : Session) (lines : List String) : m Unit := do
  if promptFits session.settings.prompt then finish system (← takeAll system session lines)
  else
    system.report "invalid prompt\n"
    finish system session

/-- Runs the program with its arguments and the lines of its input, and gives its exit code. -/
def run (args lines : List String) : m UInt32 := do
  match ← start system args with
  | .ended code => return code
  | .command session line =>
    let (_, succeeds) ← execute system session line
    return if succeeds then 0 else 1
  | .lines session =>
    converse system session lines
    return 0

end Program

end Reckon
