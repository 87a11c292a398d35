import Reckon.Program
import Std.Time.DateTime.Timestamp

/-!
# The command

The program on the machine that runs it.
-/

namespace Reckon.Command

/-- The failure that an error of the machine stands for. -/
def failure : IO.Error → FileFailure
  | .noFileOrDirectory .. => .notFound
  | .inappropriateType .. => .notDirectory
  | e => .other e.toString

/-- An action on files, with its error as a failure. -/
def attempt {α : Type} (action : IO α) : IO (Except FileFailure α) := do
  try return .ok (← action)
  catch e => return .error (failure e)

/-- Whether a path leads to a directory. -/
def isDirectory (path : String) : IO (Except FileFailure Bool) :=
  attempt do (← IO.FS.realPath path).isDir

/-- Does something to a file, but not to a directory. -/
def onFile {α : Type} (path : String) (action : IO α) : IO (Except FileFailure α) := do
  match ← isDirectory path with
  | .ok true => return .error .isDirectory
  | _ => attempt action

/-- The directory of the user's configuration, unless the machine has none or names it by a relative path. -/
def configuration : IO (Option String) := do
  let directory := (← IO.getEnv "XDG_CONFIG_HOME").getD ""
  let home := (← IO.getEnv "HOME").getD ""
  if directory ≠ "" then return if Path.isRooted directory then some directory else none
  else if home ≠ "" then return some (home ++ "/.config")
  else return none

/-- The system of the machine. -/
def system : IO (System IO) := do
  let stdout ← IO.getStdout
  let stderr ← IO.getStderr
  return {
    directory := ← configuration
    terminal := ← stdout.isTty
    clock := return (← Std.Time.Timestamp.now).toMillisecondsSinceUnixEpoch.val
    isDirectory := isDirectory
    read := fun path => onFile path (IO.FS.readFile path)
    write := fun path text => onFile path (IO.FS.writeFile path text)
    makeDirectory := fun path => attempt (IO.FS.createDir path)
    print := fun text => do stdout.putStr text; stdout.flush
    report := fun text => stderr.putStr text }

/-- Takes the lines of the input as they come. -/
partial def converse (system : System IO) (session : Program.Session) : IO Program.Session := do
  system.print session.settings.prompt
  let line ← (← IO.getStdin).getLine
  match Text.pieces line with
  | [] => return session
  | piece :: pieces =>
    let session ← Program.take system session piece.text
    converse system (← pieces.foldlM (fun session piece => do
      system.print session.settings.prompt
      Program.take system session piece.text) session)

/-- Runs the command of the arguments, or else the lines of the input. -/
def run (args : List String) : IO UInt32 := do
  let system ← system
  match ← Program.start system args with
  | .ended code => return code
  | .command session line =>
    let (_, succeeds) ← Program.execute system session line
    return if succeeds then 0 else 1
  | .lines session =>
    if Program.promptFits session.settings.prompt then
      Program.finish system (← converse system session)
    else
      Program.converse system session []
    return 0

end Reckon.Command

/-- The command with its arguments. -/
def main (args : List String) : IO UInt32 := Reckon.Command.run args
