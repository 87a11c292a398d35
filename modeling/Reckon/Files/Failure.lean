/-!
# Failures of files

Why a file cannot be used, and how the failure is told.
-/

namespace Reckon

/-- Why a file or a directory cannot be used. -/
inductive FileFailure
  | notFound
  | notDirectory
  | isDirectory
  | other (reason : String)
deriving DecidableEq, Repr

/-- The reason in words. -/
def FileFailure.reason : FileFailure → String
  | notFound => "no such file or directory"
  | notDirectory => "not a directory"
  | isDirectory => "is a directory"
  | other reason => reason

/-- The message of a failure to do something with a path. -/
def FileFailure.message (failure : FileFailure) (action path : String) : String :=
  action ++ " " ++ path ++ ": " ++ failure.reason

/-- The message of a failure to read a file. A directory can be opened and then not read. -/
def FileFailure.readMessage (failure : FileFailure) (path : String) : String :=
  failure.message (if failure = .isDirectory then "read" else "open") path

end Reckon
