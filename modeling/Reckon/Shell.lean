import Reckon.Eval
import Reckon.Shell.Help
import Reckon.Store
import Reckon.Text.Letter
import Reckon.Text.Width

/-!
# The shell

The shell runs one line at a time: a command, an assignment or an expression. What
it defines goes into its context and, if it has one, into its store. A line gives
the text that is printed or an error.
-/

namespace Reckon

/-- Why a line fails. -/
inductive ShellError
  | fault (fault : Fault)
  | usage (usage : String)
  | noStore
  | noVariable (name : String)
  | noFunction (name : String)
  | store (error : StoreError)
  | saving (error : StoreError)

/-- The message of an error. -/
def ShellError.message : ShellError → String
  | fault f => f.message
  | usage text => "usage: " ++ text
  | noStore => "no store is open"
  | noVariable name => "the variable " ++ Text.quote name ++ " does not exist"
  | noFunction name => "the function " ++ Text.quote name ++ " does not exist"
  | store e => e.message
  | saving e => "saving: " ++ e.message

/-- Why the stored definitions cannot be read. -/
inductive LoadError
  | functions (error : StoreError)
  | vars (error : StoreError)
deriving DecidableEq, Repr

/-- The message of an error of loading. -/
def LoadError.message : LoadError → String
  | functions e => "loading functions: " ++ e.message
  | vars e => "loading variables: " ++ e.message

/-- The state of a shell. Without a store nothing is saved, and a muted shell prints nothing. -/
structure Shell where
  context : Context
  store : Option Store
  color : Bool
  muted : Bool

namespace Shell

/-- What a line does: the state after it, what it prints, and why it fails, if it does. -/
structure Outcome where
  shell : Shell
  output : String
  error : Option ShellError

/-- The variable that holds the last result. -/
def ans : String := "ans"

/-! ## Output -/

/-- Every line of a text after a tab. -/
def indent (text : String) : String :=
  String.ofList ('\t' :: text.toList.flatMap fun c => if c = '\n' then ['\n', '\t'] else [c])

/-- A message as it is printed, rendered and with its lines indented. -/
def message (shell : Shell) (text : String) : String :=
  indent (Markup.render text shell.color) ++ "\n"

/-- Succeeds with an output. -/
def print (shell : Shell) (output : String) : Outcome :=
  ⟨shell, if shell.muted then "" else output, none⟩

/-- Succeeds with a message. -/
def say (shell : Shell) (text : String) : Outcome := shell.print (shell.message text)

/-- Fails without an output. -/
def fail (shell : Shell) (error : ShellError) : Outcome := ⟨shell, "", some error⟩

/-! ## Definitions -/

/-- Applies an operation to the store, if there is one. The shell goes on with the store as it is then, also if the
    operation fails. -/
def save (shell : Shell) (operation : Store → Except StoreError Unit × Store) : Except ShellError Unit × Shell :=
  match shell.store with
  | none => (.ok (), shell)
  | some store =>
    match operation store with
    | (.error e, store) => (.error (.saving e), { shell with store := some store })
    | (.ok (), store) => (.ok (), { shell with store := some store })

/-- A deletion for which an entry that is not there counts as deleted. -/
def ignoreNotFound : Except StoreError Unit × Store → Except StoreError Unit × Store
  | (.error .notFound, store) => (.ok (), store)
  | result => result

/-- Evaluates an expression and shows and keeps the result. -/
def evaluate (shell : Shell) (source : String) : Outcome :=
  match shell.context.evalText source with
  | .error e => shell.fail (.fault e)
  | .ok v =>
    let said := shell.say v.text
    match shell.context.defineVariable ans v with
    | .error e => { said with error := some (.fault e) }
    | .ok ctx =>
      let defined := { shell with context := ctx }
      match defined.save fun store => store.setVariable ans v.text with
      | (.error e, unsaved) => { said with shell := unsaved, error := some e }
      | (.ok (), saved) => { said with shell := saved }

/-- Sets a variable to the value of an expression. -/
def assign (shell : Shell) (name source : String) : Outcome :=
  match shell.context.evalText source with
  | .error e => shell.fail (.fault e)
  | .ok v =>
    match shell.context.defineVariable name v with
    | .error e => shell.fail (.fault e)
    | .ok ctx =>
      let defined := { shell with context := ctx }
      match defined.save fun store => store.setVariable name v.text with
      | (.error e, unsaved) => unsaved.fail e
      | (.ok (), saved) => saved.say ("Set " ++ Text.quote name ++ " to " ++ v.text ++ ".")

/-- The name that stands for all definitions. -/
def everything : String := "~"

/-- Deletes a variable or all of them. -/
def deleteVariable (shell : Shell) (name : String) : Outcome :=
  if name = "" then shell.fail (.usage "delvar NAME|~")
  else if name = everything then
    let cleared := { shell with context := shell.context.clearVariables }
    match cleared.save Engine.Store.clearVariables with
    | (.error e, unsaved) => unsaved.fail e
    | (.ok (), saved) => saved.say "Deleted all variables"
  else
    match shell.context.deleteVariable name with
    | .error _ => shell.fail (.noVariable name)
    | .ok ctx =>
      let deleted := { shell with context := ctx }
      match deleted.save fun store => ignoreNotFound (store.deleteVariable name) with
      | (.error e, unsaved) => unsaved.fail e
      | (.ok (), saved) => saved.say ("Deleted " ++ Text.quote name ++ ".")

/-- Deletes a function or all of them. -/
def deleteFunction (shell : Shell) (name : String) : Outcome :=
  if name = "" then shell.fail (.usage "delf NAME|~")
  else if name = everything then
    let cleared := { shell with context := shell.context.clearFunctions }
    match cleared.save Engine.Store.clearFunctions with
    | (.error e, unsaved) => unsaved.fail e
    | (.ok (), saved) => saved.say "Deleted all functions"
  else
    match shell.context.deleteFunction name with
    | .error _ => shell.fail (.noFunction name)
    | .ok ctx =>
      let deleted := { shell with context := ctx }
      match deleted.save fun store => ignoreNotFound (store.deleteFunction name) with
      | (.error e, unsaved) => unsaved.fail e
      | (.ok (), saved) => saved.say ("Deleted " ++ Text.quote name ++ ".")

/-- Defines a function from its name, its parameters and its body. -/
def defineFunction (shell : Shell) (arg : String) : Outcome :=
  let (name, rest) := Text.cut ' ' arg
  let (params, body) := Text.cut ' ' (Text.trim rest)
  let body := Text.trim body
  if name = "" || params = "" || body = "" then shell.fail (.usage "function NAME PARAMS EXPR")
  else
    match shell.context.defineFunction name params body with
    | .error e => shell.fail (.fault e)
    | .ok ctx =>
      let defined := { shell with context := ctx }
      match defined.save fun store => store.setFunction ⟨name, params, body⟩ with
      | (.error e, unsaved) => unsaved.fail e
      | (.ok (), saved) =>
        saved.say
          ("Defined function " ++ name ++ "(" ++ params ++ ")=" ++ Markup.escapeMarkers body)

/-! ## Listings -/

/-- The character of a code without its fraction, or a replacement if there is none. -/
def charOf (code : Float) : Char :=
  let n := (Double.toInt code).toNat
  if code.isNaN || code < 0 || 0x10FFFF < code || (0xD800 ≤ n && n ≤ 0xDFFF) then '\uFFFD'
  else Char.ofNat n

/-- The code that stands for the colour marker. -/
def markerCode : Float := 128

/-- Shows a number as a character and anything else as a message of characters. -/
def display (shell : Shell) (source : String) : Outcome :=
  if source = "" then shell.fail (.usage "display EXPR")
  else
    match shell.context.evalText source with
    | .error e => shell.fail (.fault e)
    | .ok (.number x) => shell.print (String.ofList [charOf x, '\n'])
    | .ok v =>
      shell.say (String.ofList (v.comps.map fun code =>
        if code == markerCode then Markup.marker else charOf code))

/-- Names and their values, one on a line, with the values below each other. -/
def listValues (shell : Shell) (entries : List (String × Value)) : Outcome :=
  let columns := entries.foldl (fun most entry => max most (Text.width entry.1)) 0
  shell.print (String.join (entries.map fun entry =>
    shell.message (Text.padRight (entry.1 ++ ":") (columns + 1) ++ " " ++ entry.2.text)))

/-- The line of the listing for a built-in function. -/
def builtinLine (columns : Nat) (f : Builtin) : String :=
  let signature := f.signature false
  "\t" ++ (if f.summary = "" then signature
    else Text.padRight signature columns ++ "  " ++ f.summary) ++ "\n"

/-- The line of the listing for a function of the user. -/
def userLine (f : Function) : String :=
  "\n\t" ++ f.signature true ++ ": §7" ++ Markup.escapeMarkers f.body ++ "§f"

/-- The built-in functions and those of the user. -/
def listFunctions (shell : Shell) : Outcome :=
  let columns := Builtin.all.foldl (fun most f => max most (Text.width (f.signature false))) 0
  shell.say ("Pre-Defined Functions\n" ++ String.join (Builtin.all.map (builtinLine columns)) ++
    "User-Defined Functions" ++ String.join (shell.context.userFunctions.map userLine))

/-- What the store holds. -/
def dump (shell : Shell) : Outcome :=
  match shell.store with
  | none => shell.fail .noStore
  | some store =>
    match store.dump with
    | .error e => shell.fail (.store e)
    | .ok text => shell.print text

/-! ## Lines -/

/-- The commands. -/
def commands : List String :=
  ["colors", "consts", "delf", "delvar", "display", "dump", "function", "functions", "help", "vars"]

/-- The command of a name, run with its argument. -/
def command? (shell : Shell) (name arg : String) : Option Outcome :=
  match name with
  | "help" => some (shell.say helpText)
  | "colors" => some (shell.say colorsText)
  | "vars" => some (shell.listValues shell.context.vars.entries)
  | "consts" => some (shell.listValues shell.context.constants)
  | "functions" => some shell.listFunctions
  | "dump" => some shell.dump
  | "display" => some (shell.display arg)
  | "delvar" => some (shell.deleteVariable arg)
  | "delf" => some (shell.deleteFunction arg)
  | "function" => some (shell.defineFunction arg)
  | _ => none

/-- Runs a line. A blank line does nothing. -/
def run (shell : Shell) (line : String) : Outcome :=
  let line := Text.trim line
  if line = "" then ⟨shell, "", none⟩
  else
    let (name, arg) := Text.cut ' ' line
    match shell.command? name (Text.trim arg) with
    | some outcome => outcome
    | none =>
      if line.toList.contains '=' then
        let (name, source) := Text.cut '=' line
        shell.assign (Text.trim name) source
      else shell.evaluate line

/-- A character of the name that a line ends with. -/
def isNameEnd (c : Char) : Bool := c = '_' || Text.isLetter c

/-- All names that could complete a line, of which the commands only stand at its start. -/
def knownNames (shell : Shell) (atStart : Bool) : List String :=
  (if atStart then commands else []) ++ Builtin.all.flatMap (fun f => f.names) ++
    shell.context.userFunctions.flatMap Function.names ++ shell.context.vars.names ++
    Name.reserved

/-- The lines that complete the name at the end of a line, in ascending order. -/
def completions (shell : Shell) (line : String) : List String :=
  let reversed := line.toList.reverse
  let word := (reversed.takeWhile isNameEnd).reverse
  let head := (reversed.dropWhile isNameEnd).reverse
  if word.isEmpty then []
  else
    let names := (Table.ofList ((shell.knownNames (head.all Text.isBlank)).map fun name =>
      (name, ()))).names
    (names.filter fun name => word.isPrefixOf name.toList).map fun name =>
      String.ofList head ++ name

/-! ## Loading -/

/-- What loading does: the state after it, what it reports, and why it fails, if it does. -/
structure Loaded where
  shell : Shell
  log : String
  error : Option LoadError

/-- Defines a stored function, or reports why not. -/
def loadFunction (state : Context × String) (f : StoredFunction) : Context × String :=
  match state.1.defineFunction f.name f.params f.body with
  | .ok ctx => (ctx, state.2)
  | .error e =>
    (state.1, state.2 ++ "skipping stored function " ++ f.name ++ ": " ++ e.message ++ "\n")

/-- Defines a stored variable, or reports why not. -/
def loadVariable (state : Context × String) (v : String × String) : Context × String :=
  match (state.1.evalText v.2).bind (state.1.defineVariable v.1) with
  | .ok ctx => (ctx, state.2)
  | .error e =>
    (state.1, state.2 ++ "skipping stored variable " ++ v.1 ++ ": " ++ e.message ++ "\n")

/-- Defines the stored functions and then the stored variables in the context. -/
def load (shell : Shell) : Loaded :=
  let finish (state : Context × String) (error : Option LoadError) : Loaded :=
    ⟨{ shell with context := state.1 }, if shell.muted then "" else state.2, error⟩
  match shell.store with
  | none => finish (shell.context, "") none
  | some store =>
    match store.listFunctions with
    | .error e => finish (shell.context, "") (some (.functions e))
    | .ok functions =>
      let state := functions.foldl loadFunction (shell.context, "")
      match store.listVariables with
      | .error e => finish state (some (.vars e))
      | .ok vars => finish (vars.foldl loadVariable state) none

end Shell

end Reckon
