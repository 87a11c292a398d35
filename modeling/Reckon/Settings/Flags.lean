import Reckon.Settings.Draft
import Reckon.Text.Integer
import Reckon.Text.Quoted

/-!
# Flags

The arguments of a command begin with flags, each with a value: `-name value` or
`-name=value`, with one dash or two. The first argument that is no flag ends them, and
so does `--`.
-/

namespace Reckon

/-- The flags. -/
inductive Flag
  | color
  | config
  | depth
  | history
  | prompt
  | store
deriving DecidableEq, Repr

/-- Why the flags cannot be read. -/
inductive FlagError
  | malformed (arg : String)
  | unknown (name : String)
  | noValue (flag : Flag)
  | badValue (flag : Flag) (value : String) (fault : Text.IntegerFault)
  | help
deriving DecidableEq, Repr

namespace Flag

/-- All flags in order of their names. -/
def all : List Flag := [color, config, depth, history, prompt, store]

/-- The name of a flag. -/
def name : Flag → String
  | color => "color"
  | config => "config"
  | depth => "depth"
  | history => "history"
  | prompt => "prompt"
  | store => "store"

/-- The flag of a name. -/
def ofName? (name : String) : Option Flag := all.find? fun flag => flag.name = name

/-- What a flag is for. -/
def purpose : Flag → String
  | color => "colored output: auto, always, or never"
  | config => "TOML configuration file"
  | depth => "maximum evaluation depth"
  | history => "REPL history file (empty for no history)"
  | prompt => "REPL prompt"
  | store => "database of saved variables and functions (empty to not save)"

/-- The kind of the value of a flag. -/
def valueKind : Flag → String
  | depth => "int"
  | _ => "string"

/-- The setting that a flag is for. -/
def setting? : Flag → Option Setting
  | color => some .color
  | config => none
  | depth => some .depth
  | history => some .history
  | prompt => some .prompt
  | store => some .store

/-- A text that a flag has unless it is given, as it is shown. An empty one is not. -/
def shownText (text : String) : String := if text = "" then "" else " (default " ++ Text.quote text ++ ")"

/-- The value that a flag has unless it is given, as it is shown. -/
def usualValue (directory : Option String) (flag : Flag) : String :=
  let usual := Draft.usual directory
  match flag with
  | color => shownText usual.color
  | config => shownText (Draft.usualFile directory)
  | depth => " (default " ++ toString usual.depth ++ ")"
  | history => shownText usual.history
  | prompt => shownText usual.prompt
  | store => shownText usual.store

/-- The lines that explain a flag. -/
def usage (directory : Option String) (flag : Flag) : String :=
  "  -" ++ flag.name ++ " " ++ flag.valueKind ++ "\n    \t" ++ flag.purpose ++ flag.usualValue directory ++ "\n"

end Flag

/-- What the text of a flag sets a setting to. -/
def Setting.ofText : (s : Setting) → String → Except Text.IntegerFault s.Value
  | depth, text => Text.readInteger text
  | store, text | history, text | color, text | prompt, text => .ok text

/-- The message of an error. -/
def FlagError.message : FlagError → String
  | malformed arg => "bad flag syntax: " ++ arg
  | unknown name => "flag provided but not defined: -" ++ name
  | noValue flag => "flag needs an argument: -" ++ flag.name
  | badValue flag value fault =>
    "invalid value " ++ Text.quote value ++ " for flag -" ++ flag.name ++ ": " ++
      (match fault with
      | .malformed => "parse error"
      | .outOfRange => "value out of range")
  | help => "flag: help requested"

/-- What the arguments of a command say: the file with settings, the settings themselves, and
    the arguments that are left. -/
structure Flags where
  config : Option String
  choices : Choices
  rest : List String
deriving DecidableEq, Repr

namespace Flags

/-- The explanation of all flags. -/
def usage (directory : Option String) : String :=
  "Usage of mathcmd:\n" ++ String.join (Flag.all.map (Flag.usage directory))

/-- No flags and no arguments. -/
def empty : Flags := ⟨none, .empty, []⟩

/-- Gives a flag its value, instead of one that it had. -/
def set (flags : Flags) (flag : Flag) (value : String) : Except FlagError Flags :=
  match flag.setting? with
  | none => .ok { flags with config := some value }
  | some s =>
    match s.ofText value with
    | .error fault => .error (.badValue flag value fault)
    | .ok chosen => .ok { flags with choices := flags.choices.set s chosen }

/-- An argument by its shape: one that ends the flags and is left, one that only ends them, or
    what follows the dashes of a flag. -/
inductive Shape
  | plain
  | ending
  | dashed (word : List Char)
deriving DecidableEq, Repr

/-- The shape of an argument. -/
def shape (arg : String) : Shape :=
  match arg.toList with
  | ['-', '-'] => .ending
  | '-' :: '-' :: word => .dashed word
  | '-' :: c :: word => .dashed (c :: word)
  | _ => .plain

/-- A word that no name can begin. -/
def isNameless (word : List Char) : Bool :=
  match word with
  | [] => true
  | c :: _ => c = '-' || c = '='

/-- The name in a word and the value after its equals sign, if it has one. -/
def splitWord (word : List Char) : String × Option String :=
  (String.ofList (word.takeWhile (· ≠ '=')),
    match word.dropWhile (· ≠ '=') with
    | [] => none
    | _ :: value => some (String.ofList value))

/-- The flag of a name. Two names that are no flags ask for help. -/
def flag (name : String) : Except FlagError Flag :=
  match Flag.ofName? name with
  | some flag => .ok flag
  | none => if name = "help" || name = "h" then .error .help else .error (.unknown name)

/-- Reads arguments after flags that have been read. -/
def parseAfter (flags : Flags) : List String → Except FlagError Flags
  | [] => .ok { flags with rest := [] }
  | arg :: args =>
    match shape arg with
    | .plain => .ok { flags with rest := arg :: args }
    | .ending => .ok { flags with rest := args }
    | .dashed word =>
      if isNameless word then .error (.malformed arg)
      else
        let (name, value?) := splitWord word
        match flag name with
        | .error e => .error e
        | .ok flag =>
          match value?, args with
          | some value, args =>
            match flags.set flag value with
            | .error e => .error e
            | .ok flags => parseAfter flags args
          | none, value :: args =>
            match flags.set flag value with
            | .error e => .error e
            | .ok flags => parseAfter flags args
          | none, [] => .error (.noValue flag)

/-- Reads the arguments of a command. -/
def parse (args : List String) : Except FlagError Flags := parseAfter empty args

/-- The file to read for settings, given the directory of the user's configuration. -/
def file (flags : Flags) (directory : Option String) : String :=
  flags.config.getD (Draft.usualFile directory)

end Flags

end Reckon
