import Reckon.Context
import Reckon.Files.Path
import Reckon.Table

/-!
# Layers of settings

A draft has a text or a number for every setting. Choices have them for some, and go
over a draft: what they leave out stays as it is.
-/

namespace Reckon

/-- A setting by its name. -/
inductive Setting
  | store
  | history
  | color
  | prompt
  | depth
deriving DecidableEq, Repr

namespace Setting

/-- All settings. -/
def all : List Setting := [store, history, color, prompt, depth]

/-- What a setting is set to before it is checked. -/
abbrev Value : Setting → Type
  | depth => Int
  | _ => String

end Setting

/-- All settings, not checked yet. -/
structure Draft where
  store : String
  history : String
  color : String
  prompt : String
  depth : Int
deriving DecidableEq, Repr

/-- Some settings. -/
structure Choices where
  store : Option String
  history : Option String
  color : Option String
  prompt : Option String
  depth : Option Int
deriving DecidableEq, Repr

namespace Choices

/-- No setting at all. -/
def empty : Choices := ⟨none, none, none, none, none⟩

/-- What choices say of a setting. -/
def get (choices : Choices) : (s : Setting) → Option s.Value
  | .store => choices.store
  | .history => choices.history
  | .color => choices.color
  | .prompt => choices.prompt
  | .depth => choices.depth

/-- Choices with a value for a setting. -/
def set (choices : Choices) : (s : Setting) → s.Value → Choices
  | .store, text => { choices with store := some text }
  | .history, text => { choices with history := some text }
  | .color, text => { choices with color := some text }
  | .prompt, text => { choices with prompt := some text }
  | .depth, depth => { choices with depth := some depth }

end Choices

namespace Draft

/-- What a draft says of a setting. -/
def get (draft : Draft) : (s : Setting) → s.Value
  | .store => draft.store
  | .history => draft.history
  | .color => draft.color
  | .prompt => draft.prompt
  | .depth => draft.depth

/-- A draft with another value for a setting. -/
def set (draft : Draft) : (s : Setting) → s.Value → Draft
  | .store, text => { draft with store := text }
  | .history, text => { draft with history := text }
  | .color, text => { draft with color := text }
  | .prompt, text => { draft with prompt := text }
  | .depth, depth => { draft with depth := depth }

/-- A draft with the choice for one setting, if there is one. -/
def override (choices : Choices) (draft : Draft) (s : Setting) : Draft :=
  match choices.get s with
  | some value => draft.set s value
  | none => draft

/-- The settings of a draft under those that are chosen, which are visited in any order. -/
def overlay (visit : Visit Setting.all) (draft : Draft) (choices : Choices) : Draft :=
  visit.order.foldl (override choices) draft

/-- The path of a file of the program in the directory of the user's configuration, empty if there is no such
    directory. -/
def place (directory : Option String) (file : String) : String :=
  match directory with
  | none => ""
  | some directory => Path.join [directory, "mathcmd", file]

/-- The settings of a user who chooses nothing. -/
def usual (directory : Option String) : Draft where
  store := place directory "mathcmd.db"
  history := place directory "history"
  color := "auto"
  prompt := "> "
  depth := Context.defaultLimit

/-- The file that is read for settings unless a flag names another. -/
def usualFile (directory : Option String) : String := place directory "config.toml"

end Draft

end Reckon
