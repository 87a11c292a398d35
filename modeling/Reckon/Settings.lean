import Reckon.Settings.Decoder
import Reckon.Settings.Flags

/-!
# Settings

The settings of the program come from three layers: the usual ones, those of a file
over them, and those of flags over both. They are checked once all layers are in
place, so that a bad setting is harmless where a later layer has another.
-/

namespace Reckon

/-- When output is coloured. -/
inductive ColorMode
  | auto
  | always
  | never
deriving DecidableEq, Repr

namespace ColorMode

/-- The word for a mode. -/
def text : ColorMode → String
  | auto => "auto"
  | always => "always"
  | never => "never"

/-- The mode of a word. -/
def ofText? (text : String) : Option ColorMode :=
  [auto, always, never].find? fun mode => mode.text = text

/-- Output is coloured always, never, or if it goes to a terminal. -/
def colors (mode : ColorMode) (terminal : Bool) : Bool :=
  match mode with
  | auto => terminal
  | always => true
  | never => false

end ColorMode

/-- The settings of the program. An empty path stands for no file. -/
structure Settings where
  store : String
  history : String
  color : ColorMode
  prompt : String
  depth : Nat
  depth_pos : 0 < depth

/-- Why there are no settings. -/
inductive SettingsError
  | flag (error : FlagError)
  | reading (path : String) (error : DecodeError)
  | unknown (path : String) (key : Toml.Key)
  | badColor (color : String)
  | badDepth (depth : Int)
deriving DecidableEq, Repr

/-- The message of an error. -/
def SettingsError.message : SettingsError → String
  | flag error => error.message
  | reading path error => "reading config: " ++ error.message path
  | unknown path key => path ++ ": unknown setting " ++ Toml.keyText key
  | badColor color => "color must be auto, always, or never, not " ++ Text.quote color
  | badDepth depth => "depth (" ++ toString depth ++ ") must be positive"

namespace Settings

/-- The settings of a draft. -/
def ofDraft (draft : Draft) : Except SettingsError Settings :=
  match ColorMode.ofText? draft.color with
  | none => .error (.badColor draft.color)
  | some color =>
    if h : 0 < draft.depth then
      .ok ⟨draft.store, draft.history, color, draft.prompt, draft.depth.toNat, by omega⟩
    else .error (.badDepth draft.depth)

/-- Decodes the file at a path over a draft. There is no file at the empty path, and a file need not be there unless it
    is `required`. A key that no setting has is an error. -/
def ofFile (decode : Decoder) (path : String) (required : Bool) (draft : Draft) : Except SettingsError Draft :=
  if path = "" then .ok draft
  else
    match decode path draft with
    | (.error e, draft) => if e.isNotFound && !required then .ok draft else .error (.reading path e)
    | (.ok [], draft) => .ok draft
    | (.ok (key :: _), _) => .error (.unknown path key)

/-- The settings of flags over those of the file that they name, over the usual ones. What the flags choose is visited
    in any order. -/
def ofFlags (decode : Decoder) (visit : Visit Setting.all) (directory : Option String) (flags : Flags) :
    Except SettingsError Settings :=
  match ofFile decode (flags.file directory) flags.config.isSome (Draft.usual directory) with
  | .error e => .error e
  | .ok draft => ofDraft (draft.overlay visit flags.choices)

/-- The settings for the arguments of a command and the arguments that are left, given the directory of the user's
    configuration, if there is one. -/
def resolve (decode : Decoder) (visit : Visit Setting.all) (directory : Option String) (args : List String) :
    Except SettingsError (Settings × List String) :=
  match Flags.parse args with
  | .error e => .error (.flag e)
  | .ok flags =>
    match ofFlags decode visit directory flags with
    | .error e => .error e
    | .ok settings => .ok (settings, flags.rest)

end Settings

end Reckon
