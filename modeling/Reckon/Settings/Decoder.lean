import Reckon.Files.Failure
import Reckon.Settings.Draft
import Reckon.Toml.Document

/-!
# Decoders

A decoder reads a file of settings over a draft. Each setting has a key, and the
decoder tells which keys of the file no setting has.
-/

namespace Reckon

/-- Why a file of settings cannot be decoded. -/
inductive DecodeError
  | unreadable (failure : FileFailure)
  | malformed
  | badKind (key : Toml.Key)
deriving DecidableEq, Repr

namespace DecodeError

/-- The file is not there. -/
def isNotFound : DecodeError → Bool
  | unreadable failure => failure = .notFound
  | _ => false

/-- The message of an error with the file at a path. -/
def message (path : String) : DecodeError → String
  | unreadable failure => failure.readMessage path
  | malformed => path ++ " is not a TOML document"
  | badKind key => "the setting " ++ Toml.keyText key ++ " has a value of the wrong kind"

end DecodeError

namespace Setting

/-- The key of a setting in a file. -/
def key : Setting → String
  | store => "store"
  | history => "history"
  | color => "color"
  | prompt => "prompt"
  | depth => "max_depth"

/-- What a value in a file sets a setting to, if it is of the kind of the setting. -/
def ofSlot? : (s : Setting) → Toml.Slot → Option s.Value
  | depth, .value (.integer n) => some n
  | store, .value (.text text) | history, .value (.text text) | color, .value (.text text)
  | prompt, .value (.text text) => some text
  | _, _ => none

end Setting

/-- What decodes the file at a path over a draft: the keys that no setting has, or why it fails, and the draft after
    it. -/
abbrev Decoder : Type := String → Draft → Except DecodeError (List Toml.Key) × Draft

end Reckon
