import Reckon.Settings.Decoder

/-!
# Settings in a file

A file of settings is a document whose keys are the names of settings. Neither case
nor order of the keys matters.
-/

namespace Reckon

namespace Setting

/-- A character without its case, as far as it concerns the ASCII letters. -/
def foldChar (c : Char) : Char :=
  if c = 'ſ' then 's' else if c = 'K' then 'k' else c.toLower

/-- Two names that differ in case only. -/
def sameName (a b : String) : Bool := a.toList.map foldChar = b.toList.map foldChar

/-- The setting of a key, if there is one. -/
def ofKey? : Toml.Key → Option Setting
  | [name] => all.find? fun s => sameName name s.key
  | _ => none

end Setting

namespace Choices

/-- Adds what stands under a key, if it is that of a setting. -/
def add (choices : Choices) (entry : Toml.Key × Toml.Slot) : Except DecodeError Choices :=
  match Setting.ofKey? entry.1 with
  | none => .ok choices
  | some s =>
    match s.ofSlot? entry.2 with
    | none => .error (.badKind entry.1)
    | some value => .ok (choices.set s value)

/-- Adds what stands under keys, one after the other. -/
def addAll (choices : Choices) : List (Toml.Key × Toml.Slot) → Except DecodeError Choices
  | [] => .ok choices
  | entry :: entries =>
    match choices.add entry with
    | .error e => .error e
    | .ok choices => choices.addAll entries

end Choices

/-- The keys of a document that no setting has. -/
def Toml.Document.unknown (doc : Toml.Document) : List Toml.Key :=
  doc.keys.filter fun key => (Setting.ofKey? key).isNone

namespace Draft

/-- Reads the text of a file over a draft. -/
def decode (text : String) (draft : Draft) : Except DecodeError (List Toml.Key) × Draft :=
  match Toml.Document.read? text with
  | none => (.error .malformed, draft)
  | some doc =>
    match Choices.empty.addAll doc.slots with
    | .error e => (.error e, draft)
    | .ok choices => (.ok doc.unknown, draft.overlay .listed choices)

/-- The decoder of files with given contents. -/
def decoder (contents : String → Except FileFailure String) : Decoder := fun path draft =>
  match contents path with
  | .error failure => (.error (.unreadable failure), draft)
  | .ok text => draft.decode text

end Draft

end Reckon
