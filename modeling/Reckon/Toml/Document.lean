import Reckon.Toml.Reader

/-!
# Documents

A document holds what its lines put under each key, and the keys in the order in
which they were given. A key is given once, with two exceptions: a value takes the
place of an array, and a table that is there merely because of a key inside it may
still be named by a line of its own.
-/

namespace Reckon.Toml

/-- What stands under a key. Of a list of tables, the keys inside it are those of the last. -/
inductive Slot
  | value (value : Value)
  | table
  | tables

/-- A slot that keys can stand inside of. -/
def Slot.isContainer : Slot → Bool
  | value _ => false
  | table => true
  | tables => true

/-- The slots by their keys, the tables that no line has named yet, the keys whose latest value is
    an array, and all keys in the order in which they were given. -/
structure Document where
  slots : List (Key × Slot)
  implied : List Key
  arrays : List Key
  keys : List Key

namespace Document

/-- The document without lines. -/
def empty : Document := ⟨[], [], [], []⟩

/-- What stands under a key. -/
def slot? (doc : Document) (key : Key) : Option Slot := doc.slots.lookup key

/-- Puts a slot under a key, instead of all that stands there and inside of it. -/
def put (doc : Document) (key : Key) (slot : Slot) : Document :=
  { doc with slots := (doc.slots.filter fun entry => !key.isPrefixOf entry.1) ++ [(key, slot)] }

mutual

/-- Puts a value under a key, instead of all that stands there and inside of it. -/
def putValue (doc : Document) (key : Key) (value : Value) : Document :=
  match value with
  | .table members => (doc.put key .table).putMembers key members
  | value => doc.put key (.value value)

/-- Puts the members of a table inside of it, each under the last part of its key. -/
def putMembers (doc : Document) (table : Key) (members : List (Key × Value)) : Document :=
  match members with
  | [] => doc
  | (key, value) :: members =>
    (doc.putValue (table ++ key.getLast?.toList) value).putMembers table members

end

/-- Notes that a table may still be named. -/
def imply (doc : Document) (key : Key) : Document := { doc with implied := key :: doc.implied }

/-- Notes that a table has been named. -/
def settle (doc : Document) (key : Key) : Document :=
  { doc with implied := doc.implied.filter (· ≠ key) }

/-- Notes whether the latest value of a key is an array. -/
def setArray (doc : Document) (key : Key) (isArray : Bool) : Document :=
  let others := doc.arrays.filter (· ≠ key)
  { doc with arrays := if isArray then key :: others else others }

/-- The key that a value counts for as the latest: a value without a name counts for the table
    that it stands in. -/
def latestKey (key : Key) : Key :=
  if key.getLast? = some "" && 1 < key.length then key.dropLast else key

/-- Notes that a key was given. -/
def note (doc : Document) (key : Key) : Document := { doc with keys := doc.keys ++ [key] }

/-- The keys of the tables around a key, the outermost first. -/
def outer (key : Key) : List Key := (List.range (key.length - 1)).map fun n => key.take (n + 1)

/-- Gives a value to a key inside of tables that are there. -/
def give? (doc : Document) (key : Key) (value : Value) : Option Document :=
  if (outer key).any fun around => !(doc.slot? around).any Slot.isContainer then none
  else if (doc.slot? key).isNone then some (doc.putValue key value)
  else if doc.arrays.contains key then some ((doc.settle key).putValue key value)
  else if doc.implied.contains key then some (doc.settle key)
  else none

/-- A document with the tables around a key. -/
def enclose? (doc : Document) (key : Key) : Option Document :=
  (outer key).foldlM
    (fun doc around =>
      match doc.slot? around with
      | none => some ((doc.imply around).put around .table)
      | some slot => if slot.isContainer then some doc else none)
    doc

/-- Begins a table. -/
def openTable? (doc : Document) (key : Key) : Option Document :=
  (doc.enclose? key).bind fun doc => doc.give? key (.table [])

/-- Begins the next table of a list. -/
def openNext? (doc : Document) (key : Key) : Option Document :=
  (doc.enclose? key).bind fun doc =>
    match doc.slot? key with
    | none => some (doc.put key .tables)
    | some .tables => some (doc.put key .tables)
    | some _ => none

/-- Begins the tables that the points of a key imply, below the table of `context`. -/
def openImplied? (doc : Document) (context key : Key) : Option Document :=
  (outer key).foldlM
    (fun doc around => (doc.imply (context ++ around)).openTable? (context ++ around)) doc

mutual

/-- Gives the keys of the tables inside a value, which is that of `key` or an item of it. -/
def defineInside? (doc : Document) (key : Key) (inArray : Bool) (value : Value) : Option Document :=
  match value with
  | .array items => (doc.setArray (latestKey key) true).defineItems? key items
  | .table members => do
    let doc ← if inArray then (doc.imply key).openNext? key else (doc.imply key).openTable? key
    doc.defineMembers? key members
  | _ => some doc

/-- Gives the keys of the tables among the items of an array. -/
def defineItems? (doc : Document) (key : Key) (items : List Value) : Option Document :=
  match items with
  | [] => some doc
  | item :: items => do
    let doc ← doc.defineInside? key true item
    doc.defineItems? key items

/-- Gives values to keys below the table of `context`. What a value holds comes before it. -/
def defineMembers? (doc : Document) (context : Key) (members : List (Key × Value)) :
    Option Document :=
  match members with
  | [] => some doc
  | (key, value) :: members => do
    let doc ← doc.openImplied? context key
    let doc ← doc.defineInside? (context ++ key) false value
    let doc ← doc.give? (context ++ key) value
    let doc := doc.setArray (latestKey (context ++ key)) value.isArray
    (doc.note (context ++ key)).defineMembers? context members

end

/-- Adds a line. Its keys stand in the table of `context`; the table of the next line follows. -/
def addLine? (state : Document × Key) (line : Line) : Option (Document × Key) :=
  let (doc, context) := state
  match line with
  | .pair key value => (doc.defineMembers? context [(key, value)]).map fun doc => (doc, context)
  | .table key => (doc.openTable? key).map fun doc => ((doc.setArray key false).note key, key)
  | .tables key => (doc.openNext? key).map fun doc => ((doc.setArray key false).note key, key)

/-- The document of lines, if they do not give a key twice. -/
def ofLines? (lines : List Line) : Option Document :=
  (lines.foldlM addLine? (empty, [])).map Prod.fst

/-- Reads a document. -/
def read? (text : String) : Option Document := (Toml.read? text).bind ofLines?

end Document

end Reckon.Toml
