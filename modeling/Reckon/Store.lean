import Reckon.Engine.Tables
import Reckon.Text.Cut

/-!
# The store of definitions

Variables and functions are kept between sessions as text, each kind in a bucket of a
database: a variable as an expression for its value, a function as its parameters, a
blank and its body.
-/

namespace Reckon

/-- A stored function. -/
structure StoredFunction where
  name : String
  params : String
  body : String
deriving DecidableEq, Repr

/-- The text that a function is kept as. -/
def StoredFunction.text (f : StoredFunction) : String := f.params ++ " " ++ f.body

/-- A function from its name and the text that it is kept as. -/
def StoredFunction.ofText (name text : String) : StoredFunction :=
  let (params, body) := Text.cut ' ' text
  ⟨name, params, body⟩

/-- The buckets of a store. -/
inductive StoreBucket
  | vars
  | functions
deriving DecidableEq, Repr

namespace StoreBucket

/-- All buckets. -/
def all : List StoreBucket := [vars, functions]

/-- The name of a bucket. -/
def name : StoreBucket → String
  | vars => "vars"
  | functions => "funcs"

/-- What a bucket is called in a message. -/
def title : StoreBucket → String
  | vars => "variable table"
  | functions => "function table"

end StoreBucket

/-- A store in the database of an engine. -/
structure Engine.Store (engine : Engine) where
  db : engine.Db

namespace Engine.Store

variable {engine : Engine}

/-! ## Opening and closing -/

/-- Makes buckets that are not there, one after the other. -/
def makeBuckets : List StoreBucket → Action engine.Tx Unit
  | [] => fun tx => (.ok (), tx)
  | bucket :: buckets => fun tx =>
    match engine.createBucketIfNotExists bucket.name tx with
    | (.error e, tx) => (.error (.initializing bucket.title e), tx)
    | (.ok _, tx) => makeBuckets buckets tx

/-- Opens the store in the file at a path. Its buckets are visited in any order. -/
def openFile (path : String) (visit : Visit StoreBucket.all) (file : engine.File) : Except StoreError engine.Store :=
  match engine.openFile file with
  | .error e => .error (.opening path e)
  | .ok db =>
    match engine.update db (makeBuckets visit.order) with
    | (.error e, _) => .error e
    | (.ok (), db) => .ok ⟨db⟩

/-- Closes a store. -/
def close (store : engine.Store) : engine.Store := ⟨engine.close store.db⟩

/-- The file of a store. -/
def file (store : engine.Store) : engine.File := engine.file store.db

/-- Closes a store and opens it again. -/
def reopen (path : String) (visit : Visit StoreBucket.all) (store : engine.Store) :
    Except StoreError Unit × engine.Store :=
  match openFile path visit store.close.file with
  | .error e => (.error e, store.close)
  | .ok store => (.ok (), store)

/-! ## Changes -/

/-- Changes a store in a transaction. -/
def change (store : engine.Store) (action : Action engine.Tx Unit) : Except StoreError Unit × engine.Store :=
  let (result, db) := engine.update store.db action
  (result, ⟨db⟩)

/-- Does something in a bucket of the store. -/
def inBucket (bucket : StoreBucket) (action : engine.Bucket → Action engine.Tx Unit) : Action engine.Tx Unit :=
  fun tx =>
    match engine.bucket? tx bucket.name with
    | none => (.error (.noBucket bucket.name), tx)
    | some bucket => action bucket tx

/-- Puts a text under a name. -/
def set (bucket : StoreBucket) (store : engine.Store) (name text : String) : Except StoreError Unit × engine.Store :=
  store.change (inBucket bucket fun bucket => engine.put bucket name text)

/-- Deletes a name, which must be there. -/
def delete (bucket : StoreBucket) (store : engine.Store) (name : String) : Except StoreError Unit × engine.Store :=
  store.change (inBucket bucket fun bucket tx =>
    match engine.get? tx bucket name with
    | none => (.error .notFound, tx)
    | some _ => engine.delete bucket name tx)

/-- Deletes all names: the bucket is deleted, and made again in the same transaction. -/
def clear (bucket : StoreBucket) (store : engine.Store) : Except StoreError Unit × engine.Store :=
  store.change fun tx =>
    match engine.deleteBucket bucket.name tx with
    | (.error e, tx) => (.error e, tx)
    | (.ok (), tx) =>
      match engine.createBucket bucket.name tx with
      | (.error e, tx) => (.error e, tx)
      | (.ok _, tx) => (.ok (), tx)

/-- Stores the text of a variable. -/
def setVariable (store : engine.Store) (name text : String) : Except StoreError Unit × engine.Store :=
  store.set .vars name text

/-- Deletes a variable. -/
def deleteVariable (store : engine.Store) (name : String) : Except StoreError Unit × engine.Store :=
  store.delete .vars name

/-- Deletes all variables. -/
def clearVariables (store : engine.Store) : Except StoreError Unit × engine.Store := store.clear .vars

/-- A character that the text of parameters must not have. -/
def isSpacing (c : Char) : Bool := c = ' ' || c = '\t' || c = '\n'

/-- Stores a function. -/
def setFunction (store : engine.Store) (f : StoredFunction) : Except StoreError Unit × engine.Store :=
  if f.params.toList.any isSpacing then (.error (.spacedParams f.name f.params), store)
  else store.set .functions f.name f.text

/-- Deletes a function. -/
def deleteFunction (store : engine.Store) (name : String) : Except StoreError Unit × engine.Store :=
  store.delete .functions name

/-- Deletes all functions. -/
def clearFunctions (store : engine.Store) : Except StoreError Unit × engine.Store := store.clear .functions

/-! ## Listings -/

/-- The names in a bucket with their texts. -/
def list (bucket : StoreBucket) (store : engine.Store) : Except StoreError (List (String × String)) :=
  engine.view store.db fun tx =>
    match engine.bucket? tx bucket.name with
    | none => .error (.noBucket bucket.name)
    | some bucket => .ok (engine.entries tx bucket)

/-- The variables in order of their names. -/
def listVariables (store : engine.Store) : Except StoreError (List (String × String)) := store.list .vars

/-- The functions in order of their names. -/
def listFunctions (store : engine.Store) : Except StoreError (List StoredFunction) :=
  (store.list .functions).map fun entries => entries.map fun entry => .ofText entry.1 entry.2

/-- The variables and then the functions, each on a line of its own. -/
def dump (store : engine.Store) : Except StoreError String :=
  match store.listVariables with
  | .error e => .error e
  | .ok vars =>
    match store.listFunctions with
    | .error e => .error e
    | .ok functions =>
      .ok (String.join
        (vars.map (fun v => v.1 ++ " " ++ v.2 ++ "\n") ++
          functions.map fun f => f.name ++ " " ++ f.params ++ " " ++ f.body ++ "\n"))

end Engine.Store

/-- The stores of the program. -/
abbrev Store : Type := Engine.Store Tables.engine

/-- The store of a first session. -/
def Store.empty : Store :=
  ⟨⟨(Table.empty.insert StoreBucket.functions.name .empty).insert StoreBucket.vars.name .empty, true⟩⟩

end Reckon
