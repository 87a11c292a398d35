import Reckon.Table
import Reckon.Text.Quoted

/-!
# Database engines

An engine keeps a database in a file: buckets by their names, and in each of them texts
by their keys. A database is changed in transactions. What fails in a transaction may
have changed something before, and the engine decides what becomes of it.
-/

namespace Reckon

/-- Why a store, or the engine below it, refuses an operation. -/
inductive StoreError
  | spacedParams (name params : String)
  | notFound
  | noBucket (name : String)
  | initializing (title : String) (cause : StoreError)
  | opening (path : String) (cause : StoreError)
  | invalid
  | notOpen
  | keyRequired
  | keyTooLarge
  | valueTooLarge
  | bucketNameRequired
  | bucketExists
  | bucketNotFound
deriving DecidableEq, Repr

/-- The message of a refusal. The program breaks off where it uses a bucket that is not there. -/
def StoreError.message : StoreError → String
  | spacedParams name params => "parameters of " ++ name ++ " contain spaces: " ++ Text.quote params
  | notFound => "no such entry"
  | noBucket _ => "runtime error: invalid memory address or nil pointer dereference"
  | initializing title cause => "failed to initialize " ++ title ++ ": " ++ cause.message
  | opening path cause => "opening " ++ path ++ ": " ++ cause.message
  | invalid => "invalid database"
  | notOpen => "database not open"
  | keyRequired => "key required"
  | keyTooLarge => "key too large"
  | valueTooLarge => "value too large"
  | bucketNameRequired => "bucket name required"
  | bucketExists => "bucket already exists"
  | bucketNotFound => "bucket not found"

/-- What is done in a transaction: it has a result or fails, and leaves a state of the transaction in both cases. -/
abbrev Action (Tx α : Type) : Type := Tx → Except StoreError α × Tx

/-- What a store asks of a database engine. -/
structure Engine where
  /-- What is on a disk. -/
  File : Type
  /-- Databases, open or closed. -/
  Db : Type
  /-- States of transactions. -/
  Tx : Type
  /-- Buckets that are used in a transaction. -/
  Bucket : Type
  /-- A file that nothing was written to. -/
  newFile : File
  /-- Opens the database in a file. -/
  openFile : File → Except StoreError Db
  /-- Closes a database. -/
  close : Db → Db
  /-- The file of a database. -/
  file : Db → File
  /-- Changes a database in a transaction. -/
  update : {α : Type} → Db → Action Tx α → Except StoreError α × Db
  /-- Reads in a transaction. -/
  view : {α : Type} → Db → (Tx → Except StoreError α) → Except StoreError α
  /-- The bucket of a name, if there is one. -/
  bucket? : Tx → String → Option Bucket
  /-- Makes a bucket, which must not be there. -/
  createBucket : String → Action Tx Bucket
  /-- Makes a bucket, unless it is there. -/
  createBucketIfNotExists : String → Action Tx Bucket
  /-- Deletes a bucket with all that is in it. -/
  deleteBucket : String → Action Tx Unit
  /-- The text under a key in a bucket, if there is one. -/
  get? : Tx → Bucket → String → Option String
  /-- Puts a text under a key into a bucket. -/
  put : Bucket → String → String → Action Tx Unit
  /-- Deletes a key from a bucket. -/
  delete : Bucket → String → Action Tx Unit
  /-- The keys of a bucket with their texts, in the order in which they are walked through. -/
  entries : Tx → Bucket → List (String × String)

end Reckon
