import Reckon.Engine

/-!
# An engine of tables

Buckets are kept as tables, and the file of a database is a text. Everything in it is
written after its length, so that names and texts may hold any character.
-/

namespace Reckon.Tables

/-- The tables by the names of their buckets. -/
abbrev Buckets : Type := Table (Table String)

/-- A database of tables, and whether it is open. -/
structure Database where
  buckets : Buckets
  isOpen : Bool

/-- The most bytes that a key may have. -/
def maxKeySize : Nat := 32768

/-- The most bytes that a text may have. -/
def maxValueSize : Nat := 2147483646

/-! ## Transactions -/

variable {α : Type}

/-- Changes a database, unless it is closed or the change fails. -/
def update (db : Database) (action : Action Buckets α) : Except StoreError α × Database :=
  if db.isOpen then
    match action db.buckets with
    | (.error e, _) => (.error e, db)
    | (.ok value, buckets) => (.ok value, { db with buckets := buckets })
  else (.error .notOpen, db)

/-- Reads in a database, unless it is closed. -/
def view (db : Database) (read : Buckets → Except StoreError α) : Except StoreError α :=
  if db.isOpen then read db.buckets else .error .notOpen

/-- The table of a bucket. -/
def table (buckets : Buckets) (bucket : String) : Table String := (buckets.get? bucket).getD .empty

/-- A bucket is used by its name. -/
def bucket? (buckets : Buckets) (name : String) : Option String :=
  if buckets.contains name then some name else none

/-- Makes a bucket, which must not be there. -/
def createBucket (name : String) : Action Buckets String := fun buckets =>
  if name = "" then (.error .bucketNameRequired, buckets)
  else if buckets.contains name then (.error .bucketExists, buckets)
  else (.ok name, buckets.insert name .empty)

/-- Makes a bucket, unless it is there. -/
def createBucketIfNotExists (name : String) : Action Buckets String := fun buckets =>
  if buckets.contains name then (.ok name, buckets) else createBucket name buckets

/-- Deletes a bucket, which must be there. -/
def deleteBucket (name : String) : Action Buckets Unit := fun buckets =>
  if buckets.contains name then (.ok (), buckets.erase name) else (.error .bucketNotFound, buckets)

/-- What is wrong with a key and a text to put under it, if anything. -/
def putProblem? (key text : String) : Option StoreError :=
  if key = "" then some .keyRequired
  else if maxKeySize < key.utf8ByteSize then some .keyTooLarge
  else if maxValueSize < text.utf8ByteSize then some .valueTooLarge
  else none

/-- Puts a text under a key. -/
def put (bucket key text : String) : Action Buckets Unit := fun buckets =>
  match putProblem? key text with
  | some problem => (.error problem, buckets)
  | none => (.ok (), buckets.insert bucket ((table buckets bucket).insert key text))

/-- Deletes a key. -/
def delete (bucket key : String) : Action Buckets Unit := fun buckets =>
  (.ok (), buckets.insert bucket ((table buckets bucket).erase key))

/-! ## Files -/

/-- The first line of a file. -/
def heading : String := "reckon tables 1\n"

/-- A number and its end. -/
def encodeNumber (n : Nat) : String := toString n ++ ":"

/-- A text after its length. -/
def encodeText (text : String) : String := encodeNumber text.length ++ text

/-- Items after their number. -/
def encodeEach (encode : α → String) (items : List α) : String :=
  encodeNumber items.length ++ String.join (items.map encode)

/-- A name and what stands under it. -/
def encodeNamed (encode : α → String) (entry : String × α) : String := encodeText entry.1 ++ encode entry.2

/-- The entries of a table. -/
def encodeTable (encode : α → String) (table : Table α) : String :=
  encodeEach (encodeNamed encode) table.entries

/-- The text of the file of some buckets. -/
def encode (buckets : Buckets) : String := heading ++ encodeTable (encodeTable encodeText) buckets

/-- Reads a number and its end. -/
def decodeNumber? (cs : List Char) : Option (Nat × List Char) :=
  let digits := cs.takeWhile Char.isDigit
  match cs.dropWhile Char.isDigit with
  | ':' :: rest =>
    if digits.isEmpty then none
    else some (digits.foldl (fun value c => value * 10 + (c.toNat - 0x30)) 0, rest)
  | _ => none

/-- Reads a text after its length. -/
def decodeText? (cs : List Char) : Option (String × List Char) := do
  let (length, rest) ← decodeNumber? cs
  if rest.length < length then none
  else some (String.ofList (rest.take length), rest.drop length)

/-- Reads a number of items. -/
def decodeTimes? (decode? : List Char → Option (α × List Char)) :
    Nat → List Char → Option (List α × List Char)
  | 0, cs => some ([], cs)
  | n + 1, cs => do
    let (item, cs) ← decode? cs
    let (items, cs) ← decodeTimes? decode? n cs
    some (item :: items, cs)

/-- Reads items after their number. -/
def decodeEach? (decode? : List Char → Option (α × List Char)) (cs : List Char) : Option (List α × List Char) := do
  let (n, cs) ← decodeNumber? cs
  decodeTimes? decode? n cs

/-- Reads a name and what stands under it. -/
def decodeNamed? (decode? : List Char → Option (α × List Char)) (cs : List Char) :
    Option ((String × α) × List Char) := do
  let (name, cs) ← decodeText? cs
  let (entry, cs) ← decode? cs
  some ((name, entry), cs)

/-- Reads the entries of a table. -/
def decodeTable? (decode? : List Char → Option (α × List Char)) (cs : List Char) :
    Option (Table α × List Char) := do
  let (entries, cs) ← decodeEach? (decodeNamed? decode?) cs
  some (.ofList entries, cs)

/-- The buckets of a file. In an empty file there are none. -/
def decode? (file : String) : Option Buckets :=
  if file = "" then some .empty
  else if heading.toList.isPrefixOf file.toList then
    match decodeTable? (decodeTable? decodeText?) (file.toList.drop heading.length) with
    | some (buckets, []) => some buckets
    | _ => none
  else none

/-- Opens the database of a file. -/
def openFile (file : String) : Except StoreError Database :=
  match decode? file with
  | none => .error .invalid
  | some buckets => .ok ⟨buckets, true⟩

/-- The engine of tables. -/
def engine : Engine where
  File := String
  Db := Database
  Tx := Buckets
  Bucket := String
  newFile := ""
  openFile := openFile
  close db := { db with isOpen := false }
  file db := encode db.buckets
  update := update
  view := view
  bucket? := bucket?
  createBucket := createBucket
  createBucketIfNotExists := createBucketIfNotExists
  deleteBucket := deleteBucket
  get? buckets bucket key := (table buckets bucket).get? key
  put := put
  delete := delete
  entries buckets bucket := (table buckets bucket).entries

end Reckon.Tables
