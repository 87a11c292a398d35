import Mathlib
import Reckon.Proofs.Archive

/-!
What an engine promises. Its databases are maps of maps by names and keys (`Maps`), changed in transactions that leave
what they make or, if they fail, what was there, kept in files, and walked through in the order of the bytes of the
keys (`Engine.Reading.Lawful`). That order is the order of texts (`Text.bytes_lt_iff`). The engine of tables keeps the
promise (`Tables.lawful`).
-/

namespace Reckon

/-! ### The order of bytes -/

namespace Text

/-- The bytes of a text in UTF-8. -/
def bytes (text : String) : List UInt8 := text.toUTF8.data.toList

theorem bytes_eq (text : String) : bytes text = text.toList.flatMap String.utf8EncodeChar := by
  have encoded : text.toByteArray = text.toList.utf8Encode := by
    rw [← String.toByteArray_ofList, String.ofList_toList]
  rw [bytes, String.toUTF8_eq_toByteArray, encoded, List.utf8Encode, List.data_toByteArray]

private theorem byte_cons_lt {a b : Nat} (x y : List UInt8) (small : a < 256) (bound : b < 256) :
    UInt8.ofNat a :: x < UInt8.ofNat b :: y ↔ a < b ∨ a = b ∧ x < y := by
  have same : UInt8.ofNat a = UInt8.ofNat b ↔ a = b := by
    rw [← UInt8.toNat_inj, UInt8.toNat_ofNat', UInt8.toNat_ofNat', Nat.mod_eq_of_lt small, Nat.mod_eq_of_lt bound]
  rw [List.cons_lt_cons_iff, UInt8.ofNat_lt_iff_lt small bound, same]

/-- The bytes of the lower of two characters come before those of the other, whatever follows. -/
theorem utf8EncodeChar_lt {c d : Char} (less : c < d) (left right : List UInt8) :
    String.utf8EncodeChar c ++ left < String.utf8EncodeChar d ++ right := by
  have small : d.val.toNat < 0x110000 := by
    have valid := d.valid
    simp only [UInt32.isValidChar, Nat.isValidChar] at valid
    omega
  have less : c.val.toNat < d.val.toNat := less
  simp only [String.utf8EncodeChar]
  generalize c.val.toNat = m at less
  generalize d.val.toNat = n at less small
  -- The digits to the base 64: the quotients of one are those that the next digit is counted by.
  have digits (k : Nat) (bound : k < 0x110000) :
      k / 64 / 64 = k / 4096 ∧ k / 4096 / 64 = k / 262144 ∧ k / 262144 / 8 = 0 := by
    omega
  have lower := digits m (by omega)
  have upper := digits n small
  split_ifs
  all_goals simp (disch := omega) only [List.cons_append, List.nil_append, byte_cons_lt]
  all_goals omega

/-- What stands before two lists does not change their order. -/
theorem append_lt_append_left {α : Type} [LT α] {left right : List α} (less : left < right) (before : List α) :
    before ++ left < before ++ right :=
  List.lex_lt.mp (List.Lex.append_left _ (List.lex_lt.mpr less) before)

private theorem flatMap_lt {cs ds : List Char} (less : cs < ds) :
    cs.flatMap String.utf8EncodeChar < ds.flatMap String.utf8EncodeChar := by
  induction List.lex_lt.mpr less with
  | @nil d ds =>
    rw [List.flatMap_nil, List.flatMap_cons]
    obtain ⟨byte, bytes, same⟩ := List.exists_cons_of_ne_nil (String.utf8EncodeChar_ne_nil (c := d))
    rw [same]
    exact List.nil_lt_cons _ _
  | cons _ ih =>
    rw [List.flatMap_cons, List.flatMap_cons]
    exact append_lt_append_left (ih (List.lex_lt.mp ‹_›)) _
  | rel lower =>
    rw [List.flatMap_cons, List.flatMap_cons]
    exact utf8EncodeChar_lt lower _ _

/-- The order of texts is that of their bytes. -/
theorem bytes_lt_iff {a b : String} : bytes a < bytes b ↔ a < b := by
  have rises {a b : String} (less : a < b) : bytes a < bytes b := by
    rw [bytes_eq, bytes_eq]
    exact flatMap_lt (String.lt_iff_toList_lt.mp less)
  refine ⟨fun less => ?_, rises⟩
  rcases lt_trichotomy a b with below | rfl | above
  · exact below
  · exact absurd less (List.lt_irrefl _)
  · exact absurd (rises above) (List.lt_asymm less)

end Text

/-! ### Promises of an engine -/

/-- The maps in the buckets of a database: from the names of buckets to maps from keys to texts. -/
abbrev Maps : Type := String → Option (String → Option String)

/-- A name that a bucket may have. -/
def Maps.Named (name : String) : Prop := name ≠ "" ∧ (Text.bytes name).length ≤ 32768

/-- Why a key and a text of some size are refused, if they are: no key is empty or longer than 32768 bytes, and no text
    is longer than 2147483646. -/
def Maps.refusal? (key : String) (size : Nat) : Option StoreError :=
  if key = "" then some .keyRequired
  else if 32768 < (Text.bytes key).length then some .keyTooLarge
  else if 2147483646 < size then some .valueTooLarge
  else none

namespace Engine

/-- What the states of an engine stand for. -/
structure Reading (engine : Engine) where
  /-- A file has the maps of a database. -/
  holds : engine.File → Maps → Prop
  /-- A database is open. -/
  isOpen : engine.Db → Prop
  /-- The maps of a database. -/
  committed : engine.Db → Maps
  /-- What a transaction on a database begins with. -/
  start : engine.Db → engine.Tx
  /-- The maps that are seen in a transaction. -/
  maps : engine.Tx → Maps
  /-- The name of a bucket. -/
  name : engine.Bucket → String

/-- An engine keeps maps in transactions. -/
structure Reading.Lawful {engine : Engine} (reading : engine.Reading) : Prop where
  /-- There are no buckets in a new file. -/
  empty : reading.holds engine.newFile fun _ => none
  /-- A file is opened with what it has. -/
  opens {file : engine.File} {maps : Maps} (holds : reading.holds file maps) :
    ∃ db, engine.openFile file = .ok db ∧ reading.isOpen db ∧ reading.committed db = maps
  /-- What was committed is in the file once the database is closed. -/
  closes {db : engine.Db} (isOpen : reading.isOpen db) :
    reading.holds (engine.file (engine.close db)) (reading.committed db)
  /-- A transaction begins with what was committed. -/
  starts {db : engine.Db} (isOpen : reading.isOpen db) : reading.maps (reading.start db) = reading.committed db
  /-- What a transaction makes of the maps is committed if it does not fail. -/
  commits {db : engine.Db} (isOpen : reading.isOpen db) {α : Type} {action : Action engine.Tx α} {value : α}
    {tx : engine.Tx} (done : action (reading.start db) = (.ok value, tx)) :
    ∃ after, engine.update db action = (.ok value, after) ∧ reading.isOpen after ∧
      reading.committed after = reading.maps tx
  /-- If it fails, it is undone as a whole. -/
  undoes {db : engine.Db} (isOpen : reading.isOpen db) {α : Type} {action : Action engine.Tx α} {error : StoreError}
    {tx : engine.Tx} (failed : action (reading.start db) = (.error error, tx)) :
    ∃ after, engine.update db action = (.error error, after) ∧ reading.isOpen after ∧
      reading.committed after = reading.committed db
  /-- What is read is read in a transaction. -/
  views {db : engine.Db} (isOpen : reading.isOpen db) {α : Type} (read : engine.Tx → Except StoreError α) :
    engine.view db read = read (reading.start db)
  /-- A bucket that is there is found by its name. -/
  finds {tx : engine.Tx} {name : String} {map : String → Option String} (found : reading.maps tx name = some map) :
    ∃ bucket, engine.bucket? tx name = some bucket ∧ reading.name bucket = name
  /-- A bucket that is not there is made without keys. -/
  creates {tx : engine.Tx} {name : String} (named : Maps.Named name) (missing : reading.maps tx name = none) :
    ∃ bucket after, engine.createBucket name tx = (.ok bucket, after) ∧
      reading.maps after = Function.update (reading.maps tx) name (some fun _ => none)
  /-- A bucket is made without keys, or left as it is if it is there. -/
  ensures (tx : engine.Tx) {name : String} (named : Maps.Named name) :
    ∃ bucket after, engine.createBucketIfNotExists name tx = (.ok bucket, after) ∧
      reading.maps after = Function.update (reading.maps tx) name (some ((reading.maps tx name).getD fun _ => none))
  /-- A bucket that is there is deleted. -/
  drops {tx : engine.Tx} {name : String} {map : String → Option String} (found : reading.maps tx name = some map) :
    ∃ after, engine.deleteBucket name tx = (.ok (), after) ∧
      reading.maps after = Function.update (reading.maps tx) name none
  /-- A key has the text that was put under it. -/
  gets {tx : engine.Tx} {bucket : engine.Bucket} {map : String → Option String}
    (found : reading.maps tx (reading.name bucket) = some map) (key : String) : engine.get? tx bucket key = map key
  /-- A text is put under a key instead of the one that stands there. -/
  puts {tx : engine.Tx} {bucket : engine.Bucket} {map : String → Option String}
    (found : reading.maps tx (reading.name bucket) = some map) {key text : String}
    (accepted : Maps.refusal? key (Text.bytes text).length = none) :
    ∃ after, engine.put bucket key text tx = (.ok (), after) ∧
      reading.maps after =
        Function.update (reading.maps tx) (reading.name bucket) (some (Function.update map key (some text)))
  /-- A key or a text of a wrong size is refused. -/
  refuses {tx : engine.Tx} {bucket : engine.Bucket} {map : String → Option String}
    (found : reading.maps tx (reading.name bucket) = some map) {key text : String} {error : StoreError}
    (refused : Maps.refusal? key (Text.bytes text).length = some error) :
    ∃ after, engine.put bucket key text tx = (.error error, after)
  /-- A key is deleted, be it there or not. -/
  deletes {tx : engine.Tx} {bucket : engine.Bucket} {map : String → Option String}
    (found : reading.maps tx (reading.name bucket) = some map) (key : String) :
    ∃ after, engine.delete bucket key tx = (.ok (), after) ∧
      reading.maps after =
        Function.update (reading.maps tx) (reading.name bucket) (some (Function.update map key none))
  /-- The keys are walked through in the order of their bytes. -/
  sorted {tx : engine.Tx} {bucket : engine.Bucket} {map : String → Option String}
    (found : reading.maps tx (reading.name bucket) = some map) :
    (engine.entries tx bucket).Pairwise fun a b => Text.bytes a.1 < Text.bytes b.1
  /-- Each key is walked through with its text. -/
  walks {tx : engine.Tx} {bucket : engine.Bucket} {map : String → Option String}
    (found : reading.maps tx (reading.name bucket) = some map) (key text : String) :
    (key, text) ∈ engine.entries tx bucket ↔ map key = some text

end Engine

/-! ### The promise of tables -/

namespace Tables

/-- The maps of some buckets. -/
def maps (buckets : Buckets) : Maps := fun name => (buckets.get? name).map Table.get?

/-- What tables stand for. -/
def reading : engine.Reading where
  holds file found := ∃ buckets, decode? file = some buckets ∧ maps buckets = found
  isOpen db := db.isOpen = true
  committed db := maps db.buckets
  start db := db.buckets
  maps := maps
  name bucket := bucket

theorem maps_insert (buckets : Buckets) (name : String) (table : Table String) :
    maps (buckets.insert name table) = Function.update (maps buckets) name (some table.get?) := by
  funext other
  rw [maps, Table.get?_insert]
  by_cases same : other = name
  · subst same
    rw [Function.update_self, Function.update_self, Option.map_some]
  · rw [Function.update_of_ne same, Function.update_of_ne same, maps]

theorem maps_erase (buckets : Buckets) (name : String) :
    maps (buckets.erase name) = Function.update (maps buckets) name none := by
  funext other
  rw [maps, Table.get?_erase]
  by_cases same : other = name
  · subst same
    rw [Function.update_self, Function.update_self, Option.map_none]
  · rw [Function.update_of_ne same, Function.update_of_ne same, maps]

/-- A bucket that is there has a table. -/
theorem maps_eq_some_iff {buckets : Buckets} {name : String} {map : String → Option String} :
    maps buckets name = some map ↔ buckets.contains name = true ∧ (table buckets name).get? = map := by
  rw [maps, Table.contains, table]
  cases buckets.get? name with
  | none => simp
  | some found => simp

theorem openFile_eq_ok {file : String} {buckets : Buckets} (read : decode? file = some buckets) :
    openFile file = .ok ⟨buckets, true⟩ := by
  rw [openFile, read]

theorem update_eq_ok {α : Type} {db : Database} (isOpen : db.isOpen = true) {action : Action Buckets α} {value : α}
    {after : Buckets} (done : action db.buckets = (.ok value, after)) :
    update db action = (.ok value, { db with buckets := after }) := by
  rw [update, if_pos isOpen, done]

theorem update_eq_undone {α : Type} {db : Database} (isOpen : db.isOpen = true) {action : Action Buckets α}
    {error : StoreError} {after : Buckets} (failed : action db.buckets = (.error error, after)) :
    update db action = (.error error, db) := by
  rw [update, if_pos isOpen, failed]

theorem not_contains {buckets : Buckets} {name : String} (missing : maps buckets name = none) :
    ¬ buckets.contains name = true := by
  rw [maps, Option.map_eq_none_iff] at missing
  simp [Table.contains, missing]

theorem createBucket_eq_ok {buckets : Buckets} {name : String} (named : Maps.Named name)
    (missing : maps buckets name = none) : createBucket name buckets = (.ok name, buckets.insert name .empty) := by
  rw [createBucket, if_neg named.1, if_neg (not_contains missing)]

/-- A bucket is there once it is made, with the keys that it had. -/
theorem exists_createBucketIfNotExists (buckets : Buckets) {name : String} (named : Maps.Named name) :
    ∃ bucket after, createBucketIfNotExists name buckets = (.ok bucket, after) ∧
      maps after = Function.update (maps buckets) name (some ((maps buckets name).getD fun _ => none)) := by
  cases found : maps buckets name with
  | none =>
    refine ⟨name, _, ?_, maps_insert buckets name .empty⟩
    rw [createBucketIfNotExists, if_neg (not_contains found), createBucket_eq_ok named found]
  | some map =>
    refine ⟨name, buckets, if_pos (maps_eq_some_iff.mp found).1, ?_⟩
    rw [Option.getD_some, ← found, Function.update_eq_self]

theorem putProblem?_eq (key text : String) : putProblem? key text = Maps.refusal? key (Text.bytes text).length := rfl

theorem put_eq_ok {buckets : Buckets} {bucket key text : String}
    (accepted : Maps.refusal? key (Text.bytes text).length = none) :
    put bucket key text buckets = (.ok (), buckets.insert bucket ((table buckets bucket).insert key text)) := by
  rw [put, putProblem?_eq, accepted]

theorem put_eq_error {buckets : Buckets} {bucket key text : String} {error : StoreError}
    (refused : Maps.refusal? key (Text.bytes text).length = some error) :
    put bucket key text buckets = (.error error, buckets) := by
  rw [put, putProblem?_eq, refused]

/-- What is put under a key of a bucket is put under it in its map. -/
theorem maps_insert_insert {buckets : Buckets} {bucket : String} {map : String → Option String}
    (found : maps buckets bucket = some map) (key text : String) :
    maps (buckets.insert bucket ((table buckets bucket).insert key text)) =
      Function.update (maps buckets) bucket (some (Function.update map key (some text))) := by
  rw [maps_insert, Table.get?_insert, (maps_eq_some_iff.mp found).2]

theorem maps_insert_erase {buckets : Buckets} {bucket : String} {map : String → Option String}
    (found : maps buckets bucket = some map) (key : String) :
    maps (buckets.insert bucket ((table buckets bucket).erase key)) =
      Function.update (maps buckets) bucket (some (Function.update map key none)) := by
  rw [maps_insert, Table.get?_erase, (maps_eq_some_iff.mp found).2]

theorem mem_entries_iff {buckets : Buckets} {bucket : String} {map : String → Option String}
    (found : maps buckets bucket = some map) (key text : String) :
    (key, text) ∈ (table buckets bucket).entries ↔ map key = some text := by
  rw [← Table.get?_eq_some_iff, (maps_eq_some_iff.mp found).2]

/-- The engine of tables keeps maps in transactions. -/
theorem lawful : reading.Lawful where
  empty := ⟨.empty, rfl, rfl⟩
  opens := by
    rintro file _ ⟨buckets, read, rfl⟩
    exact ⟨_, openFile_eq_ok read, rfl, rfl⟩
  closes _ := ⟨_, decode?_encode _, rfl⟩
  starts _ := rfl
  commits isOpen _ _ _ _ done := ⟨_, update_eq_ok isOpen done, isOpen, rfl⟩
  undoes isOpen _ _ _ _ failed := ⟨_, update_eq_undone isOpen failed, isOpen, rfl⟩
  views isOpen _ _ := if_pos isOpen
  finds found := ⟨_, if_pos (maps_eq_some_iff.mp found).1, rfl⟩
  creates named missing := ⟨_, _, createBucket_eq_ok named missing, maps_insert _ _ _⟩
  ensures := exists_createBucketIfNotExists
  drops found := ⟨_, if_pos (maps_eq_some_iff.mp found).1, maps_erase _ _⟩
  gets found key := congrFun (maps_eq_some_iff.mp found).2 key
  puts found _ _ accepted := ⟨_, put_eq_ok accepted, maps_insert_insert found _ _⟩
  refuses _ _ _ _ refused := ⟨_, put_eq_error refused⟩
  deletes found _ := ⟨_, rfl, maps_insert_erase found _⟩
  sorted _ := (table _ _).sorted.imp Text.bytes_lt_iff.mpr
  walks := mem_entries_iff

end Tables

end Reckon
