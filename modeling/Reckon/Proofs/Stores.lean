import Reckon.Proofs.Engine
import Reckon.Store

/-!
What is done with a store in an engine that keeps maps in transactions. An open store has a map in each of its buckets
(`Engine.Store.Has`). An operation that is refused leaves these maps, and one that is not changes one of them as it
says. They are found again when the store is closed and opened (`Engine.Store.Has.reopen`).
-/

namespace Reckon

/-! ### Buckets -/

namespace StoreBucket

theorem named_name (bucket : StoreBucket) : Maps.Named bucket.name := by
  cases bucket <;> exact ⟨by decide, by decide⟩

theorem name_inj {bucket other : StoreBucket} : bucket.name = other.name ↔ bucket = other := by
  cases bucket <;> cases other <;> decide

theorem mem_order (visit : Visit all) (bucket : StoreBucket) : bucket ∈ visit.order := by
  rw [visit.perm.mem_iff]
  cases bucket <;> decide

end StoreBucket

namespace Engine.Store

variable {engine : Engine} {reading : engine.Reading} {store : engine.Store}
  {maps : StoreBucket → String → Option String}

/-- An open store has maps in its buckets. -/
structure Has (reading : engine.Reading) (store : engine.Store) (maps : StoreBucket → String → Option String) :
    Prop where
  isOpen : reading.isOpen store.db
  each (bucket : StoreBucket) : reading.committed store.db bucket.name = some (maps bucket)

/-! ### Transactions -/

/-- What a transaction begins with has the maps of the store. -/
theorem Has.maps_start (lawful : reading.Lawful) (has : store.Has reading maps) (bucket : StoreBucket) :
    reading.maps (reading.start store.db) bucket.name = some (maps bucket) := by
  rw [lawful.starts has.isOpen, has.each]

/-- A change that fails leaves the maps. -/
theorem Has.change_error (lawful : reading.Lawful) (has : store.Has reading maps) {action : Action engine.Tx Unit}
    {error : StoreError} {tx : engine.Tx} (failed : action (reading.start store.db) = (.error error, tx)) :
    ∃ after : engine.Store, store.change action = (.error error, after) ∧ after.Has reading maps := by
  obtain ⟨db, undone, isOpen, same⟩ := lawful.undoes has.isOpen failed
  refine ⟨⟨db⟩, ?_, isOpen, fun bucket => ?_⟩
  · rw [change, undone]
  · rw [same, has.each]

/-- A change of one bucket that does not fail leaves the map of the other. -/
theorem Has.change_ok (lawful : reading.Lawful) (has : store.Has reading maps) {action : Action engine.Tx Unit}
    {tx : engine.Tx} (done : action (reading.start store.db) = (.ok (), tx)) {bucket : StoreBucket}
    {map : String → Option String}
    (changed : reading.maps tx = Function.update (reading.maps (reading.start store.db)) bucket.name (some map)) :
    ∃ after : engine.Store, store.change action = (.ok (), after) ∧
      after.Has reading (Function.update maps bucket map) := by
  obtain ⟨db, committed, isOpen, same⟩ := lawful.commits has.isOpen done
  refine ⟨⟨db⟩, ?_, isOpen, fun other => ?_⟩
  · rw [change, committed]
  · rw [same, changed]
    by_cases here : other = bucket
    · subst here
      rw [Function.update_self, Function.update_self]
    · rw [Function.update_of_ne (mt StoreBucket.name_inj.mp here), Function.update_of_ne here, has.maps_start lawful]

/-- In a store that has a bucket, something is done in it. -/
theorem Has.exists_inBucket (lawful : reading.Lawful) (has : store.Has reading maps) (bucket : StoreBucket) :
    ∃ found, reading.name found = bucket.name ∧ ∀ action : engine.Bucket → Action engine.Tx Unit,
      inBucket bucket action (reading.start store.db) = action found (reading.start store.db) := by
  obtain ⟨found, there, same⟩ := lawful.finds (has.maps_start lawful bucket)
  exact ⟨found, same, fun action => by rw [inBucket, there]⟩

/-! ### Changes -/

/-- A text is put under a name unless one of them is refused. -/
theorem Has.set_error (lawful : reading.Lawful) (has : store.Has reading maps) (bucket : StoreBucket)
    {name text : String} {error : StoreError} (refused : Maps.refusal? name (Text.bytes text).length = some error) :
    ∃ after : engine.Store, store.set bucket name text = (.error error, after) ∧ after.Has reading maps := by
  obtain ⟨found, same, done⟩ := has.exists_inBucket lawful bucket
  obtain ⟨tx, failed⟩ := lawful.refuses (same ▸ has.maps_start lawful bucket) refused
  exact has.change_error lawful ((done _).trans failed)

theorem Has.set_ok (lawful : reading.Lawful) (has : store.Has reading maps) (bucket : StoreBucket) {name text : String}
    (accepted : Maps.refusal? name (Text.bytes text).length = none) :
    ∃ after : engine.Store, store.set bucket name text = (.ok (), after) ∧
      after.Has reading (Function.update maps bucket (Function.update (maps bucket) name (some text))) := by
  obtain ⟨found, same, done⟩ := has.exists_inBucket lawful bucket
  obtain ⟨tx, put, changed⟩ := lawful.puts (same ▸ has.maps_start lawful bucket) accepted
  exact has.change_ok lawful ((done _).trans put) (same ▸ changed)

/-- A name is deleted if it is there. -/
theorem Has.delete_error (lawful : reading.Lawful) (has : store.Has reading maps) (bucket : StoreBucket) {name : String}
    (missing : maps bucket name = none) :
    ∃ after : engine.Store, store.delete bucket name = (.error .notFound, after) ∧ after.Has reading maps := by
  obtain ⟨found, same, done⟩ := has.exists_inBucket lawful bucket
  refine has.change_error lawful ((done _).trans (?_ : _ = (Except.error StoreError.notFound, reading.start store.db)))
  rw [lawful.gets (same ▸ has.maps_start lawful bucket), missing]

theorem Has.delete_ok (lawful : reading.Lawful) (has : store.Has reading maps) (bucket : StoreBucket) {name : String}
    (there : maps bucket name ≠ none) :
    ∃ after : engine.Store, store.delete bucket name = (.ok (), after) ∧
      after.Has reading (Function.update maps bucket (Function.update (maps bucket) name none)) := by
  obtain ⟨found, same, done⟩ := has.exists_inBucket lawful bucket
  obtain ⟨tx, deleted, changed⟩ := lawful.deletes (same ▸ has.maps_start lawful bucket) name
  obtain ⟨text, there⟩ := Option.ne_none_iff_exists'.mp there
  refine has.change_ok lawful ((done _).trans ?_) (same ▸ changed)
  rw [lawful.gets (same ▸ has.maps_start lawful bucket), there]
  exact deleted

/-- A bucket is empty after it was deleted and made again. -/
theorem Has.clear_ok (lawful : reading.Lawful) (has : store.Has reading maps) (bucket : StoreBucket) :
    ∃ after : engine.Store, store.clear bucket = (.ok (), after) ∧
      after.Has reading (Function.update maps bucket fun _ => none) := by
  obtain ⟨without, dropped, gone⟩ := lawful.drops (has.maps_start lawful bucket)
  have missing : reading.maps without bucket.name = none := by rw [gone, Function.update_self]
  obtain ⟨made, tx, created, changed⟩ := lawful.creates bucket.named_name missing
  refine has.change_ok lawful (?_ : _ = (Except.ok (), tx)) ?_
  · rw [dropped]
    simp only [created]
  · rw [changed, gone, Function.update_idem]

/-! ### Opening and listing -/

/-- Buckets are made one after the other, unless they are there. -/
theorem exists_makeBuckets (lawful : reading.Lawful) (order : List StoreBucket) (tx : engine.Tx) :
    ∃ after, makeBuckets order tx = (.ok (), after) ∧ ∀ bucket : StoreBucket, reading.maps after bucket.name =
      if bucket ∈ order then some ((reading.maps tx bucket.name).getD fun _ => none)
      else reading.maps tx bucket.name := by
  induction order generalizing tx with
  | nil => exact ⟨tx, rfl, fun bucket => (if_neg List.not_mem_nil).symm⟩
  | cons first rest ih =>
    obtain ⟨found, next, made, changed⟩ := lawful.ensures tx first.named_name
    obtain ⟨after, others, same⟩ := ih next
    refine ⟨after, ?_, fun bucket => ?_⟩
    · simp only [makeBuckets, made]
      exact others
    · rw [same, changed]
      by_cases here : bucket = first
      · subst here
        simp
      · rw [Function.update_of_ne (mt StoreBucket.name_inj.mp here)]
        simp [here]

/-- The store in a file has what the file has in its buckets, which are made if they are not there. -/
theorem exists_openFile (lawful : reading.Lawful) {file : engine.File} {kept : Maps} (holds : reading.holds file kept)
    (path : String) (visit : Visit StoreBucket.all) :
    ∃ store : engine.Store, openFile path visit file = .ok store ∧
      store.Has reading fun bucket => (kept bucket.name).getD fun _ => none := by
  obtain ⟨db, opened, isOpen, rfl⟩ := lawful.opens holds
  obtain ⟨tx, made, same⟩ := exists_makeBuckets lawful visit.order (reading.start db)
  obtain ⟨after, committed, laterOpen, changed⟩ := lawful.commits isOpen made
  refine ⟨⟨after⟩, ?_, laterOpen, fun bucket => ?_⟩
  · rw [openFile, opened]
    simp only [committed]
  · rw [changed, same, if_pos (StoreBucket.mem_order visit bucket), lawful.starts isOpen]

/-- A store that is closed and opened again has the same maps. -/
theorem Has.reopen (lawful : reading.Lawful) (has : store.Has reading maps) (path : String)
    (visit : Visit StoreBucket.all) :
    ∃ after : engine.Store, store.reopen path visit = (.ok (), after) ∧ after.Has reading maps := by
  obtain ⟨after, opened, again⟩ := exists_openFile lawful (lawful.closes has.isOpen) path visit
  refine ⟨after, ?_, again.isOpen, fun bucket => ?_⟩
  · rw [Store.reopen, show openFile path visit store.close.file = _ from opened]
  · rw [again.each, has.each, Option.getD_some]

/-- A bucket is listed in the order of the bytes of the names. -/
theorem Has.exists_list (lawful : reading.Lawful) (has : store.Has reading maps) (bucket : StoreBucket) :
    ∃ entries, store.list bucket = .ok entries ∧ entries.Pairwise (fun a b => Text.bytes a.1 < Text.bytes b.1) ∧
      ∀ name text, (name, text) ∈ entries ↔ maps bucket name = some text := by
  have start := has.maps_start lawful bucket
  obtain ⟨found, there, same⟩ := lawful.finds start
  rw [← same] at start
  refine ⟨_, ?_, lawful.sorted start, lawful.walks start⟩
  rw [list, lawful.views has.isOpen, there]

end Engine.Store

end Reckon
