import Scry.Items.CacheFile

/-! The items over the life of their file. A daemon learns items and writes them to the file from
time to time; the next one, after an orderly end or a kill, reads what is there.
-/

namespace Scry

/-- The cache of the daemon that runs, and the file at its path. -/
structure ItemStore where
  items : ItemCache
  file : Option CacheFile

/-- What happens to it. A daemon that ends in order saves before the next one starts, one that is
killed does not.
-/
inductive ItemStoreOp
  | onItemPacket (data : Bytes)
  | insert (tpl : ItemTemplate)
  | onFlushTimer (s : ItemSaving)
  | restarted (orderly : Option ItemSaving) (opens : Bool)

namespace ItemStore

open ItemCache (fresh WellKeyed loadItem)

/-- A daemon that starts. -/
def started (path : List Char) (file : Option CacheFile) (opens : Bool) : ItemStore :=
  { items := fresh.setStorePath path file opens, file }

/-- `onFlushTimer`. The destructor saves on the same condition. -/
def flushed (st : ItemStore) (s : ItemSaving) : ItemStore :=
  let (items, file) := st.items.onFlushTimer s st.file
  { items, file }

def step (op : ItemStoreOp) (st : ItemStore) : ItemStore :=
  match op with
  | .onItemPacket data => { st with items := st.items.onItemPacket data }
  | .insert tpl => { st with items := st.items.insert tpl }
  | .onFlushTimer s => st.flushed s
  | .restarted orderly opens =>
      let ended := match orderly with
        | some s => st.flushed s
        | none => st
      started ended.items.storePath ended.file opens

/-- A daemon that starts can open the file. -/
def Readable (_ : ItemStore) : ItemStoreOp → Prop
  | .restarted _ opens => opens = true
  | _ => True

instance (st : ItemStore) : (op : ItemStoreOp) → Decidable (Readable st op)
  | .restarted _ opens => inferInstanceAs (Decidable (opens = true))
  | .onItemPacket _ | .insert _ | .onFlushTimer _ => isTrue trivial

/-- The items that a daemon finds in a file. -/
def stored (file : Option CacheFile) : OrderedMap UInt32 ItemTemplate :=
  (fresh.load file true).1.cache

/-- Nothing that is in the file was lost, and unless the cache is dirty the file has all of it. -/
structure Kept (path : List Char) (st : ItemStore) : Prop where
  path : st.items.storePath = path
  keyed : WellKeyed st.items.cache
  clean : st.items.dirty = false → stored st.file = st.items.cache.mapValues ItemTemplate.reread
  kept : ∀ id, (stored st.file).find? id ≠ none → st.items.cache.find? id ≠ none

variable {path : List Char} {st : ItemStore}

-----------------------------------------------------------------------------------------
-- What is read
-----------------------------------------------------------------------------------------

/-- An item that was read once is read as it is. -/
theorem reread_fromJson (o : List (String × Json)) : (fromJson o).reread = fromJson o := by
  simp only [ItemTemplate.reread, ItemTemplate.persisted, fromJson]
  split_ifs <;> rfl

/-- So are all items of a file, by induction on its elements. -/
theorem reread_loadItem {cache : OrderedMap UInt32 ItemTemplate}
    (read : ∀ id t, cache.find? id = some t → t.reread = t) (arr : List Json)
    : ∀ id t, (arr.foldl loadItem cache).find? id = some t → t.reread = t := by
  induction arr generalizing cache with
  | nil => exact read
  | cons v rest ih =>
      refine ih ?_
      cases v with
      | object o =>
          intro id t there
          rw [loadItem] at there
          split_ifs at there
          · exact read id t there
          · rw [OrderedMap.find?_insert] at there
            split_ifs at there
            · cases there
              exact reread_fromJson o
            · exact read id t there
      | null | boolean | number | string | array => exact read

theorem mapValues_stored (file : Option CacheFile)
    : (stored file).mapValues ItemTemplate.reread = stored file := by
  have read : ∀ id t, (stored file).find? id = some t → t.reread = t := by
    rcases ItemCache.load_cache fresh file true with same | ⟨arr, loaded⟩
    · intro id t there
      rw [stored, same] at there
      cases there
    · rw [stored, loaded]
      refine reread_loadItem (fun id t there => ?_) arr
      cases there
  apply OrderedMap.ext_find?
  intro id
  rw [OrderedMap.find?_mapValues]
  cases there : (stored file).find? id with
  | none => rfl
  | some t => rw [Option.map_some, read id t there]

/-- What a cache saves. -/
theorem stored_document {c : ItemCache} (keyed : WellKeyed c.cache)
    : stored (some (some c.document)) = c.cache.mapValues ItemTemplate.reread := by
  rw [← ItemCache.loaded_cache keyed, ItemCache.document_eq]
  rfl

-----------------------------------------------------------------------------------------
-- What each step keeps
-----------------------------------------------------------------------------------------

theorem load_storePath (c : ItemCache) (file : Option CacheFile) (opens : Bool)
    : (c.load file opens).1.storePath = c.storePath := by
  cases file with
  | none => rfl
  | some contents =>
      rw [ItemCache.load.eq_def]
      dsimp only
      split_ifs
      · split <;> rfl
      · rfl

/-- Where the cache is does not matter for what is read. -/
theorem load_cache_congr {c c' : ItemCache} (same : c.cache = c'.cache) (file : Option CacheFile)
    (opens : Bool)
    : (c.load file opens).1.cache = (c'.load file opens).1.cache := by
  cases file with
  | none => exact same
  | some contents =>
      rw [ItemCache.load.eq_def, ItemCache.load.eq_def]
      dsimp only
      split_ifs
      · split
        · rw [same]
        · exact same
      · exact same

theorem started_items (named : path ≠ []) (file : Option CacheFile)
    : (started path file true).items.cache = stored file
      ∧ (started path file true).items.storePath = path := by
  rw [started, ItemCache.setStorePath, if_pos named]
  have cache : ({ fresh with storePath := path } : ItemCache).cache = fresh.cache := rfl
  exact ⟨load_cache_congr cache file true, load_storePath _ file true⟩

theorem kept_started (named : path ≠ []) (file : Option CacheFile)
    : Kept path (started path file true) := by
  obtain ⟨cache, same⟩ := started_items named file
  refine ⟨same, ?_, fun _ => ?_, fun id there => ?_⟩
  · rw [cache]
    exact ItemCache.load_wellKeyed ItemCache.wellKeyed_empty file true
  · rw [cache, mapValues_stored]
    rfl
  · rw [cache]
    exact there

/-- An item that is learned makes the cache dirty. -/
theorem Kept.learn (kept : Kept path st) (tpl : ItemTemplate) {items : ItemCache}
    (cache : items.cache = (st.items.insert tpl).cache)
    (dirty : items.dirty = (st.items.insert tpl).dirty)
    (path_ : items.storePath = (st.items.insert tpl).storePath)
    : Kept path { st with items } := by
  have keyed := ItemCache.insert_wellKeyed kept.keyed tpl
  refine ⟨path_.trans ?_, cache ▸ keyed, fun clean => ?_, fun id there => ?_⟩
  · rw [← kept.path, ItemCache.insert]
    split_ifs <;> rfl
  · rw [dirty] at clean
    rw [cache]
    rw [ItemCache.insert] at clean ⊢
    split_ifs at clean ⊢
    exact kept.clean clean
  · rw [cache, ItemCache.insert_cache]
    split_ifs
    · exact kept.kept id there
    · rw [OrderedMap.find?_insert]
      split_ifs
      · exact Option.some_ne_none tpl
      · exact kept.kept id there

theorem Kept.onItemPacket (kept : Kept path st) (data : Bytes)
    : Kept path { st with items := st.items.onItemPacket data } := by
  rw [ItemCache.onItemPacket]
  cases parseItemPacket data with
  | none => exact kept
  | some t =>
      dsimp only
      split_ifs
      · exact kept.learn t rfl rfl rfl
      · exact kept.learn t rfl rfl rfl

/-- A tick leaves the items, and the file has all of them behind one that saves. -/
theorem Kept.flushed (kept : Kept path st) (named : path ≠ []) (s : ItemSaving)
    : Kept path (st.flushed s)
      ∧ (s.opens = true → s.commits = true → (st.flushed s).items.dirty = false) := by
  have path_ : st.items.storePath ≠ [] := kept.path.symm ▸ named
  rw [ItemStore.flushed, ItemCache.onFlushTimer]
  by_cases dirty : st.items.dirty = true ∧ st.items.storePath ≠ []
  · rw [if_pos dirty, ItemCache.save, if_neg path_]
    by_cases opens : s.opens = true
    · rw [if_neg (not_not.mpr opens)]
      by_cases commits : s.commits = true
      · rw [if_neg (not_not.mpr commits)]
        have found := stored_document kept.keyed
        refine ⟨⟨kept.path, kept.keyed, fun _ => found, fun id there absent => there ?_⟩,
          fun _ _ => rfl⟩
        rw [found, OrderedMap.find?_mapValues]
        exact congrArg (Option.map ItemTemplate.reread) absent
      · rw [if_pos commits]
        exact ⟨kept, fun _ done => absurd done commits⟩
    · rw [if_pos opens]
      exact ⟨kept, fun done => absurd done opens⟩
  · rw [if_neg dirty]
    refine ⟨kept, fun _ _ => ?_⟩
    exact Bool.eq_false_iff.mpr fun on => dirty ⟨on, path_⟩

theorem Kept.step (kept : Kept path st) (named : path ≠ []) (op : ItemStoreOp)
    (readable : Readable st op)
    : Kept path (step op st) := by
  cases op with
  | onItemPacket data => exact kept.onItemPacket data
  | insert tpl => exact kept.learn tpl rfl rfl rfl
  | onFlushTimer s => exact (kept.flushed named s).1
  | restarted orderly opens =>
      obtain rfl : opens = true := readable
      cases orderly with
      | some s =>
          have ended := (kept.flushed named s).1
          rw [ItemStore.step, ended.path]
          exact kept_started named _
      | none =>
          rw [ItemStore.step, kept.path]
          exact kept_started named _

/-- Two rings are learned; the first tick cannot save, and the daemon is killed behind a second
one that can.
-/
def twoRings : List ItemStoreOp :=
  [.insert { itemId := 1, itemName := ['r'], hp := -3 }, .onFlushTimer ⟨true, false⟩,
    .insert { itemId := 2, itemName := ['s'], loreName := ['l'] }, .onFlushTimer ⟨true, true⟩,
    .restarted none true, .insert { itemId := 1, itemName := ['r'], loreName := ['r'], hp := 4 }]

end ItemStore

end Scry
