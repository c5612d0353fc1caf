import Scry.Items.ItemCache

/-! The file of the item cache: items come back as they were saved, if none with a name has an
empty lore name.
-/

namespace Scry

open Binary

-----------------------------------------------------------------------------------------
-- Items
-----------------------------------------------------------------------------------------

namespace ItemTemplate

/-- What the file keeps of an item. -/
def persisted (t : ItemTemplate) : ItemTemplate :=
  { t with packetType := 0, mainSlot := 0, subSlot := 0, stackCount := 0 }

/-- What comes back of an item. -/
def reread (t : ItemTemplate) : ItemTemplate :=
  { t.persisted with loreName := if t.loreName = [] then t.itemName else t.loreName }

/-- Each member is inserted once. -/
theorem members_nodup (t : ItemTemplate) : (t.members.map Prod.fst).Nodup := by
  have names : t.members.map Prod.fst
      = ["id", "name", "lore", "slotMask", "flags", "weight", "hp", "mana", "endurance", "ac",
          "stats", "resists", "corruption"] := rfl
  rw [names]
  decide

theorem value_members {t : ItemTemplate} {key : String} {member : Option Json}
    (there : t.members.lookup key = some member)
    : Json.value (Json.present t.members) key = member.getD .null := by
  rw [Json.value_present t.members_nodup, there]
  rfl

end ItemTemplate

/-- An integer that is left out where it is zero. -/
theorem toInt_member (i : Int32)
    : ((if i ≠ 0 then some (Json.number i.toInt) else none).getD .null).toInt = i := by
  split_ifs with zero
  · exact Json.toInt_int32 i
  · exact (not_not.mp zero).symm

theorem toInt8_member (i : Int8)
    : ((if i ≠ 0 then some (Json.number i.toInt) else none).getD .null).toInt.toInt8 = i := by
  split_ifs with zero
  · exact Json.toInt_int8 i
  · rw [not_not.mp zero]
    rfl

theorem toUInt32_member (n : UInt32)
    : ((if n ≠ 0 then some (Json.number n.toNat) else none).getD .null).toULongLong.toUInt32
      = n := by
  split_ifs with zero
  · exact Json.toULongLong_uint32 n
  · rw [not_not.mp zero]
    rfl

/-- A double has all bits of a single. -/
theorem weight_member (w : Single)
    : ((if w.value ≠ 0 then some (Json.number (w.convert : Double).value) else none).getD
        .null).toDouble.convert = w := by
  split_ifs with zero
  · rw [Option.getD_some, Json.toDouble_double, Number.convert, Number.convert_value (by decide),
      Number.nearest_value]
  · have none_ : w = 0 := by
      obtain ⟨value, representable⟩ := w
      obtain rfl : value = 0 := not_not.mp zero
      rfl
    rw [none_]
    exact Number.nearest_value 0

theorem byteOf_member {n : Nat} (f : Fin n → Int8) (i : Fin n)
    : byteOf ((if ∃ i, f i ≠ 0 then some (Json.array (List.ofFn fun i => .number (f i).toInt))
          else none).getD .null).toArray i
      = f i := by
  split_ifs with some_
  · have there : (List.ofFn fun i => Json.number (f i).toInt)[i.val]?
        = some (.number (f i).toInt) := by
      simp
    rw [Option.getD_some, Json.toArray_array, byteOf, there]
    exact Json.toInt_int8 (f i)
  · have zero : f i = 0 := not_not.mp (not_exists.mp some_ i)
    rw [zero]
    rfl

/-- A lore name that is left out is the name. -/
theorem lore_member (name lore : List Char)
    : (if ((if lore ≠ name then some (Json.string lore) else none).getD .null).toText = [] then name
        else ((if lore ≠ name then some (Json.string lore) else none).getD .null).toText)
      = if lore = [] then name else lore := by
  by_cases same : lore = name
  · subst same
    simp [Json.toText]
  · simp [same]

/-- What is read of the members of an item. -/
theorem fromJson_present (t : ItemTemplate) : fromJson (Json.present t.members) = t.reread := by
  have read (key : String) {member : Option Json} (there : t.members.lookup key = some member)
      : Json.value (Json.present t.members) key = member.getD .null :=
    ItemTemplate.value_members there
  simp only [fromJson, read "id" rfl, read "name" rfl, read "lore" rfl, read "slotMask" rfl,
    read "flags" rfl, read "weight" rfl, read "hp" rfl, read "mana" rfl, read "endurance" rfl,
    read "ac" rfl, read "stats" rfl, read "resists" rfl, read "corruption" rfl]
  simp only [Option.getD_some, Json.toText_string, Json.toULongLong_uint32, toInt_member,
    toInt8_member, toUInt32_member, weight_member, byteOf_member, lore_member]
  rfl

/-- An item comes back if and only if its lore name is not empty beside a name. -/
theorem reread_eq_iff {t : ItemTemplate}
    : t.reread = t.persisted ↔ (t.loreName = [] → t.itemName = []) := by
  constructor
  · intro same bare
    have lore : (if t.loreName = [] then t.itemName else t.loreName) = t.loreName :=
      congrArg ItemTemplate.loreName same
    rw [if_pos bare] at lore
    exact lore.trans bare
  · intro named
    rw [ItemTemplate.reread]
    split_ifs with bare
    · rw [named bare, ← bare]
      rfl
    · rfl

-----------------------------------------------------------------------------------------
-- The file
-----------------------------------------------------------------------------------------

namespace ItemCache

theorem document_eq (c : ItemCache)
    : c.document = .array (c.cache.entries.map fun entry => toJson entry.2) := by
  have values : ∀ entry ∈ c.cache.entries,
      toJson ((c.cache.find? entry.1).getD {}) = toJson entry.2 := by
    intro entry member
    rw [OrderedMap.find?_eq_some_iff.mpr member, Option.getD_some]
  rw [document, sortedIds, OrderedMap.keys, List.map_map]
  exact congrArg Json.array (List.map_congr_left values)

/-- The items of a file are inserted under their keys, by induction on them. -/
theorem foldl_loadItem {entries : List (UInt32 × ItemTemplate)}
    (keyed : ∀ entry ∈ entries, entry.2.itemId = entry.1 ∧ entry.1 ≠ 0)
    (cache : OrderedMap UInt32 ItemTemplate)
    : (entries.map fun entry => toJson entry.2).foldl loadItem cache
      = entries.foldl (fun m entry => m.insert entry.1 entry.2.reread) cache := by
  induction entries generalizing cache with
  | nil => rfl
  | cons entry rest ih =>
      obtain ⟨same, named⟩ := keyed entry (by simp)
      have step : loadItem cache (toJson entry.2) = cache.insert entry.1 entry.2.reread := by
        have id : entry.2.reread.itemId = entry.1 := same
        rw [toJson, loadItem, fromJson_present, id, if_neg named]
      rw [List.map_cons, List.foldl_cons, List.foldl_cons, step]
      exact ih (fun other member => keyed other (List.mem_cons_of_mem entry member)) _

/-- What a new cache reads of the file of another. -/
theorem loaded_cache {c : ItemCache} (keyed : WellKeyed c.cache)
    : (match c.document with
        | .array arr => arr.foldl loadItem .empty
        | _ => .empty)
      = c.cache.mapValues ItemTemplate.reread := by
  have entries : ∀ entry ∈ c.cache.entries, entry.2.itemId = entry.1 ∧ entry.1 ≠ 0 := by
    intro entry member
    exact keyed _ _ (OrderedMap.find?_eq_some_iff.mpr member)
  rw [document_eq]
  dsimp only
  rw [foldl_loadItem entries]
  apply OrderedMap.ext_find?
  intro id
  rw [OrderedMap.find?_foldl_insert ItemTemplate.reread c.cache.keys_nodup, OrderedMap.find?_empty,
    OrderedMap.find?_mapValues, OrderedMap.find?, Option.map_map]
  simp
  rfl

/-- The cache that loads what another saved. -/
def reloaded (c : ItemCache) (s : ItemSaving) (old : Option CacheFile) : ItemCache :=
  fresh.setStorePath c.storePath (c.save s old).2.1 true

/-- The items come back as they were saved, and are saved as they came. -/
structure RoundTrips (c : ItemCache) (s : ItemSaving) (old : Option CacheFile) : Prop where
  items : ∀ id, ((c.reloaded s old).lookup id).map ItemTemplate.persisted
    = (c.lookup id).map ItemTemplate.persisted
  file : ((c.reloaded s old).save s (c.save s old).2.1).2.1 = (c.save s old).2.1

variable {c : ItemCache} {s : ItemSaving}

theorem save_file (path : c.storePath ≠ []) (opens : s.opens) (commits : s.commits)
    (old : Option CacheFile)
    : (c.save s old).2.1 = some (some c.document) := by
  rw [save, if_neg path, if_neg (not_not.mpr opens), if_neg (not_not.mpr commits)]

theorem reloaded_eq (keyed : WellKeyed c.cache) (path : c.storePath ≠ []) (opens : s.opens)
    (commits : s.commits) (old : Option CacheFile)
    : c.reloaded s old
      = { fresh with storePath := c.storePath, cache := c.cache.mapValues ItemTemplate.reread } := by
  rw [reloaded, save_file path opens commits, setStorePath, if_pos path, ← loaded_cache keyed,
    document_eq]
  rfl

/-- A cache comes back if and only if none of its items with a name has an empty lore name. -/
theorem cacheFile_iff_lore (keyed : WellKeyed c.cache) (path : c.storePath ≠ [])
    (opens : s.opens) (commits : s.commits) (old : Option CacheFile)
    : c.RoundTrips s old ↔ ∀ id t, c.lookup id = some t → t.loreName = [] → t.itemName = [] := by
  have found : ∀ id, (c.reloaded s old).lookup id = (c.lookup id).map ItemTemplate.reread := by
    intro id
    rw [reloaded_eq keyed path opens commits, lookup, OrderedMap.find?_mapValues, lookup]
  constructor
  · intro returns id t there
    have same := returns.items id
    rw [found, there, Option.map_some, Option.map_some, Option.map_some, Option.some_inj] at same
    exact reread_eq_iff.mp same
  · intro named
    refine ⟨?_, ?_⟩
    · intro id
      rw [found]
      cases there : c.lookup id with
      | none => rfl
      | some t =>
          rw [Option.map_some, Option.map_some, reread_eq_iff.mpr (named id t there)]
          rfl
    · rw [save_file (by rw [reloaded_eq keyed path opens commits]; exact path) opens commits,
        save_file path opens commits, reloaded_eq keyed path opens commits, document_eq, document_eq]
      have again : ∀ entry ∈ c.cache.entries, toJson entry.2.reread = toJson entry.2 := by
        intro entry member
        have there : c.lookup entry.1 = some entry.2 := OrderedMap.find?_eq_some_iff.mpr member
        rw [reread_eq_iff.mpr (named _ _ there)]
        rfl
      rw [OrderedMap.mapValues, List.map_map]
      exact congrArg (fun items => some (some (Json.array items))) (List.map_congr_left again)

/-- What operations put into a cache comes back from its file if and only if no item with a name
has an empty lore name.
-/
theorem cacheFile_iff (ops : List ItemOp) (path : (after ops).storePath ≠ []) (opens : s.opens)
    (commits : s.commits) (old : Option CacheFile)
    : (after ops).RoundTrips s old
      ↔ ∀ id t, (after ops).lookup id = some t → t.loreName = [] → t.itemName = [] :=
  cacheFile_iff_lore (wellKeyed_after ops) path opens commits old

/-- A cache with one item. -/
def learns (itemName loreName : List Char) : List ItemOp :=
  [.setStorePath ['p'] none true, .insert { itemId := 1, itemName, loreName, hp := -3 }]

theorem cacheFile_ring
    : (after (learns ['r'] ['r'])).RoundTrips ⟨true, true⟩ none
      ↔ ∀ id t, (after (learns ['r'] ['r'])).lookup id = some t → t.loreName = [] →
        t.itemName = [] :=
  cacheFile_iff (learns ['r'] ['r']) (by decide +kernel) rfl rfl none

/-- An empty lore name comes back as the name. -/
theorem not_cacheFile_bare
    : ¬ ∀ ops s old, (after ops).storePath ≠ [] → s.opens = true → s.commits = true →
      (after ops).RoundTrips s old := by
  intro returns
  have same := (returns (learns ['r'] []) ⟨true, true⟩ none (by decide +kernel) rfl rfl).items 1
  revert same
  decide +kernel

end ItemCache

end Scry
