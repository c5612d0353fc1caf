import Scry.Items.ItemPacket
import Scry.Library.Json
import Scry.Library.Machine
import Scry.Library.OrderedMap

/-! The item cache: what packets tell of items, which items are worn, and the file that keeps what
items are worth.
-/

namespace Scry

open Binary

-----------------------------------------------------------------------------------------
-- Items in JSON
-----------------------------------------------------------------------------------------

/-- The members of an item, in the order in which they are inserted. -/
def ItemTemplate.members (t : ItemTemplate) : List (String × Option Json) :=
  [ ("id", some (.number t.itemId.toNat)),
    ("name", some (.string t.itemName)),
    ("lore", if t.loreName ≠ t.itemName then some (.string t.loreName) else none),
    ("slotMask", some (.number t.slotBitmask.toNat)),
    ("flags", if t.flags ≠ 0 then some (.number t.flags.toNat) else none),
    ("weight",
      if t.weight.value ≠ 0 then some (.number (t.weight.convert : Double).value) else none),
    ("hp", if t.hp ≠ 0 then some (.number t.hp.toInt) else none),
    ("mana", if t.mana ≠ 0 then some (.number t.mana.toInt) else none),
    ("endurance", if t.endurance ≠ 0 then some (.number t.endurance.toInt) else none),
    ("ac", if t.ac ≠ 0 then some (.number t.ac.toInt) else none),
    ("stats",
      if ∃ i, t.stats i ≠ 0 then
        some (.array (List.ofFn fun i => .number (t.stats i).toInt))
      else none),
    ("resists",
      if ∃ i, t.resists i ≠ 0 then
        some (.array (List.ofFn fun i => .number (t.resists i).toInt))
      else none),
    ("corruption", if t.corruption ≠ 0 then some (.number t.corruption.toInt) else none) ]

def toJson (t : ItemTemplate) : Json := .object (Json.present t.members)

/-- A byte of an array; zero behind its end. -/
def byteOf (elements : List Json) (i : Nat) : Int8 :=
  match elements[i]? with
  | some element => element.toInt.toInt8
  | none => 0

def fromJson (o : List (String × Json)) : ItemTemplate :=
  let itemName := (Json.value o "name").toText
  let loreName := (Json.value o "lore").toText
  { itemId := (Json.value o "id").toULongLong.toUInt32
    itemName := itemName
    loreName := if loreName = [] then itemName else loreName
    slotBitmask := (Json.value o "slotMask").toULongLong.toUInt32
    flags := (Json.value o "flags").toULongLong.toUInt32
    weight := (Json.value o "weight").toDouble.convert
    hp := (Json.value o "hp").toInt
    mana := (Json.value o "mana").toInt
    endurance := (Json.value o "endurance").toInt
    ac := (Json.value o "ac").toInt
    stats := fun i => byteOf (Json.value o "stats").toArray i
    resists := fun i => byteOf (Json.value o "resists").toArray i
    corruption := (Json.value o "corruption").toInt.toInt8 }

-----------------------------------------------------------------------------------------
-- The cache
-----------------------------------------------------------------------------------------

def kMaxWornSlot : UInt16 := 22

structure ItemCache where
  cache : OrderedMap UInt32 ItemTemplate
  wornSlots : OrderedMap Nat UInt32
  storePath : List Char
  learnedCount : Nat
  dirty : Bool
  deriving DecidableEq

/-- `ItemCache::Totals`. -/
structure Totals where
  itemCount : Int32 := 0
  hp : Int32 := 0
  mana : Int32 := 0
  endurance : Int32 := 0
  ac : Int32 := 0
  stats : Fin itemStatCount → Int32 := fun _ => 0
  resists : Fin itemResCount → Int32 := fun _ => 0
  corruption : Int32 := 0
  deriving DecidableEq

/-- The contents of the file of the cache, if it can be read as JSON. -/
abbrev CacheFile : Type := Option Json

/-- How saving comes out. -/
structure ItemSaving where
  opens : Bool
  commits : Bool
  deriving DecidableEq

/-- One round of the loop of `totals`. -/
def Totals.add (t : Totals) (v : ItemTemplate) : Totals :=
  { itemCount := t.itemCount + 1
    hp := t.hp + v.hp
    mana := t.mana + v.mana
    endurance := t.endurance + v.endurance
    ac := t.ac + v.ac
    stats := fun i => t.stats i + (v.stats i).toInt32
    resists := fun i => t.resists i + (v.resists i).toInt32
    corruption := t.corruption + v.corruption.toInt32 }

namespace ItemCache

/-- A new cache. -/
def fresh : ItemCache :=
  { cache := .empty, wornSlots := .empty, storePath := [], learnedCount := 0, dirty := false }

def lookup (c : ItemCache) (itemId : UInt32) : Option ItemTemplate := c.cache.find? itemId

def insert (c : ItemCache) (tpl : ItemTemplate) : ItemCache :=
  if tpl.itemId = 0 then c
  else
    { c with
      learnedCount :=
        if c.cache.find? tpl.itemId = none then c.learnedCount + 1 else c.learnedCount
      cache := c.cache.insert tpl.itemId tpl
      dirty := true }

/-- The sum over a map without order does not depend on the order. -/
def totals (c : ItemCache) : Totals :=
  c.wornSlots.entries.foldl
    (fun t worn =>
      match c.cache.find? worn.2 with
      | some v => t.add v
      | none => t)
    {}

/-- The keys of the map are listed in order. -/
def sortedIds (c : ItemCache) : List UInt32 := c.cache.keys

/-- What `onItemPacket` makes of the worn slots. -/
def wear (worn : OrderedMap Nat UInt32) (t : ItemTemplate) : OrderedMap Nat UInt32 :=
  let vacated := worn.filterValues (· ≠ t.itemId)
  if t.subSlot ≤ kMaxWornSlot then vacated.insert t.subSlot.toNat t.itemId else vacated

def onItemPacket (c : ItemCache) (data : Bytes) : ItemCache :=
  match parseItemPacket data with
  | none => c
  | some t =>
      let learned := c.insert t
      if t.mainSlot ≠ 0 ∨ t.itemId = 0 then learned
      else { learned with wornSlots := wear learned.wornSlots t }

/-- One round of the loop of `load`. -/
def loadItem (cache : OrderedMap UInt32 ItemTemplate) : Json → OrderedMap UInt32 ItemTemplate
  | .object o =>
      let t := fromJson o
      if t.itemId = 0 then cache else cache.insert t.itemId t
  | _ => cache

/-- `load`, of the file if there is one. -/
def load (c : ItemCache) (file : Option CacheFile) (opens : Bool) : ItemCache × Bool :=
  match file with
  | none => (c, true)
  | some contents =>
      if opens then
        match contents with
        | some (.array arr) => ({ c with cache := arr.foldl loadItem c.cache, dirty := false }, true)
        | _ => (c, false)
      else (c, false)

/-- `setStorePath`, with the file that is found there. -/
def setStorePath (c : ItemCache) (path : List Char) (file : Option CacheFile) (opens : Bool)
    : ItemCache :=
  let c := { c with storePath := path }
  if path ≠ [] then (c.load file opens).1 else c

/-- What `save` writes. -/
def document (c : ItemCache) : Json :=
  .array (c.sortedIds.map fun id => toJson ((c.cache.find? id).getD {}))

/-- `save`, and the file of the cache: it is replaced as a whole or not at all. -/
def save (c : ItemCache) (s : ItemSaving) (file : Option CacheFile)
    : ItemCache × Option CacheFile × Bool :=
  if c.storePath = [] then (c, file, false)
  else if ¬ s.opens then (c, file, false)
  else if ¬ s.commits then (c, file, false)
  else ({ c with dirty := false }, some (some c.document), true)

def onFlushTimer (c : ItemCache) (s : ItemSaving) (file : Option CacheFile)
    : ItemCache × Option CacheFile :=
  if c.dirty ∧ c.storePath ≠ [] then ((c.save s file).1, (c.save s file).2.1) else (c, file)

end ItemCache

-----------------------------------------------------------------------------------------
-- Runs
-----------------------------------------------------------------------------------------

/-- What a cache is called with, with the file that is there. -/
inductive ItemOp
  | onItemPacket (data : Bytes)
  | insert (tpl : ItemTemplate)
  | setStorePath (path : List Char) (file : Option CacheFile) (opens : Bool)
  | save (s : ItemSaving) (file : Option CacheFile)
  | onFlushTimer (s : ItemSaving) (file : Option CacheFile)

def ItemOp.step : ItemOp → ItemCache → ItemCache
  | .onItemPacket data, c => c.onItemPacket data
  | .insert tpl, c => c.insert tpl
  | .setStorePath path file opens, c => c.setStorePath path file opens
  | .save s file, c => (c.save s file).1
  | .onFlushTimer s file, c => (c.onFlushTimer s file).1

namespace ItemCache

/-- A cache after operations. -/
def after (ops : List ItemOp) : ItemCache := Machine.exec ItemOp.step fresh ops

/-- Items are under their own keys, and none has the key zero. -/
def WellKeyed (cache : OrderedMap UInt32 ItemTemplate) : Prop :=
  ∀ id t, cache.find? id = some t → t.itemId = id ∧ id ≠ 0

theorem wellKeyed_empty : WellKeyed .empty := by
  intro id t there
  rw [OrderedMap.find?_empty] at there
  cases there

theorem wellKeyed_insert {cache : OrderedMap UInt32 ItemTemplate} (kept : WellKeyed cache)
    {t : ItemTemplate} (named : t.itemId ≠ 0)
    : WellKeyed (cache.insert t.itemId t) := by
  intro id found there
  rw [OrderedMap.find?_insert] at there
  split_ifs at there with same
  · cases there
    exact ⟨same.symm, same ▸ named⟩
  · exact kept id found there

theorem insert_cache (c : ItemCache) (tpl : ItemTemplate)
    : (c.insert tpl).cache
      = if tpl.itemId = 0 then c.cache else c.cache.insert tpl.itemId tpl := by
  by_cases unnamed : tpl.itemId = 0
  · rw [insert, if_pos unnamed, if_pos unnamed]
  · rw [insert, if_neg unnamed, if_neg unnamed]

theorem insert_wellKeyed {c : ItemCache} (kept : WellKeyed c.cache) (tpl : ItemTemplate)
    : WellKeyed (c.insert tpl).cache := by
  rw [insert_cache]
  split_ifs with unnamed
  · exact kept
  · exact wellKeyed_insert kept unnamed

/-- Items of a file, by induction on its elements. -/
theorem wellKeyed_load {cache : OrderedMap UInt32 ItemTemplate} (kept : WellKeyed cache)
    (arr : List Json)
    : WellKeyed (arr.foldl loadItem cache) := by
  induction arr generalizing cache with
  | nil => exact kept
  | cons v rest ih =>
      apply ih
      cases v with
      | object o =>
          rw [loadItem]
          split_ifs with unnamed
          · exact kept
          · exact wellKeyed_insert kept unnamed
      | null | boolean | number | string | array => exact kept

/-- What a file makes of the items. -/
theorem load_cache (c : ItemCache) (file : Option CacheFile) (opens : Bool)
    : (c.load file opens).1.cache = c.cache
      ∨ ∃ arr : List Json, (c.load file opens).1.cache = arr.foldl loadItem c.cache := by
  cases file with
  | none => exact .inl rfl
  | some contents =>
      cases opens with
      | false => exact .inl rfl
      | true =>
          cases contents with
          | none => exact .inl rfl
          | some document =>
              cases document with
              | array arr => exact .inr ⟨arr, rfl⟩
              | null | boolean | number | string | object => exact .inl rfl

/-- A file tells nothing of what is worn. -/
theorem load_wornSlots (c : ItemCache) (file : Option CacheFile) (opens : Bool)
    : (c.load file opens).1.wornSlots = c.wornSlots := by
  cases file with
  | none => rfl
  | some contents =>
      rw [load.eq_def]
      dsimp only
      split_ifs
      · split <;> rfl
      · rfl

theorem load_wellKeyed {c : ItemCache} (kept : WellKeyed c.cache) (file : Option CacheFile)
    (opens : Bool)
    : WellKeyed (c.load file opens).1.cache := by
  rcases load_cache c file opens with same | ⟨arr, loaded⟩
  · rw [same]
    exact kept
  · rw [loaded]
    exact wellKeyed_load kept arr

/-- Saving leaves the items. -/
theorem save_cache (c : ItemCache) (s : ItemSaving) (file : Option CacheFile)
    : (c.save s file).1.cache = c.cache ∧ (c.save s file).1.wornSlots = c.wornSlots := by
  rw [save]
  split_ifs <;> exact ⟨rfl, rfl⟩

theorem onFlushTimer_cache (c : ItemCache) (s : ItemSaving) (file : Option CacheFile)
    : (c.onFlushTimer s file).1.cache = c.cache
      ∧ (c.onFlushTimer s file).1.wornSlots = c.wornSlots := by
  rw [onFlushTimer]
  split_ifs
  · exact save_cache c s file
  · exact ⟨rfl, rfl⟩

/-- What a packet makes of the items. -/
theorem onItemPacket_cache (c : ItemCache) (data : Bytes)
    : (c.onItemPacket data).cache
      = match parseItemPacket data with
        | some t => (c.insert t).cache
        | none => c.cache := by
  rw [onItemPacket]
  cases parseItemPacket data with
  | none => rfl
  | some t =>
      dsimp only
      split_ifs <;> rfl

theorem step_wellKeyed (c : ItemCache) (op : ItemOp) (kept : WellKeyed c.cache)
    : WellKeyed (op.step c).cache := by
  cases op with
  | onItemPacket data =>
      rw [ItemOp.step, onItemPacket_cache]
      cases parseItemPacket data with
      | none => exact kept
      | some t => exact insert_wellKeyed kept t
  | insert tpl => exact insert_wellKeyed kept tpl
  | setStorePath path file opens =>
      rw [ItemOp.step, setStorePath]
      split_ifs
      · exact load_wellKeyed (c := { c with storePath := path }) kept file opens
      · exact kept
  | save s file =>
      rw [ItemOp.step, (save_cache c s file).1]
      exact kept
  | onFlushTimer s file =>
      rw [ItemOp.step, (onFlushTimer_cache c s file).1]
      exact kept

/-- After any operations items are under their own keys. -/
theorem wellKeyed_after (ops : List ItemOp) : WellKeyed (after ops).cache :=
  Machine.exec_invariant (I := fun c : ItemCache => WellKeyed c.cache) wellKeyed_empty
    step_wellKeyed ops

end ItemCache

end Scry
