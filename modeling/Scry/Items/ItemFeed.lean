import Scry.Items.WornSlots
import Scry.Library.Replica
import Scry.Session.Feeds

/-! The items and the worn slots that clients hold.
A snapshot brings them all. Afterwards each item that is learned is sent on its own, and the worn
slots whenever a packet moves something in or out of them.
-/

namespace Scry

-----------------------------------------------------------------------------------------
-- Messages
-----------------------------------------------------------------------------------------

/-- The fields of an item on the wire. A lore name that is the name is not set. -/
structure ItemView where
  id : UInt32
  name : List Char
  loreName : List Char
  slotMask : UInt32
  flags : UInt32
  weight : Binary.Single
  hp : Int32
  mana : Int32
  endurance : Int32
  ac : Int32
  stats : Fin itemStatCount → Int32
  resists : Fin itemResCount → Int32
  corruption : Int32
  deriving DecidableEq

/-- `fillItem`. -/
def fillItem (t : ItemTemplate) : ItemView :=
  { id := t.itemId
    name := t.itemName
    loreName := if t.loreName ≠ t.itemName then t.loreName else []
    slotMask := t.slotBitmask
    flags := t.flags
    weight := t.weight
    hp := t.hp
    mana := t.mana
    endurance := t.endurance
    ac := t.ac
    stats := fun i => (t.stats i).toInt32
    resists := fun i => (t.resists i).toInt32
    corruption := t.corruption.toInt32 }

/-- `WornSet`: the slots in order with the ids of their items. -/
abbrev WornSet := List (Nat × UInt32)

/-- The bodies that tell of items. -/
inductive ItemBody
  | snapshot (items : List ItemView) (totals : Option Totals) (worn : Option WornSet)
  | itemLearned (item : ItemView)
  | wornSet (worn : WornSet)
  | itemTotals (totals : Totals)

namespace ItemCache

/-- `fillWornSet`. -/
def fillWornSet (c : ItemCache) : WornSet := c.wornSlots.entries

/-- The part of `sendSnapshot` about items. -/
def snapshotBody (c : ItemCache) : ItemBody :=
  .snapshot
    (if c.cache.size > 0 then c.sortedIds.filterMap fun id => (c.lookup id).map fillItem else [])
    (if c.wornSlots.isEmpty then none else some c.totals)
    (if c.wornSlots.isEmpty then none else some c.fillWornSet)

/-- `onItemLearned`. -/
def onItemLearned (c : ItemCache) (itemId : UInt32) : List ItemBody :=
  match c.lookup itemId with
  | none => []
  | some t => [.itemLearned (fillItem t)]

/-- `onWornSlotsChanged`. -/
def onWornSlotsChanged (c : ItemCache) : List ItemBody :=
  [.wornSet c.fillWornSet, .itemTotals c.totals]

/-- What `insert` makes an adapter send. -/
def insertSends (c : ItemCache) (tpl : ItemTemplate) : List ItemBody :=
  if tpl.itemId = 0 then [] else (c.insert tpl).onItemLearned tpl.itemId

/-- Whether the loop of `onItemPacket` over the worn slots finds the item or it is worn now. -/
def movesWorn (c : ItemCache) (t : ItemTemplate) : Bool :=
  c.wornSlots.entries.any (fun entry => entry.2 = t.itemId) || decide (t.subSlot ≤ kMaxWornSlot)

/-- What `onItemPacket` makes an adapter send. -/
def onItemPacketSends (c : ItemCache) (data : Bytes) : List ItemBody :=
  match parseItemPacket data with
  | none => []
  | some t =>
      c.insertSends t
        ++ if t.mainSlot ≠ 0 ∨ t.itemId = 0 then []
          else if c.movesWorn t then (c.onItemPacket data).onWornSlotsChanged
          else []

end ItemCache

/-- What a cache is called with once its file has been loaded. -/
inductive ItemFeedOp
  | onItemPacket (data : Bytes)
  | insert (tpl : ItemTemplate)
  | onFlushTimer (s : ItemSaving) (file : Option CacheFile)

def ItemFeedOp.op : ItemFeedOp → ItemOp
  | .onItemPacket data => .onItemPacket data
  | .insert tpl => .insert tpl
  | .onFlushTimer s file => .onFlushTimer s file

def ItemFeedOp.sends : ItemFeedOp → ItemCache → List ItemBody
  | .onItemPacket data, c => c.onItemPacketSends data
  | .insert tpl, c => c.insertSends tpl
  | .onFlushTimer _ _, _ => []

namespace ItemCache

/-- The signals of the cache are connected by a `Subscribe`. -/
def feed : FeedSource ItemCache ItemFeedOp ItemBody where
  step op c := op.op.step c
  sends := ItemFeedOp.sends
  early _ := false
  snapshot := snapshotBody
  initial _ := []

end ItemCache

-----------------------------------------------------------------------------------------
-- Clients
-----------------------------------------------------------------------------------------

/-- The items and the worn slots that a client holds. -/
structure HeldItems where
  items : OrderedMap UInt32 ItemView
  worn : WornSet

/-- What a client does with a body. A snapshot replaces the items; where it has no worn slots,
a client may keep those it holds or empty them.
-/
def HeldItems.receive (keepsWorn : Bool) (held : HeldItems) : ItemBody → HeldItems
  | .snapshot items _ worn =>
      { items := Replica.putAll ItemView.id id .empty items
        worn := worn.getD (if keepsWorn then held.worn else []) }
  | .itemLearned item => { held with items := held.items.insert item.id item }
  | .wornSet worn => { held with worn }
  | .itemTotals _ => held

namespace ItemCache

variable {c : ItemCache} {held : HeldItems} {keepsWorn : Bool}

/-- The client holds the items of the cache, and what is worn. -/
structure ShownBy (c : ItemCache) (held : HeldItems) : Prop where
  items : held.items = c.cache.mapValues fillItem
  worn : held.worn = c.wornSlots.entries

/-- The items of a snapshot are all the items. -/
theorem putAll_snapshot (keyed : WellKeyed c.cache)
    : Replica.putAll ItemView.id id .empty
        (if c.cache.size > 0 then c.sortedIds.filterMap fun id => (c.lookup id).map fillItem
          else [])
      = c.cache.mapValues fillItem := by
  have listed : (if c.cache.size > 0 then c.sortedIds.filterMap fun id => (c.lookup id).map fillItem
      else []) = c.cache.entries.map fun entry => fillItem entry.2 := by
    have each : c.sortedIds.filterMap (fun id => (c.lookup id).map fillItem)
        = c.cache.entries.map fun entry => fillItem entry.2 := by
      rw [sortedIds, OrderedMap.keys, List.filterMap_map, ← List.filterMap_eq_map]
      refine List.filterMap_congr fun entry member => ?_
      have found := OrderedMap.find?_eq_some_iff.mpr member
      simp [lookup, found]
    split
    · exact each
    · rename_i empty
      have none : c.cache.entries = [] := List.length_eq_zero_iff.mp (Nat.eq_zero_of_not_pos empty)
      simp [none]
  rw [listed, ← Replica.putAll_entries c.cache fillItem, Replica.putAll, Replica.putAll,
    List.foldl_map]
  refine List.foldl_ext _ _ _ fun m entry member => ?_
  have own := (keyed entry.1 entry.2 (OrderedMap.find?_eq_some_iff.mpr member)).1
  simp [fillItem, own]

/-- A snapshot shows the cache to a client whose worn slots are as good as kept. -/
theorem shownBy_snapshot (keyed : WellKeyed c.cache)
    (kept : c.wornSlots.entries = [] → held.worn = [])
    : c.ShownBy (held.receive keepsWorn c.snapshotBody) where
  items := putAll_snapshot keyed
  worn := by
    cases worn : c.wornSlots.entries with
    | nil =>
        have none : c.wornSlots.isEmpty = true := by simp [OrderedMap.isEmpty, worn]
        simp [HeldItems.receive, snapshotBody, none, kept worn]
    | cons first rest =>
        have some : c.wornSlots.isEmpty = false := by simp [OrderedMap.isEmpty, worn]
        simp [HeldItems.receive, snapshotBody, some, fillWornSet, worn]

/-- An item that is learned is shown. -/
theorem shownBy_insert (shown : c.ShownBy held) (tpl : ItemTemplate)
    : (c.insert tpl).ShownBy
        (FeedSource.read (HeldItems.receive keepsWorn) held (c.insertSends tpl)) := by
  by_cases unnamed : tpl.itemId = 0
  · simpa [insertSends, unnamed, insert, FeedSource.read] using shown
  · have there : (c.insert tpl).lookup tpl.itemId = some tpl := by
      rw [lookup, insert_cache, if_neg unnamed, OrderedMap.find?_insert_self]
    simp only [insertSends, if_neg unnamed, onItemLearned, there, FeedSource.read,
      List.foldl_cons, List.foldl_nil, HeldItems.receive]
    refine ⟨?_, (insert_wornSlots c tpl).symm ▸ shown.worn⟩
    rw [insert_cache, if_neg unnamed, OrderedMap.mapValues_insert, shown.items]
    rfl

/-- An item that is not worn and goes nowhere it would be leaves the worn slots. -/
theorem wear_of_not_movesWorn {t : ItemTemplate} (stays : c.movesWorn t = false)
    : wear c.wornSlots t = c.wornSlots := by
  obtain ⟨absent, stowed⟩ := Bool.or_eq_false_iff.mp stays
  have all : c.wornSlots.filterValues (· ≠ t.itemId) = c.wornSlots := by
    apply OrderedMap.ext_entries
    rw [OrderedMap.filterValues, List.filter_eq_self]
    intro entry member
    simpa using List.any_eq_false.mp absent entry member
  rw [wear, all, if_neg (of_decide_eq_false stowed)]

/-- Worn slots that are sent are shown. -/
theorem shownBy_wornSlotsChanged {d : ItemCache} (shown : d.ShownBy held)
    (same : c.cache = d.cache)
    : c.ShownBy
        (FeedSource.read (HeldItems.receive keepsWorn) held c.onWornSlotsChanged) :=
  ⟨shown.items.trans (congrArg _ same.symm), rfl⟩

/-- Whoever shows the cache shows it after a packet and what that sends. -/
theorem shownBy_onItemPacket (shown : c.ShownBy held) (data : Bytes)
    : (c.onItemPacket data).ShownBy
        (FeedSource.read (HeldItems.receive keepsWorn) held (c.onItemPacketSends data)) := by
  cases parsed : parseItemPacket data with
  | none => simpa [onItemPacket, onItemPacketSends, parsed, FeedSource.read] using shown
  | some t =>
      have learned := @shownBy_insert c held keepsWorn shown t
      have items : (c.onItemPacket data).cache = (c.insert t).cache := by
        rw [onItemPacket_cache, parsed]
      have slots := onItemPacket_wornSlots c parsed
      simp only [onItemPacketSends, parsed, FeedSource.read_append]
      by_cases bagged : t.mainSlot ≠ 0 ∨ t.itemId = 0
      · have still : ¬ t.Moves := fun moves => bagged.elim (· moves.1) moves.2
        rw [if_neg still, ← insert_wornSlots c t] at slots
        rw [if_pos bagged]
        exact ⟨learned.items.trans (congrArg _ items.symm),
          learned.worn.trans (congrArg _ slots.symm)⟩
      · have moves : t.Moves :=
          ⟨not_not.mp fun bag => bagged (.inl bag), fun zero => bagged (.inr zero)⟩
        rw [if_pos moves] at slots
        rw [if_neg bagged]
        cases signalled : c.movesWorn t with
        | true => exact shownBy_wornSlotsChanged learned items
        | false =>
            rw [wear_of_not_movesWorn signalled, ← insert_wornSlots c t] at slots
            exact ⟨learned.items.trans (congrArg _ items.symm),
              learned.worn.trans (congrArg _ slots.symm)⟩

theorem followed
    : feed.Followed (HeldItems.receive keepsWorn) ⟨.empty, []⟩ (fun c => WellKeyed c.cache)
        (fun held c => c.ShownBy held) where
  keeps c op keyed := step_wellKeyed c op.op keyed
  greets c waiting keyed early := by
    have none : waiting = [] :=
      List.eq_nil_iff_forall_not_mem.mpr fun body held => Bool.false_ne_true (early body held)
    subst none
    exact shownBy_snapshot keyed fun _ => rfl
  follows c op held _ shown := by
    cases op with
    | onItemPacket data => exact shownBy_onItemPacket shown data
    | insert tpl => exact shownBy_insert shown tpl
    | onFlushTimer s file =>
        obtain ⟨items, slots⟩ := onFlushTimer_cache c s file
        exact ⟨shown.items.trans (congrArg _ items.symm), shown.worn.trans (congrArg _ slots.symm)⟩
  refreshes c held keyed shown := shownBy_snapshot keyed fun none => shown.worn.trans none

/-- In every run of item packets, inserts, flushes and sessions, over whatever file the cache was
loaded from, a client that has subscribed holds for every id what the cache knows of the item,
and the worn slots with their items, whenever it subscribed.
-/
theorem items_current {path : List Char} {file : Option CacheFile} {opens : Bool}
    {f : Fed ItemCache ItemBody}
    (reached : feed.Reaches (fresh.setStorePath path file opens) f) {id : String}
    {a : SessionAdapter ItemBody} (there : f.sessions id = some a)
    (subscribed : a.subscribed = true) (keepsWorn : Bool)
    : f.source.ShownBy
        (FeedSource.read (HeldItems.receive keepsWorn) ⟨.empty, []⟩ a.bodies) := by
  have keyed : WellKeyed (fresh.setStorePath path file opens).cache :=
    step_wellKeyed fresh (.setStorePath path file opens) wellKeyed_empty
  exact (followed.shows keyed reached).2 id a there subscribed

/-- A ring is put on before a client subscribes and taken off afterwards. -/
def ringRun : List (FeedEvent ItemFeedOp) :=
  [.operate (.onItemPacket (itemPacket 7 0 15)) (fun _ => 1), .opened "tab" .noop,
    .operate (.onItemPacket (itemPacket 8 0 16)) (fun _ => 1), .subscribed "tab" (fun _ => 2),
    .operate (.onItemPacket (itemPacket 7 0 30)) (fun _ => 3)]

theorem items_current_ring
    : ∃ a : SessionAdapter ItemBody,
        (FeedSource.read (HeldItems.receive true) ⟨.empty, []⟩ a.bodies).worn = [(16, 8)] := by
  let f := Machine.exec feed.happen
    (FeedSource.start ((fresh : ItemCache).setStorePath [] none true)) ringRun
  have live : (f.sessions "tab").map (·.subscribed) = some true := by decide +kernel
  obtain ⟨a, there, subscribed⟩ := Option.map_eq_some_iff.mp live
  have reached : feed.Reaches ((fresh : ItemCache).setStorePath [] none true) f :=
    Machine.reaches_exec (by simp [Machine.Permits, ringRun])
  have shown := items_current reached there subscribed true
  exact ⟨a, shown.worn.trans (by decide +kernel)⟩

end ItemCache

end Scry
