import Mathlib.Data.List.Induction
import Scry.Items.ItemCache
import Scry.Library.LittleEndian

/-! The worn slots follow the items: an item is in a slot where the last packet of it outside of
bags put it there and no later one put another item there, and the totals are those of the worn
items.
-/

namespace Scry

-----------------------------------------------------------------------------------------
-- What packets tell of places
-----------------------------------------------------------------------------------------

/-- An item outside of bags in a worn slot. -/
def ItemTemplate.Places (t : ItemTemplate) (slot : Nat) : Prop :=
  t.mainSlot = 0 ∧ t.subSlot ≤ kMaxWornSlot ∧ t.subSlot.toNat = slot

/-- The last of the told items with an id is in a worn slot, and no later one is there. -/
def PlacedAt (told : List ItemTemplate) (slot : Nat) (id : UInt32) : Prop :=
  ∃ before t after, told = before ++ t :: after ∧ t.itemId = id ∧ t.Places slot
    ∧ ∀ later ∈ after, later.itemId ≠ id ∧ ¬ later.Places slot

/-- The item that a packet tells. -/
def ItemOp.told : ItemOp → Option ItemTemplate
  | .onItemPacket data => parseItemPacket data
  | _ => none

/-- The items of packets, in order. -/
def told (ops : List ItemOp) : List ItemTemplate := ops.filterMap ItemOp.told

/-- An item outside of bags that has an id. -/
def ItemTemplate.Moves (t : ItemTemplate) : Prop := t.mainSlot = 0 ∧ t.itemId ≠ 0

instance decidableMoves (t : ItemTemplate) : Decidable t.Moves :=
  inferInstanceAs (Decidable (_ ∧ _))

/-- The items of packets that are outside of bags and have an id. -/
def placed (ops : List ItemOp) : List ItemTemplate := (told ops).filter fun t => t.Moves

theorem placed_of_silent {op : ItemOp} (silent : op.told = none) : placed [op] = [] := by
  rw [placed, told, List.filterMap_cons_none silent]
  rfl

theorem placed_of_told {op : ItemOp} {t : ItemTemplate} (tells : op.told = some t)
    : placed [op] = if t.Moves then [t] else [] := by
  rw [placed, told, List.filterMap_cons_some tells]
  by_cases moves : t.Moves
  · simp [moves]
  · simp [moves]

theorem placedAt_concat {items : List ItemTemplate} {t : ItemTemplate} {slot : Nat} {id : UInt32}
    : PlacedAt (items ++ [t]) slot id
      ↔ (t.itemId = id ∧ t.Places slot)
        ∨ (t.itemId ≠ id ∧ ¬ t.Places slot) ∧ PlacedAt items slot id := by
  constructor
  · rintro ⟨before, found, after, whole, named, places, last⟩
    rcases after.eq_nil_or_concat with rfl | ⟨front, later, rfl⟩
    · obtain ⟨rfl, same⟩ := List.append_inj' whole rfl
      obtain rfl : t = found := by simpa using same
      exact .inl ⟨named, places⟩
    · rw [List.concat_eq_append, ← List.cons_append, ← List.append_assoc] at whole
      obtain ⟨rfl, same⟩ := List.append_inj' whole rfl
      obtain rfl : t = later := by simpa using same
      refine .inr ⟨last t (by simp), before, found, front, rfl, named, places, ?_⟩
      intro other member
      exact last other (by simp [member])
  · rintro (⟨named, places⟩ | ⟨other, before, found, after, rfl, named, places, last⟩)
    · exact ⟨items, t, [], rfl, named, places, by simp⟩
    · refine ⟨before, found, after ++ [t], by simp, named, places, ?_⟩
      intro later member
      rcases List.mem_append.mp member with old | new
      · exact last later old
      · rw [List.mem_singleton.mp new]
        exact other

/-- An item is placed once, by induction on what is told, from its end. -/
theorem placedAt_unique {items : List ItemTemplate} {slot slot' : Nat} {id : UInt32}
    (here : PlacedAt items slot id) (there : PlacedAt items slot' id)
    : slot = slot' := by
  induction items using List.reverseRecOn with
  | nil =>
      obtain ⟨before, t, after, whole, _⟩ := here
      simp at whole
  | append_singleton items t ih =>
      rcases placedAt_concat.mp here with ⟨named, _, _, rfl⟩ | ⟨⟨other, _⟩, here⟩
      · rcases placedAt_concat.mp there with ⟨_, _, _, rfl⟩ | ⟨⟨other, _⟩, _⟩
        · rfl
        · exact absurd named other
      · rcases placedAt_concat.mp there with ⟨named, _⟩ | ⟨_, there⟩
        · exact absurd named other
        · exact ih here there

-----------------------------------------------------------------------------------------
-- The worn slots
-----------------------------------------------------------------------------------------

namespace ItemCache

/-- What an item outside of bags makes of the worn slots. -/
theorem find?_wear {t : ItemTemplate} (outside : t.mainSlot = 0) (worn : OrderedMap Nat UInt32)
    (slot : Nat) (id : UInt32)
    : (wear worn t).find? slot = some id
      ↔ (t.itemId = id ∧ t.Places slot)
        ∨ (t.itemId ≠ id ∧ ¬ t.Places slot) ∧ worn.find? slot = some id := by
  have vacated : (worn.filterValues (· ≠ t.itemId)).find? slot = some id
      ↔ t.itemId ≠ id ∧ worn.find? slot = some id := by
    rw [OrderedMap.find?_filterValues, decide_eq_true_iff, and_comm, ne_comm]
  rw [wear]
  split_ifs with inRange
  · rw [OrderedMap.find?_insert]
    by_cases here : slot = t.subSlot.toNat
    · subst here
      have places : t.Places t.subSlot.toNat := ⟨outside, inRange, rfl⟩
      simp [places]
    · have elsewhere : ¬ t.Places slot := fun places => here places.2.2.symm
      rw [if_neg here, vacated]
      simp [elsewhere]
  · have elsewhere : ¬ t.Places slot := fun places => inRange places.2.1
    rw [vacated]
    simp [elsewhere]

theorem insert_wornSlots (c : ItemCache) (tpl : ItemTemplate)
    : (c.insert tpl).wornSlots = c.wornSlots := by
  rw [insert]
  split_ifs <;> rfl

theorem setStorePath_wornSlots (c : ItemCache) (path : List Char) (file : Option CacheFile)
    (opens : Bool)
    : (c.setStorePath path file opens).wornSlots = c.wornSlots := by
  rw [setStorePath]
  split_ifs
  · exact load_wornSlots { c with storePath := path } file opens
  · rfl

/-- Only items outside of bags, with an id, move what is worn. -/
theorem onItemPacket_wornSlots (c : ItemCache) {data : Bytes} {t : ItemTemplate}
    (parsed : parseItemPacket data = some t)
    : (c.onItemPacket data).wornSlots
      = if t.Moves then wear c.wornSlots t else c.wornSlots := by
  rw [onItemPacket, parsed]
  dsimp only
  by_cases stays : t.mainSlot ≠ 0 ∨ t.itemId = 0
  · have unmoved : ¬ t.Moves := fun moves => stays.elim (· moves.1) moves.2
    rw [if_pos stays, if_neg unmoved, insert_wornSlots]
  · have moves : t.Moves := ⟨not_not.mp fun bag => stays (.inl bag), fun zero => stays (.inr zero)⟩
    rw [if_neg stays, if_pos moves, insert_wornSlots]

/-- Slots hold what was told to be there. -/
def Agrees (worn : OrderedMap Nat UInt32) (items : List ItemTemplate) : Prop :=
  ∀ slot id, worn.find? slot = some id ↔ PlacedAt items slot id

theorem agrees_wear {worn : OrderedMap Nat UInt32} {items : List ItemTemplate}
    (agrees : Agrees worn items) {t : ItemTemplate} (outside : t.mainSlot = 0)
    : Agrees (wear worn t) (items ++ [t]) := by
  intro slot id
  rw [find?_wear outside, placedAt_concat, agrees slot id]

/-- An operation that tells nothing of an item leaves the slots. -/
theorem step_wornSlots {op : ItemOp} (silent : op.told = none) (c : ItemCache)
    : (op.step c).wornSlots = c.wornSlots := by
  cases op with
  | onItemPacket data =>
      have unparsed : parseItemPacket data = none := silent
      rw [ItemOp.step, onItemPacket, unparsed]
  | insert tpl => exact insert_wornSlots c tpl
  | setStorePath path file opens => exact setStorePath_wornSlots c path file opens
  | save s file => exact (save_cache c s file).2
  | onFlushTimer s file => exact (onFlushTimer_cache c s file).2

/-- What an operation tells, it does. -/
theorem agrees_step {c : ItemCache} {items : List ItemTemplate} (agrees : Agrees c.wornSlots items)
    (op : ItemOp)
    : Agrees (op.step c).wornSlots (items ++ placed [op]) := by
  cases tells : op.told with
  | none =>
      rw [placed_of_silent tells, List.append_nil, step_wornSlots tells]
      exact agrees
  | some t =>
      rw [placed_of_told tells]
      cases op with
      | onItemPacket data =>
          rw [ItemOp.step, onItemPacket_wornSlots c tells]
          split_ifs with moves
          · exact agrees_wear agrees moves.1
          · rw [List.append_nil]
            exact agrees
      | insert | setStorePath | save | onFlushTimer => cases tells

/-- By induction on the operations. -/
theorem agrees_exec {c : ItemCache} {items : List ItemTemplate} (agrees : Agrees c.wornSlots items)
    (ops : List ItemOp)
    : Agrees (Machine.exec ItemOp.step c ops).wornSlots (items ++ placed ops) := by
  induction ops generalizing c items with
  | nil =>
      rw [placed, told, List.filterMap_nil, List.filter_nil, List.append_nil]
      exact agrees
  | cons op rest ih =>
      have split : placed (op :: rest) = placed [op] ++ placed rest := by
        rw [placed, ← List.singleton_append, told, List.filterMap_append, List.filter_append,
          placed, placed, told, told]
      rw [split, ← List.append_assoc]
      exact ih (agrees_step agrees op)

theorem agrees_after (ops : List ItemOp) : Agrees (after ops).wornSlots (placed ops) := by
  have none_ : Agrees fresh.wornSlots [] := by
    intro slot id
    refine iff_of_false (fun there => nomatch there) ?_
    rintro ⟨before, t, after, whole, _⟩
    simp at whole
  exact agrees_exec none_ ops

-----------------------------------------------------------------------------------------
-- The totals
-----------------------------------------------------------------------------------------

/-- The worn items that are known. -/
def wornItems (c : ItemCache) : List ItemTemplate :=
  c.wornSlots.entries.filterMap fun worn => c.cache.find? worn.2

end ItemCache

/-- The sums over items, in the integers of a machine. -/
def Totals.sum (items : List ItemTemplate) : Totals :=
  { itemCount := .ofInt items.length
    hp := .ofInt (items.map fun t => t.hp.toInt).sum
    mana := .ofInt (items.map fun t => t.mana.toInt).sum
    endurance := .ofInt (items.map fun t => t.endurance.toInt).sum
    ac := .ofInt (items.map fun t => t.ac.toInt).sum
    stats := fun i => .ofInt (items.map fun t => (t.stats i).toInt).sum
    resists := fun i => .ofInt (items.map fun t => (t.resists i).toInt).sum
    corruption := .ofInt (items.map fun t => t.corruption.toInt).sum }

theorem Totals.sum_concat (items : List ItemTemplate) (v : ItemTemplate)
    : Totals.sum (items ++ [v]) = (Totals.sum items).add v := by
  simp [Totals.sum, Totals.add, Int32.ofInt_add]

namespace ItemCache

theorem foldl_add (front items : List ItemTemplate)
    : items.foldl Totals.add (Totals.sum front) = Totals.sum (front ++ items) := by
  induction items generalizing front with
  | nil => rw [List.append_nil, List.foldl_nil]
  | cons v rest ih =>
      rw [List.foldl_cons, ← Totals.sum_concat, ih, List.append_assoc, List.singleton_append]

theorem totals_eq (c : ItemCache) : c.totals = Totals.sum c.wornItems := by
  have sums := foldl_add [] c.wornItems
  have start : Totals.sum [] = {} := rfl
  rw [List.nil_append, start, wornItems, List.foldl_filterMap] at sums
  rw [totals, wornItems, ← sums]
  congr 1
  funext t worn
  cases c.cache.find? worn.2 with
  | none => rfl
  | some v => rfl

theorem mem_wornItems {c : ItemCache} {t : ItemTemplate}
    : t ∈ c.wornItems ↔ ∃ slot id, c.wornSlots.find? slot = some id ∧ c.cache.find? id = some t := by
  simp only [wornItems, List.mem_filterMap, Prod.exists, OrderedMap.find?_eq_some_iff]

/-- An item in no two slots counts once. -/
theorem wornItems_nodup {c : ItemCache} (keyed : WellKeyed c.cache)
    (injective : ∀ slot slot' id, c.wornSlots.find? slot = some id →
      c.wornSlots.find? slot' = some id → slot = slot')
    : (c.wornItems.map ItemTemplate.itemId).Nodup := by
  rw [List.Nodup, List.pairwise_map, wornItems, List.pairwise_filterMap]
  refine c.wornSlots.sorted.imp_of_mem ?_
  intro worn worn' member member' below t found t' found' same
  apply ne_of_lt below
  apply injective worn.1 worn'.1 worn.2
  · exact OrderedMap.find?_eq_some_iff.mpr member
  · have named : worn.2 = worn'.2 := by
      rw [← (keyed _ _ found).1, same, (keyed _ _ found').1]
    rw [named]
    exact OrderedMap.find?_eq_some_iff.mpr member'

-----------------------------------------------------------------------------------------
-- Runs
-----------------------------------------------------------------------------------------

/-- The worn slots and the totals are those of the told items. -/
structure FollowsItems (c : ItemCache) (items : List ItemTemplate) : Prop where
  injective : ∀ slot slot' id, c.wornSlots.find? slot = some id →
    c.wornSlots.find? slot' = some id → slot = slot'
  placed : ∀ slot id, c.wornSlots.find? slot = some id ↔ PlacedAt items slot id
  totals : c.totals = Totals.sum c.wornItems
  counted : ∀ t, t ∈ c.wornItems ↔
    ∃ slot id, c.wornSlots.find? slot = some id ∧ c.cache.find? id = some t
  once : (c.wornItems.map ItemTemplate.itemId).Nodup

/-- After any operations the worn slots are those where the last packet about each item outside of
bags placed it, and the totals those of the worn items.
-/
theorem followsItems_after (ops : List ItemOp) : (after ops).FollowsItems (placed ops) := by
  have agrees := agrees_after ops
  have injective : ∀ slot slot' id, (after ops).wornSlots.find? slot = some id →
      (after ops).wornSlots.find? slot' = some id → slot = slot' := by
    intro slot slot' id here there
    exact placedAt_unique ((agrees slot id).mp here) ((agrees slot' id).mp there)
  exact {
    injective
    placed := agrees
    totals := totals_eq _
    counted := fun _ => mem_wornItems
    once := wornItems_nodup (wellKeyed_after ops) injective
  }

/-- A packet of an item without bonuses. -/
def itemPacket (itemId mainSlot : UInt32) (subSlot : UInt16) : Bytes :=
  LittleEndian.encode 4 0x78 ++ List.replicate 16 0x54 ++ 0 :: LittleEndian.encode 4 1
    ++ LittleEndian.encode 4 mainSlot.toNat ++ LittleEndian.encode 2 subSlot.toNat
    ++ List.replicate 34 0 ++ [0x41, 0, 0x41, 0] ++ List.replicate 8 0
    ++ LittleEndian.encode 4 itemId.toNat ++ List.replicate 51 0

/-- A worn item that is put into a bag. -/
def stowed : List ItemOp :=
  [.onItemPacket (itemPacket 1111 0 5), .onItemPacket (itemPacket 1111 21 3)]

/-- An item stays worn though its last packet has it in a bag. -/
theorem not_followsItems_told : ¬ ∀ ops, (after ops).FollowsItems (told ops) := by
  intro follows
  have worn : (after stowed).wornSlots.find? 5 = some 1111 := by decide +kernel
  have ids : (told stowed).map ItemTemplate.itemId = [1111, 1111] := by decide +kernel
  have bags : (told stowed).map ItemTemplate.mainSlot = [0, 21] := by decide +kernel
  obtain ⟨before, t, after, whole, _, places, last⟩ := ((follows stowed).placed 5 1111).mp worn
  rw [whole, List.map_append, List.map_cons] at ids bags
  rcases after.eq_nil_or_concat with rfl | ⟨front, later, rfl⟩
  · have inBag := congrArg List.getLast? bags
    simp [places.1] at inBag
  · have named : later.itemId = 1111 := by
      have ends := congrArg List.getLast? ids
      simpa [List.getLast?_cons] using ends
    exact (last later (by simp)).1 named

end ItemCache

end Scry
