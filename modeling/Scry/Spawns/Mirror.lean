import Scry.Library.Replica
import Scry.Spawns.ZoneSession

/-! What keeps a client's entries a mirror of the shell's items.
How much of an entry counts is left open: with nothing of it this is about the ids alone, with
the fields a client shows it is about those.
-/

namespace Scry

/-- The fields of a spawn that an update can carry or that a client shows with it. -/
@[ext]
structure ShownSpawn where
  name : String
  pos : Pos
  level : UInt32
  race : UInt16
  type : SpawnType
  hpCur : UInt32
  deriving DecidableEq

/-- What is shown of an entry. -/
def WireSpawn.shown (entry : WireSpawn) : ShownSpawn :=
  { name := entry.name, pos := entry.pos, level := entry.level, race := entry.race
    type := entry.type, hpCur := entry.hpCur }

/-- What is shown of an item that is sent in full. -/
def SpawnItem.shown (item : SpawnItem) : ShownSpawn := (fillSpawn item).shown

/-- What an update makes of what is shown. -/
def ShownSpawn.patch (u : SpawnUpdated) (shown : ShownSpawn) : ShownSpawn :=
  { shown with
    pos := u.pos.getD shown.pos
    hpCur := u.hpCur.getD shown.hpCur
    name := u.name.getD shown.name }

@[simp]
theorem SpawnClient.patch_shown (u : SpawnUpdated) (entry : WireSpawn)
    : (SpawnClient.patch u entry).shown = entry.shown.patch u := rfl

@[simp]
theorem fillSpawn_id (item : SpawnItem) : (fillSpawn item).id = item.id := by
  cases item with
  | spawn s => rfl
  | player p =>
      simp only [fillSpawn, fillSpawnOf, Player.shown]
      split <;> rfl
  | door t => rfl
  | drop t => rfl

theorem updatedFields_id (item : SpawnItem) (changeType : UInt32)
    : (updatedFields item changeType).id = item.id := by
  cases item with
  | spawn s => rfl
  | player p => exact p.shown_id
  | door t => rfl
  | drop t => rfl

-----------------------------------------------------------------------------------------
-- The items of a shell
-----------------------------------------------------------------------------------------

namespace SpawnShell

variable {sh : SpawnShell} {i : SpawnItem}

/-- An item of one of the maps. -/
inductive Holds (sh : SpawnShell) : SpawnItem → Prop
  | spawn {key s} (found : sh.spawns.find? key = some s) : Holds sh (.spawn s)
  | drop {key t} (found : sh.drops.find? key = some t) : Holds sh (.drop t)
  | door {key t} (found : sh.doors.find? key = some t) : Holds sh (.door t)
  | player {key} (listed : key ∈ sh.players.keys) : Holds sh (.player sh.player)

theorem mem_items : i ∈ sh.items ↔ sh.Holds i := by
  simp only [items, List.mem_append, List.mem_map, Prod.exists]
  constructor
  · rintro (((⟨key, s, member, rfl⟩ | ⟨key, t, member, rfl⟩) | ⟨key, t, member, rfl⟩)
      | ⟨key, _, member, rfl⟩)
    · exact .spawn (OrderedMap.find?_eq_some_iff.mpr member)
    · exact .drop (OrderedMap.find?_eq_some_iff.mpr member)
    · exact .door (OrderedMap.find?_eq_some_iff.mpr member)
    · exact .player (List.mem_map.mpr ⟨_, member, rfl⟩)
  · intro holds
    cases holds with
    | spawn found =>
        exact Or.inl (Or.inl (Or.inl ⟨_, _, OrderedMap.find?_eq_some_iff.mp found, rfl⟩))
    | drop found =>
        exact Or.inl (Or.inl (Or.inr ⟨_, _, OrderedMap.find?_eq_some_iff.mp found, rfl⟩))
    | door found => exact Or.inl (Or.inr ⟨_, _, OrderedMap.find?_eq_some_iff.mp found, rfl⟩)
    | player listed =>
        obtain ⟨⟨key, _⟩, member, rfl⟩ := List.mem_map.mp listed
        exact Or.inr ⟨key, _, member, rfl⟩

variable {α : Type} (g : ShownSpawn → α)

/-- The client's entries mirror the shell's items, as far as `g` goes. -/
def Mirrored (sh : SpawnShell) (c : SpawnClient) : Prop :=
  Replica.Mirrors SpawnItem.id fillSpawn (g ∘ WireSpawn.shown) sh.items c.spawns

/-- Items with one id look the same, as far as `g` goes. -/
def Coherent (sh : SpawnShell) : Prop :=
  Replica.Coherent SpawnItem.id fillSpawn (g ∘ WireSpawn.shown) sh.items

/-- Of what `g` looks at, a patched field depends on the field patched only. -/
def Patchable : Prop :=
  ∀ (u : SpawnUpdated) (a b : ShownSpawn), g a = g b → g (a.patch u) = g (b.patch u)

variable {g}

-----------------------------------------------------------------------------------------
-- Snapshots
-----------------------------------------------------------------------------------------

theorem insertAll_map (spawns : OrderedMap UInt16 WireSpawn) (sent : List SpawnItem)
    : SpawnClient.insertAll spawns (sent.map fillSpawn)
      = Replica.putAll SpawnItem.id fillSpawn spawns sent := by
  simp only [SpawnClient.insertAll, Replica.putAll, List.foldl_map, fillSpawn_id]

/-- With the player listed, a snapshot is of the items and nothing else. -/
theorem snapshotItems_eq (listed : ∃ key, key ∈ sh.players.keys)
    : snapshotItems sh = sh.items := by
  obtain ⟨key, member⟩ := listed
  have player : .player sh.player ∈ sh.items := mem_items.mpr (.player member)
  have present : sh.player.id ∈ sh.items.map SpawnItem.id := List.mem_map.mpr ⟨_, player, rfl⟩
  simp [snapshotItems, present]

/-- A snapshot mirrors the shell, whatever the client held before. -/
theorem mirrored_snapshot (listed : ∃ key, key ∈ sh.players.keys) (coherent : sh.Coherent g)
    (c : SpawnClient) (zoneShort : String)
    : sh.Mirrored g (c.receive (snapshotOf sh zoneShort)) := by
  simp only [Mirrored, SpawnClient.receive, snapshotOf, insertAll_map, snapshotItems_eq listed]
  exact Replica.mirrors_putAll_empty (fun _ => SpawnItem.mem_inOrder) coherent

-----------------------------------------------------------------------------------------
-- One item revised
-----------------------------------------------------------------------------------------

theorem receiveAll_mute {signals : List SpawnSignal} (mute : ∀ signal ∈ signals, signal.Mute)
    (zoneShort : String) (c : SpawnClient)
    : c.receiveAll (signals.flatMap (·.envelopes zoneShort)) = c := by
  induction signals with
  | nil => rfl
  | cons signal rest ih =>
      obtain ⟨first, later⟩ := List.forall_mem_cons.mp mute
      cases signal with
      | killSpawn deceased killerId => exact ih later
      | statsChanged player => exact ih later
      | _ => exact absurd first id

/-- One item put into a shell, where it takes the place of items with its id or of none. -/
structure Puts (before after : SpawnShell) (new : SpawnItem) : Prop where
  is : after.Holds new
  others : ∀ j, after.Holds j → j = new ∨ before.Holds j
  kept : ∀ j, before.Holds j → j.id = new.id ∨ after.Holds j

/-- One item of a shell revised, and nothing else. -/
structure Replaces (before after : SpawnShell) (old new : SpawnItem) : Prop
    extends Puts before after new where
  id : new.id = old.id
  was : before.Holds old

/-- What is signalled of a revised item: nothing that a client takes in, where it looks as
before; or one change, which sends the item in full or what has changed of it.
-/
inductive Revision (g : ShownSpawn → α) (old new : SpawnItem) : List SpawnSignal → Prop
  | silent {signals} (mute : ∀ signal ∈ signals, signal.Mute) (same : g new.shown = g old.shown)
    : Revision g old new signals
  | sent (early late) {changeType} (before : ∀ signal ∈ early, signal.Mute)
    (after : ∀ signal ∈ late, signal.Mute)
    (reaches
      : inFull changeType = true
        ∨ g (old.shown.patch (updatedFields new changeType)) = g new.shown)
    : Revision g old new (early ++ .changeItem new changeType :: late)

variable {before after : SpawnShell} {old new : SpawnItem} {c : SpawnClient}

theorem Puts.keysKept (puts : Puts before after new)
    : Replica.KeysKept SpawnItem.id before.items after.items := by
  intro i member
  rcases puts.kept i (mem_items.mp member) with same | stays
  · exact ⟨new, mem_items.mpr puts.is, same.symm⟩
  · exact ⟨i, mem_items.mpr stays, rfl⟩

theorem Replaces.shown (replaces : Replaces before after old new) (same : g new.shown = g old.shown)
    : ∀ j ∈ after.items,
        Replica.Shown SpawnItem.id fillSpawn (g ∘ WireSpawn.shown) before.items j := by
  intro j member
  rcases replaces.others j (mem_items.mp member) with rfl | there
  · exact ⟨old, mem_items.mpr replaces.was, replaces.id.symm, same.symm⟩
  · exact Replica.shown_of_mem (mem_items.mpr there)

/-- An entry that looks like the item, put where it belongs. -/
theorem Mirrored.put (mirrored : before.Mirrored g c) (puts : Puts before after new)
    (coherent : after.Coherent g) {value : WireSpawn} (looks : g value.shown = g new.shown)
    : after.Mirrored g { c with spawns := c.spawns.insert new.id value } := by
  refine Replica.Mirrors.put mirrored (mem_items.mpr puts.is) coherent looks ?_ puts.keysKept
  intro j member other
  rcases puts.others j (mem_items.mp member) with rfl | there
  · exact absurd rfl other
  · exact Replica.shown_of_mem (mem_items.mpr there)

/-- An item sent in full. -/
theorem Mirrored.sentInFull (mirrored : before.Mirrored g c) (puts : Puts before after new)
    (coherent : after.Coherent g)
    : after.Mirrored g (c.receive (.spawnAdded (fillSpawn new))) := by
  simp only [SpawnClient.receive, fillSpawn_id]
  exact mirrored.put puts coherent rfl

/-- One change sent about a revised item. -/
theorem Mirrored.changed (mirrored : before.Mirrored g c)
    (replaces : Replaces before after old new) (coherent : after.Coherent g)
    (patchable : Patchable g) {changeType : UInt32}
    (reaches
      : inFull changeType = true
        ∨ g (old.shown.patch (updatedFields new changeType)) = g new.shown)
    : after.Mirrored g (c.receive (onChangeItem new changeType)) := by
  by_cases full : inFull changeType = true
  · rw [onChangeItem, if_pos full]
    exact mirrored.sentInFull replaces.toPuts coherent
  · obtain ⟨entry, found, looks⟩ := Option.map_eq_some_iff.mp
      (mirrored.complete old (mem_items.mpr replaces.was))
    have patched := reaches.resolve_left full
    have sent : onChangeItem new changeType = .spawnUpdated (updatedFields new changeType) :=
      if_neg full
    have received : c.receive (onChangeItem new changeType)
        = { c with
            spawns := c.spawns.insert new.id
              (SpawnClient.patch (updatedFields new changeType) entry) } := by
      simp only [sent, SpawnClient.receive, updatedFields_id, replaces.id, found]
    rw [received]
    refine mirrored.put replaces.toPuts coherent ?_
    rw [SpawnClient.patch_shown, ← patched]
    exact patchable _ _ _ looks

/-- A revised item's signals keep the mirror. -/
theorem Mirrored.revised (mirrored : before.Mirrored g c)
    (replaces : Replaces before after old new) (coherent : after.Coherent g)
    (patchable : Patchable g) {signals : List SpawnSignal} (revision : Revision g old new signals)
    (zoneShort : String)
    : after.Mirrored g (c.receiveAll (signals.flatMap (·.envelopes zoneShort))) := by
  cases revision with
  | silent mute same =>
      rw [receiveAll_mute mute]
      exact Replica.Mirrors.quiet mirrored (replaces.shown same) replaces.toPuts.keysKept
  | @sent early late changeType earlier later reaches =>
      have received : c.receiveAll
            ((early ++ .changeItem new changeType :: late).flatMap (·.envelopes zoneShort))
          = c.receive (onChangeItem new changeType) := by
        have silentEarly := receiveAll_mute earlier zoneShort c
        have silentLate :=
          receiveAll_mute later zoneShort (c.receive (onChangeItem new changeType))
        simp only [SpawnClient.receiveAll] at silentEarly silentLate ⊢
        rw [List.flatMap_append, List.flatMap_cons, List.foldl_append, silentEarly,
          List.foldl_append]
        exact silentLate
      rw [received]
      exact mirrored.changed replaces coherent patchable reaches

end SpawnShell
end Scry
