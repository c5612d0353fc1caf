import Scry.Spawns.PlayerOnce

/-! The records of spawns that the shell ignores, and the shell after its player has taken another
id.
-/

namespace Scry
namespace SpawnShell

variable {sh : SpawnShell}

/-- What the operations on spawns leave alone. -/
structure SameZone (before after : SpawnShell) : Prop where
  names : after.guildIdToName = before.guildIdToName
  drops : after.drops = before.drops
  doors : after.doors = before.doors

theorem SameZone.refl (sh : SpawnShell) : SameZone sh sh := ⟨rfl, rfl, rfl⟩

theorem SameZone.trans {first middle last : SpawnShell} (left : SameZone first middle)
    (right : SameZone middle last)
    : SameZone first last :=
  ⟨right.names.trans left.names, right.drops.trans left.drops, right.doors.trans left.doors⟩

/-- Records of the player and of mounts are ignored. -/
def Ignored (d : SpawnStruct) : Prop := d.npc = SPAWN_SELF ∨ Spawn.calcIsMount d.race d.level

instance (d : SpawnStruct) : Decidable (Ignored d) := inferInstanceAs (Decidable (_ ∨ _))

theorem newSpawn_ignored {d : SpawnStruct} (ignored : Ignored d) : sh.newSpawn d = (sh, []) := by
  by_cases self : d.npc = SPAWN_SELF
  · exact if_pos self
  · exact (if_neg self).trans (if_pos (ignored.resolve_left self))

theorem sameZone_deleteItem (type : SpawnItemType) (drop : type ≠ .tDrop)
    (door : type ≠ .tDoors) (id : Nat)
    : SameZone sh (sh.deleteItem type id).1 := by
  cases type with
  | tDrop => exact absurd rfl drop
  | tDoors => exact absurd rfl door
  | tSpawn =>
      simp only [deleteItem]
      split <;> exact ⟨rfl, rfl, rfl⟩
  | tPlayer =>
      simp only [deleteItem]
      split <;> exact ⟨rfl, rfl, rfl⟩

theorem deleteItem_tPlayer_spawns (id : Nat)
    : (sh.deleteItem .tPlayer id).1.spawns = sh.spawns := by
  simp only [deleteItem]
  split <;> rfl

theorem deleteItem_tSpawn_spawns (id : Nat)
    : (sh.deleteItem .tSpawn id).1.spawns = sh.spawns.erase id := by
  simp only [deleteItem]
  split
  · rename_i absent
    exact (OrderedMap.erase_of_find?_eq_none absent).symm
  · rfl

theorem adoptName_guildTag (playerID : UInt16)
    : (sh.adoptName playerID).player.base.guildTag = sh.player.base.guildTag := by
  simp only [adoptName]
  split
  · rfl
  · split <;> rfl

theorem sameZone_adoptName (playerID : UInt16) : SameZone sh (sh.adoptName playerID) := by
  simp only [adoptName]
  split
  · exact .refl sh
  · split <;> exact ⟨rfl, rfl, rfl⟩

/-- What becomes of a shell whose player takes another id. -/
structure TakesId (sh : SpawnShell) (id : UInt16) (after : SpawnShell) : Prop where
  same : SameZone sh after
  spawns : after.spawns = sh.spawns.erase id.toNat
  guildTag : after.player.base.guildTag = sh.player.base.guildTag
  id : after.player.base.id = id

theorem takesId_playerChangedID {old new : UInt16} (changes : old ≠ new)
    (id : sh.player.base.id = new)
    : sh.TakesId new (sh.playerChangedID old new).1 := by
  simp only [playerChangedID, andThen, if_neg changes]
  constructor
  · refine (sameZone_adoptName new).trans ?_
    refine (sameZone_deleteItem .tPlayer (by decide) (by decide) 0).trans ?_
    refine (sameZone_deleteItem .tPlayer (by decide) (by decide) old.toNat).trans ?_
    have last (sh : SpawnShell) : SameZone sh (sh.deleteItem .tSpawn new.toNat).1 :=
      sameZone_deleteItem .tSpawn (by decide) (by decide) new.toNat
    exact ⟨(last _).names, (last _).drops, (last _).doors⟩
  · simp only [deleteItem_tSpawn_spawns, deleteItem_tPlayer_spawns, adoptName_spawns]
  · simp only [deleteItem_player, adoptName_guildTag]
  · simp only [deleteItem_player]
    exact (adoptName_id new).trans id

/-- A player's new id: the shell's slot, and then the sessions get a snapshot. -/
theorem setPlayerID_eq {id : UInt16} (changes : sh.player.id ≠ id)
    : ∃ early, sh.TakesId id (sh.setPlayerID id).1
        ∧ (sh.setPlayerID id).2
          = early
            ++ [.changedID (sh.setPlayerID id).1,
              .changeItem (.player (sh.setPlayerID id).1.player) tSpawnChangedALL] := by
  simp only [setPlayerID, if_neg changes]
  let entered := { sh with player := sh.player.setID id }
  obtain ⟨same, spawns, guildTag, newId⟩ : entered.TakesId id _ :=
    takesId_playerChangedID changes rfl
  exact ⟨_, ⟨⟨same.names, same.drops, same.doors⟩, spawns, guildTag, newId⟩, rfl⟩

theorem sameZone_setPlayerID (id : UInt16) : SameZone sh (sh.setPlayerID id).1 := by
  by_cases changes : sh.player.id = id
  · rw [setPlayerID, if_pos changes]
    exact .refl sh
  · obtain ⟨_, takes, _⟩ := setPlayerID_eq changes
    exact takes.same

theorem sameZone_newSpawn (d : SpawnStruct) : SameZone sh (sh.newSpawn d).1 := by
  simp only [newSpawn]
  split
  · exact .refl sh
  · split
    · exact .refl sh
    · split <;> exact ⟨rfl, rfl, rfl⟩

theorem sameZone_zoneEntry (d : SpawnStruct) : SameZone sh (sh.zoneEntry d).1 := by
  rw [zoneEntry]
  split
  · exact (sameZone_setPlayerID _).trans ⟨rfl, rfl, rfl⟩
  · split
    · exact ⟨rfl, rfl, rfl⟩
    · exact sameZone_newSpawn d

theorem sameZone_withSpawn (key : Nat) (f : Spawn → Spawn × List SpawnSignal)
    : SameZone sh (sh.withSpawn key f).1 := by
  rw [withSpawn]
  split
  · exact .refl sh
  · exact ⟨rfl, rfl, rfl⟩

theorem sameZone_updateSpawn (id : UInt16) (m : Movement)
    : SameZone sh (sh.updateSpawn id m).1 := by
  rw [updateSpawn]
  split
  · exact ⟨rfl, rfl, rfl⟩
  · split
    · exact ⟨rfl, rfl, rfl⟩
    · split
      · split <;> exact ⟨rfl, rfl, rfl⟩
      · exact .refl sh

/-- The player may take the name of the spawn that was found to be its own, and nothing else. -/
theorem adoptName_player (playerID : UInt16)
    : ∃ name, (sh.adoptName playerID).player = sh.player.setName name := by
  simp only [adoptName]
  split
  · exact ⟨_, rfl⟩
  · split
    · exact ⟨_, rfl⟩
    · exact ⟨_, rfl⟩

theorem setPlayerID_player {id : UInt16} (changes : sh.player.id ≠ id)
    : ∃ name, (sh.setPlayerID id).1.player = (sh.player.setID id).setName name := by
  simp only [setPlayerID, if_neg changes, playerChangedID, andThen, deleteItem_player]
  exact adoptName_player id

end SpawnShell
end Scry
