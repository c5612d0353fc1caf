import Scry.Spawns.Revisions

/-! The operations that end a spawn or take it away, that concern doors and drops, and that go
over whole maps; and what any operation must find for its signals to keep a client a mirror.
-/

namespace Scry
namespace SpawnShell

variable {sh : SpawnShell} {α : Type} {g : ShownSpawn → α} {cond : Prop}

-----------------------------------------------------------------------------------------
-- Death
-----------------------------------------------------------------------------------------

/-- A spawn changed with nothing sent but its death. -/
theorem Revision.dies {old new : SpawnItem} {killerId : UInt16}
    (same : g new.shown = g old.shown)
    : Revision g old new [.killSpawn new killerId] :=
  .silent (by simp [SpawnSignal.Mute]) same

/-- What `killSpawn` makes of the player. -/
def playerSlain (m : FilterMgr) (p : Player) : Player :=
  let killed := { p with base := p.base.killSpawn }.updateFlags m
  killed.setName (killed.base.name ++ spawnCorpseDesignator)

theorem tracks_killSpawn (keyed : sh.Keyed) (patchable : Patchable g) (id killerId : UInt32)
    (spawn
      : cond → id ≠ sh.player.id.toUInt32 → ∀ s, sh.spawns.find? id.toNat = some s →
          g (SpawnItem.spawn (slain sh.filterMgr s)).shown = g (SpawnItem.spawn s).shown)
    (player
      : cond → id = sh.player.id.toUInt32 →
          g (SpawnItem.player (playerSlain sh.filterMgr sh.player)).shown
          = g (SpawnItem.player sh.player).shown)
    : Tracks g cond sh (sh.killSpawn id killerId) := by
  simp only [killSpawn]
  split
  · exact .withSpawn keyed patchable
      fun s known => ⟨rfl, fun held => .dies (spawn held ‹_› s known)⟩
  · refine .revise (keyed.congr rfl rfl) patchable (replacesPlayer sh keyed.listed rfl) ?_
    intro held
    exact .dies (player held (not_not.mp ‹_›))

/-- What `corpseLoc` makes of a spawn. -/
def corpseAt (x y z : Int16) (s : Spawn) : Spawn :=
  let s :=
    if s.npc = SPAWN_PLAYER ∨ s.npc = SPAWN_PC_CORPSE then { s with x := y, y := x, z }
    else { s with x, y, z }
  s.killSpawn

theorem tracks_corpseLoc (keyed : sh.Keyed) (patchable : Patchable g) (id : UInt32)
    (x y z : Int16)
    (unseen
      : cond → ∀ s, sh.spawns.find? id.toNat = some s →
          g (SpawnItem.spawn (corpseAt x y z s)).shown = g (SpawnItem.spawn s).shown)
    : Tracks g cond sh (sh.corpseLoc id x y z) := by
  refine .withSpawn keyed patchable fun s known => ⟨?_, fun held => .dies (unseen held s known)⟩
  simp only
  split <;> rfl

/-- The corpse that `respawnFromHover` adds. -/
def hoverCorpse (sh : SpawnShell) : Spawn :=
  let p := sh.player.setID 0
  let corpse := (Spawn.ofSpawn p.shown sh.player.id).updateFlags sh.filterMgr
  { corpse with guildTag := sh.guildIdToName corpse.guildID corpse.guildServerID }

theorem respawnFromHover_eq
    : sh.respawnFromHover
      = ({ sh with player := sh.player.setID 0 }.setSpawn sh.player.id.toNat sh.hoverCorpse,
          [.addItem (.spawn sh.hoverCorpse)]) :=
  rfl

theorem tracks_respawnFromHover (keyed : sh.Keyed)
    (zero
      : cond → ∃ i ∈ sh.items,
          i.id = 0 ∧ g i.shown = g (SpawnItem.player (sh.player.setID 0)).shown)
    : Tracks g cond sh sh.respawnFromHover := by
  have named : sh.hoverCorpse.id = UInt16.ofNat sh.player.id.toNat := UInt16.ofNat_toNat.symm
  have sameId : sh.hoverCorpse.id = sh.player.id := rfl
  rw [respawnFromHover_eq]
  have puts : Puts { sh with player := sh.player.setID 0 }
      ({ sh with player := sh.player.setID 0 }.setSpawn sh.player.id.toNat sh.hoverCorpse)
      (.spawn sh.hoverCorpse) :=
    (SameItems.refl _).puts fun found => (keyed.spawnId found).trans named.symm
  constructor
  · exact (SameItems.refl _).keyed_setSpawn (keyed.congr rfl rfl) named
  · intro held zoneShort c separable mirrored
    have looks : g (fillSpawn (.spawn sh.hoverCorpse)).shown
        = g (SpawnItem.spawn sh.hoverCorpse).shown := rfl
    refine Replica.Mirrors.put mirrored (mem_items.mpr puts.is) separable.coherent looks ?_ ?_
    · intro j member other
      rcases puts.others j (mem_items.mp member) with rfl | there
      · exact absurd rfl other
      cases there with
      | spawn found => exact Replica.shown_of_mem (mem_items.mpr (.spawn found))
      | drop found => exact Replica.shown_of_mem (mem_items.mpr (.drop found))
      | door found => exact Replica.shown_of_mem (mem_items.mpr (.door found))
      | player _ =>
          obtain ⟨i, present, isZero, looks⟩ := zero held
          exact ⟨i, present, isZero, looks⟩
    · intro i member
      have stays {k : SpawnItem}
          (holds : { sh with player := sh.player.setID 0 }.Holds k)
          : ∃ j ∈ ({ sh with player := sh.player.setID 0 }.setSpawn sh.player.id.toNat
              sh.hoverCorpse).items, j.id = k.id :=
        puts.keysKept k (mem_items.mpr holds)
      cases mem_items.mp member with
      | spawn found => exact stays (.spawn found)
      | drop found => exact stays (.drop found)
      | door found => exact stays (.door found)
      | player _ => exact ⟨_, mem_items.mpr puts.is, sameId⟩

-----------------------------------------------------------------------------------------
-- Doors and drops
-----------------------------------------------------------------------------------------

theorem tracks_newGroundItem (keyed : sh.Keyed) (d : MakeDropStruct)
    : Tracks g cond sh (sh.newGroundItem d) := by
  simp only [newGroundItem]
  split
  · exact .idle keyed
  cases known : sh.drops.find? d.dropId.toNat with
  | none =>
      refine .put (keyed.congr rfl rfl) (fun _ => putsDrop sh ?_) (sent_added _)
      intro old found
      exact absurd (known.symm.trans found) (by simp)
  | some t =>
      refine .put (keyed.congr rfl rfl) (fun _ => putsDrop sh ?_) (sent_all _)
      intro old found
      obtain rfl := Option.some.inj (known.symm.trans found)
      rfl

theorem tracks_newDoorSpawn (keyed : sh.Keyed) (d : DoorStruct)
    : Tracks g cond sh (sh.newDoorSpawn d) := by
  simp only [newDoorSpawn]
  cases known : sh.doors.find? d.doorId.toNat with
  | none =>
      refine .put (keyed.congr rfl rfl) (fun _ => putsDoor sh ?_) (sent_added _)
      intro old found
      exact absurd (known.symm.trans found) (by simp)
  | some t =>
      refine .put (keyed.congr rfl rfl) (fun _ => putsDoor sh ?_) (sent_all _)
      intro old found
      obtain rfl := Option.some.inj (known.symm.trans found)
      rfl

theorem tracks_removeGroundItem (keyed : sh.Keyed) (dropId : UInt32)
    (sole
      : cond → sh.isZoning = false → ∀ t, sh.drops.find? dropId.toNat = some t →
          sh.Sole t.id)
    : Tracks g cond sh (sh.removeGroundItem dropId) := by
  simp only [removeGroundItem]
  split
  · exact .idle keyed
  · exact .deleteDrop keyed fun held => sole held (Bool.eq_false_iff.mpr ‹_›)

theorem tracks_deleteSpawn (keyed : sh.Keyed) (spawnId : UInt32)
    (sole : cond → ∀ s, sh.spawns.find? spawnId.toNat = some s → sh.Sole s.id)
    : Tracks g cond sh (sh.deleteSpawn spawnId) := by
  simp only [deleteSpawn]
  refine .of_same ?_ (.deleteSpawn ?_ sole)
  · exact ⟨rfl, rfl, rfl, rfl, rfl⟩
  · exact keyed.congr rfl rfl

-----------------------------------------------------------------------------------------
-- Guild tags and filters
-----------------------------------------------------------------------------------------

@[simp] theorem retagged_id (guildId : UInt32) (s : Spawn) : (sh.retagged guildId s).id = s.id := by
  unfold retagged
  split <;> rfl

/-- The guild's tag is not shown. -/
theorem spawn_shown_retagged (guildId : UInt32) (s : Spawn)
    : (SpawnItem.spawn (sh.retagged guildId s)).shown = (SpawnItem.spawn s).shown := by
  unfold retagged
  split
  · simp only [spawn_shown]
    rfl
  · rfl

theorem player_shown_retagged (guildId : UInt32) (p : Player)
    : (SpawnItem.player { p with base := sh.retagged guildId p.base }).shown
      = (SpawnItem.player p).shown := by
  unfold retagged
  split
  · simp only [player_shown, Player.shown]
    split <;> rfl
  · rfl

/-- Items signalled one by one with a change type that sends them in full. -/
theorem sent_inFull {changeType : UInt32} (full : inFull changeType = true)
    (zoneShort : String) (sent : List SpawnItem)
    : (sent.map fun i => SpawnSignal.changeItem i changeType).flatMap (·.envelopes zoneShort)
      = sent.map fun i => .spawnAdded (fillSpawn i) := by
  induction sent with
  | nil => rfl
  | cons first rest ih =>
      rw [List.map_cons, List.flatMap_cons, ih, SpawnSignal.envelopes, onChangeItem_full full]
      rfl

/-- The items that `updateGuildTag` signals. -/
def tagSent (sh : SpawnShell) (guildId : UInt32) : List SpawnItem :=
  let spawns := sh.spawns.mapValues (sh.retagged guildId)
  let p := { sh.player with base := sh.retagged guildId sh.player.base }
  (spawns.entries.filter fun entry => guildId == entry.2.guildID.toUInt32).map
      (fun entry => .spawn entry.2)
    ++ (sh.players.entries.filter fun _ => guildId == p.base.guildID.toUInt32).map
      (fun _ => .player p)

theorem updateGuildTag_signals (guildId : UInt32)
    : (sh.updateGuildTag guildId).2
      = (sh.tagSent guildId).map fun i => .changeItem i tSpawnChangedALL := by
  simp only [updateGuildTag, tagSent, List.map_append, List.map_map, Function.comp_def]

theorem holds_tagSent {guildId : UInt32} {i : SpawnItem} (member : i ∈ sh.tagSent guildId)
    : (sh.updateGuildTag guildId).1.Holds i := by
  simp only [tagSent, List.mem_append, List.mem_map] at member
  rcases member with ⟨entry, listed, rfl⟩ | ⟨entry, listed, rfl⟩
  · exact .spawn (OrderedMap.find?_eq_some_iff.mpr (List.mem_of_mem_filter listed))
  · exact .player (List.mem_map.mpr ⟨entry, List.mem_of_mem_filter listed, rfl⟩)

theorem relabels_updateGuildTag (sh : SpawnShell) (guildId : UInt32)
    : Relabels sh (sh.updateGuildTag guildId).1 (sh.retagged guildId) (fun t => t) where
  spawns := OrderedMap.find?_mapValues _ _
  drops _ := Option.map_id'.symm
  doors _ := Option.map_id'.symm
  players := rfl
  playerId := retagged_id guildId _
  spawnId := retagged_id guildId
  thingId _ := rfl
  player := player_shown_retagged guildId _
  spawn := spawn_shown_retagged guildId
  drop _ := rfl
  door _ := rfl

theorem tracks_updateGuildTag (keyed : sh.Keyed) (guildId : UInt32)
    : Tracks g cond sh (sh.updateGuildTag guildId) := by
  have full (zoneShort : String)
      : (sh.updateGuildTag guildId).2.flatMap (·.envelopes zoneShort)
        = (sh.tagSent guildId).map fun i => .spawnAdded (fillSpawn i) := by
    rw [updateGuildTag_signals]
    exact sent_inFull inFull_all zoneShort _
  exact .relabel keyed (relabels_updateGuildTag sh guildId) (fun _ => holds_tagSent) full

/-- The items of one map that `refilter` signals. -/
def refiltered {ι : Type} [DecidableEq ι] (item : ι → SpawnItem) (update : ι → ι)
    (m : OrderedMap Nat ι)
    : List SpawnItem :=
  SpawnItem.inOrder
    ((m.entries.filter fun entry => update entry.2 != entry.2).map
      fun entry => item (update entry.2))

theorem found_of_refiltered {ι : Type} [DecidableEq ι] {item : ι → SpawnItem} {update : ι → ι}
    {m : OrderedMap Nat ι} {i : SpawnItem} (member : i ∈ refiltered item update m)
    : ∃ key v, (m.mapValues update).find? key = some v ∧ i = item v := by
  obtain ⟨⟨key, v⟩, listed, rfl⟩ := List.mem_map.mp (SpawnItem.mem_inOrder.mp member)
  have found := OrderedMap.find?_eq_some_iff.mpr (List.mem_of_mem_filter listed)
  exact ⟨key, update v, by rw [OrderedMap.find?_mapValues, found]; rfl, rfl⟩

/-- The three maps of a shell with flags updated, under whatever rules. -/
theorem Tracks.refilter {after : SpawnShell} {onSpawn : Spawn → Spawn} {onThing : Thing → Thing}
    {signals : List SpawnSignal} {changeType : UInt32} (keyed : sh.Keyed)
    (relabels : Relabels sh after onSpawn onThing) (full : inFull changeType = true)
    (spawns : after.spawns = sh.spawns.mapValues onSpawn)
    (drops : after.drops = sh.drops.mapValues onThing)
    (doors : after.doors = sh.doors.mapValues onThing)
    (sent
      : signals
        = SpawnShell.refilter .spawn changeType onSpawn sh.spawns
          ++ SpawnShell.refilter .drop changeType onThing sh.drops
          ++ SpawnShell.refilter .door changeType onThing sh.doors)
    : Tracks g cond sh (after, signals) := by
  have gathered (zoneShort : String)
      : signals.flatMap (·.envelopes zoneShort)
        = (refiltered .spawn onSpawn sh.spawns ++ refiltered .drop onThing sh.drops
            ++ refiltered .door onThing sh.doors).map fun i => .spawnAdded (fillSpawn i) := by
    rw [← sent_inFull full zoneShort, List.map_append, List.map_append, sent]
    rfl
  refine .relabel keyed relabels ?_ gathered
  intro i member
  rcases List.mem_append.mp member with early | door
  · rcases List.mem_append.mp early with spawn | drop
    · obtain ⟨key, s, found, rfl⟩ := found_of_refiltered spawn
      exact .spawn (spawns ▸ found)
    · obtain ⟨key, t, found, rfl⟩ := found_of_refiltered drop
      exact .drop (drops ▸ found)
  · obtain ⟨key, t, found, rfl⟩ := found_of_refiltered door
    exact .door (doors ▸ found)

theorem tracks_filtersChanged (keyed : sh.Keyed)
    (filterMask : FilterString → UInt8 → UInt32)
    : Tracks g cond sh (sh.filtersChanged filterMask) := by
  refine .refilter keyed ?_ inFull_filter rfl rfl rfl rfl
  exact {
    spawns := OrderedMap.find?_mapValues _ _
    drops := OrderedMap.find?_mapValues _ _
    doors := OrderedMap.find?_mapValues _ _
    players := rfl
    playerId := rfl
    spawnId _ := rfl
    thingId _ := rfl
    player := rfl
    spawn s := by simp only [spawn_shown]; rfl
    drop _ := rfl
    door _ := rfl }

theorem tracks_runtimeFiltersChanged (keyed : sh.Keyed)
    (runtimeFilterMask : FilterString → UInt8 → UInt32)
    : Tracks g cond sh (sh.runtimeFiltersChanged runtimeFilterMask) := by
  refine .refilter keyed ?_ inFull_runtimeFilter rfl rfl rfl rfl
  exact {
    spawns := OrderedMap.find?_mapValues _ _
    drops := OrderedMap.find?_mapValues _ _
    doors := OrderedMap.find?_mapValues _ _
    players := rfl
    playerId := rfl
    spawnId _ := rfl
    thingId _ := rfl
    player := rfl
    spawn s := by simp only [spawn_shown]; rfl
    drop _ := rfl
    door _ := rfl }

-----------------------------------------------------------------------------------------
-- The player's id
-----------------------------------------------------------------------------------------

/-- An operation's result after which a client is sent a snapshot and the player. -/
theorem Tracks.snapshot {after : SpawnShell} {signals : List SpawnSignal}
    (keyed : after.Keyed)
    : Tracks g cond sh
        (after,
          signals ++ [.changedID after, .changeItem (.player after.player) tSpawnChangedALL]) where
  keyed := keyed
  mirrored _ zoneShort c separable _ := by
    have player : after.Holds (.player after.player) := .player keyed.listed.choose_spec
    have again : Puts after after (.player after.player) :=
      ⟨player, fun _ holds => Or.inr holds, fun _ holds => Or.inr holds⟩
    have earlier := mirrored_snapshot keyed.listed separable.coherent
      (c.receiveAll (signals.flatMap (·.envelopes zoneShort))) zoneShort
    have sent := earlier.sentInFull again separable.coherent
    simp only [SpawnClient.receiveAll, List.flatMap_append, List.foldl_append] at sent ⊢
    exact sent

theorem deleteItem_found {type : SpawnItemType} {id key : Nat} {s : Spawn}
    (found : (sh.deleteItem type id).1.spawns.find? key = some s)
    : sh.spawns.find? key = some s := by
  cases type with
  | tSpawn =>
      simp only [deleteItem] at found
      split at found
      · exact found
      · rcases ne_or_eq key id with apart | rfl
        · exact (OrderedMap.find?_erase_of_ne _ apart).symm.trans found
        · exact absurd found (by simp)
  | tDrop =>
      simp only [deleteItem] at found
      split at found <;> exact found
  | tDoors =>
      simp only [deleteItem] at found
      split at found <;> exact found
  | tPlayer =>
      simp only [deleteItem] at found
      split at found <;> exact found

theorem adoptName_spawns (playerID : UInt16)
    : (sh.adoptName playerID).spawns = sh.spawns := by
  simp only [adoptName]
  split
  · rfl
  · split <;> rfl

theorem keyed_playerChangedID (keyed : sh.Keyed) {oldPlayerID newPlayerID : UInt16}
    (changes : oldPlayerID ≠ newPlayerID)
    : (sh.playerChangedID oldPlayerID newPlayerID).1.Keyed := by
  simp only [playerChangedID, andThen, if_neg changes]
  constructor
  · intro key s found
    have first := deleteItem_found (deleteItem_found (deleteItem_found found))
    rw [adoptName_spawns] at first
    exact keyed.spawnId first
  · exact ⟨newPlayerID.toNat, OrderedMap.mem_keys_insert.mpr (Or.inl rfl)⟩

theorem tracks_setPlayerID (keyed : sh.Keyed) (playerID : UInt16)
    : Tracks g cond sh (sh.setPlayerID playerID) := by
  simp only [setPlayerID]
  split
  · exact .idle keyed
  · refine .snapshot (keyed_playerChangedID ?_ ‹_›)
    exact keyed.congr rfl rfl

-----------------------------------------------------------------------------------------
-- Zone entries and clearing
-----------------------------------------------------------------------------------------

/-- One operation after another. -/
theorem Tracks.andThen {first : SpawnShell × List SpawnSignal}
    {next : SpawnShell → SpawnShell × List SpawnSignal} (left : Tracks g cond sh first)
    (separable : (next first.1).1.Separable g → first.1.Separable g)
    (right : Tracks g cond first.1 (next first.1))
    : Tracks g cond sh (SpawnShell.andThen first next) where
  keyed := right.keyed
  mirrored held zoneShort c apart mirrored := by
    have between := left.mirrored held zoneShort c (separable apart) mirrored
    have later := right.mirrored held zoneShort _ apart between
    simp only [SpawnShell.andThen, SpawnClient.receiveAll, List.flatMap_append,
      List.foldl_append] at later ⊢
    exact later

/-- Ids are all that counts for having one each. -/
theorem Separable.withPlayer {p : Player} (id : p.base.id = sh.player.base.id)
    (separable : { sh with player := p }.Separable g)
    : sh.Separable g := by
  refine separable.imp_right fun single => ?_
  simp only [NoShared, others, Player.id, id] at single ⊢
  exact single

theorem tracks_zoneEntry (keyed : sh.Keyed) (patchable : Patchable g) (d : SpawnStruct)
    (unseen
      : cond → d.name ≠ sh.player.realName → ∀ s, sh.spawns.find? d.spawnId.toNat = some s →
          g (SpawnItem.spawn (s.update d)).shown = g (SpawnItem.spawn s).shown)
    : Tracks g cond sh (sh.zoneEntry d) := by
  simp only [zoneEntry]
  split
  · have entered : Tracks g cond sh (sh.setPlayerID d.spawnId.toUInt16) :=
      tracks_setPlayerID keyed _
    refine .andThen entered (fun apart => apart.withPlayer (Spawn.update_id _ d)) ?_
    exact .revise (entered.keyed.congr rfl rfl) patchable
      (replacesPlayer _ entered.keyed.listed (Spawn.update_id _ d)) fun _ => .full _ _
  · cases known : sh.spawns.find? d.spawnId.toNat with
    | none => exact tracks_newSpawn keyed d
    | some s =>
        refine .reviseSpawn keyed patchable known (s.update_id d) ?_
        intro held
        exact .silent (by simp) (unseen held ‹_› s known)

theorem keyed_clear (sh : SpawnShell) : sh.clear.1.Keyed where
  spawnId found := absurd found (by simp [clear])
  listed := ⟨0, OrderedMap.mem_keys_insert.mpr (Or.inl rfl)⟩

/-- What a cleared shell holds. -/
theorem holds_clear {i : SpawnItem} (holds : sh.clear.1.Holds i) : i = .player sh.player := by
  cases holds with
  | spawn found => exact absurd found (by simp [clear])
  | drop found => exact absurd found (by simp [clear])
  | door found => exact absurd found (by simp [clear])
  | player _ => rfl

/-- Clearing, where a client has no entry under another id than the player's. -/
theorem tracks_clear (before sh : SpawnShell)
    (alone : cond → ∀ i ∈ before.items, i.id = sh.player.id)
    : Tracks g cond before sh.clear := by
  refine .put (keyed_clear sh) (fun held => ?_) (sent_all _)
  exact {
    is := .player (keyed_clear sh).listed.choose_spec
    others := fun j holds => Or.inl (holds_clear holds)
    kept := fun j holds => Or.inl (alone held j (mem_items.mpr holds)) }

/-- A later box, where a client has no entry under another id than 0. -/
theorem tracks_boxCreated (keyed : sh.Keyed) (alone : cond → ∀ i ∈ sh.items, i.id = 0)
    : Tracks g cond sh sh.boxCreated where
  keyed := (keyed_clear sh).congr rfl rfl
  mirrored held := by
    have zero : sh.player.base.id = 0 :=
      alone held (.player sh.player) (mem_items.mpr (.player keyed.listed.choose_spec))
    have same : sh.clear.1.player.setID 0 = sh.clear.1.player := by
      rw [Player.setID, ← zero]
      rfl
    have cleared : Tracks g cond sh sh.clear :=
      tracks_clear sh sh fun held i member => (alone held i member).trans zero.symm
    rw [boxCreated, same]
    exact cleared.mirrored held

-----------------------------------------------------------------------------------------
-- Any operation
-----------------------------------------------------------------------------------------

/-- Two items look the same, as far as `g` goes. -/
def Alike (g : ShownSpawn → α) (i j : SpawnItem) : Prop := g i.shown = g j.shown

/-- What an operation must find for its signals to keep a client a mirror: what it changes
without a signal is not looked at, and what it removes has its id to itself.
-/
def Follows (g : ShownSpawn → α) (sh : SpawnShell) : ShellOp → Prop
  | .zoneEntry d =>
      d.name ≠ sh.player.realName → ∀ s, sh.spawns.find? d.spawnId.toNat = some s →
        Alike g (.spawn (s.update d)) (.spawn s)
  | .setVitals v =>
      v.haveHP = true →
        Alike g (.player (sh.setPlayerHP v.hpCur.toInt32 v.hpMax.toInt32).player)
          (.player sh.player)
  | .renameSpawn walk oldName newName => RenameReaches g sh walk oldName newName
  | .updateSpawnAppearance id kind parameter =>
      kind = 1 → parameter ≠ 0 → ∀ s, sh.spawns.find? id.toNat = some s →
        Alike g (.spawn { s with level := parameter.toInt32 }) (.spawn s)
  | .killSpawn id _ =>
      (id ≠ sh.player.id.toUInt32 → ∀ s, sh.spawns.find? id.toNat = some s →
        Alike g (.spawn (slain sh.filterMgr s)) (.spawn s))
      ∧ (id = sh.player.id.toUInt32 →
        Alike g (.player (playerSlain sh.filterMgr sh.player)) (.player sh.player))
  | .corpseLoc id x y z =>
      ∀ s, sh.spawns.find? id.toNat = some s →
        Alike g (.spawn (corpseAt x y z s)) (.spawn s)
  | .respawnFromHover =>
      ∃ i ∈ sh.items, i.id = 0 ∧ Alike g i (.player (sh.player.setID 0))
  | .removeSpawn id | .deleteSpawn id =>
      ∀ s, sh.spawns.find? id.toNat = some s → sh.Sole s.id
  | .removeGroundItem dropId =>
      sh.isZoning = false → ∀ t, sh.drops.find? dropId.toNat = some t → sh.Sole t.id
  | .clear => ∀ i ∈ sh.items, i.id = sh.player.id
  | .boxCreated => ∀ i ∈ sh.items, i.id = 0
  | _ => True

/-- Every operation keeps the ids, and a client a mirror where it finds what it must. -/
theorem tracks_run (keyed : sh.Keyed) (patchable : Patchable g) (op : ShellOp)
    : Tracks g (Follows g sh op) sh (op.run sh) := by
  cases op with
  | newSpawn d => exact tracks_newSpawn keyed d
  | newSpawnPacket d =>
      simp only [ShellOp.run, newSpawnPacket]
      split
      · exact .idle keyed
      · exact tracks_newSpawn keyed d
  | zoneEntry d => exact tracks_zoneEntry keyed patchable d id
  | upsertSpawn id r => exact tracks_upsertSpawn keyed id r
  | moveSpawn id x y z => exact tracks_moveSpawn keyed patchable id x y z
  | playerUpdate id m =>
      simp only [ShellOp.run, playerUpdate]
      split
      · exact .idle keyed
      · exact tracks_updateSpawn keyed patchable id m
  | npcMoveUpdate id m =>
      simp only [ShellOp.run, npcMoveUpdate]
      split
      · exact .idle keyed
      · exact tracks_updateSpawn keyed patchable id m
  | updateSpawnAnimation id animation =>
      exact tracks_updateSpawnAnimation keyed patchable id animation
  | updateSpawnHP id curHp maxHp => exact tracks_updateSpawnHP keyed patchable id curHp maxHp
  | updateNpcHP id curHp maxHp => exact tracks_updateNpcHP keyed patchable id curHp maxHp
  | updateSpawnInfo id subcommand arg1 =>
      exact tracks_updateSpawnInfo keyed patchable id subcommand arg1
  | updateMobHealth id hpPercent => exact tracks_updateMobHealth keyed patchable id hpPercent
  | setVitals v => exact tracks_setVitals keyed patchable v id
  | updatePlayerHP id curHp maxHp => exact tracks_updatePlayerHP keyed patchable id curHp maxHp
  | updatePlayerInfo id subcommand arg1 =>
      exact tracks_updatePlayerInfo keyed patchable id subcommand arg1
  | updateSpawnIdentity id level classVal =>
      exact tracks_updateSpawnIdentity keyed patchable id level classVal
  | updateSpawnLock id type value => exact tracks_updateSpawnLock keyed patchable id type value
  | renameSpawn walk oldName newName =>
      exact tracks_renameSpawn keyed patchable walk oldName newName id
  | illusionSpawn id race gender => exact tracks_illusionSpawn keyed patchable id race gender
  | shroudSpawn spawnID d profile =>
      exact tracks_shroudSpawn keyed patchable spawnID d profile
  | updateSpawnAppearance spawnId kind parameter =>
      exact tracks_updateSpawnAppearance keyed patchable spawnId kind parameter id
  | spawnWearingUpdate id => exact tracks_spawnWearingUpdate keyed patchable id
  | removeSpawn spawnId => exact .deleteSpawn keyed id
  | deleteSpawn spawnId => exact tracks_deleteSpawn keyed spawnId id
  | killSpawn id killerId =>
      exact tracks_killSpawn keyed patchable id killerId And.left And.right
  | respawnFromHover => exact tracks_respawnFromHover keyed id
  | corpseLoc spawnId x y z => exact tracks_corpseLoc keyed patchable spawnId x y z id
  | newGroundItem d => exact tracks_newGroundItem keyed d
  | removeGroundItem dropId => exact tracks_removeGroundItem keyed dropId id
  | newDoorSpawn d => exact tracks_newDoorSpawn keyed d
  | clear => exact tracks_clear sh sh id
  | boxCreated => exact tracks_boxCreated keyed id
  | setPlayerID id => exact tracks_setPlayerID keyed id
  | guildTagUpdated guildId guildIdToName =>
      refine .of_same ?_ (tracks_updateGuildTag ?_ guildId)
      · exact ⟨rfl, rfl, rfl, rfl, rfl⟩
      · exact keyed.congr rfl rfl
  | filtersChanged filterMask => exact tracks_filtersChanged keyed filterMask
  | runtimeFiltersChanged runtimeFilterMask =>
      exact tracks_runtimeFiltersChanged keyed runtimeFilterMask

end SpawnShell
end Scry
