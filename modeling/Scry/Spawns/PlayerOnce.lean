import Scry.Spawns.Following

/-! The player in the shell: under which keys it is listed, and whether a spawn has its id. -/

namespace Scry
namespace SpawnShell

variable {sh before after : SpawnShell} {key : Nat} {s : Spawn}

/-- The player is listed under one key, 0 or its id, and no spawn has its id. -/
structure PlayerOnce (sh : SpawnShell) : Prop where
  listed
    : ∃ key, (∀ other, other ∈ sh.players.keys ↔ other = key)
      ∧ (key = 0 ∨ key = sh.player.id.toNat)
  apart
    : sh.player.id ≠ 0 → ∀ {key s}, sh.spawns.find? key = some s → s.id ≠ sh.player.id

-----------------------------------------------------------------------------------------
-- Changes that leave ids alone
-----------------------------------------------------------------------------------------

/-- The player's keys and id are the same, and no spawn is new or has another id. -/
structure SameIds (before after : SpawnShell) : Prop where
  players : after.players = before.players
  player : after.player.id = before.player.id
  spawns
    : ∀ {key s}, after.spawns.find? key = some s →
        ∃ t, before.spawns.find? key = some t ∧ t.id = s.id

theorem SameIds.refl (sh : SpawnShell) : SameIds sh sh :=
  ⟨rfl, rfl, fun found => ⟨_, found, rfl⟩⟩

theorem SameIds.of_spawns (players : after.players = before.players)
    (player : after.player.id = before.player.id) (spawns : after.spawns = before.spawns)
    : SameIds before after :=
  ⟨players, player, fun found => ⟨_, spawns ▸ found, rfl⟩⟩

theorem PlayerOnce.of_sameIds (once : before.PlayerOnce) (same : SameIds before after)
    : after.PlayerOnce where
  listed := by
    rw [same.players, same.player]
    exact once.listed
  apart live _ _ found := by
    rw [same.player] at live ⊢
    obtain ⟨t, known, equal⟩ := same.spawns found
    exact equal ▸ once.apart live known

theorem sameIds_withSpawn {f : Spawn → Spawn × List SpawnSignal}
    (id : ∀ s, (f s).1.id = s.id)
    : SameIds sh (sh.withSpawn key f).1 := by
  simp only [withSpawn]
  cases known : sh.spawns.find? key with
  | none => exact .refl sh
  | some t =>
      refine ⟨rfl, rfl, fun {other s} found => ?_⟩
      simp only [setSpawn] at found
      rcases eq_or_ne other key with rfl | apart
      · rw [OrderedMap.find?_insert_self] at found
        exact ⟨t, known, (id t).symm.trans (congrArg _ (Option.some.inj found))⟩
      · rw [OrderedMap.find?_insert_of_ne _ _ apart] at found
        exact ⟨s, found, rfl⟩

theorem sameIds_mapSpawns {f : Spawn → Spawn} (id : ∀ s, (f s).id = s.id)
    (players : after.players = before.players) (player : after.player.id = before.player.id)
    (spawns : after.spawns = before.spawns.mapValues f)
    : SameIds before after := by
  refine ⟨players, player, fun {key s} found => ?_⟩
  rw [spawns, OrderedMap.find?_mapValues, Option.map_eq_some_iff] at found
  obtain ⟨t, known, rfl⟩ := found
  exact ⟨t, known, (id t).symm⟩

/-- What deleting an item other than the player keeps. -/
theorem sameIds_deleteItem {type : SpawnItemType} (other : type ≠ .tPlayer) (id : Nat)
    : SameIds sh (sh.deleteItem type id).1 := by
  refine ⟨?_, ?_, fun found => ⟨_, deleteItem_found found, rfl⟩⟩
  · cases type <;> first | exact absurd rfl other | (simp only [deleteItem]; split <;> rfl)
  · cases type <;> first | exact absurd rfl other | (simp only [deleteItem]; split <;> rfl)

theorem PlayerOnce.withSpawn (once : sh.PlayerOnce) {f : Spawn → Spawn × List SpawnSignal}
    (id : ∀ s, (f s).1.id = s.id)
    : (sh.withSpawn key f).1.PlayerOnce :=
  once.of_sameIds (sameIds_withSpawn id)

theorem PlayerOnce.setSpawn (once : sh.PlayerOnce) (key : Nat)
    (apart : sh.player.id ≠ 0 → s.id ≠ sh.player.id)
    : (sh.setSpawn key s).PlayerOnce where
  listed := once.listed
  apart live {other t} found := by
    rw [SpawnShell.setSpawn] at found
    rcases eq_or_ne other key with rfl | elsewhere
    · rw [OrderedMap.find?_insert_self] at found
      exact Option.some.inj found ▸ apart live
    · rw [OrderedMap.find?_insert_of_ne _ _ elsewhere] at found
      exact once.apart live found

-----------------------------------------------------------------------------------------
-- The player's id
-----------------------------------------------------------------------------------------

theorem mem_players_deleteItem {id other : Nat}
    : other ∈ (sh.deleteItem .tPlayer id).1.players.keys
      ↔ other ≠ id ∧ other ∈ sh.players.keys := by
  simp only [deleteItem]
  cases known : sh.players.find? id with
  | none =>
      have gone : id ∉ sh.players.keys := OrderedMap.find?_eq_none_iff.mp known
      exact ⟨fun member => ⟨fun same => gone (same ▸ member), member⟩, And.right⟩
  | some _ => exact OrderedMap.mem_keys_erase

theorem deleteItem_player (sh : SpawnShell) (type : SpawnItemType) (id : Nat)
    : (sh.deleteItem type id).1.player = sh.player := by
  cases type <;> (simp only [deleteItem]; split <;> rfl)

theorem adoptName_players (playerID : UInt16)
    : (sh.adoptName playerID).players = sh.players := by
  simp only [adoptName]
  split
  · rfl
  · split <;> rfl

theorem adoptName_id (playerID : UInt16)
    : (sh.adoptName playerID).player.id = sh.player.id := by
  simp only [adoptName]
  split
  · rfl
  · split <;> rfl

/-- What a new id of the player must find: a spawn with it is where the shell looks for one. -/
def FreesId (sh : SpawnShell) (playerID : UInt16) : Prop :=
  playerID ≠ sh.player.id → playerID ≠ 0 → ∀ key s, sh.spawns.find? key = some s →
    s.id = playerID → key = playerID.toNat

/-- The player's new id, by way of the shell's slot. -/
theorem PlayerOnce.setPlayerID (once : sh.PlayerOnce) (playerID : UInt16)
    (frees : sh.FreesId playerID)
    : (sh.setPlayerID playerID).1.PlayerOnce := by
  simp only [SpawnShell.setPlayerID]
  split
  · exact once
  · rename_i other
    simp only [playerChangedID, andThen, if_neg other]
    -- the slot already sees the new id
    let adopted := { sh with player := sh.player.setID playerID }.adoptName playerID
    have unlisted (k : Nat)
        : k ∉ ((adopted.deleteItem .tPlayer 0).1.deleteItem .tPlayer
            sh.player.id.toNat).1.players.keys := by
      intro member
      obtain ⟨notOld, member⟩ := mem_players_deleteItem.mp member
      obtain ⟨notZero, member⟩ := mem_players_deleteItem.mp member
      rw [adoptName_players] at member
      obtain ⟨key, only, which⟩ := once.listed
      obtain rfl := (only k).mp member
      exact which.elim notZero notOld
    let unplayed := (adopted.deleteItem .tPlayer 0).1.deleteItem .tPlayer sh.player.id.toNat
    have erased : SameIds unplayed.1 (unplayed.1.deleteItem .tSpawn playerID.toNat).1 :=
      sameIds_deleteItem (by decide) _
    have id : (unplayed.1.deleteItem .tSpawn playerID.toNat).1.player.id = playerID := by
      rw [erased.player, deleteItem_player, deleteItem_player, adoptName_id]
      rfl
    refine ⟨⟨playerID.toNat, fun k => ?_, Or.inr (congrArg UInt16.toNat id.symm)⟩, ?_⟩
    · rw [OrderedMap.mem_keys_insert, erased.players]
      exact or_iff_left (unlisted k)
    · intro live key s found equal
      have live : playerID ≠ 0 := id ▸ live
      have equal : s.id = playerID := equal.trans id
      obtain ⟨t, known, same⟩ := erased.spawns found
      have known := deleteItem_found (deleteItem_found known)
      rw [adoptName_spawns] at known
      obtain rfl := frees (Ne.symm other) live key t known (same.trans equal)
      simp only [deleteItem] at found
      split at found
      · rename_i none
        exact absurd (none.symm.trans found) (by simp)
      · exact absurd found (by simp)

-----------------------------------------------------------------------------------------
-- Operations
-----------------------------------------------------------------------------------------

/-- What a record must find: if it brings a new spawn, then not under the player's id. -/
def Unclaimed (sh : SpawnShell) (d : SpawnStruct) : Prop :=
  d.npc ≠ SPAWN_SELF → Spawn.calcIsMount d.race d.level = false →
    sh.spawns.find? d.spawnId.toNat = none → sh.player.id ≠ 0 →
      d.spawnId.toUInt16 ≠ sh.player.id

/-- What must hold where the player loses its id without a signal. -/
def LosesId (sh : SpawnShell) : Prop := 0 ∈ sh.players.keys

/-- What an operation must find for the player to stay listed once. -/
def KeepsPlayer (sh : SpawnShell) : ShellOp → Prop
  | .newSpawn d => sh.Unclaimed d
  | .newSpawnPacket d => sh.isZoning = false → sh.Unclaimed d
  | .zoneEntry d =>
      (d.name = sh.player.realName → sh.FreesId d.spawnId.toUInt16)
      ∧ (d.name ≠ sh.player.realName → sh.Unclaimed d)
  | .shroudSpawn spawnID d _ => spawnID ≠ sh.player.id.toUInt32 → sh.Unclaimed d
  | .setPlayerID id => sh.FreesId id
  | .respawnFromHover => sh.LosesId
  | _ => True

theorem PlayerOnce.newSpawn (once : sh.PlayerOnce) {d : SpawnStruct} (unclaimed : sh.Unclaimed d)
    : (sh.newSpawn d).1.PlayerOnce := by
  have forgotten : (sh.forgetDead d.spawnId).PlayerOnce :=
    once.of_sameIds (.of_spawns rfl rfl rfl)
  simp only [SpawnShell.newSpawn]
  split
  · exact once
  split
  · exact once
  rename_i npc mount
  have mount := Bool.eq_false_iff.mpr mount
  cases known : sh.spawns.find? d.spawnId.toNat with
  | none =>
      have fresh : (sh.forgetDead d.spawnId).spawns.find? d.spawnId.toNat = none := known
      rw [fresh]
      refine forgotten.setSpawn _ fun live => ?_
      simpa [forgetDead] using unclaimed npc mount known live
  | some t =>
      have there : (sh.forgetDead d.spawnId).spawns.find? d.spawnId.toNat = some t := known
      rw [there]
      refine forgotten.setSpawn _ fun live => ?_
      simpa [forgetDead] using once.apart live known

theorem PlayerOnce.zoneEntry (once : sh.PlayerOnce) {d : SpawnStruct}
    (frees : d.name = sh.player.realName → sh.FreesId d.spawnId.toUInt16)
    (unclaimed : d.name ≠ sh.player.realName → sh.Unclaimed d)
    : (sh.zoneEntry d).1.PlayerOnce := by
  simp only [SpawnShell.zoneEntry]
  split
  · refine (once.setPlayerID _ (frees ‹_›)).of_sameIds (.of_spawns rfl ?_ rfl)
    exact Spawn.update_id _ d
  · cases known : sh.spawns.find? d.spawnId.toNat with
    | none => exact once.newSpawn (unclaimed ‹_›)
    | some t =>
        refine once.setSpawn _ fun live => ?_
        simpa using once.apart live known

theorem PlayerOnce.updateSpawn (once : sh.PlayerOnce) (id : UInt16) (m : Movement)
    : (sh.updateSpawn id m).1.PlayerOnce := by
  simp only [SpawnShell.updateSpawn]
  split
  · exact once.of_sameIds (.of_spawns rfl rfl rfl)
  rename_i other
  cases known : sh.spawns.find? id.toNat with
  | some t =>
      have apart : sh.player.id ≠ 0 → t.id ≠ sh.player.id := fun live => once.apart live known
      exact once.setSpawn _ apart
  | none =>
      dsimp only
      split
      · split
        · exact once.of_sameIds (.of_spawns rfl rfl rfl)
        · exact once.setSpawn _ fun _ => other
      · exact once

/-- The player loses its id, and what stood for it goes on under the old one. -/
theorem PlayerOnce.loseId (once : sh.PlayerOnce) (loses : sh.LosesId)
    (player : after.player.id = 0) (players : after.players = sh.players)
    : after.PlayerOnce where
  listed := by
    obtain ⟨key, only, _⟩ := once.listed
    rw [players]
    exact ⟨key, only, Or.inl ((only 0).mp loses).symm⟩
  apart live := absurd player live

theorem playerOnce_cleared (players : after.players = OrderedMap.empty.insert 0 ())
    (spawns : after.spawns = .empty)
    : after.PlayerOnce where
  listed := by
    refine ⟨0, fun other => ?_, Or.inl rfl⟩
    rw [players, OrderedMap.mem_keys_insert]
    exact or_iff_left (by simp)
  apart _ _ _ found := absurd found (by simp [spawns])

/-- Every operation that finds what it must keeps the player listed once. -/
theorem PlayerOnce.run (once : sh.PlayerOnce) (op : ShellOp) (keeps : sh.KeepsPlayer op)
    : (op.run sh).1.PlayerOnce := by
  cases op with
  | newSpawn d => exact once.newSpawn keeps
  | newSpawnPacket d =>
      simp only [ShellOp.run, newSpawnPacket]
      split
      · exact once
      · exact once.newSpawn (keeps (Bool.eq_false_iff.mpr ‹_›))
  | zoneEntry d => exact once.zoneEntry keeps.1 keeps.2
  | upsertSpawn id r =>
      simp only [ShellOp.run, upsertSpawn]
      split
      · exact once
      · cases known : sh.spawns.find? id.toNat with
        | none => exact once.setSpawn _ fun _ => ‹_›
        | some t =>
            have apart : sh.player.id ≠ 0 → t.id ≠ sh.player.id := fun live =>
              once.apart live known
            exact once.setSpawn _ apart
  | moveSpawn id x y z =>
      simp only [ShellOp.run, moveSpawn]
      split
      · exact once
      · exact once.withSpawn fun _ => rfl
  | playerUpdate id m =>
      simp only [ShellOp.run, playerUpdate]
      split
      · exact once
      · exact once.updateSpawn id m
  | npcMoveUpdate id m =>
      simp only [ShellOp.run, npcMoveUpdate]
      split
      · exact once
      · exact once.updateSpawn id m
  | updateSpawnAnimation id animation =>
      refine once.withSpawn fun s => ?_
      split <;> rfl
  | updateSpawnHP id curHp maxHp => exact once.withSpawn fun _ => rfl
  | updateNpcHP id curHp maxHp => exact once.withSpawn fun _ => rfl
  | updateSpawnInfo id subcommand arg1 =>
      refine once.withSpawn fun s => ?_
      split <;> rfl
  | updateMobHealth id hpPercent =>
      refine once.withSpawn fun s => ?_
      dsimp only
      split <;> rfl
  | setVitals v =>
      simp only [ShellOp.run, setVitals]
      split
      · exact once
      · split
        · exact once.of_sameIds (.of_spawns rfl rfl rfl)
        · exact once
  | updatePlayerHP id curHp maxHp =>
      simp only [ShellOp.run, updatePlayerHP]
      split
      · exact once
      · exact once.of_sameIds (.of_spawns rfl rfl rfl)
  | updatePlayerInfo id subcommand arg1 =>
      simp only [ShellOp.run, updatePlayerInfo]
      split
      · exact once
      · exact once.of_sameIds (.of_spawns rfl rfl rfl)
  | updateSpawnIdentity id level classVal => exact once.withSpawn fun _ => rfl
  | updateSpawnLock id type value =>
      simp only [ShellOp.run, updateSpawnLock]
      split
      · exact once
      · refine once.withSpawn fun s => ?_
        split <;> rfl
  | renameSpawn walk oldName newName =>
      simp only [ShellOp.run, renameSpawn]
      split
      · exact once.withSpawn fun _ => rfl
      · split
        · exact once.of_sameIds (.of_spawns rfl rfl rfl)
        · exact once
  | illusionSpawn id race gender => exact once.withSpawn fun _ => rfl
  | shroudSpawn spawnID d profile =>
      simp only [ShellOp.run, shroudSpawn]
      split
      · exact once.newSpawn (keeps ‹_›)
      · exact once.of_sameIds (.of_spawns rfl rfl rfl)
  | updateSpawnAppearance id kind parameter =>
      refine once.withSpawn fun s => ?_
      split <;> rfl
  | spawnWearingUpdate id => exact once.withSpawn fun _ => rfl
  | removeSpawn id => exact once.of_sameIds (sameIds_deleteItem (by decide) _)
  | deleteSpawn id =>
      refine PlayerOnce.of_sameIds ?_ (sameIds_deleteItem (by decide) _)
      exact once.of_sameIds (.of_spawns rfl rfl rfl)
  | killSpawn id killerId =>
      simp only [ShellOp.run, killSpawn]
      split
      · exact once.withSpawn fun _ => rfl
      · exact once.of_sameIds (.of_spawns rfl rfl rfl)
  | respawnFromHover => exact once.loseId keeps rfl rfl
  | corpseLoc id x y z =>
      refine once.withSpawn fun s => ?_
      dsimp only
      split <;> rfl
  | newGroundItem d =>
      simp only [ShellOp.run, newGroundItem]
      split
      · exact once
      · split <;> exact once.of_sameIds (.of_spawns rfl rfl rfl)
  | removeGroundItem dropId =>
      simp only [ShellOp.run, removeGroundItem]
      split
      · exact once
      · exact once.of_sameIds (sameIds_deleteItem (by decide) _)
  | newDoorSpawn d =>
      simp only [ShellOp.run, newDoorSpawn]
      split <;> exact once.of_sameIds (.of_spawns rfl rfl rfl)
  | clear => exact playerOnce_cleared rfl rfl
  | boxCreated => exact playerOnce_cleared rfl rfl
  | setPlayerID id => exact once.setPlayerID id keeps
  | guildTagUpdated guildId guildIdToName =>
      refine once.of_sameIds (sameIds_mapSpawns (fun s => ?_) rfl ?_ rfl)
      · exact retagged_id guildId s
      · exact retagged_id guildId _
  | filtersChanged filterMask =>
      exact once.of_sameIds
        (sameIds_mapSpawns (f := fun s => s.updateFilterFlags { sh.filterMgr with filterMask })
          (fun _ => rfl) rfl rfl rfl)
  | runtimeFiltersChanged runtimeFilterMask =>
      exact once.of_sameIds
        (sameIds_mapSpawns
          (f := fun s => s.updateRuntimeFilterFlags { sh.filterMgr with runtimeFilterMask })
          (fun _ => rfl) rfl rfl rfl)

-----------------------------------------------------------------------------------------
-- Runs
-----------------------------------------------------------------------------------------

/-- What happens to the player and the shell: an operation, a zone change with both its slots,
or the player's slot on its own.
-/
inductive PlayerOp
  | shell (op : ShellOp)
  | zoneChanged
  | playerZoneChanged

/-- One step of the run. -/
def playerStep : PlayerOp → SpawnShell → SpawnShell
  | .shell op, sh => (op.run sh).1
  | .zoneChanged, sh => { sh with player := sh.player.zoneChanged }.clear.1
  | .playerZoneChanged, sh => { sh with player := sh.player.zoneChanged }

/-- What a step must find. -/
def KeepsPlayerOnce (sh : SpawnShell) : PlayerOp → Prop
  | .shell op => sh.KeepsPlayer op
  | .zoneChanged => True
  | .playerZoneChanged => sh.LosesId

theorem PlayerOnce.step (once : sh.PlayerOnce) (op : PlayerOp) (keeps : sh.KeepsPlayerOnce op)
    : (playerStep op sh).PlayerOnce := by
  cases op with
  | shell op => exact once.run op keeps
  | zoneChanged => exact playerOnce_cleared rfl rfl
  | playerZoneChanged => exact once.loseId keeps rfl rfl

theorem keyed_playerStep (keyed : sh.Keyed) (op : PlayerOp) : (playerStep op sh).Keyed := by
  cases op with
  | shell op => exact (tracks_run (g := fun _ => ()) keyed (fun _ _ _ _ => rfl) op).keyed
  | zoneChanged => exact keyed_clear _
  | playerZoneChanged => exact keyed.congr rfl rfl

/-- In every run whose steps find what they must, the player is listed under one key, 0 or its
id, and no spawn is kept under its id or has it.
-/
theorem player_once {player : Player} {filterMgr : FilterMgr}
    {guildIdToName : UInt16 → UInt16 → String} {createUnknownSpawns : Bool}
    (reached
      : Machine.Reaches playerStep KeepsPlayerOnce
          (.fresh player filterMgr guildIdToName createUnknownSpawns) sh)
    : (∃ key, (∀ other, other ∈ sh.players.keys ↔ other = key)
        ∧ (key = 0 ∨ key = sh.player.id.toNat))
      ∧ (sh.player.id ≠ 0 → ∀ key s, sh.spawns.find? key = some s →
        key ≠ sh.player.id.toNat ∧ s.id ≠ sh.player.id) := by
  obtain ⟨once, keyed⟩ : sh.PlayerOnce ∧ sh.Keyed := by
    refine reached.invariant (I := fun sh => sh.PlayerOnce ∧ sh.Keyed)
      ⟨playerOnce_cleared rfl rfl, ?_⟩ fun sh op keeps held => ?_
    · exact
        { spawnId := fun found => absurd found (by simp [SpawnShell.fresh])
          listed := ⟨0, OrderedMap.mem_keys_insert.mpr (Or.inl rfl)⟩ }
    · exact ⟨held.1.step op keeps, keyed_playerStep held.2 op⟩
  refine ⟨once.listed, fun live key s found => ⟨fun same => ?_, once.apart live found⟩⟩
  have id := keyed.spawnId found
  rw [same, UInt16.ofNat_toNat] at id
  exact once.apart live found id

/-- A zone change after which the player respawns, still without an id. -/
theorem player_once_rezoned
    : let sh := Machine.exec playerStep ZoneSession.newcomer
        [.shell (.setPlayerID 5), .zoneChanged, .shell .respawnFromHover]
      (∃ key, (∀ other, other ∈ sh.players.keys ↔ other = key)
        ∧ (key = 0 ∨ key = sh.player.id.toNat))
      ∧ (sh.player.id ≠ 0 → ∀ key s, sh.spawns.find? key = some s →
        key ≠ sh.player.id.toNat ∧ s.id ≠ sh.player.id) := by
  have unknown : ZoneSession.newcomer.FreesId 5 := fun _ _ _ _ found => nomatch found
  have reached : Machine.Reaches playerStep KeepsPlayerOnce ZoneSession.newcomer
      (Machine.exec playerStep ZoneSession.newcomer
        [.shell (.setPlayerID 5), .zoneChanged, .shell .respawnFromHover]) :=
    Machine.reaches_exec
      ⟨unknown, trivial, OrderedMap.mem_keys_insert.mpr (Or.inl rfl), trivial⟩
  exact player_once reached

/-- One that dies and respawns in its zone is listed twice once it has its new id. -/
theorem player_twice
    : ¬ (∀ sh, Machine.Reaches playerStep (fun _ _ => True) ZoneSession.newcomer sh →
        ∃ key, ∀ other, other ∈ sh.players.keys ↔ other = key) := by
  intro once
  have reached : Machine.Reaches playerStep (fun _ _ => True) ZoneSession.newcomer
      (Machine.exec playerStep ZoneSession.newcomer
        [.shell (.setPlayerID 5), .shell (.killSpawn 5 0), .shell .respawnFromHover,
          .shell (.setPlayerID 6)]) :=
    Machine.reaches_exec ⟨trivial, trivial, trivial, trivial, trivial⟩
  obtain ⟨key, only⟩ := once _ reached
  have old := (only 5).mp (by decide)
  have new := (only 6).mp (by decide)
  exact absurd (old.trans new.symm) (by decide)

end SpawnShell
end Scry
