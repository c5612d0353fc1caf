import Scry.Spawns.SpawnIds

/-! A client that has folded the updates shows what a client that subscribes now is shown. -/

namespace Scry

-----------------------------------------------------------------------------------------
-- What each operation must find
-----------------------------------------------------------------------------------------

/-- A corpse that lies still, so that dying changes nothing that is shown of it. -/
def Spawn.LiesStill (s : Spawn) : Prop :=
  s.isCorpse = true ∧ s.deltaX = 0 ∧ s.deltaY = 0 ∧ s.deltaZ = 0 ∧ s.deltaHeading = 0
  ∧ s.curHP = 0

/-- Whether the player's accessors answer with the configured defaults. -/
def Player.AnswersDefaults (p : Player) : Prop :=
  p.useAutoDetectedSettings = false ∨ p.useDefaults = true

theorem Player.shown_of_defaults {p : Player} (defaults : p.AnswersDefaults)
    : p.shown
      = { p.base with
          name := p.defaultName
          lastName := p.defaultLastName
          level := p.defaultLevel.toUInt32.toInt32
          race := p.defaultRace
          classVal := p.defaultClass
          deity := p.defaultDeity } := by
  refine if_pos ?_
  rcases defaults with off | on
  · simp [off]
  · simp [on]

theorem Player.shown_of_own {p : Player} (own : ¬ p.AnswersDefaults) : p.shown = p.base := by
  refine if_neg fun defaults => own ?_
  simpa [Player.AnswersDefaults] using defaults

namespace SpawnShell

/-- The name of a spawn whose flags do not change with it is sent as it is, so it must be one
that a snapshot shows as it is.
-/
def RenameShows (sh : SpawnShell) (walk : List Nat) (oldName newName : String) : Prop :=
  match sh.findSpawnByName walk oldName with
  | some key =>
      ∀ s, sh.spawns.find? key = some s →
        flagChanges s (renamed sh.filterMgr newName s) = 0 → transformedName newName = newName
  | none =>
      oldName = sh.player.shown.name →
        flagChanges sh.player.base (playerRenamed sh.filterMgr newName sh.player).base = 0 →
        transformedName (sh.player.setName newName).shown.name
        = (sh.player.setName newName).shown.name

/-- What an operation must find for a client to go on showing what a snapshot would: what it
changes without a signal, or with one that does not carry it, is as it was.
-/
def KeepsShown (sh : SpawnShell) : ShellOp → Prop
  | .zoneEntry d =>
      d.name ≠ sh.player.realName → ∀ s, sh.spawns.find? d.spawnId.toNat = some s →
        (SpawnItem.spawn (Spawn.ofStruct d)).shown = (SpawnItem.spawn s).shown
  | .setVitals v => v.haveHP = true → v.hpCur.toInt32 = sh.player.base.curHP
  | .renameSpawn walk oldName newName => sh.RenameShows walk oldName newName
  | .updateSpawnAppearance id kind parameter =>
      kind = 1 → parameter ≠ 0 → ∀ s, sh.spawns.find? id.toNat = some s →
        parameter.toInt32 = s.level
  | .killSpawn id _ =>
      (id ≠ sh.player.id.toUInt32 → sh.spawns.find? id.toNat = none)
      ∧ (id = sh.player.id.toUInt32 → sh.player.AnswersDefaults ∧ sh.player.base.LiesStill)
  | .corpseLoc id x y z =>
      ∀ s, sh.spawns.find? id.toNat = some s →
        s.LiesStill ∧ s.heading = 0 ∧ s.z = z
        ∧ if s.npc = SPAWN_PLAYER ∨ s.npc = SPAWN_PC_CORPSE then s.x = y ∧ s.y = x
          else s.x = x ∧ s.y = y
  | .respawnFromHover => False
  | .clear => ∀ i ∈ sh.items, i.id = sh.player.id
  | .boxCreated => ∀ i ∈ sh.items, i.id = 0
  | _ => True

variable {sh : SpawnShell}

-----------------------------------------------------------------------------------------
-- What stays as it was
-----------------------------------------------------------------------------------------

/-- A record leaves nothing of a spawn that is shown. -/
theorem update_eq (s t : Spawn) (d : SpawnStruct)
    : s.update d
      = { t.update d with
          id := s.id
          classMask := s.classMask
          guildTag := s.guildTag
          locked := s.locked
          filterFlags := s.filterFlags
          runtimeFilterFlags := s.runtimeFilterFlags } := by
  by_cases corpse
      : (Spawn.npcOf d == SPAWN_PC_CORPSE || Spawn.npcOf d == SPAWN_NPC_CORPSE) = true
  · simp only [Spawn.update, Spawn.isCorpse, corpse, if_true]
  · simp only [Spawn.update, Spawn.isCorpse, corpse, if_false, Bool.false_eq_true]

theorem shown_update (s t : Spawn) (d : SpawnStruct)
    : (SpawnItem.spawn (s.update d)).shown = (SpawnItem.spawn (t.update d)).shown := by
  rw [update_eq s t d, spawn_shown, spawn_shown]
  rfl

theorem wireType_killSpawn {s : Spawn} (corpse : s.isCorpse = true)
    : s.killSpawn.wireType = s.wireType := by
  simp only [Spawn.isCorpse, Bool.or_eq_true, beq_iff_eq] at corpse
  rcases corpse with npc | npc
  · simp [Spawn.wireType, Spawn.isCorpse, Spawn.killSpawn, npc]
  · simp [Spawn.wireType, Spawn.isCorpse, Spawn.killSpawn, npc, SPAWN_NPC_CORPSE, SPAWN_PLAYER,
      SPAWN_SELF, SPAWN_PC_CORPSE]

theorem fillPos_killSpawn {s : Spawn} (still : s.LiesStill) (heading : Int)
    : fillPos s.killSpawn heading = fillPos s heading := by
  obtain ⟨_, x, y, z, turning, _⟩ := still
  simp [fillPos, Spawn.killSpawn, x, y, z, turning]

/-- A spawn that lies still is shown the same once it is dead. -/
theorem shown_killSpawn {s : Spawn} (still : s.LiesStill) (heading : s.heading = 0)
    : (SpawnItem.spawn s.killSpawn).shown = (SpawnItem.spawn s).shown := by
  have faces : s.killSpawn.heading = s.heading := heading.symm
  have hp : s.killSpawn.curHP = s.curHP := still.2.2.2.2.2.symm
  simp only [spawn_shown, fillPos_killSpawn still, wireType_killSpawn still.1, faces, hp]
  rfl

theorem corpseAt_eq {s : Spawn} {x y z : Int16} (height : s.z = z)
    (place
      : if s.npc = SPAWN_PLAYER ∨ s.npc = SPAWN_PC_CORPSE then s.x = y ∧ s.y = x
        else s.x = x ∧ s.y = y)
    : corpseAt x y z s = s.killSpawn := by
  subst height
  simp only [corpseAt]
  split at place
  · rename_i player
    obtain ⟨rfl, rfl⟩ := place
    rw [if_pos player]
  · rename_i other
    obtain ⟨rfl, rfl⟩ := place
    rw [if_neg other]

/-- So is a player that lies still under its configured name. -/
theorem shown_playerSlain {p : Player} (m : FilterMgr) (defaults : p.AnswersDefaults)
    (still : p.base.LiesStill)
    : (SpawnItem.player (playerSlain m p)).shown = (SpawnItem.player p).shown := by
  have after : (playerSlain m p).AnswersDefaults := defaults
  have hp : p.base.killSpawn.curHP = p.base.curHP := still.2.2.2.2.2.symm
  have type : p.base.killSpawn.wireType = p.base.wireType := wireType_killSpawn still.1
  have place : fillPos p.base.killSpawn p.headingDegrees = fillPos p.base p.headingDegrees :=
    fillPos_killSpawn still p.headingDegrees
  rw [player_shown, player_shown, Player.shown_of_defaults after,
    Player.shown_of_defaults defaults]
  refine ShownSpawn.ext ?_ ?_ ?_ ?_ ?_ ?_
  · rfl
  · exact place
  · rfl
  · rfl
  · exact type
  · exact congrArg Int32.toUInt32 hp

/-- With an id for each item, the id of one that is removed occurs once. -/
theorem NoShared.sole (single : sh.NoShared) {i : SpawnItem} (other : i ∈ sh.others)
    : sh.Sole i.id := by
  obtain ⟨nodup, _, apart⟩ := List.nodup_append.mp single
  have listed : i.id ∈ sh.others.map SpawnItem.id := List.mem_map.mpr ⟨i, other, rfl⟩
  have player : i.id ≠ sh.player.id := apart _ listed _ List.mem_cons_self
  have none : (sh.players.entries.map fun _ => sh.player.id).count i.id = 0 := by
    refine List.count_eq_zero.mpr fun member => ?_
    obtain ⟨_, _, same⟩ := List.mem_map.mp member
    exact player same.symm
  have once : (sh.others.map SpawnItem.id).count i.id = 1 :=
    List.count_eq_one_of_mem nodup listed
  have split : sh.items.map SpawnItem.id
      = sh.others.map SpawnItem.id ++ sh.players.entries.map fun _ => sh.player.id := by
    rw [items_eq, List.map_append, List.map_map]
    rfl
  rw [Sole, split, List.count_append, once, none]

theorem mem_others_spawn {key : Nat} {s : Spawn} (found : sh.spawns.find? key = some s)
    : .spawn s ∈ sh.others := by
  refine List.mem_append_left _ (List.mem_append_left _ ?_)
  exact List.mem_map.mpr ⟨_, OrderedMap.find?_eq_some_iff.mp found, rfl⟩

theorem mem_others_drop {key : Nat} {t : Thing} (found : sh.drops.find? key = some t)
    : .drop t ∈ sh.others := by
  refine List.mem_append_left _ (List.mem_append_right _ ?_)
  exact List.mem_map.mpr ⟨_, OrderedMap.find?_eq_some_iff.mp found, rfl⟩

/-- Renaming the player changes what is shown of it by the name only. -/
theorem shown_playerRenamed (m : FilterMgr) (newName : String) (p : Player)
    : (playerRenamed m newName p).shown
      = { p.shown with
          name := (p.setName newName).shown.name
          filterFlags := (playerRenamed m newName p).base.filterFlags
          runtimeFilterFlags := (playerRenamed m newName p).base.runtimeFilterFlags } := by
  by_cases defaults : p.AnswersDefaults
  · have renamed : (playerRenamed m newName p).AnswersDefaults := defaults
    have named : (p.setName newName).AnswersDefaults := defaults
    rw [Player.shown_of_defaults renamed, Player.shown_of_defaults named,
      Player.shown_of_defaults defaults]
    rfl
  · have renamed : ¬ (playerRenamed m newName p).AnswersDefaults := defaults
    have named : ¬ (p.setName newName).AnswersDefaults := defaults
    rw [Player.shown_of_own renamed, Player.shown_of_own named, Player.shown_of_own defaults]
    rfl

theorem RenameShows.reaches {walk : List Nat} {oldName newName : String}
    (shows : sh.RenameShows walk oldName newName)
    : RenameReaches id sh walk oldName newName := by
  simp only [RenameShows] at shows
  simp only [RenameReaches]
  cases found : sh.findSpawnByName walk oldName with
  | some key =>
      simp only [found] at shows ⊢
      intro s known same
      have named : newName = transformedName (renamed sh.filterMgr newName s).name :=
        (shows s known same).symm
      rw [NameReaches, spawn_shown, spawn_shown, ← named]
      rfl
  | none =>
      simp only [found] at shows ⊢
      intro own same
      have shown := shown_playerRenamed sh.filterMgr newName sh.player
      have named := shows own same
      rw [NameReaches, player_shown, player_shown, shown]
      simp only [named]
      rfl

/-- Hit points that are what they were, whatever the maximum is. -/
theorem shown_setPlayerHP {curHP : Int32} (same : curHP = sh.player.base.curHP) (maxHP : Int32)
    : (SpawnItem.player (sh.setPlayerHP curHP maxHP).player).shown
      = (SpawnItem.player sh.player).shown := by
  rw [setPlayerHP, player_shown, player_shown, Player.shown_hp, same,
    ← sh.player.shown_curHP]
  rfl

theorem KeepsShown.follows {op : ShellOp} (keeps : sh.KeepsShown op) (single : sh.NoShared)
    : sh.Follows id op := by
  cases op with
  | zoneEntry d =>
      intro other s found
      exact (shown_update s _ d).trans (keeps other s found)
  | setVitals v =>
      intro reported
      exact shown_setPlayerHP (keeps reported) _
  | renameSpawn walk oldName newName => exact RenameShows.reaches keeps
  | updateSpawnAppearance spawnId kind parameter =>
      intro level some s found
      rw [keeps level some s found]
      rfl
  | killSpawn spawnId killerId =>
      refine ⟨fun other s found => ?_, fun own => ?_⟩
      · exact absurd ((keeps.1 other).symm.trans found) (by simp)
      · obtain ⟨defaults, still⟩ := keeps.2 own
        exact shown_playerSlain _ defaults still
  | corpseLoc spawnId x y z =>
      intro s found
      obtain ⟨still, heading, height, place⟩ := keeps s found
      rw [corpseAt_eq height place]
      exact shown_killSpawn still heading
  | respawnFromHover => exact absurd keeps id
  | removeSpawn spawnId => exact fun s found => single.sole (mem_others_spawn found)
  | deleteSpawn spawnId => exact fun s found => single.sole (mem_others_spawn found)
  | removeGroundItem dropId => exact fun _ t found => single.sole (mem_others_drop found)
  | _ => exact keeps

end SpawnShell

namespace ZoneSession

variable {w : ZoneSession}

/-- What a step must find, if the session is subscribed, for the client to agree with a
snapshot; and the shell that a subscribed session comes to has an id for each item.
-/
def KeepsShown (w : ZoneSession) (op : ZoneOp) : Prop :=
  (w.subscribed = true → w.Finds SpawnShell.KeepsShown op)
  ∧ ((step op w).subscribed = true → (step op w).shell.NoShared)

/-- In every run that keeps what is shown, a subscribed client shows under each id what a client
that subscribes now is shown.
-/
theorem shown_eq_snapshot {player : Player} {filterMgr : FilterMgr}
    {guildIdToName : UInt16 → UInt16 → String} {createUnknownSpawns : Bool}
    (reached
      : Machine.Reaches step KeepsShown
          (fresh (.fresh player filterMgr guildIdToName createUnknownSpawns)) w)
    (live : w.subscribed = true) (id : UInt16)
    : (w.client.spawns.find? id).map WireSpawn.shown
      = ((SpawnClient.fresh.receive (snapshotOf w.shell w.shortZoneName)).spawns.find? id).map
          WireSpawn.shown := by
  have keeps {s : ZoneSession} {op : ZoneOp} (permitted : s.KeepsShown op)
      (before : s.Synced (fun shown => shown) ∧ (s.subscribed = true → s.shell.NoShared))
      : (step op s).Synced (fun shown => shown)
        ∧ ((step op s).subscribed = true → (step op s).shell.NoShared) := by
    obtain ⟨synced, single⟩ := before
    obtain ⟨finds, apart⟩ := permitted
    refine ⟨?_, apart⟩
    refine synced.step (fun u a b same => congrArg (ShownSpawn.patch u) same) op ?_
      fun live => Or.inr (apart live)
    intro live
    cases op with
    | shell op => exact SpawnShell.KeepsShown.follows (finds live) (single live)
    | _ => exact finds live
  obtain ⟨synced, single⟩ := reached.invariant
    ⟨synced_fresh _ _ _ _, fun live => absurd live (by simp [fresh])⟩
    fun s op permitted before => keeps permitted before
  have apart : w.shell.Separable (fun shown => shown) := Or.inr (single live)
  have late := SpawnShell.mirrored_snapshot synced.keyed.listed apart.coherent SpawnClient.fresh
    w.shortZoneName
  exact (synced.mirrored live).agree late id

/-- A spawn that appears, is hurt and is then called something else. -/
def hurtAndRenamed (newName : String) : List ZoneOp :=
  [.subscribe,
    .shell
      (.npcMoveUpdate 6
        { x := 1, y := 1, z := 0, xVel := 0, yVel := 0, zVel := 0, heading := 0
          deltaHeading := 0, animation := 0 }),
    .shell (.updateNpcHP 6 40 100),
    .shell (.renameSpawn [6] "unknown" newName)]

/-- A name in the form that is shown reaches the client as the snapshot has it. -/
theorem shown_eq_snapshot_hurtAndRenamed
    : let w := Machine.exec step (fresh newcomer) (hurtAndRenamed "Soandso")
      w.subscribed = true
      ∧ (w.client.spawns.find? 6).map WireSpawn.shown
        = ((SpawnClient.fresh.receive (snapshotOf w.shell w.shortZoneName)).spawns.find? 6).map
            WireSpawn.shown := by
  have shows
      : (Machine.exec step (fresh newcomer) (hurtAndRenamed "Soandso").dropLast).shell.RenameShows
          [6] "unknown" "Soandso" := by
    intro s _ _
    decide
  have reached : Machine.Reaches step KeepsShown (fresh newcomer)
      (Machine.exec step (fresh newcomer) (hurtAndRenamed "Soandso")) :=
    Machine.reaches_exec
      ⟨⟨fun _ => trivial, fun _ => by decide⟩, ⟨fun _ => trivial, fun _ => by decide⟩,
        ⟨fun _ => trivial, fun _ => by decide⟩, ⟨fun _ => shows, fun _ => by decide⟩, trivial⟩
  exact ⟨by decide, shown_eq_snapshot reached (by decide) 6⟩

/-- One with an article or digits does not. -/
theorem late_client_shows_other_name
    : ¬ (∀ w, Machine.Reaches step (fun w op => (step op w).shell.NoShared) (fresh newcomer) w →
        w.subscribed = true → ∀ id,
          (w.client.spawns.find? id).map WireSpawn.shown
          = ((SpawnClient.fresh.receive (snapshotOf w.shell w.shortZoneName)).spawns.find? id).map
              WireSpawn.shown) := by
  intro agree
  have reached : Machine.Reaches step (fun w op => (step op w).shell.NoShared) (fresh newcomer)
      (Machine.exec step (fresh newcomer) (hurtAndRenamed "a_rat00")) :=
    Machine.reaches_exec ⟨by decide, by decide, by decide, by decide, trivial⟩
  exact absurd (agree _ reached (by decide) 6) (by decide)

end ZoneSession
end Scry
