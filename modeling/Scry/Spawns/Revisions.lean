import Scry.Spawns.Tracking

/-! The operations that put one spawn into the shell or revise one, the player among them, and
what each must find for its signals to keep a client a mirror.
-/

namespace Scry

/-- The player's accessors over a base with other fields than those they answer for. -/
theorem Player.shown_moved (p : Player) (m : Movement)
    : { p with base := SpawnShell.moved m p.base }.shown = SpawnShell.moved m p.shown := by
  simp only [Player.shown]
  split <;> rfl

theorem Player.shown_hp (p : Player) (curHP maxHP : Int32)
    : { p with base := { p.base with curHP, maxHP } }.shown
      = { p.shown with curHP, maxHP } := by
  simp only [Player.shown]
  split <;> rfl

namespace SpawnShell

variable {sh : SpawnShell} {α : Type} {g : ShownSpawn → α} {cond : Prop}

-----------------------------------------------------------------------------------------
-- Signals in full
-----------------------------------------------------------------------------------------

theorem onChangeItem_full {changeType : UInt32} (full : inFull changeType = true) (i : SpawnItem)
    : onChangeItem i changeType = .spawnAdded (fillSpawn i) :=
  if_pos full

theorem inFull_all : inFull tSpawnChangedALL = true := by decide
theorem inFull_filter : inFull tSpawnChangedFilter = true := by decide
theorem inFull_runtimeFilter : inFull tSpawnChangedRuntimeFilter = true := by decide

/-- A new item goes out in full. -/
theorem sent_added (i : SpawnItem) (zoneShort : String)
    : [SpawnSignal.addItem i].flatMap (·.envelopes zoneShort) = [.spawnAdded (fillSpawn i)] :=
  rfl

/-- So does an item of which all changed. -/
theorem sent_all (i : SpawnItem) (zoneShort : String)
    : [SpawnSignal.changeItem i tSpawnChangedALL].flatMap (·.envelopes zoneShort)
      = [.spawnAdded (fillSpawn i)] := by
  rw [List.flatMap_singleton, SpawnSignal.envelopes, onChangeItem_full inFull_all]

/-- A revised item sent in full, and nothing else. -/
theorem Revision.full (old new : SpawnItem)
    : Revision g old new [.changeItem new tSpawnChangedALL] :=
  .sent [] [] (by simp) (by simp) (Or.inl inFull_all)

/-- A revised item of which one change is sent. -/
theorem Revision.part {old new : SpawnItem} (changeType : UInt32)
    (reaches : old.shown.patch (updatedFields new changeType) = new.shown)
    : Revision g old new [.changeItem new changeType] :=
  .sent [] [] (by simp) (by simp) (Or.inr (congrArg g reaches))

/-- A spawn that is as it was. -/
theorem Revision.same (i : SpawnItem) : Revision g i i [] :=
  .silent (by simp) rfl

-----------------------------------------------------------------------------------------
-- Fields of a spawn
-----------------------------------------------------------------------------------------

theorem spawn_shown (s : Spawn)
    : (SpawnItem.spawn s).shown
      = { name := transformedName s.name
          pos := fillPos s (degrees s.heading)
          level := s.level.toUInt32
          race := s.race
          type := s.wireType
          hpCur := s.curHP.toUInt32 } := by
  simp only [SpawnItem.shown, fillSpawn, fillSpawnOf, WireSpawn.shown]

theorem player_shown (p : Player)
    : (SpawnItem.player p).shown
      = { name := transformedName p.shown.name
          pos := fillPos p.shown p.headingDegrees
          level := p.shown.level.toUInt32
          race := p.shown.race
          type := p.shown.wireType
          hpCur := p.shown.curHP.toUInt32 } := by
  simp only [SpawnItem.shown, fillSpawn, fillSpawnOf, WireSpawn.shown]

theorem updatedFields_position (s : Spawn)
    : updatedFields (.spawn s) tSpawnChangedPosition
      = { id := s.id, pos := some (fillPos s (degrees s.heading)), hpCur := none, name := none } :=
  rfl

theorem updatedFields_hp (s : Spawn)
    : updatedFields (.spawn s) tSpawnChangedHP
      = { id := s.id, pos := none, hpCur := some s.curHP.toUInt32, name := none } :=
  rfl

theorem updatedFields_playerPosition (p : Player)
    : updatedFields (.player p) tSpawnChangedPosition
      = { id := p.shown.id, pos := some (fillPos p.shown p.headingDegrees), hpCur := none
          name := none } :=
  rfl

theorem updatedFields_playerHP (p : Player)
    : updatedFields (.player p) tSpawnChangedHP
      = { id := p.shown.id, pos := none, hpCur := some p.shown.curHP.toUInt32, name := none } :=
  rfl

/-- A new position reaches a client whole. -/
theorem reaches_position {s t : Spawn} (name : t.name = s.name) (level : t.level = s.level)
    (race : t.race = s.race) (type : t.wireType = s.wireType) (hp : t.curHP = s.curHP)
    : (SpawnItem.spawn s).shown.patch (updatedFields (.spawn t) tSpawnChangedPosition)
      = (SpawnItem.spawn t).shown := by
  simp only [spawn_shown, updatedFields_position, ShownSpawn.patch, Option.getD_some,
    Option.getD_none, name, level, race, type, hp]

/-- So do new hit points. -/
theorem reaches_hp (s : Spawn) (curHP maxHP : Int32)
    : (SpawnItem.spawn s).shown.patch
        (updatedFields (.spawn { s with curHP, maxHP }) tSpawnChangedHP)
      = (SpawnItem.spawn { s with curHP, maxHP }).shown := by
  simp only [spawn_shown, updatedFields_hp, ShownSpawn.patch, Option.getD_some,
    Option.getD_none]
  rfl

theorem reaches_playerPosition (p : Player) (m : Movement)
    : (SpawnItem.player p).shown.patch
        (updatedFields (.player { p with base := moved m p.base }) tSpawnChangedPosition)
      = (SpawnItem.player { p with base := moved m p.base }).shown := by
  simp only [player_shown, updatedFields_playerPosition, ShownSpawn.patch, Option.getD_some,
    Option.getD_none, Player.shown_moved]
  rfl

theorem reaches_playerHP (p : Player) (curHP maxHP : Int32)
    : (SpawnItem.player p).shown.patch
        (updatedFields (.player { p with base := { p.base with curHP, maxHP } })
          tSpawnChangedHP)
      = (SpawnItem.player { p with base := { p.base with curHP, maxHP } }).shown := by
  simp only [player_shown, updatedFields_playerHP, ShownSpawn.patch, Option.getD_some,
    Option.getD_none, Player.shown_hp]
  rfl

-----------------------------------------------------------------------------------------
-- Spawns
-----------------------------------------------------------------------------------------

/-- A new spawn with its flags and its guild tag. -/
theorem Tracks.tagged {after : SpawnShell} {key : Nat} {s : Spawn} {signals : List SpawnSignal}
    (m : FilterMgr) (guildTag : String) (keyed : sh.Keyed) (same : SameItems sh after)
    (id : s.id = UInt16.ofNat key)
    (sent
      : ∀ zoneShort,
          signals.flatMap (·.envelopes zoneShort)
          = [.spawnAdded (fillSpawn (.spawn { s.updateFlags m with guildTag }))])
    : Tracks g cond sh (after.setSpawn key { s.updateFlags m with guildTag }, signals) :=
  .setSpawn keyed same id sent

theorem tracks_newSpawn (keyed : sh.Keyed) (d : SpawnStruct)
    : Tracks g cond sh (sh.newSpawn d) := by
  have forgotten : SameItems sh (sh.forgetDead d.spawnId) := ⟨rfl, rfl, rfl, rfl, rfl⟩
  simp only [newSpawn]
  split
  · exact .idle keyed
  split
  · exact .idle keyed
  cases known : (sh.forgetDead d.spawnId).spawns.find? d.spawnId.toNat with
  | none => exact .tagged _ _ keyed forgotten (Spawn.ofStruct_id d) (sent_added _)
  | some s =>
      exact .tagged _ _ keyed forgotten ((s.update_id d).trans (keyed.spawnId known))
        (sent_all _)

theorem tracks_upsertSpawn (keyed : sh.Keyed) (id : UInt16) (r : SpawnRecord)
    : Tracks g cond sh (sh.upsertSpawn id r) := by
  simp only [upsertSpawn]
  split
  · exact .idle keyed
  cases known : sh.spawns.find? id.toNat with
  | none => exact .setSpawn keyed (.refl sh) UInt16.ofNat_toNat.symm (sent_added _)
  | some s => exact .setSpawn keyed (.refl sh) (keyed.spawnId (s := s) known) (sent_all _)

theorem tracks_updateSpawn (keyed : sh.Keyed) (patchable : Patchable g) (id : UInt16)
    (m : Movement)
    : Tracks g cond sh (sh.updateSpawn id m) := by
  simp only [updateSpawn]
  split
  · exact .revise (keyed.congr rfl rfl) patchable (replacesPlayer sh keyed.listed rfl)
      fun _ => .part _ (reaches_playerPosition _ _)
  cases known : sh.spawns.find? id.toNat with
  | some s =>
      exact .reviseSpawn keyed patchable known rfl
        fun _ => .part _ (reaches_position rfl rfl rfl rfl rfl)
  | none =>
      simp only
      split
      · split
        · exact ⟨keyed.congr rfl rfl, fun _ _ _ _ mirrored => mirrored⟩
        · exact .setSpawn keyed (.refl sh) UInt16.ofNat_toNat.symm (sent_added _)
      · exact .idle keyed

theorem tracks_moveSpawn (keyed : sh.Keyed) (patchable : Patchable g) (id : UInt16)
    (x y z : Int16)
    : Tracks g cond sh (sh.moveSpawn id x y z) := by
  simp only [moveSpawn]
  split
  · exact .idle keyed
  · exact .withSpawn keyed patchable
      fun _ _ => ⟨rfl, fun _ => .part _ (reaches_position rfl rfl rfl rfl rfl)⟩

theorem tracks_updateSpawnAnimation (keyed : sh.Keyed) (patchable : Patchable g) (id : UInt16)
    (animation : UInt8)
    : Tracks g cond sh (sh.updateSpawnAnimation id animation) := by
  refine .withSpawn keyed patchable fun s _ => ?_
  simp only
  split
  · exact ⟨rfl, fun _ => .same _⟩
  · exact ⟨rfl, fun _ => .part _ (reaches_position rfl rfl rfl rfl rfl)⟩

-----------------------------------------------------------------------------------------
-- Hit points
-----------------------------------------------------------------------------------------

theorem tracks_updateSpawnHP (keyed : sh.Keyed) (patchable : Patchable g) (id : UInt16)
    (curHp maxHp : Int32)
    : Tracks g cond sh (sh.updateSpawnHP id curHp maxHp) :=
  .withSpawn keyed patchable fun s _ => ⟨rfl, fun _ => .part _ (reaches_hp s _ _)⟩

theorem tracks_updateNpcHP (keyed : sh.Keyed) (patchable : Patchable g) (id : UInt16)
    (curHp maxHp : Int32)
    : Tracks g cond sh (sh.updateNpcHP id curHp maxHp) :=
  .withSpawn keyed patchable fun s _ => ⟨rfl, fun _ => .part _ (reaches_hp s _ _)⟩

theorem tracks_updateSpawnInfo (keyed : sh.Keyed) (patchable : Patchable g)
    (id subcommand : UInt16) (arg1 : Int32)
    : Tracks g cond sh (sh.updateSpawnInfo id subcommand arg1) := by
  refine .withSpawn keyed patchable fun s _ => ?_
  simp only
  split
  · exact ⟨rfl, fun _ => .part _ (reaches_hp s _ _)⟩
  · exact ⟨rfl, fun _ => .same _⟩

theorem tracks_updateMobHealth (keyed : sh.Keyed) (patchable : Patchable g) (id : UInt16)
    (hpPercent : Int32)
    : Tracks g cond sh (sh.updateMobHealth id hpPercent) := by
  refine .withSpawn keyed patchable fun s _ => ?_
  simp only
  split
  · exact ⟨rfl, fun _ => .part _ (reaches_hp s _ _)⟩
  · exact ⟨rfl, fun _ => .part _ (reaches_hp s s.curHP s.maxHP)⟩

/-- The player's hit points stored, and signalled or not. -/
theorem Tracks.playerHP (keyed : sh.Keyed) (patchable : Patchable g) {curHP maxHP : Int32}
    {signals : List SpawnSignal}
    (revision
      : cond → Revision g (.player sh.player) (.player (sh.setPlayerHP curHP maxHP).player)
          signals)
    : Tracks g cond sh (sh.setPlayerHP curHP maxHP, signals) :=
  .revise (keyed.congr rfl rfl) patchable (replacesPlayer sh keyed.listed rfl) revision

theorem tracks_setVitals (keyed : sh.Keyed) (patchable : Patchable g) (v : Vitals)
    (unseen
      : cond → v.haveHP = true →
          g (SpawnItem.player (sh.setPlayerHP v.hpCur.toInt32 v.hpMax.toInt32).player).shown
          = g (SpawnItem.player sh.player).shown)
    : Tracks g cond sh (sh.setVitals v) := by
  simp only [setVitals]
  split
  · exact .idle keyed
  split
  · exact .playerHP keyed patchable fun held =>
      .silent (by simp [SpawnSignal.Mute]) (unseen held ‹_›)
  · exact ⟨keyed, fun _ _ _ _ mirrored => mirrored⟩

/-- A handler of the player's that announces its hit points. -/
theorem Tracks.announced (keyed : sh.Keyed) (patchable : Patchable g) (curHP maxHP : Int32)
    : Tracks g cond sh
        (sh.setPlayerHP curHP maxHP,
          [.changeItem (.player (sh.setPlayerHP curHP maxHP).player) tSpawnChangedHP,
            .statsChanged (sh.setPlayerHP curHP maxHP).player]) :=
  .playerHP keyed patchable fun _ =>
    .sent [] [_] (by simp) (by simp [SpawnSignal.Mute])
      (Or.inr (congrArg g (reaches_playerHP _ _ _)))

theorem tracks_updatePlayerHP (keyed : sh.Keyed) (patchable : Patchable g) (id : UInt16)
    (curHp maxHp : Int32)
    : Tracks g cond sh (sh.updatePlayerHP id curHp maxHp) := by
  simp only [updatePlayerHP]
  split
  · exact .idle keyed
  · exact .announced keyed patchable _ _

theorem tracks_updatePlayerInfo (keyed : sh.Keyed) (patchable : Patchable g)
    (id subcommand : UInt16) (arg1 : Int32)
    : Tracks g cond sh (sh.updatePlayerInfo id subcommand arg1) := by
  simp only [updatePlayerInfo]
  split
  · exact .idle keyed
  · exact .announced keyed patchable _ _

-----------------------------------------------------------------------------------------
-- Identity
-----------------------------------------------------------------------------------------

theorem tracks_updateSpawnIdentity (keyed : sh.Keyed) (patchable : Patchable g) (id : UInt16)
    (level classVal : UInt8)
    : Tracks g cond sh (sh.updateSpawnIdentity id level classVal) :=
  .withSpawn keyed patchable fun _ _ => ⟨rfl, fun _ => .full _ _⟩

theorem tracks_updateSpawnLock (keyed : sh.Keyed) (patchable : Patchable g)
    (id type value : UInt32)
    : Tracks g cond sh (sh.updateSpawnLock id type value) := by
  simp only [updateSpawnLock]
  split
  · exact .idle keyed
  refine .withSpawn keyed patchable fun s _ => ?_
  split
  · exact ⟨rfl, fun _ => .same _⟩
  · exact ⟨rfl, fun _ => .full _ _⟩

theorem tracks_illusionSpawn (keyed : sh.Keyed) (patchable : Patchable g) (id race : UInt32)
    (gender : UInt8)
    : Tracks g cond sh (sh.illusionSpawn id race gender) :=
  .withSpawn keyed patchable fun _ _ => ⟨rfl, fun _ => .full _ _⟩

/-- What the update of the flags adds to a change type sends the item in full. -/
theorem inFull_flagChanges {old new : Spawn} (changed : flagChanges old new ≠ 0)
    (changeType : UInt32)
    : inFull (changeType ||| flagChanges old new) = true := by
  have bits : flagChanges old new &&& (tSpawnChangedFilter ||| tSpawnChangedRuntimeFilter)
      = flagChanges old new := by
    unfold flagChanges
    split <;> split <;> decide
  have split : (changeType ||| flagChanges old new)
        &&& (tSpawnChangedFilter ||| tSpawnChangedRuntimeFilter)
      = (changeType &&& (tSpawnChangedFilter ||| tSpawnChangedRuntimeFilter))
        ||| flagChanges old new := by
    rw [← bits]
    apply UInt32.toBitVec_inj.mp
    simp only [UInt32.toBitVec_and, UInt32.toBitVec_or, BitVec.and_or_distrib_right,
      BitVec.and_assoc, BitVec.and_self]
  have some : hasAny (changeType ||| flagChanges old new)
      (tSpawnChangedFilter ||| tSpawnChangedRuntimeFilter) = true := by
    simp [hasAny, split, changed]
  simp [inFull, some]

/-- A spawn revised with its flags updated: where these changed it goes out in full. -/
theorem Revision.flagged {old new : SpawnItem} {s t : Spawn} (changeType : UInt32)
    (reaches
      : flagChanges s t = 0 → g (old.shown.patch (updatedFields new changeType)) = g new.shown)
    : Revision g old new [.changeItem new (changeType ||| flagChanges s t)] := by
  refine .sent [] [] (by simp) (by simp) ?_
  by_cases same : flagChanges s t = 0
  · rw [same, UInt32.or_zero]
    exact Or.inr (reaches same)
  · exact Or.inl (inFull_flagChanges same _)

/-- What `renameSpawn` makes of a spawn. -/
def renamed (m : FilterMgr) (newName : String) (s : Spawn) : Spawn :=
  { s with name := newName }.updateFlags m

/-- What `renameSpawn` makes of the player. -/
def playerRenamed (m : FilterMgr) (newName : String) (p : Player) : Player :=
  (p.setName newName).updateFlags m

/-- A name sent as it is, to a client that shows names in the other form. -/
def NameReaches (g : ShownSpawn → α) (name : String) (old new : SpawnItem) : Prop :=
  g { old.shown with name } = g new.shown

/-- A spawn or the player renamed: either its flags change with the name, or the name as it is
sent is the name that a snapshot shows.
-/
def RenameReaches (g : ShownSpawn → α) (sh : SpawnShell) (walk : List Nat)
    (oldName newName : String)
    : Prop :=
  match sh.findSpawnByName walk oldName with
  | some key =>
      ∀ s, sh.spawns.find? key = some s →
        flagChanges s (renamed sh.filterMgr newName s) = 0 →
        NameReaches g newName (.spawn s) (.spawn (renamed sh.filterMgr newName s))
  | none =>
      oldName = sh.player.shown.name →
        flagChanges sh.player.base (playerRenamed sh.filterMgr newName sh.player).base = 0 →
        NameReaches g (playerRenamed sh.filterMgr newName sh.player).shown.name
          (.player sh.player) (.player (playerRenamed sh.filterMgr newName sh.player))

theorem tracks_renameSpawn (keyed : sh.Keyed) (patchable : Patchable g) (walk : List Nat)
    (oldName newName : String) (reaches : cond → RenameReaches g sh walk oldName newName)
    : Tracks g cond sh (sh.renameSpawn walk oldName newName) := by
  simp only [renameSpawn]
  simp only [RenameReaches] at reaches
  cases found : sh.findSpawnByName walk oldName with
  | some key =>
      rw [found] at reaches
      refine .withSpawn keyed patchable fun s known => ⟨rfl, fun held => ?_⟩
      refine .flagged _ fun same => ?_
      exact reaches held s known same
  | none =>
      rw [found] at reaches
      simp only
      split
      · refine .revise (keyed.congr rfl rfl) patchable (replacesPlayer sh keyed.listed rfl) ?_
        intro held
        refine .flagged _ fun same => ?_
        exact reaches held ‹_› same
      · exact .idle keyed

theorem tracks_shroudSpawn (keyed : sh.Keyed) (patchable : Patchable g) (spawnID : UInt32)
    (d : SpawnStruct) (profile : PlayerProfile)
    : Tracks g cond sh (sh.shroudSpawn spawnID d profile) := by
  simp only [shroudSpawn]
  split
  · exact tracks_newSpawn keyed d
  · refine .revise (keyed.congr rfl rfl) patchable (replacesPlayer sh keyed.listed rfl) ?_
    intro _
    refine .sent _ [] ?_ (by simp) (Or.inl inFull_all)
    intro signal member
    rw [List.eq_of_mem_replicate member]
    trivial

/-- Neither a level nor what is worn is part of an update. -/
theorem updatedFields_level (s : Spawn)
    : updatedFields (.spawn s) tSpawnChangedLevel
      = { id := s.id, pos := none, hpCur := none, name := none } :=
  rfl

theorem updatedFields_wearing (s : Spawn)
    : updatedFields (.spawn s) tSpawnChangedWearing
      = { id := s.id, pos := none, hpCur := none, name := none } :=
  rfl

theorem patch_nothing (shown : ShownSpawn) (id : UInt16)
    : shown.patch { id, pos := none, hpCur := none, name := none } = shown :=
  rfl

theorem tracks_updateSpawnAppearance (keyed : sh.Keyed) (patchable : Patchable g)
    (id kind parameter : UInt32)
    (unseen
      : cond → kind = 1 → parameter ≠ 0 → ∀ s, sh.spawns.find? id.toNat = some s →
          g (SpawnItem.spawn { s with level := parameter.toInt32 }).shown
          = g (SpawnItem.spawn s).shown)
    : Tracks g cond sh (sh.updateSpawnAppearance id kind parameter) := by
  refine .withSpawn keyed patchable fun s known => ?_
  simp only
  split
  next level =>
    refine ⟨rfl, fun held => .sent [] [] (by simp) (by simp) (Or.inr ?_)⟩
    rw [updatedFields_level, patch_nothing]
    exact (unseen held level.1 level.2 s known).symm
  next => exact ⟨rfl, fun _ => .same _⟩

/-- The flags are not shown. -/
theorem spawn_shown_updateFlags (s : Spawn) (m : FilterMgr)
    : (SpawnItem.spawn (s.updateFlags m)).shown = (SpawnItem.spawn s).shown := by
  simp only [spawn_shown]
  rfl

theorem tracks_spawnWearingUpdate (keyed : sh.Keyed) (patchable : Patchable g) (id : UInt16)
    : Tracks g cond sh (sh.spawnWearingUpdate id) := by
  refine .withSpawn keyed patchable fun s _ => ⟨rfl, fun _ => ?_⟩
  refine .flagged _ fun _ => ?_
  rw [updatedFields_wearing, spawn_shown_updateFlags, patch_nothing]

end SpawnShell
end Scry
