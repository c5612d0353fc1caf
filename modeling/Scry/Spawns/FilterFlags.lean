import Scry.Spawns.ZoneSession

/-! The flags kept with a spawn against the masks that the rules give its current fields. -/

namespace Scry

/-- What a rule can look at of a spawn with `Name`, `Level`, `Race`, `Class` and `NPC`. -/
structure SpawnLook where
  name : String
  level : Int32
  race : UInt16
  classVal : UInt8
  npc : UInt8
  deriving DecidableEq

namespace Spawn

variable {s t : Spawn} {m : FilterMgr}

/-- The spawn as such rules see it. -/
def look (s : Spawn) : SpawnLook :=
  { name := transformedName s.name, level := s.level, race := s.race, classVal := s.classVal
    npc := if s.npc = SPAWN_SELF then 0 else s.npc }

/-- The flags are the masks of the current fields. -/
structure FlagsFresh (m : FilterMgr) (s : Spawn) : Prop where
  filter : s.filterFlags = s.filterMask m
  runtime : s.runtimeFilterFlags = s.runtimeFilterMask m

/-- The rules mark two spawns alike. -/
def MarkedAlike (m : FilterMgr) (s t : Spawn) : Prop :=
  s.filterMask m = t.filterMask m ∧ s.runtimeFilterMask m = t.runtimeFilterMask m

theorem flagsFresh_updateFlags (s : Spawn) (m : FilterMgr) : FlagsFresh m (s.updateFlags m) :=
  ⟨rfl, rfl⟩

/-- Fresh flags carried on to a spawn that the rules mark alike. -/
theorem FlagsFresh.carried (fresh : FlagsFresh m s) (filter : t.filterFlags = s.filterFlags)
    (runtime : t.runtimeFilterFlags = s.runtimeFilterFlags) (alike : MarkedAlike m t s)
    : FlagsFresh m t where
  filter := filter.trans (fresh.filter.trans alike.1.symm)
  runtime := runtime.trans (fresh.runtime.trans alike.2.symm)

end Spawn

/-- A mask that depends on the level and on what such rules look at only. -/
def LooksOnlyAt (mask : FilterString → UInt8 → UInt32) : Prop :=
  ∀ s t : Spawn, s.look = t.look → ∀ level, mask s.filterString level = mask t.filterString level

/-- Rule sets whose patterns look only at these fields. -/
structure FilterMgr.PlainRules (m : FilterMgr) : Prop where
  filter : LooksOnlyAt m.filterMask
  runtime : LooksOnlyAt m.runtimeFilterMask

/-- Such rules mark spawns that look the same alike. -/
theorem FilterMgr.PlainRules.markedAlike {m : FilterMgr} (plain : m.PlainRules) {s t : Spawn}
    (same : s.look = t.look)
    : Spawn.MarkedAlike m s t := by
  have level : s.filterLevel = t.filterLevel := by
    have fields := congrArg SpawnLook.level same
    exact congrArg (fun l : Int32 => l.toUInt32.toUInt8) fields
  constructor
  · rw [Spawn.filterMask, Spawn.filterMask, level]
    exact plain.filter s t same _
  · rw [Spawn.runtimeFilterMask, Spawn.runtimeFilterMask, level]
    exact plain.runtime s t same _

namespace SpawnShell

open Spawn (MarkedAlike npcOf flagsFresh_updateFlags)

variable {sh : SpawnShell} {key : Nat} {s : Spawn}

/-- The rules are plain, and every spawn's flags are those of its current fields. -/
structure FlagsFresh (sh : SpawnShell) : Prop where
  plain : sh.filterMgr.PlainRules
  spawn : ∀ {key s}, sh.spawns.find? key = some s → Spawn.FlagsFresh sh.filterMgr s

-----------------------------------------------------------------------------------------
-- Changes to the spawns
-----------------------------------------------------------------------------------------

/-- The same spawns under the same rules. -/
theorem FlagsFresh.congr {after : SpawnShell} (fresh : sh.FlagsFresh)
    (spawns : after.spawns = sh.spawns) (filterMgr : after.filterMgr = sh.filterMgr)
    : after.FlagsFresh where
  plain := filterMgr ▸ fresh.plain
  spawn found := filterMgr ▸ fresh.spawn (spawns ▸ found)

theorem FlagsFresh.setSpawn (fresh : sh.FlagsFresh) (flags : Spawn.FlagsFresh sh.filterMgr s)
    (key : Nat)
    : (sh.setSpawn key s).FlagsFresh where
  plain := fresh.plain
  spawn {other t} found := by
    rw [SpawnShell.setSpawn] at found
    rcases eq_or_ne other key with rfl | apart
    · rw [OrderedMap.find?_insert_self] at found
      exact Option.some.inj found ▸ flags
    · rw [OrderedMap.find?_insert_of_ne _ _ apart] at found
      exact fresh.spawn found

/-- A known spawn changed. -/
theorem FlagsFresh.withSpawn (fresh : sh.FlagsFresh) {f : Spawn → Spawn × List SpawnSignal}
    (flags
      : ∀ s, sh.spawns.find? key = some s → Spawn.FlagsFresh sh.filterMgr s →
          Spawn.FlagsFresh sh.filterMgr (f s).1)
    : (sh.withSpawn key f).1.FlagsFresh := by
  simp only [SpawnShell.withSpawn]
  cases known : sh.spawns.find? key with
  | none => exact fresh
  | some s => exact fresh.setSpawn (flags s known (fresh.spawn known)) key

/-- A known spawn changed in nothing that the rules look at. -/
theorem FlagsFresh.sameLook (fresh : sh.FlagsFresh) {f : Spawn → Spawn × List SpawnSignal}
    (filter : ∀ s, (f s).1.filterFlags = s.filterFlags)
    (runtime : ∀ s, (f s).1.runtimeFilterFlags = s.runtimeFilterFlags)
    (look : ∀ s, (f s).1.look = s.look)
    : (sh.withSpawn key f).1.FlagsFresh := by
  refine fresh.withSpawn fun s _ flags => ?_
  exact flags.carried (filter s) (runtime s) (fresh.plain.markedAlike (look s))

/-- Fresh flags carried on to a spawn that looks like one the rules mark alike. -/
theorem FlagsFresh.carried (fresh : sh.FlagsFresh) {t seen : Spawn}
    (flags : Spawn.FlagsFresh sh.filterMgr s) (alike : MarkedAlike sh.filterMgr seen s)
    (look : t.look = seen.look) (filter : t.filterFlags = s.filterFlags)
    (runtime : t.runtimeFilterFlags = s.runtimeFilterFlags)
    : Spawn.FlagsFresh sh.filterMgr t := by
  have same := fresh.plain.markedAlike look
  exact flags.carried filter runtime ⟨same.1.trans alike.1, same.2.trans alike.2⟩

/-- All spawns changed, by rules that may be new. -/
theorem FlagsFresh.mapSpawns (fresh : sh.FlagsFresh) {after : SpawnShell} {m : FilterMgr}
    {f : Spawn → Spawn} (plain : m.PlainRules) (filterMgr : after.filterMgr = m)
    (spawns : after.spawns = sh.spawns.mapValues f)
    (flags : ∀ s, Spawn.FlagsFresh sh.filterMgr s → Spawn.FlagsFresh m (f s))
    : after.FlagsFresh := by
  subst filterMgr
  refine ⟨plain, fun {key s} found => ?_⟩
  rw [spawns, OrderedMap.find?_mapValues, Option.map_eq_some_iff] at found
  obtain ⟨before, known, rfl⟩ := found
  exact flags before (fresh.spawn known)

theorem FlagsFresh.deleteItem (fresh : sh.FlagsFresh) (type : SpawnItemType) (id : Nat)
    : (sh.deleteItem type id).1.FlagsFresh := by
  cases type with
  | tSpawn =>
      simp only [SpawnShell.deleteItem]
      split
      · exact fresh
      · refine ⟨fresh.plain, fun {key s} found => ?_⟩
        rcases eq_or_ne key id with rfl | apart
        · exact absurd found (by simp)
        · exact fresh.spawn ((OrderedMap.find?_erase_of_ne _ apart).symm.trans found)
  | tDrop =>
      simp only [SpawnShell.deleteItem]
      split
      · exact fresh
      · exact fresh.congr rfl rfl
  | tDoors =>
      simp only [SpawnShell.deleteItem]
      split
      · exact fresh
      · exact fresh.congr rfl rfl
  | tPlayer =>
      simp only [SpawnShell.deleteItem]
      split
      · exact fresh
      · exact fresh.congr rfl rfl

-----------------------------------------------------------------------------------------
-- Operations
-----------------------------------------------------------------------------------------

/-- What an operation must find for the flags to stay fresh: where it changes a field that rules
look at without asking them again, or asks before it changes the name, they mark the spawn as
they did.
-/
def KeepsFlags (sh : SpawnShell) : ShellOp → Prop
  | .zoneEntry d =>
      d.name ≠ sh.player.realName → ∀ s, sh.spawns.find? d.spawnId.toNat = some s →
        MarkedAlike sh.filterMgr
          { s with
            name := d.name
            level := d.level.toUInt32.toInt32
            race := d.race.toUInt16
            classVal := d.class_
            npc := npcOf d }
          s
  | .upsertSpawn id r =>
      id ≠ sh.player.id → ∀ s, sh.spawns.find? id.toNat = some s →
        MarkedAlike sh.filterMgr
          { s with
            level := r.level.toUInt32.toInt32
            race := r.race
            classVal := r.classVal
            npc := r.npc }
          s
  | .updateSpawnIdentity id level classVal =>
      ∀ s, sh.spawns.find? id.toNat = some s →
        MarkedAlike sh.filterMgr { s with level := level.toUInt32.toInt32, classVal } s
  | .updateSpawnAppearance id kind parameter =>
      kind = 1 → parameter ≠ 0 → ∀ s, sh.spawns.find? id.toNat = some s →
        MarkedAlike sh.filterMgr { s with level := parameter.toInt32 } s
  | .illusionSpawn id race _ =>
      ∀ s, sh.spawns.find? id.toNat = some s →
        MarkedAlike sh.filterMgr { s with race := race.toUInt16 } s
  | .killSpawn id _ =>
      id ≠ sh.player.id.toUInt32 → ∀ s, sh.spawns.find? id.toNat = some s →
        MarkedAlike sh.filterMgr
          { s.killSpawn with name := s.name ++ spawnCorpseDesignator } s.killSpawn
  | .corpseLoc id _ _ _ =>
      ∀ s, sh.spawns.find? id.toNat = some s → MarkedAlike sh.filterMgr s.killSpawn s
  | _ => True

/-- New rules look at these fields only. -/
def PlainOp : ShellOp → Prop
  | .filtersChanged filterMask => LooksOnlyAt filterMask
  | .runtimeFiltersChanged runtimeFilterMask => LooksOnlyAt runtimeFilterMask
  | _ => True

/-- Flags that are up to date but for a guild tag. -/
theorem flagsFresh_tagged (plain : sh.filterMgr.PlainRules) (s : Spawn) (guildTag : String)
    : Spawn.FlagsFresh sh.filterMgr { s.updateFlags sh.filterMgr with guildTag } :=
  (flagsFresh_updateFlags s sh.filterMgr).carried rfl rfl (plain.markedAlike rfl)

theorem FlagsFresh.newSpawn (fresh : sh.FlagsFresh) (d : SpawnStruct)
    : (sh.newSpawn d).1.FlagsFresh := by
  have forgotten : (sh.forgetDead d.spawnId).FlagsFresh := fresh.congr rfl rfl
  simp only [SpawnShell.newSpawn]
  split
  · exact fresh
  split
  · exact fresh
  cases (sh.forgetDead d.spawnId).spawns.find? d.spawnId.toNat with
  | none => exact forgotten.setSpawn (flagsFresh_tagged fresh.plain _ _) _
  | some s => exact forgotten.setSpawn (flagsFresh_tagged fresh.plain _ _) _

theorem FlagsFresh.clear (fresh : sh.FlagsFresh) : sh.clear.1.FlagsFresh where
  plain := fresh.plain
  spawn found := nomatch found

/-- A record as it reaches what rules look at, and the flags. -/
theorem look_update (s : Spawn) (d : SpawnStruct)
    : (s.update d).look
        = Spawn.look
            { s with
              name := d.name
              level := d.level.toUInt32.toInt32
              race := d.race.toUInt16
              classVal := d.class_
              npc := npcOf d }
      ∧ (s.update d).filterFlags = s.filterFlags
      ∧ (s.update d).runtimeFilterFlags = s.runtimeFilterFlags := by
  simp only [Spawn.update]
  split <;> exact ⟨rfl, rfl, rfl⟩

theorem FlagsFresh.playerChangedID (fresh : sh.FlagsFresh) (oldPlayerID newPlayerID : UInt16)
    : (sh.playerChangedID oldPlayerID newPlayerID).1.FlagsFresh := by
  have adopted : (sh.adoptName newPlayerID).FlagsFresh := by
    simp only [adoptName]
    split
    · exact fresh
    · split
      · exact fresh
      · exact fresh.congr rfl rfl
  have fallback := adopted.deleteItem .tPlayer 0
  simp only [SpawnShell.playerChangedID, andThen]
  split
  · exact fallback
  · have gone := (fallback.deleteItem .tPlayer oldPlayerID.toNat).deleteItem .tSpawn
      newPlayerID.toNat
    exact gone.congr rfl rfl

theorem FlagsFresh.setPlayerID (fresh : sh.FlagsFresh) (playerID : UInt16)
    : (sh.setPlayerID playerID).1.FlagsFresh := by
  simp only [SpawnShell.setPlayerID]
  split
  · exact fresh
  · refine FlagsFresh.playerChangedID ?_ _ _
    exact fresh.congr rfl rfl

theorem FlagsFresh.updateSpawn (fresh : sh.FlagsFresh) (id : UInt16) (m : Movement)
    : (sh.updateSpawn id m).1.FlagsFresh := by
  simp only [SpawnShell.updateSpawn]
  split
  · exact fresh.congr rfl rfl
  cases known : sh.spawns.find? id.toNat with
  | some s =>
      refine fresh.setSpawn ?_ _
      exact (fresh.spawn known).carried rfl rfl (fresh.plain.markedAlike rfl)
  | none =>
      simp only
      split
      · split
        · exact fresh.congr rfl rfl
        · exact fresh.setSpawn (flagsFresh_updateFlags _ _) _
      · exact fresh

theorem FlagsFresh.zoneEntry (fresh : sh.FlagsFresh) (d : SpawnStruct)
    (keeps : sh.KeepsFlags (.zoneEntry d))
    : (sh.zoneEntry d).1.FlagsFresh := by
  simp only [SpawnShell.zoneEntry]
  split
  · exact (fresh.setPlayerID _).congr rfl rfl
  · cases known : sh.spawns.find? d.spawnId.toNat with
    | none => exact fresh.newSpawn d
    | some s =>
        obtain ⟨look, filter, runtime⟩ := look_update s d
        have flags := fresh.carried (fresh.spawn known) (keeps ‹_› s known) look filter runtime
        exact fresh.setSpawn flags _

theorem FlagsFresh.upsertSpawn (fresh : sh.FlagsFresh) (spawnId : UInt16) (r : SpawnRecord)
    (keeps : sh.KeepsFlags (.upsertSpawn spawnId r))
    : (sh.upsertSpawn spawnId r).1.FlagsFresh := by
  simp only [SpawnShell.upsertSpawn]
  split
  · exact fresh
  · cases known : sh.spawns.find? spawnId.toNat with
    | none => exact fresh.setSpawn (flagsFresh_updateFlags _ _) _
    | some s =>
        refine FlagsFresh.setSpawn fresh ?_ _
        exact fresh.carried (fresh.spawn known) (keeps ‹_› s known) rfl rfl rfl

/-- A kill updates the flags of what the spawn was called before. -/
theorem FlagsFresh.killSpawn (fresh : sh.FlagsFresh) (spawnId killerId : UInt32)
    (keeps : sh.KeepsFlags (.killSpawn spawnId killerId))
    : (sh.killSpawn spawnId killerId).1.FlagsFresh := by
  simp only [SpawnShell.killSpawn]
  split
  · refine fresh.withSpawn fun s known _ => ?_
    have killed := flagsFresh_updateFlags s.killSpawn sh.filterMgr
    have alike := keeps ‹_› s known
    have before := fresh.plain.markedAlike (s := s.killSpawn)
      (t := s.killSpawn.updateFlags sh.filterMgr) rfl
    have updated := And.intro (alike.1.trans before.1) (alike.2.trans before.2)
    exact fresh.carried killed updated rfl rfl rfl
  · exact fresh.congr rfl rfl

theorem FlagsFresh.corpseLoc (fresh : sh.FlagsFresh) (spawnId : UInt32) (x y z : Int16)
    (keeps : sh.KeepsFlags (.corpseLoc spawnId x y z))
    : (sh.corpseLoc spawnId x y z).1.FlagsFresh := by
  refine fresh.withSpawn fun s known flags => ?_
  have alike := keeps s known
  dsimp only
  split
  · exact fresh.carried flags alike rfl rfl rfl
  · exact fresh.carried flags alike rfl rfl rfl

/-- Every operation that finds what it must keeps the flags fresh. -/
theorem FlagsFresh.run (fresh : sh.FlagsFresh) (op : ShellOp) (plain : PlainOp op)
    (keeps : sh.KeepsFlags op)
    : (op.run sh).1.FlagsFresh := by
  cases op with
  | newSpawn d => exact fresh.newSpawn d
  | newSpawnPacket d =>
      simp only [ShellOp.run, newSpawnPacket]
      split
      · exact fresh
      · exact fresh.newSpawn d
  | zoneEntry d => exact fresh.zoneEntry d keeps
  | upsertSpawn spawnId r => exact fresh.upsertSpawn spawnId r keeps
  | moveSpawn id x y z =>
      simp only [ShellOp.run, SpawnShell.moveSpawn]
      split
      · exact fresh
      · exact fresh.sameLook (fun _ => rfl) (fun _ => rfl) (fun _ => rfl)
  | playerUpdate id m =>
      simp only [ShellOp.run, SpawnShell.playerUpdate]
      split
      · exact fresh
      · exact fresh.updateSpawn id m
  | npcMoveUpdate id m =>
      simp only [ShellOp.run, SpawnShell.npcMoveUpdate]
      split
      · exact fresh
      · exact fresh.updateSpawn id m
  | updateSpawnAnimation id animation =>
      refine fresh.withSpawn fun s _ flags => ?_
      dsimp only
      split
      · exact flags
      · exact flags.carried rfl rfl (fresh.plain.markedAlike rfl)
  | updateSpawnHP id curHp maxHp =>
      exact fresh.sameLook (fun _ => rfl) (fun _ => rfl) (fun _ => rfl)
  | updateNpcHP id curHp maxHp =>
      exact fresh.sameLook (fun _ => rfl) (fun _ => rfl) (fun _ => rfl)
  | updateSpawnInfo id subcommand arg1 =>
      refine fresh.withSpawn fun s _ flags => ?_
      dsimp only
      split
      · exact flags.carried rfl rfl (fresh.plain.markedAlike rfl)
      · exact flags
  | updateMobHealth id hpPercent =>
      refine fresh.withSpawn fun s _ flags => ?_
      dsimp only
      split
      · exact flags.carried rfl rfl (fresh.plain.markedAlike rfl)
      · exact flags
  | setVitals v =>
      simp only [ShellOp.run, SpawnShell.setVitals]
      split
      · exact fresh
      · split
        · exact fresh.congr rfl rfl
        · exact fresh
  | updatePlayerHP id curHp maxHp =>
      simp only [ShellOp.run, SpawnShell.updatePlayerHP]
      split
      · exact fresh
      · exact fresh.congr rfl rfl
  | updatePlayerInfo id subcommand arg1 =>
      simp only [ShellOp.run, SpawnShell.updatePlayerInfo]
      split
      · exact fresh
      · exact fresh.congr rfl rfl
  | updateSpawnIdentity id level classVal =>
      exact fresh.withSpawn fun s known flags => flags.carried rfl rfl (keeps s known)
  | updateSpawnLock id type value =>
      simp only [ShellOp.run, SpawnShell.updateSpawnLock]
      split
      · exact fresh
      · refine fresh.withSpawn fun s _ flags => ?_
        split
        · exact flags
        · exact flags.carried rfl rfl (fresh.plain.markedAlike rfl)
  | renameSpawn walk oldName newName =>
      simp only [ShellOp.run, SpawnShell.renameSpawn]
      split
      · exact fresh.withSpawn fun s _ _ => flagsFresh_updateFlags _ _
      · split
        · exact fresh.congr rfl rfl
        · exact fresh
  | illusionSpawn id race gender =>
      exact fresh.withSpawn fun s known flags =>
        fresh.carried flags (keeps s known) rfl rfl rfl
  | shroudSpawn spawnID d profile =>
      simp only [ShellOp.run, SpawnShell.shroudSpawn]
      split
      · exact fresh.newSpawn d
      · exact fresh.congr rfl rfl
  | updateSpawnAppearance id kind parameter =>
      refine fresh.withSpawn fun s known flags => ?_
      dsimp only
      split
      · rename_i level
        exact flags.carried rfl rfl (keeps level.1 level.2 s known)
      · exact flags
  | spawnWearingUpdate id =>
      exact fresh.withSpawn fun s _ _ => flagsFresh_updateFlags _ _
  | removeSpawn id => exact fresh.deleteItem .tSpawn _
  | deleteSpawn id =>
      refine FlagsFresh.deleteItem ?_ .tSpawn _
      exact fresh.congr rfl rfl
  | killSpawn id killerId => exact fresh.killSpawn id killerId keeps
  | respawnFromHover =>
      have reset : ({ sh with player := sh.player.setID 0 } : SpawnShell).FlagsFresh :=
        fresh.congr rfl rfl
      exact reset.setSpawn (flagsFresh_tagged fresh.plain _ _) _
  | corpseLoc id x y z => exact fresh.corpseLoc id x y z keeps
  | newGroundItem d =>
      simp only [ShellOp.run, SpawnShell.newGroundItem]
      split
      · exact fresh
      · split
        · exact fresh.congr rfl rfl
        · exact fresh.congr rfl rfl
  | removeGroundItem dropId =>
      simp only [ShellOp.run, SpawnShell.removeGroundItem]
      split
      · exact fresh
      · exact fresh.deleteItem .tDrop _
  | newDoorSpawn d =>
      simp only [ShellOp.run, SpawnShell.newDoorSpawn]
      split
      · exact fresh.congr rfl rfl
      · exact fresh.congr rfl rfl
  | clear => exact fresh.clear
  | boxCreated => exact fresh.clear.congr rfl rfl
  | setPlayerID id => exact fresh.setPlayerID id
  | guildTagUpdated guildId guildIdToName =>
      refine fresh.mapSpawns fresh.plain rfl rfl fun s flags => ?_
      simp only [retagged]
      split
      · exact flags.carried rfl rfl (fresh.plain.markedAlike rfl)
      · exact flags
  | filtersChanged filterMask =>
      have rules : ({ sh.filterMgr with filterMask } : FilterMgr).PlainRules :=
        ⟨plain, fresh.plain.runtime⟩
      exact fresh.mapSpawns (f := fun s => s.updateFilterFlags { sh.filterMgr with filterMask })
        rules rfl rfl fun s flags => ⟨rfl, flags.runtime⟩
  | runtimeFiltersChanged runtimeFilterMask =>
      have rules : ({ sh.filterMgr with runtimeFilterMask } : FilterMgr).PlainRules :=
        ⟨fresh.plain.filter, plain⟩
      exact fresh.mapSpawns
        (f := fun s => s.updateRuntimeFilterFlags { sh.filterMgr with runtimeFilterMask })
        rules rfl rfl fun s flags => ⟨flags.filter, rfl⟩

/-- In every run under such rules whose operations find what they must, the flags of every spawn
are the masks of its current fields.
-/
theorem flags_fresh {player : Player} {filterMgr : FilterMgr}
    {guildIdToName : UInt16 → UInt16 → String} {createUnknownSpawns : Bool}
    (plain : filterMgr.PlainRules)
    (reached
      : Machine.Reaches (fun op sh => (ShellOp.run sh op).1)
          (fun sh op => PlainOp op ∧ sh.KeepsFlags op)
          (.fresh player filterMgr guildIdToName createUnknownSpawns) sh)
    : ∀ key s, sh.spawns.find? key = some s →
        s.filterFlags = sh.filterMgr.filterMask s.filterString s.filterLevel
          ∧ s.runtimeFilterFlags = sh.filterMgr.runtimeFilterMask s.filterString s.filterLevel := by
  have fresh : sh.FlagsFresh := by
    refine reached.invariant ⟨plain, fun found => nomatch found⟩ ?_
    exact fun sh op permitted fresh => fresh.run op permitted.1 permitted.2
  exact fun key s found => ⟨(fresh.spawn found).filter, (fresh.spawn found).runtime⟩

/-- Rules that mark rats. -/
def ratRules : FilterMgr where
  filterMask item _ :=
    match item with
    | .ofSpawn _ _ race _ _ _ _ _ _ _ _ _ _ _ _ => if race = 36 then 1 else 0
    | .ofThing _ _ _ _ _ _ => 0
  runtimeFilterMask _ _ := 0

theorem plainRules_ratRules : ratRules.PlainRules where
  filter s t same level := by
    have race : s.race = t.race := congrArg SpawnLook.race same
    simp only [ratRules, Spawn.filterString, race]
  runtime _ _ _ _ := rfl

/-- A shell with a rat in it. -/
def ratSeen : ShellOp :=
  .upsertSpawn 6
    { name := "a_rat00", lastName := "", x := 0, y := 0, z := 0, heading := 0, level := 1
      curHpPct := 50, maxHpPct := 100, race := 36, classVal := 1, deity := 0, guildID := 0
      guildServerID := 0, npc := 1, classMask := 0 }

/-- A rat that dies is still a rat. -/
theorem flags_fresh_slain
    : let sh := Machine.exec (fun op sh => (ShellOp.run sh op).1)
        (.fresh ZoneSession.newcomer.player ratRules (fun _ _ => "") true)
        [ratSeen, .killSpawn 6 0]
      ∀ key s, sh.spawns.find? key = some s →
        s.filterFlags = sh.filterMgr.filterMask s.filterString s.filterLevel
          ∧ s.runtimeFilterFlags = sh.filterMgr.runtimeFilterMask s.filterString s.filterLevel :=
  flags_fresh plainRules_ratRules
    (Machine.reaches_exec
      ⟨⟨trivial, fun _ _ found => nomatch found⟩,
        ⟨trivial, fun _ _ _ => ⟨rfl, rfl⟩⟩, trivial⟩)

/-- One under an illusion keeps the flags of a rat. -/
theorem flags_stale
    : ¬ (∀ filterMgr : FilterMgr, filterMgr.PlainRules → ∀ sh,
        Machine.Reaches (fun op sh => (ShellOp.run sh op).1) (fun _ op => PlainOp op)
          (.fresh ZoneSession.newcomer.player filterMgr (fun _ _ => "") true) sh →
        ∀ key s, sh.spawns.find? key = some s →
          s.filterFlags = sh.filterMgr.filterMask s.filterString s.filterLevel) := by
  intro fresh
  have reached
      : Machine.Reaches (fun op sh => (ShellOp.run sh op).1) (fun _ op => PlainOp op)
          (.fresh ZoneSession.newcomer.player ratRules (fun _ _ => "") true)
          (Machine.exec (fun op sh => (ShellOp.run sh op).1)
            (.fresh ZoneSession.newcomer.player ratRules (fun _ _ => "") true)
            [ratSeen, .illusionSpawn 6 1 0]) :=
    Machine.reaches_exec ⟨trivial, trivial, trivial⟩
  obtain ⟨s, found, marked, unmarked⟩
      : ∃ s,
          (Machine.exec (fun op sh => (ShellOp.run sh op).1)
            (.fresh ZoneSession.newcomer.player ratRules (fun _ _ => "") true)
            [ratSeen, .illusionSpawn 6 1 0]).spawns.find? 6 = some s
          ∧ s.filterFlags = 1
          ∧ ratRules.filterMask s.filterString s.filterLevel = 0 :=
    ⟨_, rfl, rfl, rfl⟩
  have stale := fresh _ plainRules_ratRules _ reached 6 s found
  exact absurd (marked.symm.trans (stale.trans unmarked)) (by decide)

end SpawnShell
end Scry
