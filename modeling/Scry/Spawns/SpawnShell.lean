import Scry.Library.OrderedMap
import Scry.Spawns.Player

/-! The spawn shell: four maps of items by id, and the operations that decoded packets run on
them. Each operation gives the shell after it and the signals it emits, with the items in the
state the slots see.
-/

namespace Scry

/-- `SpawnShell`, with what it reads of the zone manager, the guilds and the parameters. Every
entry of `m_players` is the player, so only the keys are kept.
-/
structure SpawnShell where
  spawns : OrderedMap Nat Spawn
  drops : OrderedMap Nat Thing
  doors : OrderedMap Nat Thing
  players : OrderedMap Nat Unit
  player : Player
  filterMgr : FilterMgr
  guildIdToName : UInt16 → UInt16 → String
  isZoning : Bool
  deadSpawnID : List UInt16
  cntDeadSpawnIDs : Nat
  posDeadSpawnIDs : Nat
  createUnknownSpawns : Bool

/-- `MAX_DEAD_SPAWNIDS`. -/
def maxDeadSpawnIDs : Nat := 50

/-- The signals that reach a session: of the shell, and of the player by way of it. The slot
of `changedID` looks at the whole shell.
-/
inductive SpawnSignal
  | addItem (item : SpawnItem)
  | delItem (item : SpawnItem)
  | changeItem (item : SpawnItem) (changeType : UInt32)
  | killSpawn (deceased : SpawnItem) (killerId : UInt16)
  | statsChanged (player : Player)
  | changedID (shell : SpawnShell)

/-- The arguments of `upsertSpawn` but for the id. -/
structure SpawnRecord where
  name : String
  lastName : String
  x : Int16
  y : Int16
  z : Int16
  heading : UInt16
  level : UInt8
  curHpPct : UInt8
  maxHpPct : UInt8
  race : UInt16
  classVal : UInt8
  deity : UInt16
  guildID : UInt16
  guildServerID : UInt16
  npc : UInt8
  classMask : UInt32
  deriving DecidableEq

/-- The arguments of `updateSpawn` but for the id. -/
structure Movement where
  x : Int16
  y : Int16
  z : Int16
  xVel : Int16
  yVel : Int16
  zVel : Int16
  heading : Int8
  deltaHeading : Int8
  animation : UInt8
  deriving DecidableEq

namespace SpawnShell

/-- The shell of a new session: only the player, under id 0. -/
def fresh (player : Player) (filterMgr : FilterMgr)
    (guildIdToName : UInt16 → UInt16 → String) (createUnknownSpawns : Bool)
    : SpawnShell :=
  { spawns := .empty
    drops := .empty
    doors := .empty
    players := OrderedMap.empty.insert 0 ()
    player, filterMgr, guildIdToName
    isZoning := false
    deadSpawnID := List.replicate maxDeadSpawnIDs 0
    cntDeadSpawnIDs := 0
    posDeadSpawnIDs := 0
    createUnknownSpawns }

/-- The items of the four maps, in the order a snapshot collects them. -/
def items (sh : SpawnShell) : List SpawnItem :=
  sh.spawns.entries.map (fun entry => .spawn entry.2)
    ++ sh.drops.entries.map (fun entry => .drop entry.2)
    ++ sh.doors.entries.map (fun entry => .door entry.2)
    ++ sh.players.entries.map (fun _ => .player sh.player)

-----------------------------------------------------------------------------------------
-- Changes to one entry
-----------------------------------------------------------------------------------------

/-- A spawn put under a key: a known one changed through its pointer, or a new one inserted. -/
def setSpawn (sh : SpawnShell) (key : Nat) (s : Spawn) : SpawnShell :=
  { sh with spawns := sh.spawns.insert key s }

/-- A change to the spawn known under a key; for an unknown one there is none. -/
def withSpawn (sh : SpawnShell) (key : Nat) (f : Spawn → Spawn × List SpawnSignal)
    : SpawnShell × List SpawnSignal :=
  match sh.spawns.find? key with
  | none => (sh, [])
  | some s => (sh.setSpawn key (f s).1, (f s).2)

/-- `deleteItem`. -/
def deleteItem (sh : SpawnShell) (type : SpawnItemType) (id : Nat)
    : SpawnShell × List SpawnSignal :=
  match type with
  | .tSpawn =>
      match sh.spawns.find? id with
      | none => (sh, [])
      | some s => ({ sh with spawns := sh.spawns.erase id }, [.delItem (.spawn s)])
  | .tDrop =>
      match sh.drops.find? id with
      | none => (sh, [])
      | some t => ({ sh with drops := sh.drops.erase id }, [.delItem (.drop t)])
  | .tDoors =>
      match sh.doors.find? id with
      | none => (sh, [])
      | some t => ({ sh with doors := sh.doors.erase id }, [.delItem (.door t)])
  | .tPlayer =>
      match sh.players.find? id with
      | none => (sh, [])
      | some _ => ({ sh with players := sh.players.erase id }, [.delItem (.player sh.player)])

/-- `clear`. -/
def clear (sh : SpawnShell) : SpawnShell × List SpawnSignal :=
  ({ sh with
      spawns := .empty
      doors := .empty
      drops := .empty
      players := OrderedMap.empty.insert 0 ()
      deadSpawnID := List.replicate maxDeadSpawnIDs 0
      cntDeadSpawnIDs := 0
      posDeadSpawnIDs := 0 },
    [.changeItem (.player sh.player) tSpawnChangedALL])

/-- One operation after another on the shell. -/
def andThen (first : SpawnShell × List SpawnSignal)
    (next : SpawnShell → SpawnShell × List SpawnSignal)
    : SpawnShell × List SpawnSignal :=
  ((next first.1).1, first.2 ++ (next first.1).2)

-----------------------------------------------------------------------------------------
-- The player's id
-----------------------------------------------------------------------------------------

/-- The first step of `playerChangedID`: the name of a spawn that turns out to be the
player's own.
-/
def adoptName (sh : SpawnShell) (newPlayerID : UInt16) : SpawnShell :=
  match sh.spawns.find? newPlayerID.toNat with
  | none => sh
  | some own => if own.name = "" then sh else { sh with player := sh.player.setName own.name }

/-- `playerChangedID`. -/
def playerChangedID (sh : SpawnShell) (oldPlayerID newPlayerID : UInt16)
    : SpawnShell × List SpawnSignal :=
  andThen ((sh.adoptName newPlayerID).deleteItem .tPlayer 0) fun sh =>
    if oldPlayerID = newPlayerID then (sh, [])
    else
      andThen (sh.deleteItem .tPlayer oldPlayerID.toNat) fun sh =>
        andThen (sh.deleteItem .tSpawn newPlayerID.toNat) fun sh =>
          let sh := { sh with players := sh.players.insert newPlayerID.toNat () }
          (sh, [.changeItem (.player sh.player) tSpawnChangedALL])

/-- `Player::setPlayerID`: the shell's slot runs first, then the sessions'. -/
def setPlayerID (sh : SpawnShell) (playerID : UInt16) : SpawnShell × List SpawnSignal :=
  if sh.player.id = playerID then (sh, [])
  else
    let changed :=
      { sh with player := sh.player.setID playerID }.playerChangedID sh.player.id playerID
    (changed.1,
      changed.2
        ++ [.changedID changed.1, .changeItem (.player changed.1.player) tSpawnChangedALL])

-----------------------------------------------------------------------------------------
-- New spawns
-----------------------------------------------------------------------------------------

/-- The loop of `newSpawn` over the dead ids: the new spawn's id is dropped from them. -/
def forgetDead (sh : SpawnShell) (spawnId : UInt32) : SpawnShell :=
  { sh with
    deadSpawnID := sh.deadSpawnID.mapIdx fun i dead =>
      if i < sh.cntDeadSpawnIDs ∧ dead ≠ 0 ∧ dead.toUInt32 = spawnId then 0 else dead }

/-- `newSpawn` of a `spawnStruct`, which `zoneSpawns` calls for each one in its packet. -/
def newSpawn (sh : SpawnShell) (d : SpawnStruct) : SpawnShell × List SpawnSignal :=
  if d.npc = SPAWN_SELF then (sh, [])
  else if Spawn.calcIsMount d.race d.level then (sh, [])
  else
    let sh := sh.forgetDead d.spawnId
    let tagged (s : Spawn) :=
      { s.updateFlags sh.filterMgr with
        guildTag := sh.guildIdToName s.guildID s.guildServerID }
    match sh.spawns.find? d.spawnId.toNat with
    | some s =>
        let s := tagged (s.update d)
        (sh.setSpawn d.spawnId.toNat s, [.changeItem (.spawn s) tSpawnChangedALL])
    | none =>
        let s := tagged (Spawn.ofStruct d)
        (sh.setSpawn d.spawnId.toNat s, [.addItem (.spawn s)])

/-- `newSpawn` of a packet. -/
def newSpawnPacket (sh : SpawnShell) (d : SpawnStruct) : SpawnShell × List SpawnSignal :=
  if sh.isZoning then (sh, []) else sh.newSpawn d

/-- `zoneEntry`. -/
def zoneEntry (sh : SpawnShell) (d : SpawnStruct) : SpawnShell × List SpawnSignal :=
  if d.name = sh.player.realName then
    andThen (sh.setPlayerID d.spawnId.toUInt16) fun sh =>
      let sh := { sh with player := sh.player.update d }
      (sh, [.changeItem (.player sh.player) tSpawnChangedALL])
  else
    match sh.spawns.find? d.spawnId.toNat with
    | some s => (sh.setSpawn d.spawnId.toNat (s.update d), [])
    | none => sh.newSpawn d

/-- The lambda `applyIdentity` of `upsertSpawn`. -/
def applyIdentity (sh : SpawnShell) (r : SpawnRecord) (s : Spawn) : Spawn :=
  { s with
    lastName := if r.lastName = "" then s.lastName else r.lastName
    heading := (r.heading >>> 3).toUInt8.toInt8
    deltaHeading := 0
    level := r.level.toUInt32.toInt32
    curHP := r.curHpPct.toUInt32.toInt32
    maxHP := r.maxHpPct.toUInt32.toInt32
    race := r.race
    classVal := r.classVal
    classMask := r.classMask
    deity := r.deity
    guildID := r.guildID
    guildServerID := r.guildServerID
    guildTag := sh.guildIdToName r.guildID r.guildServerID
    npc := r.npc }

/-- `upsertSpawn`. -/
def upsertSpawn (sh : SpawnShell) (id : UInt16) (r : SpawnRecord)
    : SpawnShell × List SpawnSignal :=
  if id = sh.player.id then (sh, [])
  else
    match sh.spawns.find? id.toNat with
    | some s =>
        let s := sh.applyIdentity r { s with x := r.x, y := r.y, z := r.z }
        (sh.setSpawn id.toNat s, [.changeItem (.spawn s) tSpawnChangedALL])
    | none =>
        let s := { Spawn.unknown id r.x r.y r.z 0 0 0 0 0 0 with name := r.name }
        let s := (sh.applyIdentity r s).updateFlags sh.filterMgr
        (sh.setSpawn id.toNat s, [.addItem (.spawn s)])

-----------------------------------------------------------------------------------------
-- Movement
-----------------------------------------------------------------------------------------

/-- `moveSpawn`. -/
def moveSpawn (sh : SpawnShell) (id : UInt16) (x y z : Int16) : SpawnShell × List SpawnSignal :=
  if id = sh.player.id then (sh, [])
  else
    sh.withSpawn id.toNat fun s =>
      let s := { s with x, y, z }
      (s, [.changeItem (.spawn s) tSpawnChangedPosition])

/-- What `updateSpawn` sets. -/
def moved (m : Movement) (s : Spawn) : Spawn :=
  { s with
    x := m.x
    y := m.y
    z := m.z
    animation := m.animation
    deltaX := m.xVel
    deltaY := m.yVel
    deltaZ := m.zVel
    heading := m.heading
    deltaHeading := m.deltaHeading }

/-- The loop of `updateSpawn` over the dead ids: the first place of the given one. -/
def deadIndex (sh : SpawnShell) (id : UInt16) : Option Nat :=
  (sh.deadSpawnID.take sh.cntDeadSpawnIDs).findIdx? fun dead => dead != 0 && dead == id

/-- `updateSpawn`. -/
def updateSpawn (sh : SpawnShell) (id : UInt16) (m : Movement)
    : SpawnShell × List SpawnSignal :=
  if id = sh.player.id then
    let p := { sh.player with base := moved m sh.player.base }
    ({ sh with player := p }, [.changeItem (.player p) tSpawnChangedPosition])
  else
    match sh.spawns.find? id.toNat with
    | some s =>
        let s := moved m s
        (sh.setSpawn id.toNat s, [.changeItem (.spawn s) tSpawnChangedPosition])
    | none =>
        if sh.createUnknownSpawns then
          match sh.deadIndex id with
          | some i => ({ sh with deadSpawnID := sh.deadSpawnID.set i 0 }, [])
          | none =>
              let s :=
                (Spawn.unknown id m.x m.y m.z m.xVel m.yVel m.zVel m.heading m.deltaHeading
                  m.animation).updateFlags sh.filterMgr
              (sh.setSpawn id.toNat s, [.addItem (.spawn s)])
        else
          (sh, [])

/-- `playerUpdate`: the player's own updates go another way. -/
def playerUpdate (sh : SpawnShell) (id : UInt16) (m : Movement)
    : SpawnShell × List SpawnSignal :=
  if sh.isZoning ∨ id = sh.player.id then (sh, []) else sh.updateSpawn id m

/-- `playerUpdate2`, `npcMoveUpdate` and `updateSpawns`. -/
def npcMoveUpdate (sh : SpawnShell) (id : UInt16) (m : Movement)
    : SpawnShell × List SpawnSignal :=
  if sh.isZoning then (sh, []) else sh.updateSpawn id m

/-- `updateSpawnAnimation`. -/
def updateSpawnAnimation (sh : SpawnShell) (id : UInt16) (animation : UInt8)
    : SpawnShell × List SpawnSignal :=
  sh.withSpawn id.toNat fun s =>
    if s.animation = animation then (s, [])
    else
      let s := { s with animation }
      (s, [.changeItem (.spawn s) tSpawnChangedPosition])

-----------------------------------------------------------------------------------------
-- Hit points
-----------------------------------------------------------------------------------------

/-- `updateSpawnHP`. -/
def updateSpawnHP (sh : SpawnShell) (id : UInt16) (curHp maxHp : Int32)
    : SpawnShell × List SpawnSignal :=
  sh.withSpawn id.toNat fun s =>
    let s := { s with curHP := if curHp < 0 then 0 else curHp, maxHP := maxHp }
    (s, [.changeItem (.spawn s) tSpawnChangedHP])

/-- `updateNpcHP`. -/
def updateNpcHP (sh : SpawnShell) (id : UInt16) (curHp maxHp : Int32)
    : SpawnShell × List SpawnSignal :=
  sh.withSpawn id.toNat fun s =>
    let s := { s with curHP := curHp, maxHP := maxHp }
    (s, [.changeItem (.spawn s) tSpawnChangedHP])

/-- `updateSpawnInfo`. -/
def updateSpawnInfo (sh : SpawnShell) (id subcommand : UInt16) (arg1 : Int32)
    : SpawnShell × List SpawnSignal :=
  sh.withSpawn id.toNat fun s =>
    if subcommand = 17 then
      let s := { s with curHP := arg1 }
      (s, [.changeItem (.spawn s) tSpawnChangedHP])
    else
      (s, [])

/-- `updateMobHealth`, with the product in 32 bits. -/
def updateMobHealth (sh : SpawnShell) (id : UInt16) (hpPercent : Int32)
    : SpawnShell × List SpawnSignal :=
  sh.withSpawn id.toNat fun s =>
    let s := if s.maxHP > 0 then { s with curHP := s.maxHP * hpPercent / 100 } else s
    (s, [.changeItem (.spawn s) tSpawnChangedHP])

/-- The player's hit points as its own handlers store them. -/
def setPlayerHP (sh : SpawnShell) (curHP maxHP : Int32) : SpawnShell :=
  { sh with player := { sh.player with base := { sh.player.base with curHP, maxHP } } }

/-- `Player::setVitals`, as far as the hit points go. -/
def setVitals (sh : SpawnShell) (v : Vitals) : SpawnShell × List SpawnSignal :=
  if !v.haveHP && !v.haveMana && !v.haveEnd then (sh, [])
  else
    let sh := if v.haveHP then sh.setPlayerHP v.hpCur.toInt32 v.hpMax.toInt32 else sh
    (sh, [.statsChanged sh.player])

/-- `Player::updateNpcHP`. -/
def updatePlayerHP (sh : SpawnShell) (id : UInt16) (curHp maxHp : Int32)
    : SpawnShell × List SpawnSignal :=
  if id ≠ sh.player.id then (sh, [])
  else
    let sh := sh.setPlayerHP curHp maxHp
    (sh, [.changeItem (.player sh.player) tSpawnChangedHP, .statsChanged sh.player])

/-- `Player::updateSpawnInfo`. -/
def updatePlayerInfo (sh : SpawnShell) (id subcommand : UInt16) (arg1 : Int32)
    : SpawnShell × List SpawnSignal :=
  if id ≠ sh.player.id ∨ subcommand ≠ 17 then (sh, [])
  else
    let sh := sh.setPlayerHP arg1 sh.player.base.maxHP
    (sh, [.changeItem (.player sh.player) tSpawnChangedHP, .statsChanged sh.player])

-----------------------------------------------------------------------------------------
-- Identity
-----------------------------------------------------------------------------------------

/-- `updateSpawnIdentity`. -/
def updateSpawnIdentity (sh : SpawnShell) (id : UInt16) (level classVal : UInt8)
    : SpawnShell × List SpawnSignal :=
  sh.withSpawn id.toNat fun s =>
    let s := { s with level := level.toUInt32.toInt32, classVal }
    (s, [.changeItem (.spawn s) tSpawnChangedALL])

/-- `updateSpawnLock`. -/
def updateSpawnLock (sh : SpawnShell) (id type value : UInt32)
    : SpawnShell × List SpawnSignal :=
  if type ≠ 0x2c then (sh, [])
  else
    sh.withSpawn id.toNat fun s =>
      let locked := value != 0
      if s.locked = locked then (s, [])
      else
        let s := { s with locked }
        (s, [.changeItem (.spawn s) tSpawnChangedALL])

/-- `findSpawnByName`: the key of the first spawn that a walk through the hash, in whatever
order, finds under the name.
-/
def findSpawnByName (sh : SpawnShell) (walk : List Nat) (name : String) : Option Nat :=
  walk.find? fun key => (sh.spawns.find? key).any fun s => s.name == name

/-- `renameSpawn`. -/
def renameSpawn (sh : SpawnShell) (walk : List Nat) (oldName newName : String)
    : SpawnShell × List SpawnSignal :=
  match sh.findSpawnByName walk oldName with
  | some key =>
      sh.withSpawn key fun s =>
        let renamed := { s with name := newName }.updateFlags sh.filterMgr
        (renamed, [.changeItem (.spawn renamed) (tSpawnChangedName ||| flagChanges s renamed)])
  | none =>
      if oldName = sh.player.shown.name then
        let p := (sh.player.setName newName).updateFlags sh.filterMgr
        ({ sh with player := p },
          [.changeItem (.player p) (tSpawnChangedName ||| flagChanges sh.player.base p.base)])
      else
        (sh, [])

/-- `illusionSpawn`. -/
def illusionSpawn (sh : SpawnShell) (id race : UInt32) (gender : UInt8)
    : SpawnShell × List SpawnSignal :=
  sh.withSpawn id.toNat fun s =>
    let s := { s with gender, race := race.toUInt16 }
    (s, [.changeItem (.spawn s) tSpawnChangedALL])

/-- `shroudSpawn`: loading the profile announces the level and each of the seven stats. -/
def shroudSpawn (sh : SpawnShell) (spawnID : UInt32) (d : SpawnStruct) (profile : PlayerProfile)
    : SpawnShell × List SpawnSignal :=
  if spawnID ≠ sh.player.id.toUInt32 then sh.newSpawn d
  else
    let loaded := sh.player.loadProfile profile
    let p := loaded.updateFlags sh.filterMgr
    ({ sh with player := p },
      List.replicate 8 (.statsChanged loaded) ++ [.changeItem (.player p) tSpawnChangedALL])

/-- `updateSpawnAppearance`. -/
def updateSpawnAppearance (sh : SpawnShell) (id kind parameter : UInt32)
    : SpawnShell × List SpawnSignal :=
  sh.withSpawn id.toNat fun s =>
    if kind = 1 ∧ parameter ≠ 0 then
      let s := { s with level := parameter.toInt32 }
      (s, [.changeItem (.spawn s) tSpawnChangedLevel])
    else
      (s, [])

/-- `spawnWearingUpdate`. -/
def spawnWearingUpdate (sh : SpawnShell) (id : UInt16) : SpawnShell × List SpawnSignal :=
  sh.withSpawn id.toNat fun s =>
    let worn := s.updateFlags sh.filterMgr
    (worn, [.changeItem (.spawn worn) (tSpawnChangedWearing ||| flagChanges s worn)])

-----------------------------------------------------------------------------------------
-- Removal and death
-----------------------------------------------------------------------------------------

/-- `removeSpawn` from the server: where the spawn only left the update radius, what follows
finds nothing left to remove or to mark.
-/
def removeSpawn (sh : SpawnShell) (id : UInt32) : SpawnShell × List SpawnSignal :=
  sh.deleteItem .tSpawn id.toNat

/-- `deleteSpawn`. -/
def deleteSpawn (sh : SpawnShell) (spawnId : UInt32) : SpawnShell × List SpawnSignal :=
  let pos := if sh.posDeadSpawnIDs < maxDeadSpawnIDs - 1 then sh.posDeadSpawnIDs + 1 else 0
  let cnt :=
    if sh.cntDeadSpawnIDs < maxDeadSpawnIDs then sh.cntDeadSpawnIDs + 1
    else sh.cntDeadSpawnIDs
  { sh with
    posDeadSpawnIDs := pos
    cntDeadSpawnIDs := cnt
    deadSpawnID := sh.deadSpawnID.set pos spawnId.toUInt16 }.deleteItem .tSpawn spawnId.toNat

/-- What `killSpawn` makes of a spawn: the flags are updated before the name is. -/
def slain (m : FilterMgr) (s : Spawn) : Spawn :=
  let killed := s.killSpawn.updateFlags m
  { killed with name := killed.name ++ spawnCorpseDesignator }

/-- `killSpawn`. -/
def killSpawn (sh : SpawnShell) (id killerId : UInt32) : SpawnShell × List SpawnSignal :=
  let killer :=
    match sh.spawns.find? killerId.toNat with
    | some k => k.id
    | none => killerId.toUInt16
  if id ≠ sh.player.id.toUInt32 then
    sh.withSpawn id.toNat fun s =>
      let s := slain sh.filterMgr s
      (s, [.killSpawn (.spawn s) killer])
  else
    let killed := { sh.player with base := sh.player.base.killSpawn }.updateFlags sh.filterMgr
    let p := killed.setName (killed.base.name ++ spawnCorpseDesignator)
    ({ sh with player := p }, [.killSpawn (.player p) killer])

/-- `respawnFromHover`, which leaves the player without an id until its next zone entry. -/
def respawnFromHover (sh : SpawnShell) : SpawnShell × List SpawnSignal :=
  let corpseId := sh.player.id
  let sh := { sh with player := sh.player.setID 0 }
  let corpse := (Spawn.ofSpawn sh.player.shown corpseId).updateFlags sh.filterMgr
  let corpse :=
    { corpse with guildTag := sh.guildIdToName corpse.guildID corpse.guildServerID }
  (sh.setSpawn corpseId.toNat corpse, [.addItem (.spawn corpse)])

/-- `corpseLoc`: a player's corpse has its coordinates the other way round. -/
def corpseLoc (sh : SpawnShell) (id : UInt32) (x y z : Int16) : SpawnShell × List SpawnSignal :=
  sh.withSpawn id.toNat fun s =>
    let s :=
      if s.npc = SPAWN_PLAYER ∨ s.npc = SPAWN_PC_CORPSE then { s with x := y, y := x, z }
      else { s with x, y, z }
    let s := s.killSpawn
    (s, [.killSpawn (.spawn s) 0])

-----------------------------------------------------------------------------------------
-- Doors and drops
-----------------------------------------------------------------------------------------

/-- `newGroundItem` from the server. -/
def newGroundItem (sh : SpawnShell) (d : MakeDropStruct) : SpawnShell × List SpawnSignal :=
  if sh.isZoning then (sh, [])
  else
    match sh.drops.find? d.dropId.toNat with
    | some t =>
        let t := (t.updateDrop d).updateFilterFlags sh.filterMgr
        ({ sh with drops := sh.drops.insert d.dropId.toNat t },
          [.changeItem (.drop t) tSpawnChangedALL])
    | none =>
        let t := (Thing.ofDrop d).updateFilterFlags sh.filterMgr
        ({ sh with drops := sh.drops.insert d.dropId.toNat t }, [.addItem (.drop t)])

/-- `removeGroundItem` from the server. -/
def removeGroundItem (sh : SpawnShell) (dropId : UInt32) : SpawnShell × List SpawnSignal :=
  if sh.isZoning then (sh, []) else sh.deleteItem .tDrop dropId.toNat

/-- `newDoorSpawn`, which `newDoorSpawns` calls for each one in its packet. -/
def newDoorSpawn (sh : SpawnShell) (d : DoorStruct) : SpawnShell × List SpawnSignal :=
  match sh.doors.find? d.doorId.toNat with
  | some t =>
      let t := (t.updateDoor d).updateFilterFlags sh.filterMgr
      ({ sh with doors := sh.doors.insert d.doorId.toNat t },
        [.changeItem (.door t) tSpawnChangedALL])
  | none =>
      let t := (Thing.ofDoor d).updateFilterFlags sh.filterMgr
      ({ sh with doors := sh.doors.insert d.doorId.toNat t }, [.addItem (.door t)])

-----------------------------------------------------------------------------------------
-- Guild tags and filters
-----------------------------------------------------------------------------------------

/-- The guild tag of one spawn in `updateGuildTag`. -/
def retagged (sh : SpawnShell) (guildId : UInt32) (s : Spawn) : Spawn :=
  if guildId = s.guildID.toUInt32 then
    { s with guildTag := sh.guildIdToName s.guildID s.guildServerID }
  else
    s

/-- `updateGuildTag`, once the guilds know the name. The hash's own order is not modelled: a
spawn's signal does not depend on the others.
-/
def updateGuildTag (sh : SpawnShell) (guildId : UInt32) : SpawnShell × List SpawnSignal :=
  let spawns := sh.spawns.mapValues (sh.retagged guildId)
  let p := { sh.player with base := sh.retagged guildId sh.player.base }
  ({ sh with spawns, player := p },
    (spawns.entries.filter fun entry => guildId == entry.2.guildID.toUInt32).map
        (fun entry => .changeItem (.spawn entry.2) tSpawnChangedALL)
      ++ (sh.players.entries.filter fun _ => guildId == p.base.guildID.toUInt32).map
        (fun _ => .changeItem (.player p) tSpawnChangedALL))

/-- One map of `refilterSpawns` or `refilterSpawnsRuntime`: the items whose flags the update
changed are signalled in their order.
-/
def refilter {ι : Type} [DecidableEq ι] (item : ι → SpawnItem) (changeType : UInt32)
    (update : ι → ι) (m : OrderedMap Nat ι)
    : List SpawnSignal :=
  (SpawnItem.inOrder
      ((m.entries.filter fun entry => update entry.2 != entry.2).map
        fun entry => item (update entry.2))).map
    fun i => .changeItem i changeType

/-- `refilterSpawns`. -/
def refilterSpawns (sh : SpawnShell) : SpawnShell × List SpawnSignal :=
  let onSpawn (s : Spawn) := s.updateFilterFlags sh.filterMgr
  let onThing (t : Thing) := t.updateFilterFlags sh.filterMgr
  ({ sh with
      spawns := sh.spawns.mapValues onSpawn
      drops := sh.drops.mapValues onThing
      doors := sh.doors.mapValues onThing },
    refilter .spawn tSpawnChangedFilter onSpawn sh.spawns
      ++ refilter .drop tSpawnChangedFilter onThing sh.drops
      ++ refilter .door tSpawnChangedFilter onThing sh.doors)

/-- `refilterSpawnsRuntime`. -/
def refilterSpawnsRuntime (sh : SpawnShell) : SpawnShell × List SpawnSignal :=
  let onSpawn (s : Spawn) := s.updateRuntimeFilterFlags sh.filterMgr
  let onThing (t : Thing) := t.updateRuntimeFilterFlags sh.filterMgr
  ({ sh with
      spawns := sh.spawns.mapValues onSpawn
      drops := sh.drops.mapValues onThing
      doors := sh.doors.mapValues onThing },
    refilter .spawn tSpawnChangedRuntimeFilter onSpawn sh.spawns
      ++ refilter .drop tSpawnChangedRuntimeFilter onThing sh.drops
      ++ refilter .door tSpawnChangedRuntimeFilter onThing sh.doors)

end SpawnShell
end Scry
