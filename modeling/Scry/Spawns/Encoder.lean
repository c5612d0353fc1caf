import Scry.Spawns.SpawnShell
import Scry.Wire.Bytes

/-! What goes out about the zone's items, and what a client makes of it. A snapshot and an added
spawn carry an item in full, an update carries the fields its change type names.
-/

namespace Scry

/-- `seq::v1::SpawnType`. -/
inductive SpawnType
  | pc
  | npc
  | corpsePc
  | corpseNpc
  | drop
  | door
  deriving DecidableEq

/-- `seq::v1::Pos`. -/
structure Pos where
  x : Int
  y : Int
  z : Int
  vx : Int
  vy : Int
  vz : Int
  heading : Int
  deltaHeading : Int
  animation : UInt8
  deriving DecidableEq

/-- `seq::v1::Spawn`, without the category ids. -/
structure WireSpawn where
  id : UInt16
  type : SpawnType
  name : String
  lastName : String
  level : UInt32
  race : UInt16
  class_ : UInt8
  classMask : UInt32
  deity : UInt16
  hpCur : UInt32
  hpMax : UInt32
  guildId : UInt16
  guildServerId : UInt16
  guildTag : String
  isGm : Bool
  locked : Bool
  filterFlags : UInt32
  pos : Pos
  equipModels : List UInt32
  deriving DecidableEq

/-- `seq::v1::SpawnUpdated`. -/
structure SpawnUpdated where
  id : UInt16
  pos : Option Pos
  hpCur : Option UInt32
  name : Option String
  deriving DecidableEq

/-- The hit points of `seq::v1::PlayerStats`. -/
structure PlayerStats where
  hpCur : UInt32
  hpMax : UInt32
  deriving DecidableEq

/-- What the envelopes about the zone's items carry. -/
inductive ZoneEnvelope
  | snapshot (zoneShort : String) (playerId : UInt16) (spawns : List WireSpawn)
  | zoneChanged (zoneShort : String)
  | spawnAdded (spawn : WireSpawn)
  | spawnUpdated (updated : SpawnUpdated)
  | spawnRemoved (id : UInt16)
  | spawnKilled (deceasedId killerId : UInt16)
  | playerStats (stats : PlayerStats)
  deriving DecidableEq

-----------------------------------------------------------------------------------------
-- The encoder
-----------------------------------------------------------------------------------------

/-- `typeFromItem` of a spawn. -/
def Spawn.wireType (s : Spawn) : SpawnType :=
  if s.isCorpse then
    if s.npc = SPAWN_NPC_CORPSE then .corpseNpc else .corpsePc
  else if s.isPlayer then .pc
  else .npc

/-- The degrees `fillPos` makes of a heading in 256 directions. -/
def degrees (heading : Int8) : Int := 360 - (heading.toUInt8.toNat * 360 / 256 : Nat)

/-- `fillPos`: x and y change sign. -/
def fillPos (s : Spawn) (headingDegrees : Int) : Pos :=
  { x := -s.x.toInt
    y := -s.y.toInt
    z := s.z.toInt
    vx := -s.deltaX.toInt
    vy := -s.deltaY.toInt
    vz := s.deltaZ.toInt
    heading := headingDegrees
    deltaHeading := s.deltaHeading.toInt
    animation := s.animation }

/-- `fillSpawn` of a spawn or of the player. -/
def fillSpawnOf (s : Spawn) (headingDegrees : Int) : WireSpawn :=
  { id := s.id
    type := s.wireType
    name := transformedName s.name
    lastName := s.lastName
    level := s.level.toUInt32
    race := s.race
    class_ := s.classVal
    classMask := s.classMask
    deity := s.deity
    hpCur := s.curHP.toUInt32
    hpMax := s.maxHP.toUInt32
    guildId := s.guildID
    guildServerId := s.guildServerID
    guildTag := s.guildTag
    isGm := s.gm != 0
    locked := s.locked
    filterFlags := s.filterFlags
    pos := fillPos s headingDegrees
    equipModels := s.equipment }

/-- `fillSpawn` of a door or a drop: a name and a place. -/
def fillThing (t : Thing) (type : SpawnType) : WireSpawn :=
  { id := t.id
    type
    name := t.name
    lastName := ""
    level := 0
    race := 0
    class_ := 0
    classMask := 0
    deity := 0
    hpCur := 0
    hpMax := 0
    guildId := 0
    guildServerId := 0
    guildTag := ""
    isGm := false
    locked := false
    filterFlags := 0
    pos :=
      { x := -t.x.toInt, y := -t.y.toInt, z := t.z.toInt, vx := 0, vy := 0, vz := 0
        heading := 0, deltaHeading := 0, animation := 0 }
    equipModels := [] }

/-- `fillSpawn`. -/
def fillSpawn : SpawnItem → WireSpawn
  | .spawn s => fillSpawnOf s (degrees s.heading)
  | .player p => fillSpawnOf p.shown p.headingDegrees
  | .door t => fillThing t .door
  | .drop t => fillThing t .drop

/-- The hit points `fillPlayerStats` sends, cut to 16 bits on the way. -/
def fillPlayerStats (p : Player) : PlayerStats :=
  let curHP := p.base.curHP.toUInt32.toUInt16
  let wireHPMax := p.base.maxHP.toUInt32.toUInt16
  { hpCur := curHP.toUInt32
    hpMax := (if curHP > wireHPMax then curHP else wireHPMax).toUInt32 }

-----------------------------------------------------------------------------------------
-- The slots of a session
-----------------------------------------------------------------------------------------

/-- Whether a change type has one of the bits. -/
def hasAny (changeType bits : UInt32) : Bool := changeType &&& bits != 0

/-- The update `onChangeItem` sends about a spawn, with its position in full. -/
def spawnUpdated (s : Spawn) (pos : Pos) (changeType : UInt32) : SpawnUpdated :=
  { id := s.id
    pos := if hasAny changeType tSpawnChangedPosition then some pos else none
    hpCur := if hasAny changeType tSpawnChangedHP then some s.curHP.toUInt32 else none
    name := if hasAny changeType tSpawnChangedName then some s.name else none }

/-- The branch of `onChangeItem` for some of the fields. -/
def updatedFields (item : SpawnItem) (changeType : UInt32) : SpawnUpdated :=
  match item with
  | .spawn s => spawnUpdated s (fillPos s (degrees s.heading)) changeType
  | .player p => spawnUpdated p.shown (fillPos p.shown p.headingDegrees) changeType
  | .door t | .drop t => { id := t.id, pos := none, hpCur := none, name := none }

/-- Whether `onChangeItem` sends the item in full. -/
def inFull (changeType : UInt32) : Bool :=
  changeType &&& tSpawnChangedALL == tSpawnChangedALL
    || hasAny changeType (tSpawnChangedFilter ||| tSpawnChangedRuntimeFilter)

/-- `onChangeItem`. -/
def onChangeItem (item : SpawnItem) (changeType : UInt32) : ZoneEnvelope :=
  if inFull changeType then .spawnAdded (fillSpawn item)
  else .spawnUpdated (updatedFields item changeType)

/-- The items of a snapshot: those of the shell, and the player where none of them has its
id.
-/
def snapshotItems (sh : SpawnShell) : List SpawnItem :=
  if sh.player.id ≠ 0 ∧ sh.player.id ∉ sh.items.map SpawnItem.id then
    sh.items ++ [.player sh.player]
  else
    sh.items

/-- The envelope of `sendSnapshot`. -/
def snapshotOf (sh : SpawnShell) (shortZoneName : String) : ZoneEnvelope :=
  .snapshot shortZoneName sh.player.id
    ((SpawnItem.inOrder (snapshotItems sh)).map fillSpawn)

-----------------------------------------------------------------------------------------
-- The client
-----------------------------------------------------------------------------------------

/-- What a client holds: the zone's name and an entry for each id. -/
structure SpawnClient where
  zoneShort : String
  spawns : OrderedMap UInt16 WireSpawn
  deriving DecidableEq

namespace SpawnClient

/-- A client that has received nothing. -/
def fresh : SpawnClient := { zoneShort := "", spawns := .empty }

/-- An entry with the fields of an update. -/
def patch (u : SpawnUpdated) (entry : WireSpawn) : WireSpawn :=
  { entry with
    pos := u.pos.getD entry.pos
    hpCur := u.hpCur.getD entry.hpCur
    name := u.name.getD entry.name }

/-- Insert spawns or overwrite them, one after another. -/
def insertAll (spawns : OrderedMap UInt16 WireSpawn) (added : List WireSpawn)
    : OrderedMap UInt16 WireSpawn :=
  added.foldl (fun m spawn => m.insert spawn.id spawn) spawns

/-- What an envelope does to a client. -/
def receive (c : SpawnClient) : ZoneEnvelope → SpawnClient
  | .snapshot zoneShort _ spawns => { zoneShort, spawns := insertAll .empty spawns }
  | .zoneChanged zoneShort =>
      if zoneShort = c.zoneShort then c else { zoneShort, spawns := .empty }
  | .spawnAdded spawn => { c with spawns := c.spawns.insert spawn.id spawn }
  | .spawnUpdated u =>
      match c.spawns.find? u.id with
      | some entry => { c with spawns := c.spawns.insert u.id (patch u entry) }
      | none => c
  | .spawnRemoved id => { c with spawns := c.spawns.erase id }
  | .spawnKilled _ _ => c
  | .playerStats _ => c

/-- Envelopes in turn. -/
def receiveAll (c : SpawnClient) (sent : List ZoneEnvelope) : SpawnClient := sent.foldl receive c

end SpawnClient
end Scry
