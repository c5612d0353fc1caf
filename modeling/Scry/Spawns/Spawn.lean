import Mathlib.Data.List.Sort

/-! What the spawn shell keeps about the zone: spawns, the player's own spawn, doors and ground
drops, each with the flags of the filters that match it.
-/

namespace Scry

def SPAWN_PLAYER : UInt8 := 0
def SPAWN_NPC : UInt8 := 1
def SPAWN_PC_CORPSE : UInt8 := 2
def SPAWN_NPC_CORPSE : UInt8 := 3
def SPAWN_NPC_UNKNOWN : UInt8 := 4
def SPAWN_DROP : UInt8 := 6
def SPAWN_DOOR : UInt8 := 7
def SPAWN_SELF : UInt8 := 10

def DEITY_UNKNOWN : UInt32 := 0

/-- `Spawn_Corpse_Designator`. -/
def spawnCorpseDesignator : String := "'s corpse"

/-- A decoded `spawnStruct`. -/
structure SpawnStruct where
  name : String
  lastName : String
  spawnId : UInt32
  level : UInt8
  npc : UInt8
  gender : UInt8
  gm : UInt8
  race : UInt32
  bodytype : UInt32
  curHp : UInt8
  deity : UInt32
  guildID : UInt32
  guildServerID : UInt32
  class_ : UInt8
  light : UInt8
  equipment : List UInt32
  x : Int
  y : Int
  z : Int
  deltaX : Int
  deltaY : Int
  deltaZ : Int
  heading : UInt16
  deltaHeading : Int
  animation : Int
  deriving DecidableEq

/-- What the filters match of an item: the values `filterString` prints, and none of the
items' other fields.
-/
inductive FilterString
  | ofSpawn (name : String) (level : Int32) (race : UInt16) (classVal npc : UInt8)
      (x y z : Int16) (light : UInt8) (deity : UInt16) (typeflag : UInt8)
      (lastName guildTag : String) (equipment : List UInt32) (gm : UInt8)
  | ofThing (name raceString : String) (npc : UInt8) (x y z : Int16)
  deriving DecidableEq

/-- The `FilterMgr` as the spawn shell uses it: the masks its rules give. -/
structure FilterMgr where
  filterMask : FilterString → UInt8 → UInt32
  runtimeFilterMask : FilterString → UInt8 → UInt32

/-- `Spawn`. -/
structure Spawn where
  id : UInt16
  name : String
  lastName : String
  x : Int16
  y : Int16
  z : Int16
  deltaX : Int16
  deltaY : Int16
  deltaZ : Int16
  heading : Int8
  deltaHeading : Int8
  animation : UInt8
  light : UInt8
  gender : UInt8
  deity : UInt16
  race : UInt16
  classVal : UInt8
  classMask : UInt32
  curHP : Int32
  maxHP : Int32
  guildID : UInt16
  guildServerID : UInt16
  guildTag : String
  level : Int32
  equipment : List UInt32
  typeflag : UInt8
  gm : UInt8
  locked : Bool
  npc : UInt8
  filterFlags : UInt32
  runtimeFilterFlags : UInt32
  deriving DecidableEq

/-- `Door` or `Drop`. -/
structure Thing where
  id : UInt16
  name : String
  x : Int16
  y : Int16
  z : Int16
  heading : Int8
  npc : UInt8
  filterFlags : UInt32
  runtimeFilterFlags : UInt32
  deriving DecidableEq

-----------------------------------------------------------------------------------------
-- Names
-----------------------------------------------------------------------------------------

/-- `cleanedName`: the digits dropped, an underscore for each space. -/
def cleanedName (name : String) : String :=
  String.ofList
    ((name.toList.filter (fun c => !c.isDigit)).map (fun c => if c = '_' then ' ' else c))

/-- One branch of `transformedName`: a leading article moved to the end. -/
def articleLast (article : String) (temp : String) : Option String :=
  if temp.toList.take (article.length + 1) = article.toList ++ [' '] then
    some (String.ofList (temp.toList.drop (article.length + 1)) ++ ", " ++ article)
  else
    none

/-- `transformedName` of a spawn that is called `name`. -/
def transformedName (name : String) : String :=
  let temp := cleanedName name
  (articleLast "a" temp <|> articleLast "an" temp <|> articleLast "the" temp).getD temp

example : transformedName "a_large_rat003" = "large rat, a" := by decide

-----------------------------------------------------------------------------------------
-- Spawns
-----------------------------------------------------------------------------------------

namespace Spawn

/-- `calcIsMount`. -/
def calcIsMount (race : UInt32) (level : UInt8) : Bool :=
  level == 30
    && [216, 348, 492, 517, 518, 519, 583, 584, 594, 597, 598, 623, 625, 631, 652, 654, 655,
        656, 657, 671, 672, 673, 674, 675, 676, 677, 679, 680, 682, 684, 709, 720, 721, 751,
        752, 753, 754, 757, 794, 795, 835, 836, 850, 853, 854, 859, 861, 875, 885, 898, 903,
        911, 912, 921, 923, 952, 953, 954, 961].contains race

/-- `isCorpse`. -/
def isCorpse (s : Spawn) : Bool := s.npc == SPAWN_PC_CORPSE || s.npc == SPAWN_NPC_CORPSE

/-- `isPlayer`. -/
def isPlayer (s : Spawn) : Bool := s.npc == SPAWN_PLAYER || s.npc == SPAWN_SELF

/-- The constructor for a spawn of which only the movement is known. -/
def unknown (id : UInt16) (x y z deltaX deltaY deltaZ : Int16) (heading deltaHeading : Int8)
    (animation : UInt8)
    : Spawn :=
  { id
    name := "unknown"
    lastName := ""
    x, y, z, deltaX, deltaY, deltaZ, heading, deltaHeading, animation
    light := 0
    gender := 0
    deity := 0
    race := 0
    classVal := 0
    classMask := 0
    curHP := 0
    maxHP := 0
    guildID := 0xffff
    guildServerID := 0
    guildTag := ""
    level := 0
    equipment := List.replicate 9 0
    typeflag := 0
    gm := 0
    locked := false
    npc := SPAWN_NPC_UNKNOWN
    filterFlags := 0
    runtimeFilterFlags := 0 }

/-- The NPC code a spawn takes from the wire: a player's corpse without a deity is a
monster's.
-/
def npcOf (d : SpawnStruct) : UInt8 :=
  if d.npc = SPAWN_PC_CORPSE ∧ d.deity = DEITY_UNKNOWN then SPAWN_NPC_CORPSE else d.npc

/-- `Spawn::update`: all but the id, the guild tag, the class mask, the lock and the flags. -/
def update (s : Spawn) (d : SpawnStruct) : Spawn :=
  let known :=
    { s with
      name := d.name
      lastName := d.lastName
      x := Int16.ofInt (d.x >>> (3 : Nat))
      y := Int16.ofInt (d.y >>> (3 : Nat))
      z := Int16.ofInt (d.z >>> (3 : Nat))
      light := d.light
      gender := d.gender
      deity := d.deity.toUInt16
      race := d.race.toUInt16
      classVal := d.class_
      curHP := d.curHp.toUInt32.toInt32
      maxHP := 100
      guildID := d.guildID.toUInt16
      guildServerID := d.guildServerID.toUInt16
      level := d.level.toUInt32.toInt32
      equipment := d.equipment
      typeflag := d.bodytype.toUInt8
      gm := d.gm
      npc := npcOf d
      animation := UInt8.ofInt d.animation }
  if known.isCorpse then
    { known with deltaX := 0, deltaY := 0, deltaZ := 0, heading := 0, deltaHeading := 0 }
  else
    { known with
      deltaX := Int16.ofInt (d.deltaX >>> (2 : Nat))
      deltaY := Int16.ofInt (d.deltaY >>> (2 : Nat))
      deltaZ := Int16.ofInt (d.deltaZ >>> (2 : Nat))
      heading := d.heading.toUInt8.toInt8
      deltaHeading := Int8.ofInt d.deltaHeading }

/-- The constructor from a `spawnStruct`. -/
def ofStruct (d : SpawnStruct) : Spawn :=
  (unknown d.spawnId.toUInt16 0 0 0 0 0 0 0 0 0).update d

/-- The constructor from another spawn: its guild tag, its lock and its flags are not
copied.
-/
def ofSpawn (s : Spawn) (id : UInt16) : Spawn :=
  { s with id, guildTag := "", locked := false, filterFlags := 0, runtimeFilterFlags := 0 }

/-- `Spawn::killSpawn`. -/
def killSpawn (s : Spawn) : Spawn :=
  { s with
    deltaX := 0
    deltaY := 0
    deltaZ := 0
    heading := 0
    deltaHeading := 0
    curHP := 0
    maxHP := 0
    npc :=
      if s.npc = SPAWN_PLAYER ∨ s.npc = SPAWN_SELF ∨ s.npc = SPAWN_PC_CORPSE then
        SPAWN_PC_CORPSE
      else
        SPAWN_NPC_CORPSE }

/-- `Spawn::filterString`. -/
def filterString (s : Spawn) : FilterString :=
  .ofSpawn (transformedName s.name) s.level s.race s.classVal
    (if s.npc = SPAWN_SELF then 0 else s.npc) s.x s.y s.z s.light s.deity s.typeflag
    s.lastName s.guildTag s.equipment s.gm

/-- The level the filters are given. -/
def filterLevel (s : Spawn) : UInt8 := s.level.toUInt32.toUInt8

/-- The masks the rules give the spawn now. -/
def filterMask (s : Spawn) (m : FilterMgr) : UInt32 := m.filterMask s.filterString s.filterLevel

def runtimeFilterMask (s : Spawn) (m : FilterMgr) : UInt32 :=
  m.runtimeFilterMask s.filterString s.filterLevel

/-- `updateFilterFlags` on a spawn; whether they changed is read off before. -/
def updateFilterFlags (s : Spawn) (m : FilterMgr) : Spawn :=
  { s with filterFlags := s.filterMask m }

/-- `updateRuntimeFilterFlags` on a spawn. -/
def updateRuntimeFilterFlags (s : Spawn) (m : FilterMgr) : Spawn :=
  { s with runtimeFilterFlags := s.runtimeFilterMask m }

/-- Both updates, one after the other, as most operations make them. -/
def updateFlags (s : Spawn) (m : FilterMgr) : Spawn :=
  (s.updateFilterFlags m).updateRuntimeFilterFlags m

end Spawn

-----------------------------------------------------------------------------------------
-- Doors and drops
-----------------------------------------------------------------------------------------

/-- A decoded `doorStruct`, its coordinates and heading rounded as `Door::update` does. -/
structure DoorStruct where
  doorId : UInt8
  name : String
  x : Int16
  y : Int16
  z : Int16
  heading : Int8
  deriving DecidableEq

/-- A decoded `makeDropStruct`, with the name `Drop::update` gives it. -/
structure MakeDropStruct where
  dropId : UInt32
  name : String
  x : Int16
  y : Int16
  z : Int16
  heading : Int8
  deriving DecidableEq

namespace Thing

/-- `Door::update`. -/
def updateDoor (t : Thing) (d : DoorStruct) : Thing :=
  { t with
    name := "Door: " ++ d.name ++ " (" ++ toString d.doorId.toNat ++ ") "
    x := d.x
    y := d.y
    z := d.z
    heading := d.heading }

/-- The constructor of a `Door`. -/
def ofDoor (d : DoorStruct) : Thing :=
  updateDoor
    { id := d.doorId.toUInt16, name := "", x := 0, y := 0, z := 0, heading := 0
      npc := SPAWN_DOOR, filterFlags := 0, runtimeFilterFlags := 0 }
    d

/-- `Drop::update`. -/
def updateDrop (t : Thing) (d : MakeDropStruct) : Thing :=
  { t with name := d.name, x := d.x, y := d.y, z := d.z, heading := d.heading }

/-- The constructor of a `Drop`. -/
def ofDrop (d : MakeDropStruct) : Thing :=
  updateDrop
    { id := d.dropId.toUInt16, name := "", x := 0, y := 0, z := 0, heading := 0
      npc := SPAWN_DROP, filterFlags := 0, runtimeFilterFlags := 0 }
    d

/-- `raceString` of a door or a drop. -/
def raceString (t : Thing) : String := if t.npc = SPAWN_DOOR then "Door" else "Drop"

/-- `Item::filterString`. -/
def filterString (t : Thing) : FilterString :=
  .ofThing t.name t.raceString t.npc t.x t.y t.z

/-- `updateFilterFlags` on a door or a drop, whose level counts as 0. -/
def updateFilterFlags (t : Thing) (m : FilterMgr) : Thing :=
  { t with filterFlags := m.filterMask t.filterString 0 }

/-- `updateRuntimeFilterFlags` on a door or a drop. -/
def updateRuntimeFilterFlags (t : Thing) (m : FilterMgr) : Thing :=
  { t with runtimeFilterFlags := m.runtimeFilterMask t.filterString 0 }

end Thing
end Scry
