import Scry.Spawns.Spawn

/-! The player, whose accessors may answer with configured defaults, and the items a signal can
be about.
-/

namespace Scry

/-- `Player`: its own `Spawn` and what its accessors fall back on. -/
structure Player where
  base : Spawn
  realName : String
  useDefaults : Bool
  useAutoDetectedSettings : Bool
  defaultName : String
  defaultLastName : String
  defaultLevel : UInt8
  defaultRace : UInt16
  defaultClass : UInt8
  defaultDeity : UInt16
  headingDegrees : Int
  deriving DecidableEq

/-- What `loadProfile` reads for the player's spawn. -/
structure PlayerProfile where
  gender : UInt16
  race : UInt32
  class_ : UInt32
  deity : UInt32
  level : UInt8
  deriving DecidableEq

/-- `Player::Vitals`: only whether there are mana and endurance values. -/
structure Vitals where
  haveHP : Bool
  hpCur : UInt32
  hpMax : UInt32
  haveMana : Bool
  haveEnd : Bool
  deriving DecidableEq

namespace Player

/-- `Item::id`. -/
def id (p : Player) : UInt16 := p.base.id

/-- The player as the virtual accessors of `Spawn` show it. -/
def shown (p : Player) : Spawn :=
  if !p.useAutoDetectedSettings || p.useDefaults then
    { p.base with
      name := p.defaultName
      lastName := p.defaultLastName
      level := p.defaultLevel.toUInt32.toInt32
      race := p.defaultRace
      classVal := p.defaultClass
      deity := p.defaultDeity }
  else
    p.base

@[simp] theorem shown_id (p : Player) : p.shown.id = p.base.id := by
  simp only [shown]
  split <;> rfl

@[simp] theorem shown_curHP (p : Player) : p.shown.curHP = p.base.curHP := by
  simp only [shown]
  split <;> rfl

/-- `setID`. -/
def setID (p : Player) (id : UInt16) : Player := { p with base := { p.base with id } }

/-- `setName`, which does not touch the real name. -/
def setName (p : Player) (name : String) : Player := { p with base := { p.base with name } }

/-- `Player::update`: the hit points stay, a `spawnStruct` only has a percentage. -/
def update (p : Player) (d : SpawnStruct) : Player :=
  { p with base := { p.base.update d with curHP := p.base.curHP, maxHP := p.base.maxHP } }

/-- `Player::zoneChanged`: `reset` and then `clear`. -/
def zoneChanged (p : Player) : Player :=
  { p with
    useDefaults := true
    headingDegrees := 360
    base :=
      { p.base with
        id := 0, level := 1, race := 1, classVal := 1, curHP := 0, maxHP := 0
        heading := 0, x := 0, y := 0, z := 0 } }

/-- `loadProfile`. -/
def loadProfile (p : Player) (profile : PlayerProfile) : Player :=
  { p with
    useDefaults := false
    base :=
      { p.base with
        gender := profile.gender.toUInt8
        race := profile.race.toUInt16
        classVal := profile.class_.toUInt8
        deity := profile.deity.toUInt16
        level := profile.level.toUInt32.toInt32 } }

/-- `updateFilterFlags` on the player. -/
def updateFilterFlags (p : Player) (m : FilterMgr) : Player :=
  { p with base := { p.base with filterFlags := p.shown.filterMask m } }

/-- `updateRuntimeFilterFlags` on the player. -/
def updateRuntimeFilterFlags (p : Player) (m : FilterMgr) : Player :=
  { p with base := { p.base with runtimeFilterFlags := p.shown.runtimeFilterMask m } }

/-- Both updates, one after the other. -/
def updateFlags (p : Player) (m : FilterMgr) : Player :=
  (p.updateFilterFlags m).updateRuntimeFilterFlags m

end Player

/-- `spawnItemType`. -/
inductive SpawnItemType
  | tSpawn
  | tDoors
  | tDrop
  | tPlayer
  deriving DecidableEq

/-- An `Item` in its state at the time a signal hands it out. -/
inductive SpawnItem
  | spawn (s : Spawn)
  | player (p : Player)
  | door (t : Thing)
  | drop (t : Thing)
  deriving DecidableEq

namespace SpawnItem

/-- `Item::id`. -/
def id : SpawnItem → UInt16
  | .spawn s => s.id
  | .player p => p.id
  | .door t => t.id
  | .drop t => t.id

/-- `Item::name`. -/
def name : SpawnItem → String
  | .spawn s => s.name
  | .player p => p.shown.name
  | .door t => t.name
  | .drop t => t.name

@[simp] theorem id_spawn (s : Spawn) : (spawn s).id = s.id := rfl
@[simp] theorem id_player (p : Player) : (player p).id = p.base.id := rfl
@[simp] theorem id_door (t : Thing) : (door t).id = t.id := rfl
@[simp] theorem id_drop (t : Thing) : (drop t).id = t.id := rfl

/-- The order in which items are encoded: by id, then by name. -/
def Precedes (a b : SpawnItem) : Prop := a.id < b.id ∨ (a.id = b.id ∧ ¬ b.name < a.name)

instance : DecidableRel Precedes := fun _ _ => inferInstanceAs (Decidable (_ ∨ _ ∧ ¬ _))

/-- Items in the order in which they are encoded. -/
def inOrder (items : List SpawnItem) : List SpawnItem := items.insertionSort Precedes

@[simp]
theorem mem_inOrder {items : List SpawnItem} {item : SpawnItem}
    : item ∈ inOrder items ↔ item ∈ items :=
  (List.perm_insertionSort Precedes items).mem_iff

end SpawnItem

-----------------------------------------------------------------------------------------
-- Change types
-----------------------------------------------------------------------------------------

def tSpawnChangedPosition : UInt32 := 1
def tSpawnChangedHP : UInt32 := 2
def tSpawnChangedWearing : UInt32 := 4
def tSpawnChangedLevel : UInt32 := 16
def tSpawnChangedFilter : UInt32 := 64
def tSpawnChangedRuntimeFilter : UInt32 := 128
def tSpawnChangedName : UInt32 := 512
def tSpawnChangedALL : UInt32 := 1023

/-- What an operation adds to its change type where the update of the flags changed them. -/
def flagChanges (old new : Spawn) : UInt32 :=
  (if new.filterFlags = old.filterFlags then 0 else tSpawnChangedFilter)
    ||| (if new.runtimeFilterFlags = old.runtimeFilterFlags then 0
      else tSpawnChangedRuntimeFilter)

end Scry
