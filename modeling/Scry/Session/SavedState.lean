import Scry.Library.DataStream
import Scry.Spawns.SpawnShell

/-! The files that a daemon leaves for the next one: the zone's names, the spawns and the player.
A spawn is written as pieces of its memory and two names, the player field by field.
-/

namespace Scry

open DataStream

-----------------------------------------------------------------------------------------
-- Spawns
-----------------------------------------------------------------------------------------

/-- What `Item` keeps in the memory from `m_lastUpdate` on. -/
structure ItemMemory where
  id : UInt16
  npc : UInt8
  heading : Int8

/-- What `Spawn` keeps in the memory from `m_petOwnerID` on. -/
structure SpawnMemory where
  curHP : Int32
  maxHP : Int32
  guildID : UInt16
  guildServerID : UInt16
  deity : UInt16
  equipment : List UInt32
  race : UInt16
  level : Int32
  gender : UInt8
  classVal : UInt8
  classMask : UInt32
  light : UInt8
  typeflag : UInt8
  animation : UInt8
  gm : UInt8
  locked : Bool

/-- The pieces of memory that are copied. -/
inductive MemoryPiece where
  | point (x y z : Int16)
  | item (memory : ItemMemory)
  | spawn (memory : SpawnMemory)

/-- A file of the daemon. -/
abbrev SavedFile : Type := DataStream MemoryPiece

namespace MemoryPiece

def pointField : DataField MemoryPiece (Int16 × Int16 × Int16) :=
  { write := fun p => .raw (.point p.1 p.2.1 p.2.2)
    read? := fun
      | .raw (.point x y z) => some (x, y, z)
      | _ => none
    zero := (0, 0, 0)
    read?_write := fun _ => rfl }

def itemField : DataField MemoryPiece ItemMemory :=
  { write := fun m => .raw (.item m)
    read? := fun
      | .raw (.item m) => some m
      | _ => none
    zero := ⟨0, 0, 0⟩
    read?_write := fun _ => rfl }

def spawnField : DataField MemoryPiece SpawnMemory :=
  { write := fun m => .raw (.spawn m)
    read? := fun
      | .raw (.spawn m) => some m
      | _ => none
    zero := ⟨0, 0, 0, 0, 0, [], 0, 0, 0, 0, 0, 0, 0, 0, 0, false⟩
    read?_write := fun _ => rfl }

end MemoryPiece

/-- What the two processes have from their build: the sizes of two structures of the wire, and how
a zone's name is put in lower case.
-/
structure Build where
  spawnStructSize : UInt32
  charProfileSize : UInt32
  toLower : String → String

namespace Spawn

/-- `saveSpawn`. -/
def saveSpawn (s : Spawn) : SavedFile :=
  [MemoryPiece.pointField.write (s.x, s.y, s.z),
    MemoryPiece.itemField.write { id := s.id, npc := s.npc, heading := s.heading },
    MemoryPiece.spawnField.write
      { curHP := s.curHP
        maxHP := s.maxHP
        guildID := s.guildID
        guildServerID := s.guildServerID
        deity := s.deity
        equipment := s.equipment
        race := s.race
        level := s.level
        gender := s.gender
        classVal := s.classVal
        classMask := s.classMask
        light := s.light
        typeflag := s.typeflag
        animation := s.animation
        gm := s.gm
        locked := s.locked },
    string.write s.name, string.write s.lastName]

/-- The constructor from a file. The id it is given is overwritten with the one in the memory. -/
def ofFile (_id : UInt16) : StateM SavedFile Spawn := do
  let point ← MemoryPiece.pointField.get
  let item ← MemoryPiece.itemField.get
  let memory ← MemoryPiece.spawnField.get
  let name ← string.get
  let lastName ← string.get
  pure
    { id := item.id
      name, lastName
      x := point.1
      y := point.2.1
      z := point.2.2
      -- old movement data is not trusted
      deltaX := 0
      deltaY := 0
      deltaZ := 0
      heading := 0
      deltaHeading := 0
      animation := memory.animation
      light := memory.light
      gender := memory.gender
      deity := memory.deity
      race := memory.race
      classVal := memory.classVal
      classMask := memory.classMask
      curHP := memory.curHP
      maxHP := memory.maxHP
      guildID := memory.guildID
      guildServerID := memory.guildServerID
      guildTag := ""
      level := memory.level
      equipment := memory.equipment
      typeflag := memory.typeflag
      gm := memory.gm
      locked := memory.locked
      npc := item.npc
      filterFlags := 0
      runtimeFilterFlags := 0 }

end Spawn

namespace SpawnShell

/-- `magicStr` of the spawn shell, "spn5". -/
def spawnsMagic : UInt32 := 0x356e7073

/-- `saveSpawns`. -/
def saveSpawns (build : Build) (sh : SpawnShell) (shortZoneName : String) : SavedFile :=
  uint32.write spawnsMagic :: uint32.write build.spawnStructSize
    :: string.write (build.toLower shortZoneName) :: uint32.write (.ofNat sh.spawns.size)
    :: sh.spawns.entries.flatMap fun entry => uint16.write entry.2.id :: entry.2.saveSpawn

/-- The loop of `restoreSpawns`: each spawn gets its flags and is put under its id. -/
def restoreEntries : Nat → SpawnShell → StateM SavedFile (SpawnShell × List SpawnSignal)
  | 0, sh => pure (sh, [])
  | n + 1, sh => do
      let id ← uint16.get
      let item ← Spawn.ofFile id
      let item := item.updateFlags sh.filterMgr
      let after ← restoreEntries n (sh.setSpawn id.toNat item)
      pure (after.1, .addItem (.spawn item) :: after.2)

/-- `restoreSpawns`. The zone's name is only compared for a warning. -/
def restoreSpawns (build : Build) (sh : SpawnShell) : Option SavedFile
    → SpawnShell × List SpawnSignal
  | none => (sh, [])
  | some file =>
      let restore : StateM SavedFile (SpawnShell × List SpawnSignal) := do
        let magicTest ← uint32.get
        if magicTest ≠ spawnsMagic then pure (sh, [])
        else
          let testVal ← uint32.get
          if testVal ≠ build.spawnStructSize then pure (sh, [])
          else
            let _shortZoneName ← string.get
            let count ← uint32.get
            restoreEntries count.toNat sh
      (restore.run file).1

end SpawnShell

-----------------------------------------------------------------------------------------
-- The player
-----------------------------------------------------------------------------------------

/-- `MAX_KNOWN_SKILLS`. -/
def maxKnownSkills : Nat := 100

/-- `MAX_KNOWN_LANGS`. -/
def maxKnownLangs : Nat := 32

/-- What `Player` keeps besides its spawn and its settings. -/
structure PlayerRecord where
  classMask : UInt32
  mana : UInt16
  playerSkills : List.Vector UInt32 maxKnownSkills
  playerLanguages : List.Vector UInt8 maxKnownLangs
  plusMana : UInt16
  plusHP : UInt16
  maxMana : UInt16
  maxSTR : UInt16
  maxSTA : UInt16
  maxCHA : UInt16
  maxDEX : UInt16
  maxINT : UInt16
  maxAGI : UInt16
  maxWIS : UInt16
  food : UInt16
  water : UInt16
  fatigue : UInt16
  enduranceCur : UInt32
  enduranceMax : UInt32
  currentAltExp : UInt32
  currentAApts : UInt16
  currentAAUnspent : UInt32
  currentExp : UInt32
  minExp : UInt32
  maxExp : UInt32
  tickExp : UInt32
  validStam : Bool
  validMana : Bool
  validHP : Bool
  validExp : Bool
  validAttributes : Bool
  validPos : Bool

/-- The fields that `reset` and `clear` set, as they set them; the class mask is in neither. -/
def PlayerRecord.cleared (classMask : UInt32) : PlayerRecord :=
  { classMask
    mana := 0
    playerSkills := .replicate maxKnownSkills 255
    playerLanguages := .replicate maxKnownLangs 255
    plusMana := 0, plusHP := 0, maxMana := 0
    maxSTR := 0, maxSTA := 0, maxCHA := 0, maxDEX := 0, maxINT := 0, maxAGI := 0, maxWIS := 0
    food := 0, water := 0, fatigue := 0
    enduranceCur := 0, enduranceMax := 0
    currentAltExp := 0, currentAApts := 0, currentAAUnspent := 0, currentExp := 0
    minExp := 0, maxExp := 100000, tickExp := 1
    validStam := false, validMana := false, validHP := false, validExp := false
    validAttributes := false, validPos := false }

/-- The settings that the constructor of `Player` reads. -/
structure PlayerSettings where
  useAutoDetectedSettings : Bool
  defaultName : String
  defaultLastName : String
  defaultLevel : UInt8
  defaultRace : UInt16
  defaultClass : UInt8
  defaultDeity : UInt16

namespace Player

def settings (p : Player) : PlayerSettings :=
  { useAutoDetectedSettings := p.useAutoDetectedSettings
    defaultName := p.defaultName
    defaultLastName := p.defaultLastName
    defaultLevel := p.defaultLevel
    defaultRace := p.defaultRace
    defaultClass := p.defaultClass
    defaultDeity := p.defaultDeity }

/-- The constructor, which ends with `reset` and `clear`. -/
def init (settings : PlayerSettings) : Player :=
  zoneChanged
    { base :=
        { Spawn.unknown 0 0 0 0 0 0 0 0 0 0 with
          name := settings.defaultName, npc := SPAWN_SELF }
      realName := ""
      useDefaults := true
      useAutoDetectedSettings := settings.useAutoDetectedSettings
      defaultName := settings.defaultName
      defaultLastName := settings.defaultLastName
      defaultLevel := settings.defaultLevel
      defaultRace := settings.defaultRace
      defaultClass := settings.defaultClass
      defaultDeity := settings.defaultDeity
      headingDegrees := 360 }

/-- `magicStr` of the player, "plr3". -/
def playerMagic : UInt32 := 0x33726c70

/-- The flags of `savePlayerState`. -/
def savedFlags (p : Player) (t : PlayerRecord) : UInt8 :=
  (if t.validStam then 0x01 else 0) ||| (if t.validMana then 0x02 else 0)
    ||| (if t.validHP then 0x04 else 0) ||| (if t.validExp then 0x08 else 0)
    ||| (if t.validAttributes then 0x10 else 0) ||| (if p.useDefaults then 0x20 else 0)

/-- `savePlayerState`. -/
def savePlayerState (build : Build) (p : Player) (t : PlayerRecord) (shortZoneName : String)
    : SavedFile :=
  [uint32.write playerMagic, uint32.write build.charProfileSize,
    uint32.write (.ofNat maxKnownSkills), uint32.write (.ofNat maxKnownLangs),
    string.write (build.toLower shortZoneName),
    string.write p.base.name, string.write p.base.lastName, int32.write p.base.level,
    uint8.write p.base.classVal, uint16.write p.base.deity, uint16.write p.base.id,
    int16.write p.base.x, int16.write p.base.y, int16.write p.base.z,
    int16.write p.base.deltaX, int16.write p.base.deltaY, int16.write p.base.deltaZ,
    int8.write p.base.heading, int16.write (.ofInt p.headingDegrees)]
  ++ (uint32.writeMany t.playerSkills
  ++ (uint8.writeMany t.playerLanguages
  ++ [uint16.write t.plusMana, uint16.write t.plusHP, int32.write p.base.curHP,
    uint16.write t.maxMana, uint16.write t.maxSTR, uint16.write t.maxSTA,
    uint16.write t.maxCHA, uint16.write t.maxDEX, uint16.write t.maxINT,
    uint16.write t.maxAGI, uint16.write t.maxWIS, int32.write p.base.maxHP,
    uint16.write t.food, uint16.write t.water, uint16.write t.fatigue,
    uint32.write t.currentAltExp, uint16.write t.currentAApts, uint32.write t.currentExp,
    uint32.write t.maxExp, uint8.write (p.savedFlags t)]))

/-- `reset` and `clear`, where the file is not that of a player. -/
def cleared (p : Player) (t : PlayerRecord) : Player × PlayerRecord :=
  (p.zoneChanged, .cleared t.classMask)

/-- The rest of `restorePlayerState`, behind the checks. -/
def restoreFields (p : Player) (t : PlayerRecord) : StateM SavedFile (Player × PlayerRecord) := do
  let name ← string.get
  let lastName ← string.get
  let level ← int32.get
  let classVal ← uint8.get
  let deity ← uint16.get
  let id ← uint16.get
  let x ← int16.get
  let y ← int16.get
  let z ← int16.get
  let deltaX ← int16.get
  let deltaY ← int16.get
  let deltaZ ← int16.get
  let heading ← int8.get
  let headingDegrees ← int16.get
  let playerSkills ← uint32.getMany maxKnownSkills
  let playerLanguages ← uint8.getMany maxKnownLangs
  let plusMana ← uint16.get
  let plusHP ← uint16.get
  let curHP ← int32.get
  let maxMana ← uint16.get
  let maxSTR ← uint16.get
  let maxSTA ← uint16.get
  let maxCHA ← uint16.get
  let maxDEX ← uint16.get
  let maxINT ← uint16.get
  let maxAGI ← uint16.get
  let maxWIS ← uint16.get
  let maxHP ← int32.get
  let food ← uint16.get
  let water ← uint16.get
  let fatigue ← uint16.get
  let currentAltExp ← uint32.get
  let currentAApts ← uint16.get
  let currentExp ← uint32.get
  let maxExp ← uint32.get
  let flags ← uint8.get
  pure
    ({ p with
        base :=
          { p.base with
            name, lastName, level, classVal, deity, id, x, y, z, deltaX, deltaY, deltaZ
            heading, curHP, maxHP }
        headingDegrees := headingDegrees.toInt
        useDefaults := flags &&& 0x20 != 0 },
      { t with
        playerSkills, playerLanguages, plusMana, plusHP, maxMana, maxSTR, maxSTA, maxCHA
        maxDEX, maxINT, maxAGI, maxWIS, food, water, fatigue, currentAltExp, currentAApts
        currentExp, maxExp
        validStam := t.validStam || flags &&& 0x01 != 0
        validMana := t.validMana || flags &&& 0x02 != 0
        validHP := t.validHP || flags &&& 0x04 != 0
        validExp := t.validExp || flags &&& 0x08 != 0
        validAttributes := t.validAttributes || flags &&& 0x10 != 0 })

/-- `restorePlayerState`. The zone's name is only compared for a warning. -/
def restorePlayerState (build : Build) (p : Player) (t : PlayerRecord) : Option SavedFile
    → Player × PlayerRecord
  | none => p.cleared t
  | some file =>
      let restore : StateM SavedFile (Player × PlayerRecord) := do
        let magicTest ← uint32.get
        if magicTest ≠ playerMagic then pure (p.cleared t)
        else
          let testVal ← uint32.get
          if testVal ≠ build.charProfileSize then pure (p.cleared t)
          else
            let testVal ← uint32.get
            if testVal ≠ .ofNat maxKnownSkills then pure (p.cleared t)
            else
              let testVal ← uint32.get
              if testVal ≠ .ofNat maxKnownLangs then pure (p.cleared t)
              else
                let _shortZoneName ← string.get
                p.restoreFields t
      (restore.run file).1

end Player

end Scry
