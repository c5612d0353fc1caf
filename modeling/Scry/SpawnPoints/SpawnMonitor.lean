import Mathlib.Data.Char
import Mathlib.Data.List.Lex
import Mathlib.Data.List.Sort
import Scry.Library.Directory
import Scry.Library.OrderedMap
import Scry.Library.TextStream
import Scry.Spawns.Spawn

/-! The spawn monitor: where spawns pop, how often, and how long after a death, in memory and in
the files of the zones.
-/

namespace Scry

open TextStream

-----------------------------------------------------------------------------------------
-- Spawn points
-----------------------------------------------------------------------------------------

structure EQPoint where
  x : Int16
  y : Int16
  z : Int16
  deriving DecidableEq

/-- `SpawnPoint::key`. -/
def EQPoint.key (p : EQPoint) : List Char :=
  decimalInt p.x.toInt ++ '|' :: (decimalInt p.y.toInt ++ '|' :: decimalInt p.z.toInt)

/-- What the monitor reads of an item, which is a spawn or another thing. -/
structure MonitoredItem where
  tSpawn : Bool
  id : UInt16
  name : List Char
  loc : EQPoint
  npc : UInt8
  petOwnerID : UInt16
  isMount : Bool
  isAura : Bool
  isMercenary : Bool
  deriving DecidableEq

structure SpawnPoint where
  loc : EQPoint
  spawnTime : Int64
  deathTime : Int64
  diffTime : Int64
  count : UInt32
  name : List Char
  last : List Char
  lastID : UInt16
  deriving DecidableEq

namespace SpawnPoint

/-- The constructor. -/
def create (now : Int64) (spawnID : UInt16) (loc : EQPoint) (name : List Char) (diffTime : Int64)
    (count : UInt32)
    : SpawnPoint :=
  { loc, spawnTime := now, deathTime := 0, diffTime, count, name, last := [], lastID := spawnID }

def key (sp : SpawnPoint) : List Char := sp.loc.key

def restart (sp : SpawnPoint) (now : Int64) : SpawnPoint :=
  { sp with lastID := 0, deathTime := now }

def update (sp : SpawnPoint) (spawn : MonitoredItem) (now : Int64) : SpawnPoint :=
  { sp with
    lastID := spawn.id
    last := if spawn.id ≠ 0 then spawn.name else []
    spawnTime := now
    diffTime := if sp.deathTime ≠ 0 then now - sp.deathTime else sp.diffTime
    deathTime := 0
    count := sp.count + 1 }

end SpawnPoint

-----------------------------------------------------------------------------------------
-- Spawn point files
-----------------------------------------------------------------------------------------

/-- What a file keeps of a spawn point. -/
structure SpawnPointRecord where
  loc : EQPoint
  diffTime : UInt64
  count : UInt32
  name : List Char
  deriving DecidableEq

/-- What `saveSpawnPoints` writes of a spawn point: `count()` is signed. -/
def SpawnPoint.line (sp : SpawnPoint) : List Char :=
  decimalInt sp.loc.x.toInt ++ ' ' :: (decimalInt sp.loc.y.toInt
    ++ ' ' :: (decimalInt sp.loc.z.toInt ++ ' ' :: (decimal sp.diffTime.toUInt64.toNat
    ++ ' ' :: (decimalInt sp.count.toInt32.toInt ++ ' ' :: (sp.name ++ ['\n'])))))

/-- One round of the loop of `loadSpawnPoints`: the fields of a point, and the rest of the file.
-/
def readRecord (input : List Char) : SpawnPointRecord × List Char :=
  let x := readNumber input
  let y := readNumber x.2
  let z := readNumber y.2
  let diffTime := readNumber z.2
  let count := readNumber diffTime.2
  let name := readLine count.2
  ({ loc := ⟨x.1.toUInt16.toInt16, y.1.toUInt16.toInt16, z.1.toUInt16.toInt16⟩
     diffTime := diffTime.1
     count := count.1.toUInt32
     name := trimmed name.1 },
    name.2)

/-- The rounds until the end of the file, as far as the fuel goes. -/
def readRecords : Nat → List Char → List SpawnPointRecord
  | 0, _ => []
  | fuel + 1, input =>
      if input = [] then [] else (readRecord input).1 :: readRecords fuel (readRecord input).2

/-- The points of a file: each round takes a character at least. -/
def spawnRecords (file : List Char) : List SpawnPointRecord := readRecords file.length file

/-- The point that is made of a record: a respawn time makes it begin as if its spawn had just
died.
-/
def SpawnPointRecord.point (r : SpawnPointRecord) (now : Int64) : SpawnPoint :=
  let p := SpawnPoint.create now 0 r.loc r.name r.diffTime.toInt64 r.count
  if 0 < r.diffTime then p.restart now else p

-----------------------------------------------------------------------------------------
-- The monitor
-----------------------------------------------------------------------------------------

abbrev SpawnPoints : Type := OrderedMap (List Char) SpawnPoint

/-- The entries in the order of a hash. -/
def walk (rank : List Char → Nat) (m : SpawnPoints) : List (List Char × SpawnPoint) :=
  m.entries.insertionSort fun left right => rank left.1 ≤ rank right.1

structure SpawnMonitor where
  zoneName : List Char
  spawns : SpawnPoints
  points : SpawnPoints
  persist : Bool
  modified : Bool

/-- The files of a zone when they are saved, and how the steps of saving come out: what the system
stores of a text, and whether it sees, removes and renames files.
-/
structure Saving where
  rank : List Char → Nat
  directory : Directory SaveName (List Char)
  opens : Bool
  stores : List Char → List Char
  seesOld : Bool
  seesBackup : Bool
  removesBackup : Bool
  renamesOld : Bool
  renamesNew : Bool

namespace SpawnMonitor

/-- A monitor at the start. -/
def fresh (persist : Bool) : SpawnMonitor :=
  { zoneName := [], spawns := .empty, points := .empty, persist, modified := false }

def clear (m : SpawnMonitor) : SpawnMonitor := { m with spawns := .empty, points := .empty }

/-- The text `saveSpawnPoints` writes. -/
def spawnFile (m : SpawnMonitor) (rank : List Char → Nat) : List Char :=
  (walk rank m.points).flatMap fun entry => entry.2.line

/-- A stale backup is cleared, so that the old file can be renamed. -/
def removeBackup (s : Saving) (d : Directory SaveName (List Char))
    : Directory SaveName (List Char) :=
  if d.seen .backup s.seesBackup then (d.remove .backup s.removesBackup).2 else d

/-- The steps of `saveSpawnPoints` once the file with the new contents is written. -/
def replaceFile (s : Saving) (d : Directory SaveName (List Char))
    : Directory SaveName (List Char) :=
  if d.seen .canonical s.seesOld then
    let old := (removeBackup s d).rename .canonical .backup s.renamesOld
    if old.1 then (old.2.rename .new .canonical s.renamesNew).2 else old.2
  else
    (d.rename .new .canonical s.renamesNew).2

def saveSpawnPoints (m : SpawnMonitor) (s : Saving)
    : SpawnMonitor × Directory SaveName (List Char) :=
  if ¬ m.persist then (m, s.directory)
  else if ¬ m.modified then (m, s.directory)
  else if m.zoneName = [] then (m, s.directory)
  else if ¬ s.opens then (m, s.directory)
  else
    ({ m with modified := false },
      replaceFile s (s.directory.put .new (some (s.stores (m.spawnFile s.rank)))))

/-- The end of a round of `loadSpawnPoints`: of two points with one key the first stays. -/
def insertRecord (now : Int64) (points : SpawnPoints) (r : SpawnPointRecord) : SpawnPoints :=
  match points.find? r.loc.key with
  | some _ => points
  | none => points.insert r.loc.key (r.point now)

/-- `loadSpawnPoints`, with the file that is found. -/
def loadSpawnPoints (m : SpawnMonitor) (found : Option (List Char)) (now : Int64)
    : SpawnMonitor :=
  if ¬ m.persist then m
  else
    match found with
    | none => m
    | some file =>
        { m with points := (spawnRecords file).foldl (insertRecord now) m.points, modified := false }

/-- `setName`, of the point that is held under a key. -/
def setName (m : SpawnMonitor) (key : List Char) (sp : SpawnPoint) (name : List Char)
    : SpawnMonitor :=
  { m with points := m.points.insert key { sp with name }, modified := true }

/-- A client's request to rename a spawn point. -/
def renameSpawnPoint (m : SpawnMonitor) (key name : List Char) (s : Saving) : SpawnMonitor :=
  match m.points.find? key with
  | some sp => ((m.setName key sp name).saveSpawnPoints s).1
  | none => m

def deleteSpawnPoint (m : SpawnMonitor) (loc : EQPoint) : SpawnMonitor :=
  match m.points.find? loc.key with
  | some _ => { m with points := m.points.erase loc.key, modified := true }
  | none => { m with spawns := m.spawns.erase loc.key, modified := true }

def checkSpawnPoint (m : SpawnMonitor) (spawn : MonitoredItem) (now : Int64) : SpawnMonitor :=
  -- ignore everything but mobs
  if spawn.npc ≠ SPAWN_NPC ∨ spawn.petOwnerID ≠ 0 ∨ spawn.isMount ∨ spawn.isAura
      ∨ spawn.isMercenary then
    m
  else
    let key := spawn.loc.key
    match m.points.find? key with
    | some sp => { m with modified := true, points := m.points.insert key (sp.update spawn now) }
    | none =>
        match m.spawns.find? key with
        | some sp =>
            { m with
              points := m.points.insert key (sp.update spawn now)
              modified := true
              spawns := m.spawns.erase key }
        | none =>
            { m with spawns := m.spawns.insert key (.create now spawn.id spawn.loc [] 0 1) }

def newSpawn (m : SpawnMonitor) (item : MonitoredItem) (now : Int64) : SpawnMonitor :=
  if item.tSpawn then m.checkSpawnPoint item now else m

def killSpawn (m : SpawnMonitor) (id : UInt16) (rank : List Char → Nat) (now : Int64)
    : SpawnMonitor :=
  match (walk rank m.points).find? fun entry => id = entry.2.lastID with
  | some (key, sp) => { m with points := m.points.insert key (sp.restart now) }
  | none =>
      match (walk rank m.spawns).find? fun entry => id = entry.2.lastID with
      | some (key, sp) => { m with spawns := m.spawns.insert key (sp.restart now) }
      | none => m

def zoneChanged (m : SpawnMonitor) (newZoneName : List Char) (s : Saving)
    (found : Option (List Char)) (now : Int64)
    : SpawnMonitor :=
  if m.zoneName ≠ newZoneName then
    { (m.saveSpawnPoints s).1.clear with zoneName := newZoneName }.loadSpawnPoints found now
  else
    m

def zoneEnd (m : SpawnMonitor) (toLower : List Char → List Char) (newZoneName : List Char)
    (s : Saving) (found : Option (List Char)) (now : Int64)
    : SpawnMonitor :=
  let lower := toLower newZoneName
  if m.zoneName ≠ lower then
    { (m.saveSpawnPoints s).1 with zoneName := lower }.clear.loadSpawnPoints found now
  else
    m

end SpawnMonitor

-----------------------------------------------------------------------------------------
-- Runs
-----------------------------------------------------------------------------------------

/-- What happens to a monitor. -/
inductive SpawnMonitorOp
  | newSpawn (item : MonitoredItem) (now : Int64)
  | killSpawn (id : UInt16) (rank : List Char → Nat) (now : Int64)
  | deleteSpawnPoint (loc : EQPoint)
  | renameSpawnPoint (key name : List Char) (s : Saving)
  | saveSpawnPoints (s : Saving)
  | zoneChanged (newZoneName : List Char) (s : Saving) (found : Option (List Char)) (now : Int64)
  | zoneEnd (toLower : List Char → List Char) (newZoneName : List Char) (s : Saving)
      (found : Option (List Char)) (now : Int64)
  | clear

def SpawnMonitorOp.run (op : SpawnMonitorOp) (m : SpawnMonitor) : SpawnMonitor :=
  match op with
  | .newSpawn item now => m.newSpawn item now
  | .killSpawn id rank now => m.killSpawn id rank now
  | .deleteSpawnPoint loc => m.deleteSpawnPoint loc
  | .renameSpawnPoint key name s => m.renameSpawnPoint key name s
  | .saveSpawnPoints s => (m.saveSpawnPoints s).1
  | .zoneChanged newZoneName s found now => m.zoneChanged newZoneName s found now
  | .zoneEnd toLower newZoneName s found now => m.zoneEnd toLower newZoneName s found now
  | .clear => m.clear

end Scry
