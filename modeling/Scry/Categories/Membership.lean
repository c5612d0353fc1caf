import Scry.Spawns.FilterFlags
import Scry.Spawns.PlayerId

/-! The categories of a spawn, which `fillSpawn` works out each time it encodes one, and what a
client was last sent of them.
-/

namespace Scry

/-- A category as `fillSpawn` asks it. What it matches is text made of the names of the flags
that are set and of what the spawn prints; of the latter it looks at `Name`, `Level`, `Race`,
`Class` and `NPC` only.
-/
structure PlainCategory where
  isFiltered : UInt32 → UInt32 → FilterString → UInt8 → Bool
  looksOnlyAt
    : ∀ s t : Spawn, s.look = t.look → ∀ filterFlags runtimeFilterFlags level,
        isFiltered filterFlags runtimeFilterFlags s.filterString level
          = isFiltered filterFlags runtimeFilterFlags t.filterString level

/-- What `fillSpawn` tells of an item's categories and flags. -/
structure Membership where
  categoryIds : List Nat
  filterFlags : UInt32
  deriving DecidableEq

/-- The loop of `fillSpawn` over the categories. -/
def categoryIds (categories : List PlainCategory) (filterFlags runtimeFilterFlags : UInt32)
    (filterString : FilterString) (level : UInt8)
    : List Nat :=
  (categories.zipIdx.filter fun c =>
      c.1.isFiltered filterFlags runtimeFilterFlags filterString level).map Prod.snd

/-- Categories and flags of a spawn; the player is asked as it shows itself. -/
def Spawn.membership (categories : List PlainCategory) (s : Spawn) : Membership :=
  { categoryIds :=
      Scry.categoryIds categories s.filterFlags s.runtimeFilterFlags s.filterString s.filterLevel
    filterFlags := s.filterFlags }

/-- Of a door or a drop no flags are sent, and it counts as of level 0. -/
def Thing.membership (categories : List PlainCategory) (t : Thing) : Membership :=
  { categoryIds := Scry.categoryIds categories t.filterFlags 0 t.filterString 0
    filterFlags := 0 }

/-- The categories and the flags that `fillSpawn` sends. -/
def fillMembership (categories : List PlainCategory) : SpawnItem → Membership
  | .spawn s => s.membership categories
  | .player p => p.shown.membership categories
  | .door t | .drop t => t.membership categories

/-- The items that the slot of a signal sends in full: in an added spawn or a snapshot. -/
def SpawnSignal.sentInFull : SpawnSignal → List SpawnItem
  | .addItem item => [item]
  | .changeItem item changeType => if inFull changeType then [item] else []
  | .changedID shell => SpawnItem.inOrder (snapshotItems shell)
  | .delItem _ | .killSpawn _ _ | .statsChanged _ => []

namespace SpawnShell

/-- The spawn that `newSpawn` makes of a record or updates with one, but for the guild's name. -/
def recorded (sh : SpawnShell) (d : SpawnStruct) : Spawn :=
  match sh.spawns.find? d.spawnId.toNat with
  | some s => (s.update d).updateFlags sh.filterMgr
  | none => (Spawn.ofStruct d).updateFlags sh.filterMgr

/-- The spawn that `upsertSpawn` makes or updates. -/
def upserted (sh : SpawnShell) (id : UInt16) (r : SpawnRecord) : Spawn :=
  match sh.spawns.find? id.toNat with
  | some s => sh.applyIdentity r { s with x := r.x, y := r.y, z := r.z }
  | none =>
      (sh.applyIdentity r
        { Spawn.unknown id r.x r.y r.z 0 0 0 0 0 0 with name := r.name }).updateFlags sh.filterMgr

/-- The spawn that `updateSpawn` makes where it knows none. -/
def sighted (sh : SpawnShell) (id : UInt16) (m : Movement) : Spawn :=
  (Spawn.unknown id m.x m.y m.z m.xVel m.yVel m.zVel m.heading m.deltaHeading
    m.animation).updateFlags sh.filterMgr

end SpawnShell

/-- What creates, renames, changes or kills spawns, and a client that subscribes. -/
inductive IdentityOp
  | newSpawn (d : SpawnStruct)
  | newSpawnPacket (d : SpawnStruct)
  | zoneEntry (d : SpawnStruct)
  | upsertSpawn (id : UInt16) (r : SpawnRecord)
  | playerUpdate (id : UInt16) (m : Movement)
  | npcMoveUpdate (id : UInt16) (m : Movement)
  | updateSpawnIdentity (id : UInt16) (level classVal : UInt8)
  | renameSpawn (walk : List Nat) (oldName newName : String)
  | illusionSpawn (id race : UInt32) (gender : UInt8)
  | shroudSpawn (spawnID : UInt32) (d : SpawnStruct) (profile : PlayerProfile)
  | updateSpawnAppearance (id kind parameter : UInt32)
  | killSpawn (id killerId : UInt32)
  | corpseLoc (id : UInt32) (x y z : Int16)
  | respawnFromHover
  | subscribe

/-- The shell with what a client was last sent in full under each id. -/
structure CategorySession where
  shell : SpawnShell
  sent : OrderedMap UInt16 Membership

namespace CategorySession

variable (categories : List PlainCategory)

/-- An operation of the shell, with the slots that its signals run. -/
def perform (x : CategorySession) (result : SpawnShell × List SpawnSignal) : CategorySession :=
  { shell := result.1
    sent :=
      Replica.putAll SpawnItem.id (fillMembership categories) x.sent
        (result.2.flatMap SpawnSignal.sentInFull) }

/-- A client that subscribes, with its snapshot. -/
def subscribed (sh : SpawnShell) : CategorySession :=
  { shell := sh
    sent :=
      Replica.putAll SpawnItem.id (fillMembership categories) .empty
        (SpawnItem.inOrder (snapshotItems sh)) }

def step (op : IdentityOp) (x : CategorySession) : CategorySession :=
  match op with
  | .newSpawn d => x.perform categories (x.shell.newSpawn d)
  | .newSpawnPacket d => x.perform categories (x.shell.newSpawnPacket d)
  | .zoneEntry d => x.perform categories (x.shell.zoneEntry d)
  | .upsertSpawn id r => x.perform categories (x.shell.upsertSpawn id r)
  | .playerUpdate id m => x.perform categories (x.shell.playerUpdate id m)
  | .npcMoveUpdate id m => x.perform categories (x.shell.npcMoveUpdate id m)
  | .updateSpawnIdentity id level classVal =>
      x.perform categories (x.shell.updateSpawnIdentity id level classVal)
  | .renameSpawn walk oldName newName =>
      x.perform categories (x.shell.renameSpawn walk oldName newName)
  | .illusionSpawn id race gender => x.perform categories (x.shell.illusionSpawn id race gender)
  | .shroudSpawn spawnID d profile =>
      x.perform categories (x.shell.shroudSpawn spawnID d profile)
  | .updateSpawnAppearance id kind parameter =>
      x.perform categories (x.shell.updateSpawnAppearance id kind parameter)
  | .killSpawn id killerId => x.perform categories (x.shell.killSpawn id killerId)
  | .corpseLoc id a b c => x.perform categories (x.shell.corpseLoc id a b c)
  | .respawnFromHover => x.perform categories x.shell.respawnFromHover
  | .subscribe => subscribed categories x.shell

/-- The client was last sent every spawn's categories and flags as `fillSpawn` has them now. -/
def Current (x : CategorySession) : Prop :=
  ∀ {key s}, x.shell.spawns.find? key = some s →
    x.sent.find? s.id = some (s.membership categories)

/-- What an operation must find that puts a spawn under a key and sends it in full: another spawn
with its id on the wire is in the same categories.
-/
def AgreesElsewhere (x : CategorySession) (key : Nat) (s : Spawn) : Prop :=
  ∀ other t, other ≠ key → x.shell.spawns.find? other = some t → t.id = s.id →
    t.membership categories = s.membership categories

/-- The same where the player is sent in full. -/
def AgreesPlayer (x : CategorySession) (p : Player) : Prop :=
  ∀ key t, x.shell.spawns.find? key = some t → t.id = p.id →
    t.membership categories = p.shown.membership categories

/-- What a record of a spawn must find. -/
def NewAgrees (x : CategorySession) (d : SpawnStruct) : Prop :=
  ¬ SpawnShell.Ignored d →
    x.AgreesElsewhere categories d.spawnId.toNat (x.shell.recorded d)

/-- What a movement must find: only of an unknown spawn is anything sent in full. -/
def MovementAgrees (x : CategorySession) (id : UInt16) (m : Movement) : Prop :=
  id ≠ x.shell.player.id → x.shell.spawns.find? id.toNat = none →
    x.shell.createUnknownSpawns = true → x.shell.deadIndex id = none →
      x.AgreesElsewhere categories id.toNat (x.shell.sighted id m)

/-- What a rename must find: where it changes no flag, it is not sent in full. -/
def RenameAgrees (x : CategorySession) (walk : List Nat) (oldName newName : String) : Prop :=
  match x.shell.findSpawnByName walk oldName with
  | some key =>
      ∀ s, x.shell.spawns.find? key = some s →
        let t := SpawnShell.renamed x.shell.filterMgr newName s
        if flagChanges s t = 0 then t.membership categories = s.membership categories
        else x.AgreesElsewhere categories key t
  | none =>
      let player := x.shell.player
      let renamed := SpawnShell.playerRenamed x.shell.filterMgr newName player
      oldName = player.shown.name → flagChanges player.base renamed.base ≠ 0 →
        x.AgreesPlayer categories renamed

/-- What a zone entry must find: the player is sent in full, and the spawn under its new id is
gone; a known spawn takes the record without being sent.
-/
def EntryAgrees (x : CategorySession) (d : SpawnStruct) : Prop :=
  let id := d.spawnId.toUInt16
  let player := x.shell.player
  if d.name = player.realName then
    ∀ key t, (player.id = id ∨ key ≠ id.toNat) → x.shell.spawns.find? key = some t →
      t.id = id → t.membership categories = (player.update d).shown.membership categories
  else
    match x.shell.spawns.find? d.spawnId.toNat with
    | some s => (s.update d).membership categories = s.membership categories
    | none => x.NewAgrees categories d

/-- What an operation must find for the client to stay current. -/
def KeepsMembership (x : CategorySession) : IdentityOp → Prop
  | .newSpawn d => x.NewAgrees categories d
  | .newSpawnPacket d => x.shell.isZoning = false → x.NewAgrees categories d
  | .zoneEntry d => x.EntryAgrees categories d
  | .upsertSpawn id r =>
      id ≠ x.shell.player.id →
        x.AgreesElsewhere categories id.toNat (x.shell.upserted id r)
  | .playerUpdate id m => x.shell.isZoning = false → x.MovementAgrees categories id m
  | .npcMoveUpdate id m => x.shell.isZoning = false → x.MovementAgrees categories id m
  | .updateSpawnIdentity id level classVal =>
      ∀ s, x.shell.spawns.find? id.toNat = some s →
        x.AgreesElsewhere categories id.toNat
          { s with level := level.toUInt32.toInt32, classVal }
  | .renameSpawn walk oldName newName => x.RenameAgrees categories walk oldName newName
  | .illusionSpawn id race gender =>
      ∀ s, x.shell.spawns.find? id.toNat = some s →
        x.AgreesElsewhere categories id.toNat { s with gender, race := race.toUInt16 }
  | .shroudSpawn spawnID d profile =>
      if spawnID ≠ x.shell.player.id.toUInt32 then x.NewAgrees categories d
      else
        x.AgreesPlayer categories
          ((x.shell.player.loadProfile profile).updateFlags x.shell.filterMgr)
  | .updateSpawnAppearance id kind parameter =>
      kind = 1 → parameter ≠ 0 → ∀ s, x.shell.spawns.find? id.toNat = some s →
        Spawn.membership categories { s with level := parameter.toInt32 }
          = s.membership categories
  | .killSpawn id _ =>
      id ≠ x.shell.player.id.toUInt32 → ∀ s, x.shell.spawns.find? id.toNat = some s →
        (SpawnShell.slain x.shell.filterMgr s).membership categories = s.membership categories
  | .corpseLoc id _ _ _ =>
      ∀ s, x.shell.spawns.find? id.toNat = some s →
        s.killSpawn.membership categories = s.membership categories
  | .respawnFromHover =>
      x.AgreesElsewhere categories x.shell.player.id.toNat x.shell.hoverCorpse
  | .subscribe =>
      -- of items with one id the snapshot has them by name, and the player after the spawns
      ∀ key t, x.shell.spawns.find? key = some t → t.id = x.shell.player.id →
        (∀ other u, x.shell.spawns.find? other = some u → u.id = x.shell.player.id →
          ¬ x.shell.player.shown.name < u.name) →
        t.membership categories = x.shell.player.shown.membership categories

end CategorySession
end Scry
