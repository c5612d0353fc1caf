import Scry.Library.Machine
import Scry.Spawns.Encoder

/-! One box's zone and one session's view of it: the shell, the zone manager's name for the
zone, and the client at the other end, which folds whatever it receives.
-/

namespace Scry

/-- What runs on the spawn shell: its operations on decoded packets, the player's on their own
spawn, and the signals of the filters and guilds.
-/
inductive ShellOp
  | newSpawn (d : SpawnStruct)
  | newSpawnPacket (d : SpawnStruct)
  | zoneEntry (d : SpawnStruct)
  | upsertSpawn (id : UInt16) (r : SpawnRecord)
  | moveSpawn (id : UInt16) (x y z : Int16)
  | playerUpdate (id : UInt16) (m : Movement)
  | npcMoveUpdate (id : UInt16) (m : Movement)
  | updateSpawnAnimation (id : UInt16) (animation : UInt8)
  | updateSpawnHP (id : UInt16) (curHp maxHp : Int32)
  | updateNpcHP (id : UInt16) (curHp maxHp : Int32)
  | updateSpawnInfo (id subcommand : UInt16) (arg1 : Int32)
  | updateMobHealth (id : UInt16) (hpPercent : Int32)
  | setVitals (v : Vitals)
  | updatePlayerHP (id : UInt16) (curHp maxHp : Int32)
  | updatePlayerInfo (id subcommand : UInt16) (arg1 : Int32)
  | updateSpawnIdentity (id : UInt16) (level classVal : UInt8)
  | updateSpawnLock (id type value : UInt32)
  | renameSpawn (walk : List Nat) (oldName newName : String)
  | illusionSpawn (id race : UInt32) (gender : UInt8)
  | shroudSpawn (spawnID : UInt32) (d : SpawnStruct) (profile : PlayerProfile)
  | updateSpawnAppearance (id kind parameter : UInt32)
  | spawnWearingUpdate (id : UInt16)
  | removeSpawn (id : UInt32)
  | deleteSpawn (id : UInt32)
  | killSpawn (id killerId : UInt32)
  | respawnFromHover
  | corpseLoc (id : UInt32) (x y z : Int16)
  | newGroundItem (d : MakeDropStruct)
  | removeGroundItem (dropId : UInt32)
  | newDoorSpawn (d : DoorStruct)
  | clear
  | boxCreated
  | setPlayerID (id : UInt16)
  | guildTagUpdated (guildId : UInt32) (guildIdToName : UInt16 → UInt16 → String)
  | filtersChanged (filterMask : FilterString → UInt8 → UInt32)
  | runtimeFiltersChanged (runtimeFilterMask : FilterString → UInt8 → UInt32)

/-- What `DaemonApp::onBoxCreated` does with the managers that a later box takes on: the shell is
cleared, and the player loses its id without a signal.
-/
def SpawnShell.boxCreated (sh : SpawnShell) : SpawnShell × List SpawnSignal :=
  ({ sh.clear.1 with player := sh.clear.1.player.setID 0 }, sh.clear.2)

/-- Filter rules that changed, and the slot that runs on it. -/
def SpawnShell.filtersChanged (sh : SpawnShell) (filterMask : FilterString → UInt8 → UInt32)
    : SpawnShell × List SpawnSignal :=
  { sh with filterMgr := { sh.filterMgr with filterMask } }.refilterSpawns

/-- Runtime filters that changed, and the slot that runs on it. -/
def SpawnShell.runtimeFiltersChanged (sh : SpawnShell)
    (runtimeFilterMask : FilterString → UInt8 → UInt32)
    : SpawnShell × List SpawnSignal :=
  { sh with filterMgr := { sh.filterMgr with runtimeFilterMask } }.refilterSpawnsRuntime

/-- The operation on the shell. -/
def ShellOp.run (sh : SpawnShell) : ShellOp → SpawnShell × List SpawnSignal
  | .newSpawn d => sh.newSpawn d
  | .newSpawnPacket d => sh.newSpawnPacket d
  | .zoneEntry d => sh.zoneEntry d
  | .upsertSpawn id r => sh.upsertSpawn id r
  | .moveSpawn id x y z => sh.moveSpawn id x y z
  | .playerUpdate id m => sh.playerUpdate id m
  | .npcMoveUpdate id m => sh.npcMoveUpdate id m
  | .updateSpawnAnimation id animation => sh.updateSpawnAnimation id animation
  | .updateSpawnHP id curHp maxHp => sh.updateSpawnHP id curHp maxHp
  | .updateNpcHP id curHp maxHp => sh.updateNpcHP id curHp maxHp
  | .updateSpawnInfo id subcommand arg1 => sh.updateSpawnInfo id subcommand arg1
  | .updateMobHealth id hpPercent => sh.updateMobHealth id hpPercent
  | .setVitals v => sh.setVitals v
  | .updatePlayerHP id curHp maxHp => sh.updatePlayerHP id curHp maxHp
  | .updatePlayerInfo id subcommand arg1 => sh.updatePlayerInfo id subcommand arg1
  | .updateSpawnIdentity id level classVal => sh.updateSpawnIdentity id level classVal
  | .updateSpawnLock id type value => sh.updateSpawnLock id type value
  | .renameSpawn walk oldName newName => sh.renameSpawn walk oldName newName
  | .illusionSpawn id race gender => sh.illusionSpawn id race gender
  | .shroudSpawn spawnID d profile => sh.shroudSpawn spawnID d profile
  | .updateSpawnAppearance id kind parameter => sh.updateSpawnAppearance id kind parameter
  | .spawnWearingUpdate id => sh.spawnWearingUpdate id
  | .removeSpawn id => sh.removeSpawn id
  | .deleteSpawn id => sh.deleteSpawn id
  | .killSpawn id killerId => sh.killSpawn id killerId
  | .respawnFromHover => sh.respawnFromHover
  | .corpseLoc id x y z => sh.corpseLoc id x y z
  | .newGroundItem d => sh.newGroundItem d
  | .removeGroundItem dropId => sh.removeGroundItem dropId
  | .newDoorSpawn d => sh.newDoorSpawn d
  | .clear => sh.clear
  | .boxCreated => sh.boxCreated
  | .setPlayerID id => sh.setPlayerID id
  | .guildTagUpdated guildId guildIdToName => { sh with guildIdToName }.updateGuildTag guildId
  | .filtersChanged filterMask => sh.filtersChanged filterMask
  | .runtimeFiltersChanged runtimeFilterMask => sh.runtimeFiltersChanged runtimeFilterMask

/-- The envelopes that a signal brings a session in a zone of the given name. -/
def SpawnSignal.envelopes (zoneShort : String) : SpawnSignal → List ZoneEnvelope
  | .addItem item => [.spawnAdded (fillSpawn item)]
  | .delItem item => [.spawnRemoved item.id]
  | .changeItem item changeType => [onChangeItem item changeType]
  | .killSpawn deceased killerId => [.spawnKilled deceased.id killerId]
  | .statsChanged player => [.playerStats (fillPlayerStats player)]
  | .changedID shell =>
      [snapshotOf shell zoneShort, .playerStats (fillPlayerStats shell.player)]

/-- A signal that brings no snapshot. -/
def SpawnSignal.Plain : SpawnSignal → Prop
  | .changedID _ => False
  | _ => True

/-- A signal that changes no entry of a client. -/
def SpawnSignal.Mute : SpawnSignal → Prop
  | .killSpawn _ _ => True
  | .statsChanged _ => True
  | _ => False

/-- The shell, the zone's name in `ZoneMgr`, the session's own state, and its client. -/
structure ZoneSession where
  shell : SpawnShell
  shortZoneName : String
  subscribed : Bool
  lastSnapshotZone : String
  client : SpawnClient

/-- What happens to a zone and a session. A zone signal brings the masks of the zone's filter
file with it; the zone manager can also take a name, or go in and out of zoning, without one.
-/
inductive ZoneOp
  | shell (op : ShellOp)
  | zoneBegin (shortName : String) (filterMask : FilterString → UInt8 → UInt32)
  | zoneChanged (shortName : String) (filterMask : FilterString → UInt8 → UInt32)
  | zoneResolved (shortName : String) (filterMask : FilterString → UInt8 → UInt32)
  | zoneManager (shortName : String) (isZoning : Bool)
  | subscribe

namespace ZoneSession

/-- A player before any zone entry, under no rules, in a shell that takes unknown spawns. -/
def newcomer : SpawnShell :=
  .fresh
    { base := Spawn.unknown 0 0 0 0 0 0 0 0 0 0
      realName := "Aradune"
      useDefaults := true
      useAutoDetectedSettings := true
      defaultName := "You"
      defaultLastName := ""
      defaultLevel := 1
      defaultRace := 1
      defaultClass := 1
      defaultDeity := 1
      headingDegrees := 360 }
    { filterMask := fun _ _ => 0, runtimeFilterMask := fun _ _ => 0 } (fun _ _ => "") true

/-- Before any packet and any client. -/
def fresh (shell : SpawnShell) : ZoneSession :=
  { shell, shortZoneName := "", subscribed := false, lastSnapshotZone := "", client := .fresh }

/-- An envelope to the client, if there is one. -/
def send (w : ZoneSession) (env : ZoneEnvelope) : ZoneSession :=
  if w.subscribed then { w with client := w.client.receive env } else w

/-- `sendSnapshot`, of the shell as the slot sees it. -/
def sendSnapshot (w : ZoneSession) (shell : SpawnShell) : ZoneSession :=
  { w.send (snapshotOf shell w.shortZoneName) with lastSnapshotZone := w.shortZoneName }

/-- The slot that a signal runs. -/
def slot (w : ZoneSession) : SpawnSignal → ZoneSession
  | .addItem item => w.send (.spawnAdded (fillSpawn item))
  | .delItem item => w.send (.spawnRemoved item.id)
  | .changeItem item changeType => w.send (onChangeItem item changeType)
  | .killSpawn deceased killerId => w.send (.spawnKilled deceased.id killerId)
  | .statsChanged player => w.send (.playerStats (fillPlayerStats player))
  | .changedID shell =>
      if w.subscribed then
        (w.sendSnapshot shell).send (.playerStats (fillPlayerStats shell.player))
      else
        w

/-- An operation of the shell and the slots its signals run. -/
def perform (w : ZoneSession) (result : SpawnShell × List SpawnSignal) : ZoneSession :=
  result.2.foldl slot { w with shell := result.1 }

/-- `onZoneChanged`. -/
def onZoneChanged (w : ZoneSession) (shortName : String) : ZoneSession :=
  let w := w.send (.zoneChanged shortName)
  if w.subscribed ∧ w.shortZoneName ≠ w.lastSnapshotZone then w.sendSnapshot w.shell else w

/-- The zone manager's state without a signal. -/
def enter (w : ZoneSession) (shortZoneName : String) (isZoning : Bool) : ZoneSession :=
  { w with shortZoneName, shell := { w.shell with isZoning } }

/-- `ZoneMgr::zoneBegin` and its slots: the shell's, the filters', the session's. -/
def zoneBegin (w : ZoneSession) (shortName : String)
    (filterMask : FilterString → UInt8 → UInt32)
    : ZoneSession :=
  let w := w.enter shortName false
  let w := w.perform w.shell.clear
  let w := w.perform (w.shell.filtersChanged filterMask)
  w.send (.zoneChanged shortName)

/-- `ZoneMgr::zoneChanged` and its slots: the player's, the shell's, the filters', the
session's.
-/
def zoneChanged (w : ZoneSession) (shortName : String)
    (filterMask : FilterString → UInt8 → UInt32)
    : ZoneSession :=
  let w := w.enter shortName true
  let w := { w with shell := { w.shell with player := w.shell.player.zoneChanged } }
  let w := w.perform w.shell.clear
  let w := w.perform (w.shell.filtersChanged filterMask)
  w.onZoneChanged shortName

/-- `ZoneMgr::zoneResolved` and its slots: the filters' and the session's. -/
def zoneResolved (w : ZoneSession) (shortName : String)
    (filterMask : FilterString → UInt8 → UInt32)
    : ZoneSession :=
  let w := w.enter shortName false
  let w := w.perform (w.shell.filtersChanged filterMask)
  w.onZoneChanged shortName

/-- The first `Subscribe`; a later one is ignored. -/
def subscribe (w : ZoneSession) : ZoneSession :=
  if w.subscribed then w
  else { w with subscribed := true, client := .fresh }.sendSnapshot w.shell

/-- One step of the run. -/
def step : ZoneOp → ZoneSession → ZoneSession
  | .shell op, w => w.perform (op.run w.shell)
  | .zoneBegin shortName filterMask, w => w.zoneBegin shortName filterMask
  | .zoneChanged shortName filterMask, w => w.zoneChanged shortName filterMask
  | .zoneResolved shortName filterMask, w => w.zoneResolved shortName filterMask
  | .zoneManager shortName isZoning, w => w.enter shortName isZoning
  | .subscribe, w => w.subscribe

-----------------------------------------------------------------------------------------
-- What the slots send
-----------------------------------------------------------------------------------------

variable {w : ZoneSession}

@[simp] theorem send_shell (env : ZoneEnvelope) : (w.send env).shell = w.shell := by
  unfold send
  split <;> rfl

@[simp] theorem send_subscribed (env : ZoneEnvelope)
    : (w.send env).subscribed = w.subscribed := by
  unfold send
  split <;> rfl

@[simp] theorem send_shortZoneName (env : ZoneEnvelope)
    : (w.send env).shortZoneName = w.shortZoneName := by
  unfold send
  split <;> rfl

@[simp] theorem send_lastSnapshotZone (env : ZoneEnvelope)
    : (w.send env).lastSnapshotZone = w.lastSnapshotZone := by
  unfold send
  split <;> rfl

theorem send_client (live : w.subscribed = true) (env : ZoneEnvelope)
    : (w.send env).client = w.client.receive env := by
  simp [send, live]

/-- What a slot leaves alone. -/
theorem slot_frame (signal : SpawnSignal)
    : (w.slot signal).shell = w.shell
      ∧ (w.slot signal).subscribed = w.subscribed
      ∧ (w.slot signal).shortZoneName = w.shortZoneName := by
  cases signal with
  | changedID shell =>
      simp only [slot]
      split <;> simp [sendSnapshot]
  | _ => simp [slot]

theorem slot_client (live : w.subscribed = true) (signal : SpawnSignal)
    : (w.slot signal).client = w.client.receiveAll (signal.envelopes w.shortZoneName) := by
  cases signal with
  | changedID shell =>
      simp [slot, live, sendSnapshot, send, SpawnSignal.envelopes, SpawnClient.receiveAll]
  | _ => simp [slot, send_client live, SpawnSignal.envelopes, SpawnClient.receiveAll]

theorem slot_lastSnapshotZone {signal : SpawnSignal} (plain : signal.Plain)
    : (w.slot signal).lastSnapshotZone = w.lastSnapshotZone := by
  cases signal with
  | changedID shell => exact absurd plain id
  | _ => simp [slot]

/-- The slots of several signals, in turn. -/
theorem slots_frame (signals : List SpawnSignal)
    : (signals.foldl slot w).shell = w.shell
      ∧ (signals.foldl slot w).subscribed = w.subscribed
      ∧ (signals.foldl slot w).shortZoneName = w.shortZoneName := by
  induction signals generalizing w with
  | nil => exact ⟨rfl, rfl, rfl⟩
  | cons signal rest ih =>
      obtain ⟨shell, subscribed, zone⟩ := slot_frame (w := w) signal
      obtain ⟨laterShell, laterSubscribed, laterZone⟩ := ih (w := w.slot signal)
      exact ⟨laterShell.trans shell, laterSubscribed.trans subscribed, laterZone.trans zone⟩

theorem slots_client (live : w.subscribed = true) (signals : List SpawnSignal)
    : (signals.foldl slot w).client
      = w.client.receiveAll (signals.flatMap (·.envelopes w.shortZoneName)) := by
  induction signals generalizing w with
  | nil => rfl
  | cons signal rest ih =>
      obtain ⟨_, subscribed, zone⟩ := slot_frame (w := w) signal
      rw [List.foldl_cons, ih (subscribed.trans live), slot_client live, zone,
        List.flatMap_cons]
      simp only [SpawnClient.receiveAll, List.foldl_append]

theorem slots_lastSnapshotZone {signals : List SpawnSignal}
    (plain : ∀ signal ∈ signals, signal.Plain)
    : (signals.foldl slot w).lastSnapshotZone = w.lastSnapshotZone := by
  induction signals generalizing w with
  | nil => rfl
  | cons signal rest ih =>
      obtain ⟨first, later⟩ := List.forall_mem_cons.mp plain
      exact (ih later).trans (slot_lastSnapshotZone first)

variable (result : SpawnShell × List SpawnSignal)

@[simp] theorem perform_shell : (w.perform result).shell = result.1 := (slots_frame _).1

@[simp] theorem perform_subscribed : (w.perform result).subscribed = w.subscribed :=
  (slots_frame _).2.1

@[simp] theorem perform_shortZoneName : (w.perform result).shortZoneName = w.shortZoneName :=
  (slots_frame _).2.2

theorem perform_client (live : w.subscribed = true)
    : (w.perform result).client
      = w.client.receiveAll (result.2.flatMap (·.envelopes w.shortZoneName)) :=
  slots_client (w := { w with shell := result.1 }) live result.2

theorem perform_lastSnapshotZone {result : SpawnShell × List SpawnSignal}
    (plain : ∀ signal ∈ result.2, signal.Plain)
    : (w.perform result).lastSnapshotZone = w.lastSnapshotZone :=
  slots_lastSnapshotZone plain

@[simp] theorem sendSnapshot_shell (sh : SpawnShell) : (w.sendSnapshot sh).shell = w.shell := by
  simp [sendSnapshot]

@[simp] theorem sendSnapshot_subscribed (sh : SpawnShell)
    : (w.sendSnapshot sh).subscribed = w.subscribed := by
  simp [sendSnapshot]

@[simp] theorem onZoneChanged_shell (shortName : String)
    : (w.onZoneChanged shortName).shell = w.shell := by
  unfold onZoneChanged
  simp only
  split <;> simp

@[simp] theorem onZoneChanged_subscribed (shortName : String)
    : (w.onZoneChanged shortName).subscribed = w.subscribed := by
  unfold onZoneChanged
  simp only
  split <;> simp

end ZoneSession
end Scry
