import Scry.Library.Replica
import Scry.SpawnPoints.Sightings

/-! The spawn points that a client holds.
It starts from a snapshot of the points and follows the messages about them. Each operation sends
what it did to the points, with the values they have afterwards.
-/

namespace Scry

-----------------------------------------------------------------------------------------
-- Messages
-----------------------------------------------------------------------------------------

/-- The fields of a point on the wire. -/
structure SpawnPointView where
  key : List Char
  x : Int
  y : Int
  z : Int
  name : List Char
  last : List Char
  lastId : UInt32
  count : UInt32
  spawnTimeS : UInt64
  deathTimeS : UInt64
  diffTimeS : UInt64
  deriving DecidableEq

/-- `fillSpawnPoint`: the screen turns two axes around, and a replay shows no times. -/
def fillSpawnPoint (deterministic : Bool) (sp : SpawnPoint) : SpawnPointView :=
  { key := sp.key
    x := -sp.loc.x.toInt
    y := -sp.loc.y.toInt
    z := sp.loc.z.toInt
    name := sp.name
    last := sp.last
    lastId := sp.lastID.toUInt32
    count := sp.count
    spawnTimeS := if deterministic then 0 else sp.spawnTime.toUInt64
    deathTimeS := if deterministic then 0 else sp.deathTime.toUInt64
    diffTimeS := if deterministic then 0 else sp.diffTime.toUInt64 }

inductive SpawnPointMessage
  | added (point : SpawnPointView)
  | updated (point : SpawnPointView)
  | removed (key : List Char)
  | cleared

/-- What the monitor signals. -/
inductive SpawnPointSignal
  | newSpawnPoint (sp : SpawnPoint)
  | spawnPointUpdated (sp : SpawnPoint)
  | spawnPointDeleted (key : List Char)
  | clearSpawnPoints

/-- `onSpawnPointAdded`, `onSpawnPointUpdated`, `onSpawnPointDeleted` and
`onSpawnPointsCleared`.
-/
def SpawnPointSignal.message (deterministic : Bool) : SpawnPointSignal → SpawnPointMessage
  | .newSpawnPoint sp => .added (fillSpawnPoint deterministic sp)
  | .spawnPointUpdated sp => .updated (fillSpawnPoint deterministic sp)
  | .spawnPointDeleted key => .removed key
  | .clearSpawnPoints => .cleared

/-- The points a client holds. -/
abbrev HeldPoints : Type := OrderedMap (List Char) SpawnPointView

/-- What a client does with a message; only a point it holds is overwritten. -/
def HeldPoints.receive (held : HeldPoints) : SpawnPointMessage → HeldPoints
  | .added point => held.insert point.key point
  | .updated point => if (held.find? point.key).isSome then held.insert point.key point else held
  | .removed key => held.erase key
  | .cleared => .empty

/-- The points of a snapshot, in the order of their keys. -/
def SpawnMonitor.snapshot (deterministic : Bool) (m : SpawnMonitor) : List SpawnPointView :=
  m.points.entries.map fun entry => fillSpawnPoint deterministic entry.2

/-- What a client holds of a snapshot. -/
def HeldPoints.ofSnapshot (points : List SpawnPointView) : HeldPoints :=
  points.foldl (fun held point => held.insert point.key point) .empty

-----------------------------------------------------------------------------------------
-- What each operation signals
-----------------------------------------------------------------------------------------

namespace SpawnMonitor

def checkSpawnPointSignals (m : SpawnMonitor) (spawn : MonitoredItem) (now : Int64)
    : List SpawnPointSignal :=
  if spawn.npc ≠ SPAWN_NPC ∨ spawn.petOwnerID ≠ 0 ∨ spawn.isMount ∨ spawn.isAura
      ∨ spawn.isMercenary then
    []
  else
    let key := spawn.loc.key
    match m.points.find? key with
    | some sp => [.spawnPointUpdated (sp.update spawn now)]
    | none =>
        match m.spawns.find? key with
        | some sp => [.newSpawnPoint (sp.update spawn now)]
        | none => []

def newSpawnSignals (m : SpawnMonitor) (item : MonitoredItem) (now : Int64)
    : List SpawnPointSignal :=
  if item.tSpawn then m.checkSpawnPointSignals item now else []

/-- A candidate is restarted without a signal. -/
def killSpawnSignals (m : SpawnMonitor) (id : UInt16) (rank : List Char → Nat) (now : Int64)
    : List SpawnPointSignal :=
  match (walk rank m.points).find? fun entry => id = entry.2.lastID with
  | some (_, sp) => [.spawnPointUpdated (sp.restart now)]
  | none => []

def renameSpawnPointSignals (m : SpawnMonitor) (key name : List Char) : List SpawnPointSignal :=
  match m.points.find? key with
  | some sp => [.spawnPointUpdated { sp with name }]
  | none => []

/-- The points that the loop of `loadSpawnPoints` inserts. -/
def insertSignals (now : Int64) (points : SpawnPoints)
    : List SpawnPointRecord → List SpawnPointSignal
  | [] => []
  | r :: rest =>
      match points.find? r.loc.key with
      | some _ => insertSignals now points rest
      | none => .newSpawnPoint (r.point now) :: insertSignals now (insertRecord now points r) rest

def loadSpawnPointsSignals (m : SpawnMonitor) (found : Option (List Char)) (now : Int64)
    : List SpawnPointSignal :=
  if ¬ m.persist then []
  else
    match found with
    | none => []
    | some file => insertSignals now m.points (spawnRecords file)

/-- A zone is cleared and loaded. -/
def enterSignals (m : SpawnMonitor) (found : Option (List Char)) (now : Int64)
    : List SpawnPointSignal :=
  .clearSpawnPoints :: m.clear.loadSpawnPointsSignals found now

end SpawnMonitor

def SpawnMonitorOp.signals (op : SpawnMonitorOp) (m : SpawnMonitor) : List SpawnPointSignal :=
  match op with
  | .newSpawn item now => m.newSpawnSignals item now
  | .killSpawn id rank now => m.killSpawnSignals id rank now
  | .deleteSpawnPoint loc => [.spawnPointDeleted loc.key]
  | .renameSpawnPoint key name _ => m.renameSpawnPointSignals key name
  | .saveSpawnPoints _ => []
  | .zoneChanged newZoneName _ found now =>
      if m.zoneName ≠ newZoneName then m.enterSignals found now else []
  | .zoneEnd toLower newZoneName _ found now =>
      if m.zoneName ≠ toLower newZoneName then m.enterSignals found now else []
  | .clear => [.clearSpawnPoints]

/-- The messages of a run. -/
def SpawnMonitor.stream (deterministic : Bool) (m : SpawnMonitor)
    : List SpawnMonitorOp → List SpawnPointMessage
  | [] => []
  | op :: rest =>
      (op.signals m).map (·.message deterministic) ++ stream deterministic (op.run m) rest

-----------------------------------------------------------------------------------------
-- One signal
-----------------------------------------------------------------------------------------

namespace SpawnMonitor

variable {deterministic : Bool} {m : SpawnMonitor} {points : SpawnPoints} {sp : SpawnPoint}

/-- The points as a client would hold them. -/
def views (deterministic : Bool) (points : SpawnPoints) : HeldPoints :=
  points.mapValues (fillSpawnPoint deterministic)

theorem receive_new {key : List Char} (own : sp.key = key)
    : (views deterministic points).receive
        (SpawnPointSignal.message deterministic (.newSpawnPoint sp))
      = views deterministic (points.insert key sp) := by
  subst own
  exact (OrderedMap.mapValues_insert _ _ _ _).symm

/-- A point that is there is overwritten. -/
theorem receive_updated {key : List Char} (own : sp.key = key) {old : SpawnPoint}
    (there : points.find? key = some old)
    : (views deterministic points).receive
        (SpawnPointSignal.message deterministic (.spawnPointUpdated sp))
      = views deterministic (points.insert key sp) := by
  subst own
  have holds : ((views deterministic points).find? (fillSpawnPoint deterministic sp).key).isSome := by
    change ((views deterministic points).find? sp.key).isSome
    rw [views, OrderedMap.find?_mapValues, there]
    rfl
  refine (if_pos holds).trans ?_
  exact (OrderedMap.mapValues_insert _ _ _ _).symm

theorem receive_deleted (key : List Char)
    : (views deterministic points).receive
        (SpawnPointSignal.message deterministic (.spawnPointDeleted key))
      = views deterministic (points.erase key) :=
  (OrderedMap.mapValues_erase _ _ _).symm

theorem ofSnapshot_snapshot (own : OwnKeys m.points)
    : HeldPoints.ofSnapshot (m.snapshot deterministic) = views deterministic m.points := by
  rw [views, ← Replica.putAll_entries, HeldPoints.ofSnapshot, snapshot, List.foldl_map,
    Replica.putAll]
  apply List.foldl_ext
  intro held entry member
  have same : entry.2.key = entry.1 := own _ _ (OrderedMap.find?_eq_some_iff.mpr member)
  exact congrArg (held.insert · _) same

-----------------------------------------------------------------------------------------
-- One operation
-----------------------------------------------------------------------------------------

/-- A client that received the signals of an operation. -/
def received (deterministic : Bool) (held : HeldPoints) (signals : List SpawnPointSignal)
    : HeldPoints :=
  (signals.map (·.message deterministic)).foldl HeldPoints.receive held

theorem received_newSpawn (kept : m.WellKept) (item : MonitoredItem) (now : Int64)
    : received deterministic (views deterministic m.points) (m.newSpawnSignals item now)
      = views deterministic (m.newSpawn item now).points := by
  rw [newSpawnSignals, newSpawn]
  split_ifs with spawn
  · rw [checkSpawnPointSignals, checkSpawnPoint]
    split_ifs with ignored
    · rfl
    · dsimp only
      cases point : m.points.find? item.loc.key with
      | some sp =>
          have own : (sp.update item now).key = item.loc.key := kept.points _ sp point
          exact receive_updated own point
      | none =>
          cases candidate : m.spawns.find? item.loc.key with
          | some sp =>
              have own : (sp.update item now).key = item.loc.key := kept.spawns _ sp candidate
              exact receive_new own
          | none => rfl
  · rfl

theorem received_killSpawn (kept : m.WellKept) (id : UInt16) (rank : List Char → Nat)
    (now : Int64)
    : received deterministic (views deterministic m.points) (m.killSpawnSignals id rank now)
      = views deterministic (m.killSpawn id rank now).points := by
  rw [killSpawnSignals, killSpawn]
  cases found : (walk rank m.points).find? fun entry => id = entry.2.lastID with
  | some entry =>
      have there : m.points.find? entry.1 = some entry.2 :=
        mem_walk.mp (List.mem_of_find?_eq_some found)
      have own : (entry.2.restart now).key = entry.1 := kept.points _ entry.2 there
      exact receive_updated own there
  | none =>
      dsimp only
      cases (walk rank m.spawns).find? fun entry => id = entry.2.lastID <;> rfl

theorem received_deleteSpawnPoint (loc : EQPoint)
    : received deterministic (views deterministic m.points) [.spawnPointDeleted loc.key]
      = views deterministic (m.deleteSpawnPoint loc).points := by
  refine (receive_deleted loc.key).trans ?_
  rw [deleteSpawnPoint]
  cases there : m.points.find? loc.key with
  | some sp => rfl
  | none => rw [OrderedMap.erase_of_find?_eq_none there]

theorem received_renameSpawnPoint (kept : m.WellKept) (key name : List Char) (s : Saving)
    : received deterministic (views deterministic m.points) (m.renameSpawnPointSignals key name)
      = views deterministic (m.renameSpawnPoint key name s).points := by
  rw [renameSpawnPointSignals, renameSpawnPoint]
  cases there : m.points.find? key with
  | some sp =>
      let renamed : SpawnPoint := { sp with name }
      have own : renamed.key = key := kept.points _ sp there
      have saved : ((m.setName key sp name).saveSpawnPoints s).1.points
          = m.points.insert key renamed := by
        obtain ⟨modified, same⟩ := saveSpawnPoints_eq (m.setName key sp name) s
        rw [same]
        rfl
      exact (receive_updated own there).trans (congrArg _ saved.symm)
  | none => rfl

/-- Loading sends each point it inserts, by induction on the records. -/
theorem received_insertRecords (now : Int64) (rs : List SpawnPointRecord) (points : SpawnPoints)
    : received deterministic (views deterministic points) (insertSignals now points rs)
      = views deterministic (rs.foldl (insertRecord now) points) := by
  induction rs generalizing points with
  | nil => rfl
  | cons r rest ih =>
      rw [insertSignals, List.foldl_cons]
      cases there : points.find? r.loc.key with
      | some sp =>
          have skipped : insertRecord now points r = points := by rw [insertRecord, there]
          rw [skipped]
          exact ih points
      | none =>
          have inserted : insertRecord now points r = points.insert r.loc.key (r.point now) := by
            rw [insertRecord, there]
          have own : (r.point now).key = r.loc.key := by
            simp only [SpawnPointRecord.point]
            split_ifs <;> rfl
          rw [inserted, ← ih]
          change received deterministic ((views deterministic points).receive _) _ = _
          rw [receive_new own]

/-- Loading inserts the records that are taken from the file. -/
theorem points_loadSpawnPoints (m : SpawnMonitor) (found : Option (List Char)) (now : Int64)
    : (m.loadSpawnPoints found now).points = (m.records found).foldl (insertRecord now) m.points := by
  cases persist : m.persist with
  | false => simp [loadSpawnPoints, records, persist]
  | true =>
      cases found with
      | none => simp [loadSpawnPoints, records, persist]
      | some file => simp [loadSpawnPoints, records, persist]

theorem loadSpawnPointsSignals_eq (m : SpawnMonitor) (found : Option (List Char)) (now : Int64)
    : m.loadSpawnPointsSignals found now = insertSignals now m.points (m.records found) := by
  cases persist : m.persist with
  | false => simp [loadSpawnPointsSignals, records, persist, insertSignals]
  | true =>
      cases found with
      | none => simp [loadSpawnPointsSignals, records, persist, insertSignals]
      | some file => simp [loadSpawnPointsSignals, records, persist]

/-- Entering a zone empties the client before the points of the file come. -/
theorem received_enter (m : SpawnMonitor) (zoneName : List Char) (s : Saving)
    (found : Option (List Char)) (now : Int64) (held : HeldPoints)
    : received deterministic held (m.enterSignals found now)
      = views deterministic
          ({ (m.saveSpawnPoints s).1.clear with zoneName }.loadSpawnPoints found now).points := by
  obtain ⟨_, saved⟩ := m.saveSpawnPoints_eq s
  rw [saved, points_loadSpawnPoints, enterSignals, loadSpawnPointsSignals_eq]
  exact received_insertRecords now (m.records found) .empty

/-- An operation sends what it does to the points. -/
theorem received_run (kept : m.WellKept) (op : SpawnMonitorOp)
    : received deterministic (views deterministic m.points) (op.signals m)
      = views deterministic (op.run m).points := by
  cases op with
  | newSpawn item now => exact received_newSpawn kept item now
  | killSpawn id rank now => exact received_killSpawn kept id rank now
  | deleteSpawnPoint loc => exact received_deleteSpawnPoint loc
  | renameSpawnPoint key name s => exact received_renameSpawnPoint kept key name s
  | saveSpawnPoints s =>
      obtain ⟨_, saved⟩ := m.saveSpawnPoints_eq s
      simp only [SpawnMonitorOp.run, saved]
      rfl
  | zoneChanged newZoneName s found now =>
      simp only [SpawnMonitorOp.signals, SpawnMonitorOp.run, zoneChanged]
      split_ifs
      · exact received_enter m newZoneName s found now _
      · rfl
  | zoneEnd toLower newZoneName s found now =>
      simp only [SpawnMonitorOp.signals, SpawnMonitorOp.run, zoneEnd]
      split_ifs
      · exact received_enter m (toLower newZoneName) s found now _
      · rfl
  | clear => rfl

/-- An operation keeps everything under its own key. -/
theorem wellKept_run (op : SpawnMonitorOp) (m : SpawnMonitor) (kept : m.WellKept)
    : (op.run m).WellKept :=
  Watched.wellKept_step (w := ⟨m, fun _ => {}⟩) kept op

/-- Following a run, by induction on its operations. -/
theorem foldl_stream (kept : m.WellKept) (ops : List SpawnMonitorOp)
    : (m.stream deterministic ops).foldl HeldPoints.receive (views deterministic m.points)
      = views deterministic (Machine.exec SpawnMonitorOp.run m ops).points := by
  induction ops generalizing m with
  | nil => rfl
  | cons op rest ih =>
      have sent
          : received deterministic (views deterministic m.points) (op.signals m)
            = views deterministic (op.run m).points :=
        received_run kept op
      rw [received] at sent
      rw [stream, List.foldl_append, sent, ih (wellKept_run op m kept)]
      rfl

theorem wellKept_exec (persist : Bool) (ops : List SpawnMonitorOp)
    : (Machine.exec SpawnMonitorOp.run (fresh persist) ops).WellKept :=
  Machine.exec_invariant (wellKept_of ownKeys_empty ownKeys_empty fun _ _ _ => rfl)
    (fun m op kept => wellKept_run op m kept) ops

/-- A client that subscribes at any time and follows the messages holds what a snapshot taken now
contains.
-/
theorem stream_agrees (deterministic persist : Bool) (before after : List SpawnMonitorOp)
    : let subscribed := Machine.exec SpawnMonitorOp.run (fresh persist) before
      let m := Machine.exec SpawnMonitorOp.run subscribed after
      (subscribed.stream deterministic after).foldl HeldPoints.receive
          (.ofSnapshot (subscribed.snapshot deterministic))
        = .ofSnapshot (m.snapshot deterministic) := by
  intro subscribed m
  have kept : subscribed.WellKept := wellKept_exec persist before
  have now : m.WellKept :=
    Machine.exec_invariant kept (fun m op kept => wellKept_run op m kept) after
  rw [ofSnapshot_snapshot kept.points, ofSnapshot_snapshot now.points, foldl_stream kept]

end SpawnMonitor

end Scry
