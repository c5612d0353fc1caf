import Scry.Library.Machine
import Scry.SpawnPoints.Places

/-! What is seen of the locations while a monitor runs, and how each operation changes both what
is held and what was seen.
-/

namespace Scry

open SpawnMonitor

-----------------------------------------------------------------------------------------
-- What was seen
-----------------------------------------------------------------------------------------

/-- What was seen of a location since its entry was last cleared or deleted: the record that was
loaded for it, the spawns that popped there, the death of the last of them, and the times from
such a death to the next pop. The spawn that popped last is its occupant until it dies or is
seen to appear elsewhere.
-/
structure Sightings where
  loaded : Option SpawnPointRecord := none
  pops : Nat := 0
  occupant : Option UInt16 := none
  death : Option Int64 := none
  measured : List Int64 := []

namespace Sightings

def pop (s : Sightings) (id : UInt16) (now : Int64) : Sightings :=
  { s with
    pops := s.pops + 1
    occupant := some id
    death := none
    measured :=
      match s.death with
      | some died => (now - died) :: s.measured
      | none => s.measured }

def leave (s : Sightings) (id : UInt16) : Sightings :=
  if s.occupant = some id then { s with occupant := none } else s

def die (s : Sightings) (id : UInt16) (now : Int64) : Sightings :=
  if s.occupant = some id then { s with occupant := none, death := some now } else s

/-- The spawns that were counted, those of the file included. -/
def total (s : Sightings) : Nat := ((s.loaded.map (·.count.toNat)).getD 0) + s.pops

end Sightings

/-- The records that a new zone begins with, where the operation is the beginning of one. -/
def SpawnMonitorOp.entered (op : SpawnMonitorOp) (m : SpawnMonitor) : Option (List SpawnPointRecord) :=
  match op with
  | .zoneChanged newZoneName _ found _ =>
      if m.zoneName ≠ newZoneName then some (m.records found) else none
  | .zoneEnd toLower newZoneName _ found _ =>
      if m.zoneName ≠ toLower newZoneName then some (m.records found) else none
  | .clear => some []
  | _ => none

/-- What is seen of a location when an operation happens. -/
def Sightings.next (s : Sightings) (op : SpawnMonitorOp) (m : SpawnMonitor) (L : EQPoint)
    : Sightings :=
  match op.entered m with
  | some rs => { loaded := rs.find? (·.loc = L) }
  | none =>
      match op with
      | .newSpawn item now =>
          if ¬ item.tSpawn then s
          else if item.qualifies ∧ L = item.loc then s.pop item.id now
          else s.leave item.id
      | .killSpawn id _ now => s.die id now
      | .deleteSpawnPoint loc => if L = loc then { occupant := s.occupant } else s
      | _ => s

/-- A monitor and what was seen of each location. -/
structure Watched where
  monitor : SpawnMonitor
  seen : EQPoint → Sightings

namespace Watched

variable {w : Watched} {L : EQPoint} {sp : SpawnPoint}

def start (persist : Bool) : Watched := ⟨fresh persist, fun _ => {}⟩

def step (op : SpawnMonitorOp) (w : Watched) : Watched :=
  ⟨op.run w.monitor, fun L => (w.seen L).next op w.monitor L⟩

theorem seen_step (op : SpawnMonitorOp) (w : Watched) (L : EQPoint)
    : (step op w).seen L = (w.seen L).next op w.monitor L := rfl

-----------------------------------------------------------------------------------------
-- The places after an operation
-----------------------------------------------------------------------------------------

/-- How an operation changes what is held and what was seen at the locations. -/
inductive Changes (w : Watched)
    : SpawnMonitorOp → (EQPoint → Place) → (EQPoint → Sightings) → Prop
  | pop {item now} (counted : item.qualifies = true)
    : Changes w (.newSpawn item now)
        (fun L => if L = item.loc then (w.monitor.place L).pop item now else w.monitor.place L)
        (fun L => if L = item.loc then (w.seen L).pop item.id now else (w.seen L).leave item.id)
  | appear {item now} (spawn : item.tSpawn = true) (uncounted : item.qualifies = false)
    : Changes w (.newSpawn item now) w.monitor.place (fun L => (w.seen L).leave item.id)
  | restart {id rank now} {hit : EQPoint} {sp : SpawnPoint} (has : (w.monitor.place hit).Has sp)
      (claims : sp.lastID = id)
    : Changes w (.killSpawn id rank now)
        (fun L =>
          if L = hit then (w.monitor.place L).map (·.restart now) else w.monitor.place L)
        (fun L => (w.seen L).die id now)
  | miss {id rank now} (unclaimed : ∀ L sp, (w.monitor.place L).Has sp → sp.lastID ≠ id)
    : Changes w (.killSpawn id rank now) w.monitor.place (fun L => (w.seen L).die id now)
  | delete {loc}
    : Changes w (.deleteSpawnPoint loc)
        (fun L => if L = loc then (w.monitor.place L).delete else w.monitor.place L)
        (fun L => if L = loc then { occupant := (w.seen L).occupant } else w.seen L)
  | rename {key name s}
    : Changes w (.renameSpawnPoint key name s)
        (fun L =>
          if L.key = key then
            ⟨(w.monitor.place L).point.map ({ · with name }), (w.monitor.place L).candidate⟩
          else w.monitor.place L)
        w.seen
  | enter {op rs} (now : Int64) (entered : op.entered w.monitor = some rs)
    : Changes w op (fun L => ⟨(rs.find? (·.loc = L)).map (·.point now), none⟩)
        (fun L => { loaded := rs.find? (·.loc = L) })
  | stay {op} : Changes w op w.monitor.place w.seen

theorem Changes.of_eq {op : SpawnMonitorOp} {places places' : EQPoint → Place}
    {seen seen' : EQPoint → Sightings} (changes : Changes w op places seen)
    (samePlaces : ∀ L, places' L = places L) (sameSeen : ∀ L, seen' L = seen L)
    : Changes w op places' seen' := by
  obtain rfl : places' = places := funext samePlaces
  obtain rfl : seen' = seen := funext sameSeen
  exact changes

/-- Entering a zone saves, clears and loads, in whatever order the name is set. -/
theorem place_entered (m : SpawnMonitor) (zoneName : List Char) (s : Saving)
    (found : Option (List Char)) (now : Int64) (L : EQPoint)
    : ({ (m.saveSpawnPoints s).1.clear with zoneName }.loadSpawnPoints found now).place L
      = ⟨((m.records found).find? (·.loc = L)).map (·.point now), none⟩ := by
  obtain ⟨_, saved⟩ := m.saveSpawnPoints_eq s
  rw [saved]
  exact place_loadSpawnPoints { m with zoneName, modified := _ } found now L

theorem wellKept_entered (m : SpawnMonitor) (zoneName : List Char) (s : Saving)
    (found : Option (List Char)) (now : Int64)
    : ({ (m.saveSpawnPoints s).1.clear with zoneName }.loadSpawnPoints found now).WellKept := by
  obtain ⟨_, saved⟩ := m.saveSpawnPoints_eq s
  rw [saved]
  exact wellKept_loadSpawnPoints { m with zoneName, modified := _ } found now

/-- Every operation is one of the changes. -/
theorem changes_step (kept : w.monitor.WellKept) (op : SpawnMonitorOp)
    : Changes w op (step op w).monitor.place (step op w).seen := by
  cases op with
  | newSpawn item now =>
      have places := place_newSpawn w.monitor item now
      by_cases spawn : item.tSpawn = true
      · by_cases counted : item.qualifies = true
        · refine (Changes.pop counted).of_eq ?_ ?_
          · intro L
            simp only [step, SpawnMonitorOp.run, places, counted, true_and]
          · intro L
            simp [seen_step, Sightings.next, SpawnMonitorOp.entered, spawn, counted]
        · refine (Changes.appear spawn (Bool.not_eq_true _ ▸ counted)).of_eq ?_ ?_
          · intro L
            exact (places L).trans (if_neg fun both => counted both.1)
          · intro L
            simp [seen_step, Sightings.next, SpawnMonitorOp.entered, spawn, counted]
      · have same : w.monitor.newSpawn item now = w.monitor := if_neg spawn
        refine Changes.stay.of_eq ?_ ?_
        · intro L
          simp only [step, SpawnMonitorOp.run, same]
        · intro L
          simp [seen_step, Sightings.next, SpawnMonitorOp.entered, spawn]
  | killSpawn id rank now =>
      rcases place_killSpawn kept id rank now with ⟨hit, sp, has, claims, places⟩ | ⟨missed, same⟩
      · exact (Changes.restart has claims).of_eq places fun _ => rfl
      · refine (Changes.miss missed).of_eq ?_ fun _ => rfl
        intro L
        simp only [step, SpawnMonitorOp.run, same]
  | deleteSpawnPoint loc =>
      exact Changes.delete.of_eq (place_deleteSpawnPoint w.monitor loc) fun _ => rfl
  | renameSpawnPoint key name s =>
      exact Changes.rename.of_eq (place_renameSpawnPoint w.monitor key name s) fun _ => rfl
  | saveSpawnPoints s =>
      exact Changes.stay.of_eq (place_saveSpawnPoints w.monitor s) fun _ => rfl
  | zoneChanged newZoneName s found now =>
      by_cases new : w.monitor.zoneName ≠ newZoneName
      · have entered : (SpawnMonitorOp.zoneChanged newZoneName s found now).entered w.monitor
            = some (w.monitor.records found) := if_pos new
        refine (Changes.enter now entered).of_eq ?_ ?_
        · intro L
          simp only [step, SpawnMonitorOp.run, zoneChanged, if_pos new, place_entered]
        · intro L
          simp only [seen_step, Sightings.next, entered]
      · refine Changes.stay.of_eq ?_ ?_
        · intro L
          simp only [step, SpawnMonitorOp.run, zoneChanged, if_neg new]
        · intro L
          simp only [seen_step, Sightings.next, SpawnMonitorOp.entered, if_neg new]
  | zoneEnd toLower newZoneName s found now =>
      by_cases new : w.monitor.zoneName ≠ toLower newZoneName
      · have entered : (SpawnMonitorOp.zoneEnd toLower newZoneName s found now).entered w.monitor
            = some (w.monitor.records found) := if_pos new
        refine (Changes.enter now entered).of_eq ?_ ?_
        · intro L
          simp only [step, SpawnMonitorOp.run, zoneEnd, if_pos new]
          exact place_entered w.monitor _ s found now L
        · intro L
          simp only [seen_step, Sightings.next, entered]
      · refine Changes.stay.of_eq ?_ ?_
        · intro L
          simp only [step, SpawnMonitorOp.run, zoneEnd, if_neg new]
        · intro L
          simp only [seen_step, Sightings.next, SpawnMonitorOp.entered, if_neg new]
  | clear =>
      have entered : SpawnMonitorOp.clear.entered w.monitor = some [] := rfl
      exact (Changes.enter 0 entered).of_eq (fun _ => rfl) fun _ => rfl

theorem wellKept_step (kept : w.monitor.WellKept) (op : SpawnMonitorOp)
    : (step op w).monitor.WellKept := by
  cases op with
  | newSpawn item now => exact kept.newSpawn item now
  | killSpawn id rank now => exact kept.killSpawn id rank now
  | deleteSpawnPoint loc => exact kept.deleteSpawnPoint loc
  | renameSpawnPoint key name s => exact kept.renameSpawnPoint key name s
  | saveSpawnPoints s => exact kept.saveSpawnPoints s
  | zoneChanged newZoneName s found now =>
      simp only [step, SpawnMonitorOp.run, zoneChanged]
      split_ifs
      · exact wellKept_entered w.monitor newZoneName s found now
      · exact kept
  | zoneEnd toLower newZoneName s found now =>
      simp only [step, SpawnMonitorOp.run, zoneEnd]
      split_ifs
      · exact wellKept_entered w.monitor _ s found now
      · exact kept
  | clear => exact ⟨ownKeys_empty, ownKeys_empty, fun _ member => by cases member⟩

end Watched

end Scry
