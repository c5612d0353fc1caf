import Scry.SpawnPoints.LastIds

/-! Respawn times: the time from a death to the next pop, as long as nothing pops first at a point
that was loaded with a respawn time, where the time of zoning in counts as a death.
-/

namespace Scry

open SpawnMonitor

variable {w : Watched} {L : EQPoint} {sp : SpawnPoint}

-----------------------------------------------------------------------------------------
-- Respawn times
-----------------------------------------------------------------------------------------

/-- Nothing has popped at the location since a respawn time was loaded for it. -/
def Sightings.Seeded (s : Sightings) : Prop := s.pops = 0 ∧ ∃ r ∈ s.loaded, 0 < r.diffTime

instance (s : Sightings) : Decidable s.Seeded :=
  inferInstanceAs (Decidable (s.pops = 0 ∧ ∃ r ∈ s.loaded, 0 < r.diffTime))

/-- A respawn time that was loaded or measured. -/
def Sightings.Knows (s : Sightings) (diffTime : Int64) : Prop :=
  diffTime = 0 ∨ (∃ r ∈ s.loaded, diffTime = r.diffTime.toInt64) ∨ diffTime ∈ s.measured

instance (s : Sightings) (diffTime : Int64) : Decidable (s.Knows diffTime) :=
  inferInstanceAs (Decidable (_ ∨ (∃ r ∈ s.loaded, _) ∨ _))

namespace Watched

/-- No respawn time is invented. -/
def Measured (w : Watched) : Prop :=
  ∀ L sp, (w.monitor.place L).Has sp → (w.seen L).Knows sp.diffTime

/-- A pop takes no other time for a death than that of the spawn which popped there before. -/
def MeasuresDeaths (w : Watched) : SpawnMonitorOp → Prop
  | .newSpawn item _ =>
      item.qualifies → ∀ sp, (w.monitor.place item.loc).Has sp → sp.deathTime ≠ 0 →
        (w.seen item.loc).death = some sp.deathTime
  | _ => True

/-- A spawn does not appear with an id that is remembered elsewhere, nor pop where the time of
zoning in stands for a death, and what dies has an id.
-/
def Observes (w : Watched) (op : SpawnMonitorOp) : Prop :=
  w.Unclaimed op
    ∧ match op with
      | .newSpawn item _ => item.qualifies → ¬ (w.seen item.loc).Seeded
      | .killSpawn id .. => id ≠ 0
      | _ => True

instance (w : Watched) (op : SpawnMonitorOp) : Decidable (w.Observes op) :=
  match op with
  | .newSpawn item _ =>
      inferInstanceAs (Decidable (_ ∧ (item.qualifies → ¬ (w.seen item.loc).Seeded)))
  | .killSpawn id .. => inferInstanceAs (Decidable (_ ∧ id ≠ 0))
  | .deleteSpawnPoint _ => inferInstanceAs (Decidable (_ ∧ True))
  | .renameSpawnPoint .. => inferInstanceAs (Decidable (_ ∧ True))
  | .saveSpawnPoints _ => inferInstanceAs (Decidable (_ ∧ True))
  | .zoneChanged .. => inferInstanceAs (Decidable (_ ∧ True))
  | .zoneEnd .. => inferInstanceAs (Decidable (_ ∧ True))
  | .clear => inferInstanceAs (Decidable (_ ∧ True))

-----------------------------------------------------------------------------------------
-- One operation
-----------------------------------------------------------------------------------------

/-- The times of what is held at a location are those that were seen, but for a time of death that
is the time of zoning in.
-/
structure Timed (s : Sightings) (sp : SpawnPoint) : Prop where
  knows : s.Knows sp.diffTime
  death : sp.deathTime ≠ 0 → s.Seeded ∨ s.death = some sp.deathTime

theorem Timed.leave {s : Sightings} (timed : Timed s sp) (id : UInt16)
    : Timed (s.leave id) sp := by
  rw [Sightings.leave]
  split_ifs
  · exact ⟨timed.knows, timed.death⟩
  · exact timed

/-- A pop measures the time from the death that was seen. -/
theorem Timed.pop {s : Sightings} (timed : Timed s sp) (unseeded : ¬ s.Seeded)
    (item : MonitoredItem) (now : Int64)
    : Timed (s.pop item.id now) (sp.update item now) := by
  refine ⟨?_, fun died => absurd rfl died⟩
  by_cases alive : sp.deathTime = 0
  · have same : (sp.update item now).diffTime = sp.diffTime := if_neg (not_not.mpr alive)
    rw [same]
    rcases timed.knows with zero | loaded | measured
    · exact .inl zero
    · exact .inr (.inl loaded)
    · refine .inr (.inr ?_)
      simp only [Sightings.pop]
      split
      · exact List.mem_cons_of_mem _ measured
      · exact measured
  · have diff : (sp.update item now).diffTime = now - sp.deathTime := if_pos alive
    have death : s.death = some sp.deathTime := (timed.death alive).resolve_left unseeded
    rw [diff]
    refine .inr (.inr ?_)
    simp only [Sightings.pop, death]
    exact List.mem_cons_self

theorem timed_create (s : Sightings) (item : MonitoredItem) (now : Int64)
    : Timed s (.create now item.id item.loc [] 0 1) :=
  ⟨.inl rfl, fun died => absurd rfl died⟩

theorem timed_point (r : SpawnPointRecord) (now : Int64)
    : Timed { loaded := some r } (r.point now) := by
  rw [SpawnPointRecord.point]
  split_ifs with timer
  · exact ⟨.inr (.inl ⟨r, rfl, rfl⟩), fun _ => .inl ⟨rfl, r, rfl, timer⟩⟩
  · exact ⟨.inr (.inl ⟨r, rfl, rfl⟩), fun died => absurd rfl died⟩

/-- The death of a spawn is seen where it is remembered. -/
theorem Timed.restart {s : Sightings} (timed : Timed s sp) {id : UInt16} (now : Int64)
    (occupant : s.occupant = some id)
    : Timed (s.die id now) (sp.restart now) := by
  rw [Sightings.die, if_pos occupant]
  exact ⟨timed.knows, fun _ => .inr rfl⟩

/-- An operation that observes keeps the times those that were seen. -/
theorem timed_change {op : SpawnMonitorOp} {places : EQPoint → Place} {seen : EQPoint → Sightings}
    (kept : w.monitor.WellKept) (remembers : Remembers w.monitor.place w.seen)
    (timed : ∀ L sp, (w.monitor.place L).Has sp → Timed (w.seen L) sp)
    (changes : Changes w op places seen) (observes : w.Observes op)
    : ∀ L sp, (places L).Has sp → Timed (seen L) sp := by
  intro L sp has
  cases changes with
  | @pop item now counted =>
      dsimp only at has ⊢
      split_ifs at has ⊢ with here
      · subst here
        rcases Place.has_pop kept.alone has with ⟨old, held, rfl⟩ | rfl
        · exact (timed _ old held).pop (observes.2 counted) item now
        · exact timed_create _ item now
      · exact (timed L sp has).leave _
  | appear => exact (timed L sp has).leave _
  | @restart id rank now hit restarted hitHas claims =>
      have occupant : (w.seen hit).occupant = some id :=
        claims ▸ remembers.occupied hit restarted hitHas (claims ▸ observes.2)
      dsimp only at has ⊢
      split_ifs at has with here
      · obtain ⟨old, held, rfl⟩ := Place.has_map has
        subst here
        exact (timed _ old held).restart now occupant
      · rw [Sightings.die, if_neg]
        · exact timed L sp has
        · intro there
          exact here (remembers.one L hit id there occupant)
  | @miss id rank now unclaimed =>
      dsimp only
      rw [Sightings.die, if_neg]
      · exact timed L sp has
      · intro there
        exact unclaimed L sp has ((remembers.remembered L id there).2 sp has)
  | @delete loc =>
      dsimp only at has ⊢
      split_ifs at has ⊢ with here
      · rw [Place.delete_eq_none kept.alone] at has
        rcases has with held | held
        · cases held
        · cases held
      · exact timed L sp has
  | rename =>
      dsimp only at has
      split_ifs at has
      · rcases has with point | candidate
        · obtain ⟨old, found, rfl⟩ := Option.map_eq_some_iff.mp point
          have before := timed L old (.inl found)
          exact ⟨before.knows, before.death⟩
        · exact timed L sp (.inr candidate)
      · exact timed L sp has
  | enter =>
      rcases has with point | candidate
      · obtain ⟨r, found, rfl⟩ := Option.map_eq_some_iff.mp point
        dsimp only
        rw [found]
        exact timed_point r _
      · cases candidate
  | stay => exact timed L sp has

-----------------------------------------------------------------------------------------
-- Runs
-----------------------------------------------------------------------------------------

/-- What holds of a monitor while its operations observe. -/
structure Observed (w : Watched) : Prop where
  kept : w.monitor.WellKept
  remembers : Remembers w.monitor.place w.seen
  timed : ∀ L sp, (w.monitor.place L).Has sp → Timed (w.seen L) sp

theorem observed_start (persist : Bool) : (start persist).Observed where
  kept := (tallied_start persist).kept
  remembers := remembers_start persist
  timed := by
    rintro L sp (point | candidate)
    · cases point
    · cases candidate

theorem Observed.step {op : SpawnMonitorOp} (observed : w.Observed) (observes : w.Observes op)
    : (step op w).Observed where
  kept := wellKept_step observed.kept op
  remembers := observed.remembers.change observed.kept (changes_step observed.kept op) observes.1
  timed := timed_change observed.kept observed.remembers observed.timed
    (changes_step observed.kept op) observes

theorem Observed.measuresDeaths {op : SpawnMonitorOp} (observed : w.Observed)
    (observes : w.Observes op)
    : w.MeasuresDeaths op := by
  cases op with
  | newSpawn item now =>
      intro counted sp held died
      exact ((observed.timed _ sp held).death died).resolve_left (observes.2 counted)
  | killSpawn id rank now => trivial
  | deleteSpawnPoint loc => trivial
  | renameSpawnPoint key name s => trivial
  | saveSpawnPoints s => trivial
  | zoneChanged newZoneName s found now => trivial
  | zoneEnd toLower newZoneName s found now => trivial
  | clear => trivial

/-- In a run whose operations observe, every respawn time is none, loaded, or measured from a
death that was seen, and no pop takes another time for a death.
-/
theorem measured_of_observes {persist : Bool} {ops : List SpawnMonitorOp}
    (permits : Machine.Permits step Observes (start persist) ops)
    : Machine.Always step Measured (start persist) ops
      ∧ Machine.Permits step MeasuresDeaths (start persist) ops := by
  constructor
  · have always : Machine.Always step Observed (start persist) ops :=
      Machine.always_of_permits (observed_start persist) (fun _ _ => Observed.step) permits
    exact always.mono fun w observed L sp held => (observed.timed L sp held).knows
  · exact permits.mono_of_invariant (observed_start persist) (fun _ _ => Observed.step)
      fun _ _ => Observed.measuresDeaths

/-- A mob that pops, dies and pops again after five minutes. -/
theorem measured_rat
    : Machine.Always step Measured (start true)
        [.newSpawn (rat 5) 1000, .killSpawn 5 (fun _ => 0) 1100, .newSpawn (rat 6) 1400]
      ∧ Machine.Permits step MeasuresDeaths (start true)
        [.newSpawn (rat 5) 1000, .killSpawn 5 (fun _ => 0) 1100, .newSpawn (rat 6) 1400] :=
  measured_of_observes (by decide +kernel)

end Watched

/-- The reading of the clock in an operation. -/
def SpawnMonitorOp.time? : SpawnMonitorOp → Option Int64
  | .newSpawn _ now => some now
  | .killSpawn _ _ now => some now
  | .zoneChanged _ _ _ now => some now
  | .zoneEnd _ _ _ _ now => some now
  | _ => none

namespace Watched

/-- A mob that is there three seconds after zoning in respawns in three seconds. -/
theorem not_measured
    : ¬ ∀ persist ops, (ops.filterMap SpawnMonitorOp.time?).Pairwise (· ≤ ·) →
        Machine.Always step Measured (start persist) ops := by
  intro always
  obtain ⟨_, _, measured⟩ := always true
    [.zoneChanged ['q'] plainSaving (some "0 0 0 300 2 \n".toList) 1000, .newSpawn (rat 7) 1003]
    (by decide)
  have invented : ∃ sp ∈ (Machine.exec step (start true)
      [.zoneChanged ['q'] plainSaving (some "0 0 0 300 2 \n".toList) 1000,
        .newSpawn (rat 7) 1003]).monitor.points.find? (EQPoint.mk 0 0 0).key,
      ¬ ((Machine.exec step (start true)
        [.zoneChanged ['q'] plainSaving (some "0 0 0 300 2 \n".toList) 1000,
          .newSpawn (rat 7) 1003]).seen ⟨0, 0, 0⟩).Knows sp.diffTime := by
    decide +kernel
  obtain ⟨sp, found, unknown⟩ := invented
  exact unknown (measured ⟨0, 0, 0⟩ sp (.inl found))

end Watched

end Scry
