import Scry.SpawnPoints.Bookkeeping

/-! The ids that points and candidates remember: as long as no spawn appears with an id that
another of them still remembers, a death restarts the one where the spawn popped.
-/

namespace Scry

open SpawnMonitor

/-- The points and candidates of a monitor. -/
def SpawnMonitor.held (m : SpawnMonitor) : List SpawnPoint :=
  (m.points.entries ++ m.spawns.entries).map Prod.snd

theorem SpawnMonitor.mem_held {m : SpawnMonitor} {L : EQPoint} {sp : SpawnPoint}
    (has : (m.place L).Has sp)
    : sp ∈ m.held := by
  apply List.mem_map.mpr
  rcases has with point | candidate
  · exact ⟨_, List.mem_append_left _ (OrderedMap.mem_of_find? point), rfl⟩
  · exact ⟨_, List.mem_append_right _ (OrderedMap.mem_of_find? candidate), rfl⟩

namespace Watched

variable {w : Watched} {L L' : EQPoint} {sp sp' : SpawnPoint} {id : UInt16}

/-- A spawn that appears has an id that nothing remembers, but for the place where it pops. -/
def Unclaimed (w : Watched) : SpawnMonitorOp → Prop
  | .newSpawn item _ =>
      item.tSpawn →
        (item.qualifies → item.id ≠ 0)
        ∧ (item.id ≠ 0 →
          ∀ sp ∈ w.monitor.held, sp.lastID = item.id → item.qualifies ∧ sp.loc = item.loc)
  | _ => True

instance (w : Watched) (op : SpawnMonitorOp) : Decidable (w.Unclaimed op) :=
  match op with
  | .newSpawn item _ =>
      inferInstanceAs (Decidable (item.tSpawn →
        (item.qualifies → item.id ≠ 0)
        ∧ (item.id ≠ 0 →
          ∀ sp ∈ w.monitor.held, sp.lastID = item.id → item.qualifies ∧ sp.loc = item.loc)))
  | .killSpawn .. => isTrue trivial
  | .deleteSpawnPoint _ => isTrue trivial
  | .renameSpawnPoint .. => isTrue trivial
  | .saveSpawnPoints _ => isTrue trivial
  | .zoneChanged .. => isTrue trivial
  | .zoneEnd .. => isTrue trivial
  | .clear => isTrue trivial

/-- What a death of the spawn does: it restarts what is held where it popped, and nothing else;
and no two points or candidates remember one id.
-/
structure RightRestarts (w : Watched) : Prop where
  restarts : ∀ L id rank now L', (w.seen L).occupant = some id →
    (w.monitor.killSpawn id rank now).place L'
      = if L' = L then (w.monitor.place L').map (·.restart now) else w.monitor.place L'
  unique : ∀ L L' sp sp', (w.monitor.place L).Has sp → (w.monitor.place L').Has sp' →
    sp.lastID ≠ 0 → sp.lastID = sp'.lastID → L = L' ∧ sp = sp'

/-- What is remembered at a location is the spawn that popped there last. -/
structure Remembers (places : EQPoint → Place) (seen : EQPoint → Sightings) : Prop where
  occupied : ∀ L sp, (places L).Has sp → sp.lastID ≠ 0 → (seen L).occupant = some sp.lastID
  remembered : ∀ L id, (seen L).occupant = some id →
    id ≠ 0 ∧ ∀ sp, (places L).Has sp → sp.lastID = id
  one : ∀ L L' id, (seen L).occupant = some id → (seen L').occupant = some id → L = L'

theorem Remembers.rightRestarts (kept : w.monitor.WellKept)
    (remembers : Remembers w.monitor.place w.seen)
    : w.RightRestarts where
  restarts := by
    intro L id rank now L' occupant
    obtain ⟨real, same⟩ := remembers.remembered L id occupant
    rcases place_killSpawn kept id rank now with
      ⟨hit, sp, has, claims, places⟩ | ⟨missed, unchanged⟩
    · have there := remembers.occupied hit sp has (claims ▸ real)
      obtain rfl : hit = L := remembers.one hit L id (claims ▸ there) occupant
      exact places L'
    · rw [unchanged]
      split_ifs with here
      · have nothing : w.monitor.place L = .none := by
          apply Place.ext
          · cases point : (w.monitor.place L).point with
            | none => rfl
            | some sp => exact absurd (same sp (.inl point)) (missed L sp (.inl point))
          · cases candidate : (w.monitor.place L).candidate with
            | none => rfl
            | some sp => exact absurd (same sp (.inr candidate)) (missed L sp (.inr candidate))
        rw [here, nothing]
        rfl
      · rfl
  unique := by
    intro L L' sp sp' has has' real same
    have here := remembers.occupied L sp has real
    have there := remembers.occupied L' sp' has' (same ▸ real)
    obtain rfl : L = L' := remembers.one L L' _ here (same ▸ there)
    exact ⟨rfl, kept.has_unique has has'⟩

-----------------------------------------------------------------------------------------
-- One operation
-----------------------------------------------------------------------------------------

theorem occupant_leave {s : Sightings} {left : UInt16}
    (occupant : (s.leave left).occupant = some id)
    : s.occupant = some id ∧ id ≠ left := by
  rw [Sightings.leave] at occupant
  split_ifs at occupant with gone
  exact ⟨occupant, fun same => gone (same ▸ occupant)⟩

theorem leave_occupant {s : Sightings} {left : UInt16} (occupant : s.occupant = some id)
    (other : id ≠ left)
    : (s.leave left).occupant = some id := by
  rw [Sightings.leave, if_neg]
  · exact occupant
  · intro gone
    exact other (Option.some.inj (occupant.symm.trans gone))

theorem occupant_die {s : Sightings} {killed : UInt16} {now : Int64}
    (occupant : (s.die killed now).occupant = some id)
    : s.occupant = some id ∧ id ≠ killed := by
  rw [Sightings.die] at occupant
  split_ifs at occupant with gone
  exact ⟨occupant, fun same => gone (same ▸ occupant)⟩

theorem die_occupant {s : Sightings} {killed : UInt16} {now : Int64}
    (occupant : s.occupant = some id) (other : id ≠ killed)
    : (s.die killed now).occupant = some id := by
  rw [Sightings.die, if_neg]
  · exact occupant
  · intro gone
    exact other (Option.some.inj (occupant.symm.trans gone))

/-- An operation under which no remembered id appears elsewhere keeps what is remembered right. -/
theorem Remembers.change {op : SpawnMonitorOp} {places : EQPoint → Place}
    {seen : EQPoint → Sightings} (kept : w.monitor.WellKept)
    (remembers : Remembers w.monitor.place w.seen) (changes : Changes w op places seen)
    (allowed : w.Unclaimed op)
    : Remembers places seen := by
  obtain ⟨occupied, remembered, one⟩ := remembers
  cases changes with
  | @pop item now counted =>
      have spawn : item.tSpawn = true := by
        simp only [MonitoredItem.qualifies, Bool.and_eq_true] at counted
        exact counted.1.1.1.1.1
      obtain ⟨real, unclaimed⟩ := allowed spawn
      have real := real counted
      refine ⟨?_, ?_, ?_⟩
      · intro L sp has remembersId
        split_ifs at has ⊢ with here
        · rcases Place.has_pop kept.alone has with ⟨old, _, rfl⟩ | rfl
          · rfl
          · rfl
        · apply leave_occupant (occupied L sp has remembersId)
          intro same
          have there := (unclaimed real sp (mem_held has) same).2
          exact here ((kept.loc_of_has has).symm.trans there)
      · intro L id occupant
        split_ifs at occupant ⊢ with here
        · obtain rfl : item.id = id := Option.some.inj occupant
          refine ⟨real, ?_⟩
          intro sp has
          rcases Place.has_pop kept.alone has with ⟨old, _, rfl⟩ | rfl
          · rfl
          · rfl
        · exact remembered L id (occupant_leave occupant).1
      · intro L L' id occupant occupant'
        split_ifs at occupant occupant' with here there there
        · exact here.trans there.symm
        · exact absurd (Option.some.inj occupant).symm (occupant_leave occupant').2
        · exact absurd (Option.some.inj occupant').symm (occupant_leave occupant).2
        · exact one L L' id (occupant_leave occupant).1 (occupant_leave occupant').1
  | @appear item now spawn uncounted =>
      refine ⟨?_, ?_, ?_⟩
      · intro L sp has remembersId
        apply leave_occupant (occupied L sp has remembersId)
        intro same
        have counted := ((allowed spawn).2 (same ▸ remembersId) sp (mem_held has) same).1
        rw [uncounted] at counted
        cases counted
      · intro L id occupant
        exact remembered L id (occupant_leave occupant).1
      · intro L L' id occupant occupant'
        exact one L L' id (occupant_leave occupant).1 (occupant_leave occupant').1
  | @restart id rank now hit restarted has claims =>
      refine ⟨?_, ?_, ?_⟩
      · intro L sp held remembersId
        split_ifs at held with here
        · obtain ⟨old, _, rfl⟩ := Place.has_map held
          exact absurd rfl remembersId
        · apply die_occupant (occupied L sp held remembersId)
          intro same
          have there := occupied hit restarted has (by rw [claims, ← same]; exact remembersId)
          rw [claims, ← same] at there
          exact here (one L hit _ (occupied L sp held remembersId) there)
      · intro L other occupant
        obtain ⟨occupant, ne⟩ := occupant_die occupant
        obtain ⟨real, same⟩ := remembered L other occupant
        refine ⟨real, ?_⟩
        intro sp held
        split_ifs at held with here
        · exact absurd ((same restarted (here ▸ has)).symm.trans claims) ne
        · exact same sp held
      · intro L L' other occupant occupant'
        exact one L L' other (occupant_die occupant).1 (occupant_die occupant').1
  | @miss id rank now unclaimed =>
      refine ⟨?_, ?_, ?_⟩
      · intro L sp held remembersId
        exact die_occupant (occupied L sp held remembersId) (unclaimed L sp held)
      · intro L other occupant
        exact remembered L other (occupant_die occupant).1
      · intro L L' other occupant occupant'
        exact one L L' other (occupant_die occupant).1 (occupant_die occupant').1
  | @delete loc =>
      have spared : ∀ L, (if L = loc then ({ occupant := (w.seen L).occupant } : Sightings)
          else w.seen L).occupant = (w.seen L).occupant := by
        intro L
        split_ifs <;> rfl
      have held : ∀ L sp, (if L = loc then (w.monitor.place L).delete
          else w.monitor.place L).Has sp → (w.monitor.place L).Has sp := by
        intro L sp has
        split_ifs at has
        · exact Place.has_delete has
        · exact has
      refine ⟨?_, ?_, ?_⟩
      · intro L sp has remembersId
        rw [spared]
        exact occupied L sp (held L sp has) remembersId
      · intro L id occupant
        rw [spared] at occupant
        obtain ⟨real, same⟩ := remembered L id occupant
        exact ⟨real, fun sp has => same sp (held L sp has)⟩
      · intro L L' id occupant occupant'
        rw [spared] at occupant occupant'
        exact one L L' id occupant occupant'
  | @rename key name s =>
      have renamed : ∀ L sp, (if L.key = key then
            ⟨(w.monitor.place L).point.map ({ · with name }), (w.monitor.place L).candidate⟩
          else w.monitor.place L : Place).Has sp →
          ∃ old, (w.monitor.place L).Has old ∧ old.lastID = sp.lastID := by
        intro L sp has
        split_ifs at has
        · rcases has with point | candidate
          · obtain ⟨old, found, rfl⟩ := Option.map_eq_some_iff.mp point
            exact ⟨old, .inl found, rfl⟩
          · exact ⟨sp, .inr candidate, rfl⟩
        · exact ⟨sp, has, rfl⟩
      refine ⟨?_, ?_, one⟩
      · intro L sp has remembersId
        obtain ⟨old, held, same⟩ := renamed L sp has
        rw [← same]
        exact occupied L old held (same ▸ remembersId)
      · intro L id occupant
        obtain ⟨real, claimed⟩ := remembered L id occupant
        refine ⟨real, ?_⟩
        intro sp has
        obtain ⟨old, held, same⟩ := renamed L sp has
        exact same.symm.trans (claimed old held)
  | @enter op rs now entered =>
      refine ⟨?_, ?_, ?_⟩
      · rintro L sp (point | candidate) remembersId
        · obtain ⟨r, _, rfl⟩ := Option.map_eq_some_iff.mp point
          apply absurd _ remembersId
          rw [SpawnPointRecord.point]
          split_ifs <;> rfl
        · cases candidate
      · intro L id occupant
        cases occupant
      · intro L L' id occupant
        cases occupant
  | stay => exact ⟨occupied, remembered, one⟩

-----------------------------------------------------------------------------------------
-- Runs
-----------------------------------------------------------------------------------------

theorem remembers_start (persist : Bool)
    : Remembers (start persist).monitor.place (start persist).seen := by
  refine ⟨?_, ?_, ?_⟩
  · rintro L sp (point | candidate)
    · cases point
    · cases candidate
  · intro L id occupant
    cases occupant
  · intro L L' id occupant
    cases occupant

/-- In a run where spawns appear with ids that nothing else remembers, in every state, a death
restarts what is held where the spawn popped, and an id is remembered once.
-/
theorem rightRestarts_of_unclaimed {persist : Bool} {ops : List SpawnMonitorOp}
    (permits : Machine.Permits step Unclaimed (start persist) ops)
    : Machine.Always step RightRestarts (start persist) ops := by
  have always : Machine.Always step
      (fun w => w.monitor.WellKept ∧ Remembers w.monitor.place w.seen) (start persist) ops := by
    apply Machine.always_of_permits ⟨(tallied_start persist).kept, remembers_start persist⟩ _ permits
    rintro w op ⟨kept, remembers⟩ allowed
    exact ⟨wellKept_step kept op, remembers.change kept (changes_step kept op) allowed⟩
  exact always.mono fun w both => both.2.rightRestarts both.1

/-- A mob that pops, dies, pops again under its old id and dies again. -/
theorem rightRestarts_rat
    : Machine.Always step RightRestarts (start true)
        [.newSpawn (rat 5) 1000, .killSpawn 5 (fun _ => 0) 1100, .newSpawn (rat 5) 1400,
          .killSpawn 5 (fun _ => 0) 1500] :=
  rightRestarts_of_unclaimed (by decide +kernel)

/-- A spawn that counts pops, a spawn dies, or a point is deleted. -/
def WithinZone : SpawnMonitorOp → Prop
  | .newSpawn item _ => item.qualifies ∧ item.id ≠ 0
  | .killSpawn .. => True
  | .deleteSpawnPoint _ => True
  | _ => False

/-- A mob despawns, and its id comes again with another one: both locations remember it. -/
theorem not_rightRestarts
    : ¬ ∀ persist ops, (∀ op ∈ ops, WithinZone op) →
        Machine.Always step RightRestarts (start persist) ops := by
  intro always
  have within : ∀ op ∈ [SpawnMonitorOp.newSpawn (rat 5) 1000,
      .newSpawn { rat 5 with loc := ⟨9, 0, 0⟩ } 2000], WithinZone op := by
    intro op member
    rcases List.mem_pair.mp member with rfl | rfl
    · exact ⟨by decide, by decide⟩
    · exact ⟨by decide, by decide⟩
  obtain ⟨_, _, right⟩ := always true _ within
  have restarted := right.restarts ⟨9, 0, 0⟩ 5 (fun _ => 0) 3000 ⟨9, 0, 0⟩ (by decide +kernel)
  revert restarted
  decide +kernel

end Watched

end Scry
