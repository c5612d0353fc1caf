import Scry.SpawnPoints.Sightings

/-! Bookkeeping of spawn points: a location becomes a point by the file of the zone or by a second
pop, and its count goes on from the file with every pop.
-/

namespace Scry

open SpawnMonitor

variable {s : Sightings} {p : Place} {w : Watched} {L : EQPoint}

/-- What is held at a location is what was seen of it tells. -/
structure Sightings.Tallies (s : Sightings) (p : Place) : Prop where
  point : p.point.isSome ↔ s.loaded.isSome ∨ 2 ≤ s.pops
  candidate : p.candidate.isSome ↔ s.loaded = none ∧ s.pops = 1
  count : ∀ sp, p.Has sp → sp.count = .ofNat s.total

namespace Sightings

theorem tallies_none (s : Sightings) (unloaded : s.loaded = none) (unseen : s.pops = 0)
    : s.Tallies .none where
  point := by simp [Place.none, unloaded, unseen]
  candidate := by simp [Place.none, unseen]
  count := by
    rintro sp (held | held)
    · cases held
    · cases held

/-- What was seen beside the record and the pops does not matter. -/
theorem Tallies.of_same {s' : Sightings} (tallies : s.Tallies p) (loaded : s'.loaded = s.loaded)
    (pops : s'.pops = s.pops)
    : s'.Tallies p where
  point := by rw [loaded, pops]; exact tallies.point
  candidate := by rw [loaded, pops]; exact tallies.candidate
  count := by
    rw [total, loaded, pops]
    exact tallies.count

theorem Tallies.leave (tallies : s.Tallies p) (id : UInt16) : (s.leave id).Tallies p := by
  rw [Sightings.leave]
  split_ifs
  · exact tallies.of_same rfl rfl
  · exact tallies

theorem Tallies.die (tallies : s.Tallies p) (id : UInt16) (now : Int64)
    : (s.die id now).Tallies p := by
  rw [Sightings.die]
  split_ifs
  · exact tallies.of_same rfl rfl
  · exact tallies

/-- A change of what is held that spares the count. -/
theorem Tallies.map (tallies : s.Tallies p) {f g : SpawnPoint → SpawnPoint}
    (sparesPoint : ∀ sp, (f sp).count = sp.count) (sparesCandidate : ∀ sp, (g sp).count = sp.count)
    : s.Tallies ⟨p.point.map f, p.candidate.map g⟩ where
  point := by rw [Option.isSome_map]; exact tallies.point
  candidate := by rw [Option.isSome_map]; exact tallies.candidate
  count := by
    rintro sp (held | held)
    · obtain ⟨old, found, rfl⟩ := Option.map_eq_some_iff.mp held
      exact (sparesPoint old).trans (tallies.count old (.inl found))
    · obtain ⟨old, found, rfl⟩ := Option.map_eq_some_iff.mp held
      exact (sparesCandidate old).trans (tallies.count old (.inr found))

theorem total_pop (s : Sightings) (id : UInt16) (now : Int64)
    : UInt32.ofNat (s.pop id now).total = UInt32.ofNat s.total + 1 := by
  have more : (s.pop id now).total = s.total + 1 := rfl
  rw [more, UInt32.ofNat_add]
  rfl

/-- A pop counts one more, where there is nothing, a candidate or a point. -/
theorem Tallies.pop (tallies : s.Tallies p) (item : MonitoredItem) (now : Int64)
    : (s.pop item.id now).Tallies (p.pop item now) := by
  obtain ⟨point, candidate⟩ := p
  have hp := tallies.point
  have hc := tallies.candidate
  have counts := tallies.count
  cases point with
  | some sp =>
      have seen : s.loaded.isSome ∨ 2 ≤ s.pops := hp.mp rfl
      have fresh : candidate = none := by
        cases candidate with
        | none => rfl
        | some other =>
            obtain ⟨unloaded, once⟩ := hc.mp rfl
            rw [unloaded, once] at seen
            simp at seen
      subst fresh
      refine ⟨?_, ?_, ?_⟩
      · refine iff_of_true rfl ?_
        exact seen.imp_right fun twice => Nat.le_succ_of_le twice
      · refine iff_of_false (by simp [Place.pop]) ?_
        rintro ⟨unloaded, once⟩
        change s.loaded = none at unloaded
        change s.pops + 1 = 1 at once
        rw [unloaded] at seen
        simp at seen
        omega
      · rintro held (here | here)
        · obtain rfl := Option.some.inj here
          rw [total_pop, ← counts sp (.inl rfl)]
          rfl
        · cases here
  | none =>
      cases candidate with
      | some sp =>
          obtain ⟨unloaded, once⟩ := hc.mp rfl
          refine ⟨?_, ?_, ?_⟩
          · refine iff_of_true rfl (.inr ?_)
            change 2 ≤ s.pops + 1
            omega
          · refine iff_of_false (by simp [Place.pop]) ?_
            rintro ⟨_, again⟩
            change s.pops + 1 = 1 at again
            omega
          · rintro held (here | here)
            · obtain rfl := Option.some.inj here
              rw [total_pop, ← counts sp (.inr rfl)]
              rfl
            · cases here
      | none =>
          have unseen : ¬ (s.loaded.isSome ∨ 2 ≤ s.pops) := fun seen => by simpa using hp.mpr seen
          have notOnce : ¬ (s.loaded = none ∧ s.pops = 1) := fun once => by simpa using hc.mpr once
          have unloaded : s.loaded = none := by
            cases loaded : s.loaded with
            | none => rfl
            | some r => exact absurd (.inl (by rw [loaded]; rfl)) unseen
          have never : s.pops = 0 := by
            have few : ¬ 2 ≤ s.pops := fun twice => unseen (.inr twice)
            have other : s.pops ≠ 1 := fun once => notOnce ⟨unloaded, once⟩
            omega
          refine ⟨?_, ?_, ?_⟩
          · refine iff_of_false (by simp [Place.pop]) ?_
            change ¬ (s.loaded.isSome = true ∨ 2 ≤ s.pops + 1)
            simp [unloaded, never]
          · refine iff_of_true rfl ⟨unloaded, ?_⟩
            change s.pops + 1 = 1
            omega
          · rintro held (here | here)
            · cases here
            · obtain rfl := Option.some.inj here
              simp [total, Sightings.pop, unloaded, never, SpawnPoint.create]

theorem tallies_delete (alone : p.point.isSome → p.candidate = none) (occupant : Option UInt16)
    : ({ occupant } : Sightings).Tallies p.delete := by
  rw [Place.delete_eq_none alone]
  exact tallies_none _ rfl rfl

/-- A point that is made of a record has its count. -/
theorem tallies_loaded (found : Option SpawnPointRecord) (now : Int64)
    : ({ loaded := found } : Sightings).Tallies ⟨found.map (·.point now), none⟩ := by
  cases found with
  | none => exact tallies_none _ rfl rfl
  | some r =>
      refine ⟨by simp, by simp, ?_⟩
      rintro sp (held | held)
      · obtain rfl := Option.some.inj held
        have same : (r.point now).count = r.count := by
          rw [SpawnPointRecord.point]
          split_ifs <;> rfl
        simp [total, same]
      · cases held

end Sightings

-----------------------------------------------------------------------------------------
-- Runs
-----------------------------------------------------------------------------------------

namespace Watched

/-- The bookkeeping of a monitor is that of what was seen. -/
structure Tallied (w : Watched) : Prop where
  kept : w.monitor.WellKept
  tallies : ∀ L, (w.seen L).Tallies (w.monitor.place L)

/-- Every operation keeps the bookkeeping, whichever change it is. -/
theorem Tallied.step {w : Watched} (tallied : w.Tallied) (op : SpawnMonitorOp)
    : (step op w).Tallied := by
  refine ⟨wellKept_step tallied.kept op, ?_⟩
  have changes := changes_step tallied.kept op
  generalize (Watched.step op w).monitor.place = places at changes
  generalize (Watched.step op w).seen = seen at changes
  intro L
  have before := tallied.tallies L
  cases changes with
  | pop counted =>
      dsimp only
      split_ifs
      · exact before.pop _ _
      · exact before.leave _
  | appear => exact before.leave _
  | @restart id rank now hit sp has claims =>
      dsimp only
      split_ifs
      · have restarted := before.map (f := (·.restart now)) (g := (·.restart now))
          (fun _ => rfl) fun _ => rfl
        exact restarted.die _ _
      · exact before.die _ _
  | miss => exact before.die _ _
  | delete =>
      dsimp only
      split_ifs
      · exact Sightings.tallies_delete tallied.kept.alone _
      · exact before
  | @rename key name _ =>
      dsimp only
      split_ifs
      · have named := before.map (f := ({ · with name })) (g := id) (fun _ => rfl) fun _ => rfl
        rw [Option.map_id] at named
        exact named
      · exact before
  | enter _ entered => exact Sightings.tallies_loaded _ _
  | stay => exact before

theorem tallied_start (persist : Bool) : (start persist).Tallied where
  kept := wellKept_of ownKeys_empty ownKeys_empty fun _ _ _ => rfl
  tallies _ := Sightings.tallies_none _ rfl rfl

theorem tallied_exec (persist : Bool) (ops : List SpawnMonitorOp)
    : (Machine.exec step (start persist) ops).Tallied :=
  Machine.exec_invariant (tallied_start persist) (fun _ op tallied => tallied.step op) ops

/-- The two maps of a monitor and what was seen of the locations. -/
structure Bookkept (w : Watched) (counts : UInt32 → Nat → Prop) : Prop where
  disjoint : ∀ key ∈ w.monitor.points.keys, key ∉ w.monitor.spawns.keys
  ownKeys : OwnKeys w.monitor.points ∧ OwnKeys w.monitor.spawns
  point_iff : ∀ L, L.key ∈ w.monitor.points.keys
    ↔ (w.seen L).loaded.isSome ∨ 2 ≤ (w.seen L).pops
  count : ∀ L sp, w.monitor.points.find? L.key = some sp → counts sp.count (w.seen L).total

/-- In every state a run comes to, no key is in both maps, each entry is under its own key, a
location has a point exactly where it was loaded or two spawns popped there, and the count is that
of the file and the pops together, as far as 32 bits hold it.
-/
theorem bookkept_exec (persist : Bool) (ops : List SpawnMonitorOp)
    : Bookkept (Machine.exec step (start persist) ops) fun count total =>
        count.toNat = total % 2 ^ 32 := by
  have tallied := tallied_exec persist ops
  refine ⟨tallied.kept.disjoint, ⟨tallied.kept.points, tallied.kept.spawns⟩, ?_, ?_⟩
  · intro L
    rw [← (tallied.tallies L).point, OrderedMap.mem_keys_iff, ← Option.isSome_iff_exists]
    rfl
  · intro L sp found
    rw [(tallied.tallies L).count sp (.inl found), UInt32.toNat_ofNat']

/-- A mob at the origin. -/
def rat (id : UInt16) : MonitoredItem :=
  { tSpawn := true, id, name := "a_rat00".toList, loc := ⟨0, 0, 0⟩, npc := SPAWN_NPC
    petOwnerID := 0, isMount := false, isAura := false, isMercenary := false }

/-- A save that succeeds in a directory without files. -/
def plainSaving : Saving :=
  { rank := fun _ => 0, directory := fun _ => none, opens := true, stores := id, seesOld := true
    seesBackup := true, removesBackup := true, renamesOld := true, renamesNew := true }

/-- The count of a point that was loaded with the greatest count begins again with the next pop.
-/
theorem not_bookkept_exec
    : ¬ ∀ persist ops, Bookkept (Machine.exec step (start persist) ops) fun count total =>
        count.toNat = total := by
  intro bookkept
  have counts := (bookkept true
    [.zoneChanged ['q'] plainSaving (some "0 0 0 0 4294967295 \n".toList) 1000,
      .newSpawn (rat 7) 2000]).count ⟨0, 0, 0⟩
  have wraps : ∃ sp, (Machine.exec step (start true)
      [.zoneChanged ['q'] plainSaving (some "0 0 0 0 4294967295 \n".toList) 1000,
        .newSpawn (rat 7) 2000]).monitor.points.find? (EQPoint.mk 0 0 0).key = some sp
      ∧ sp.count.toNat = 0 := by
    decide +kernel
  obtain ⟨sp, found, zero⟩ := wraps
  have total := counts sp found
  rw [zero] at total
  revert total
  decide +kernel

end Watched

end Scry
