import Scry.SpawnPoints.SpawnMonitor

/-! What the monitor holds at a location, as a point or as a candidate for one, and how each of
its operations changes the places.
-/

namespace Scry

open TextStream

variable {m : SpawnMonitor} {L : EQPoint} {sp : SpawnPoint} {now : Int64}

-----------------------------------------------------------------------------------------
-- Keys
-----------------------------------------------------------------------------------------

theorem bar_not_mem (i : Int) : '|' ∉ decimalInt i := by
  intro member
  rcases mem_decimalInt member with sign | digit
  · exact absurd sign (by decide)
  · exact absurd digit (by decide)

/-- Different locations have different keys. -/
theorem EQPoint.key_inj {p q : EQPoint} (same : p.key = q.key) : p = q := by
  obtain ⟨sameX, rest⟩ := field_inj (bar_not_mem _) (bar_not_mem _) same
  obtain ⟨sameY, sameZ⟩ := field_inj (bar_not_mem _) (bar_not_mem _) rest
  cases p
  cases q
  congr
  · exact Int16.toInt_inj.mp (decimalInt_inj sameX)
  · exact Int16.toInt_inj.mp (decimalInt_inj sameY)
  · exact Int16.toInt_inj.mp (decimalInt_inj sameZ)

-----------------------------------------------------------------------------------------
-- Places
-----------------------------------------------------------------------------------------

/-- What is held at a location. -/
@[ext]
structure Place where
  point : Option SpawnPoint
  candidate : Option SpawnPoint
  deriving DecidableEq

namespace Place

def none : Place := ⟨.none, .none⟩

/-- The point or candidate of a place. -/
def Has (p : Place) (sp : SpawnPoint) : Prop := p.point = some sp ∨ p.candidate = some sp

/-- A spawn pops. -/
def pop (p : Place) (spawn : MonitoredItem) (now : Int64) : Place :=
  match p.point, p.candidate with
  | some sp, c => ⟨some (sp.update spawn now), c⟩
  | .none, some sp => ⟨some (sp.update spawn now), .none⟩
  | .none, .none => ⟨.none, some (.create now spawn.id spawn.loc [] 0 1)⟩

/-- What was held there is deleted. -/
def delete (p : Place) : Place :=
  match p.point with
  | some _ => ⟨.none, p.candidate⟩
  | .none => none

/-- What is held there is changed. -/
def map (f : SpawnPoint → SpawnPoint) (p : Place) : Place := ⟨p.point.map f, p.candidate.map f⟩

variable {p : Place} {sp : SpawnPoint} {now : Int64}

theorem has_map {f : SpawnPoint → SpawnPoint} (has : (p.map f).Has sp)
    : ∃ old, p.Has old ∧ f old = sp := by
  rcases has with point | candidate
  · obtain ⟨old, found, same⟩ := Option.map_eq_some_iff.mp point
    exact ⟨old, .inl found, same⟩
  · obtain ⟨old, found, same⟩ := Option.map_eq_some_iff.mp candidate
    exact ⟨old, .inr found, same⟩

theorem has_delete (has : p.delete.Has sp) : p.Has sp := by
  obtain ⟨point, candidate⟩ := p
  cases point with
  | some old =>
      rcases has with held | held
      · cases held
      · exact .inr held
  | none =>
      rcases has with held | held
      · cases held
      · cases held

theorem delete_eq_none (alone : p.point.isSome → p.candidate = .none) : p.delete = none := by
  obtain ⟨point, candidate⟩ := p
  cases point with
  | some old =>
      obtain rfl : candidate = .none := alone rfl
      rfl
  | none => rfl

/-- What is held after a pop was there before and is updated, or is new. -/
theorem has_pop {spawn : MonitoredItem} (alone : p.point.isSome → p.candidate = .none)
    (has : (p.pop spawn now).Has sp)
    : (∃ old, p.Has old ∧ old.update spawn now = sp)
      ∨ sp = .create now spawn.id spawn.loc [] 0 1 := by
  obtain ⟨point, candidate⟩ := p
  cases point with
  | some old =>
      obtain rfl : candidate = .none := alone rfl
      rcases has with held | held
      · exact .inl ⟨old, .inl rfl, Option.some.inj held⟩
      · cases held
  | none =>
      cases candidate with
      | some old =>
          rcases has with held | held
          · exact .inl ⟨old, .inr rfl, Option.some.inj held⟩
          · cases held
      | none =>
          rcases has with held | held
          · cases held
          · exact .inr (Option.some.inj held).symm

end Place

/-- What a monitor holds at a location. -/
def SpawnMonitor.place (m : SpawnMonitor) (L : EQPoint) : Place :=
  ⟨m.points.find? L.key, m.spawns.find? L.key⟩

/-- Whatever a map holds is held under its own key. -/
def OwnKeys (points : SpawnPoints) : Prop := ∀ key sp, points.find? key = some sp → sp.key = key

theorem OwnKeys.insert {points : SpawnPoints} (own : OwnKeys points) {key : List Char}
    (same : sp.key = key)
    : OwnKeys (points.insert key sp) := by
  intro other held found
  rw [OrderedMap.find?_insert] at found
  split_ifs at found with here
  · obtain rfl := Option.some.inj found
    exact same.trans here.symm
  · exact own other held found

theorem OwnKeys.erase {points : SpawnPoints} (own : OwnKeys points) (key : List Char)
    : OwnKeys (points.erase key) := by
  intro other held found
  rw [OrderedMap.find?_erase] at found
  split_ifs at found
  exact own other held found

theorem ownKeys_empty : OwnKeys .empty := by
  intro key sp found
  cases found

/-- Whatever is held is held under its own key, and no key has both a point and a candidate. -/
structure SpawnMonitor.WellKept (m : SpawnMonitor) : Prop where
  points : OwnKeys m.points
  spawns : OwnKeys m.spawns
  disjoint : ∀ key ∈ m.points.keys, key ∉ m.spawns.keys

/-- Whether a monitor counts a spawn. -/
def MonitoredItem.qualifies (i : MonitoredItem) : Bool :=
  i.tSpawn && i.npc = SPAWN_NPC && i.petOwnerID = 0 && !i.isMount && !i.isAura && !i.isMercenary

namespace SpawnMonitor

theorem WellKept.loc_of_has (kept : m.WellKept) (has : (m.place L).Has sp) : sp.loc = L := by
  rcases has with point | candidate
  · exact EQPoint.key_inj (kept.points _ _ point)
  · exact EQPoint.key_inj (kept.spawns _ _ candidate)

theorem WellKept.not_both (kept : m.WellKept) {key : List Char} (point : m.points.find? key = some sp)
    : m.spawns.find? key = .none :=
  OrderedMap.find?_eq_none_iff.mpr
    (kept.disjoint key (OrderedMap.mem_keys_iff.mpr ⟨sp, point⟩))

theorem WellKept.alone (kept : m.WellKept) (point : (m.place L).point.isSome)
    : (m.place L).candidate = .none := by
  obtain ⟨sp, found⟩ := Option.isSome_iff_exists.mp point
  exact kept.not_both found

/-- One thing at most is held at a location. -/
theorem WellKept.has_unique (kept : m.WellKept) {sp' : SpawnPoint} (has : (m.place L).Has sp)
    (has' : (m.place L).Has sp')
    : sp = sp' := by
  rcases has with point | candidate
  · rcases has' with point' | candidate'
    · exact Option.some.inj (point.symm.trans point')
    · cases candidate'.symm.trans (kept.not_both point)
  · rcases has' with point' | candidate'
    · cases candidate.symm.trans (kept.not_both point')
    · exact Option.some.inj (candidate.symm.trans candidate')

theorem wellKept_of {m : SpawnMonitor} (points : OwnKeys m.points) (spawns : OwnKeys m.spawns)
    (apart : ∀ key sp, m.points.find? key = some sp → m.spawns.find? key = .none)
    : m.WellKept := by
  refine ⟨points, spawns, ?_⟩
  intro key member
  obtain ⟨sp, found⟩ := OrderedMap.mem_keys_iff.mp member
  exact OrderedMap.find?_eq_none_iff.mp (apart key sp found)

-----------------------------------------------------------------------------------------
-- New spawns
-----------------------------------------------------------------------------------------

theorem newSpawn_eq (m : SpawnMonitor) (item : MonitoredItem) (now : Int64)
    : m.newSpawn item now
      = if item.qualifies then
          match m.points.find? item.loc.key, m.spawns.find? item.loc.key with
          | some sp, _ =>
              { m with
                modified := true
                points := m.points.insert item.loc.key (sp.update item now) }
          | .none, some sp =>
              { m with
                points := m.points.insert item.loc.key (sp.update item now)
                modified := true
                spawns := m.spawns.erase item.loc.key }
          | .none, .none =>
              { m with
                spawns := m.spawns.insert item.loc.key (.create now item.id item.loc [] 0 1) }
        else m := by
  by_cases counted : item.qualifies = true
  · rw [if_pos counted]
    simp only [MonitoredItem.qualifies, Bool.and_eq_true, decide_eq_true_eq, Bool.not_eq_true']
      at counted
    obtain ⟨⟨⟨⟨⟨spawn, npc⟩, owner⟩, mount⟩, aura⟩, mercenary⟩ := counted
    simp only [newSpawn, checkSpawnPoint, spawn, npc, owner, mount, aura, mercenary]
    simp only [ne_eq, not_true_eq_false, Bool.false_eq_true, or_self, if_false, if_true]
    cases m.points.find? item.loc.key with
    | some sp => rfl
    | none =>
        cases m.spawns.find? item.loc.key with
        | some sp => rfl
        | none => rfl
  · rw [if_neg counted, newSpawn]
    split_ifs with spawn
    · rw [checkSpawnPoint, if_pos]
      by_contra all
      push Not at all
      apply counted
      simp [MonitoredItem.qualifies, spawn, all]
    · rfl

/-- A spawn that counts changes the place where it pops. -/
theorem place_newSpawn (m : SpawnMonitor) (item : MonitoredItem) (now : Int64) (L : EQPoint)
    : (m.newSpawn item now).place L
      = if item.qualifies ∧ L = item.loc then (m.place L).pop item now else m.place L := by
  rw [newSpawn_eq]
  by_cases counted : item.qualifies = true
  · rw [if_pos counted]
    by_cases here : L = item.loc
    · rw [if_pos ⟨counted, here⟩, here]
      cases point : m.points.find? item.loc.key with
      | some sp => simp [place, Place.pop, point]
      | none =>
          cases candidate : m.spawns.find? item.loc.key with
          | some sp => simp [place, Place.pop, point, candidate]
          | none => simp [place, Place.pop, point, candidate]
    · rw [if_neg fun both => here both.2]
      have other : L.key ≠ item.loc.key := fun same => here (EQPoint.key_inj same)
      cases m.points.find? item.loc.key with
      | some sp => simp [place, OrderedMap.find?_insert_of_ne _ _ other]
      | none =>
          cases m.spawns.find? item.loc.key with
          | some sp =>
              simp [place, OrderedMap.find?_insert_of_ne _ _ other,
                OrderedMap.find?_erase_of_ne _ other]
          | none => simp [place, OrderedMap.find?_insert_of_ne _ _ other]
  · rw [if_neg counted, if_neg fun both => counted both.1]

theorem WellKept.newSpawn (kept : m.WellKept) (item : MonitoredItem) (now : Int64)
    : (m.newSpawn item now).WellKept := by
  rw [newSpawn_eq]
  split_ifs
  · cases point : m.points.find? item.loc.key with
    | some sp =>
        have own : (sp.update item now).key = item.loc.key := kept.points _ sp point
        refine wellKept_of (kept.points.insert own) kept.spawns ?_
        intro key held found
        dsimp only at found
        rw [OrderedMap.find?_insert] at found
        split_ifs at found with here
        · rw [here]
          exact kept.not_both point
        · exact kept.not_both found
    | none =>
        cases candidate : m.spawns.find? item.loc.key with
        | some sp =>
            have own : (sp.update item now).key = item.loc.key := kept.spawns _ sp candidate
            refine wellKept_of (kept.points.insert own) (kept.spawns.erase _) ?_
            intro key held found
            dsimp only at found
            rw [OrderedMap.find?_insert] at found
            change (m.spawns.erase _).find? key = .none
            rw [OrderedMap.find?_erase]
            split_ifs at found ⊢ with here
            · rfl
            · exact kept.not_both found
        | none =>
            refine wellKept_of kept.points (kept.spawns.insert rfl) ?_
            intro key held found
            change (m.spawns.insert _ _).find? key = .none
            rw [OrderedMap.find?_insert, if_neg]
            · exact kept.not_both found
            · intro here
              rw [here, point] at found
              cases found
  · exact kept

-----------------------------------------------------------------------------------------
-- Deaths
-----------------------------------------------------------------------------------------

theorem mem_walk {rank : List Char → Nat} {points : SpawnPoints} {entry : List Char × SpawnPoint}
    : entry ∈ walk rank points ↔ points.find? entry.1 = some entry.2 :=
  ((List.perm_insertionSort _ _).mem_iff).trans OrderedMap.find?_eq_some_iff.symm

/-- In whatever order the entries are looked at, what is found has the id, and nothing has it
where nothing is found.
-/
theorem claimed_of_find? {rank : List Char → Nat} {points : SpawnPoints} {id : UInt16}
    {key : List Char}
    (found : ((walk rank points).find? fun entry => id = entry.2.lastID) = some (key, sp))
    : points.find? key = some sp ∧ id = sp.lastID :=
  ⟨mem_walk.mp (List.mem_of_find?_eq_some found), by simpa using (List.find?_some found)⟩

theorem unclaimed_of_find? {rank : List Char → Nat} {points : SpawnPoints} {id : UInt16}
    (none : ((walk rank points).find? fun entry => id = entry.2.lastID) = .none) (key : List Char)
    (held : points.find? key = some sp)
    : sp.lastID ≠ id := by
  intro same
  exact List.find?_eq_none.mp none (key, sp) (mem_walk.mpr held) (by simpa using same.symm)

/-- Exactly one place has a spawn's id and is restarted, or none has it and nothing changes. -/
theorem place_killSpawn (kept : m.WellKept) (id : UInt16) (rank : List Char → Nat) (now : Int64)
    : (∃ L sp, (m.place L).Has sp ∧ sp.lastID = id
        ∧ ∀ L', (m.killSpawn id rank now).place L'
            = if L' = L then (m.place L').map (·.restart now) else m.place L')
      ∨ ((∀ L sp, (m.place L).Has sp → sp.lastID ≠ id) ∧ m.killSpawn id rank now = m) := by
  rw [killSpawn]
  cases point : (walk rank m.points).find? fun entry => id = entry.2.lastID with
  | some entry =>
      obtain ⟨key, sp⟩ := entry
      obtain ⟨found, claims⟩ := claimed_of_find? point
      obtain rfl : sp.key = key := kept.points key sp found
      refine .inl ⟨sp.loc, sp, .inl found, claims.symm, ?_⟩
      intro L
      split_ifs with here
      · have candidate := kept.not_both found
        rw [here]
        simp only [SpawnPoint.key] at found candidate ⊢
        simp [place, Place.map, found, candidate]
      · have other : L.key ≠ sp.key := fun same => here (EQPoint.key_inj same)
        simp [place, OrderedMap.find?_insert_of_ne _ _ other]
  | none =>
      cases candidate : (walk rank m.spawns).find? fun entry => id = entry.2.lastID with
      | some entry =>
          obtain ⟨key, sp⟩ := entry
          obtain ⟨found, claims⟩ := claimed_of_find? candidate
          obtain rfl : sp.key = key := kept.spawns key sp found
          refine .inl ⟨sp.loc, sp, .inr found, claims.symm, ?_⟩
          intro L
          split_ifs with here
          · have point : m.points.find? sp.key = .none := by
              cases held : m.points.find? sp.key with
              | none => rfl
              | some other =>
                  rw [kept.not_both held] at found
                  cases found
            rw [here]
            simp only [SpawnPoint.key] at found point ⊢
            simp [place, Place.map, found, point]
          · have other : L.key ≠ sp.key := fun same => here (EQPoint.key_inj same)
            simp [place, OrderedMap.find?_insert_of_ne _ _ other]
      | none =>
          refine .inr ⟨?_, rfl⟩
          rintro L sp (held | held)
          · exact unclaimed_of_find? point _ held
          · exact unclaimed_of_find? candidate _ held

theorem WellKept.killSpawn (kept : m.WellKept) (id : UInt16) (rank : List Char → Nat)
    (now : Int64)
    : (m.killSpawn id rank now).WellKept := by
  rw [SpawnMonitor.killSpawn]
  split
  next key sp point =>
    have found := (claimed_of_find? point).1
    have own : (sp.restart now).key = key := kept.points key sp found
    refine wellKept_of (kept.points.insert own) kept.spawns ?_
    intro other held restarted
    dsimp only at restarted
    rw [OrderedMap.find?_insert] at restarted
    split_ifs at restarted with here
    · rw [here]
      exact kept.not_both found
    · exact kept.not_both restarted
  next =>
    split
    next key sp candidate =>
      have found := (claimed_of_find? candidate).1
      have own : (sp.restart now).key = key := kept.spawns key sp found
      refine wellKept_of kept.points (kept.spawns.insert own) ?_
      intro other held point
      change (m.spawns.insert _ _).find? other = .none
      rw [OrderedMap.find?_insert, if_neg]
      · exact kept.not_both point
      · intro here
        rw [← here, kept.not_both point] at found
        cases found
    next => exact kept

-----------------------------------------------------------------------------------------
-- Deletions and names
-----------------------------------------------------------------------------------------

theorem place_deleteSpawnPoint (m : SpawnMonitor) (loc L : EQPoint)
    : (m.deleteSpawnPoint loc).place L
      = if L = loc then (m.place L).delete else m.place L := by
  rw [deleteSpawnPoint]
  split_ifs with here
  · rw [here]
    cases point : m.points.find? loc.key with
    | some sp => simp [place, Place.delete, point]
    | none => simp [place, Place.delete, Place.none, point]
  · have other : L.key ≠ loc.key := fun same => here (EQPoint.key_inj same)
    cases m.points.find? loc.key with
    | some sp => simp [place, OrderedMap.find?_erase_of_ne _ other]
    | none => simp [place, OrderedMap.find?_erase_of_ne _ other]

theorem WellKept.deleteSpawnPoint (kept : m.WellKept) (loc : EQPoint)
    : (m.deleteSpawnPoint loc).WellKept := by
  rw [SpawnMonitor.deleteSpawnPoint]
  cases point : m.points.find? loc.key with
  | some sp =>
      refine wellKept_of (kept.points.erase _) kept.spawns ?_
      intro key held found
      dsimp only at found
      rw [OrderedMap.find?_erase] at found
      split_ifs at found
      exact kept.not_both found
  | none =>
      refine wellKept_of kept.points (kept.spawns.erase _) ?_
      intro key held found
      change (m.spawns.erase _).find? key = .none
      rw [OrderedMap.find?_erase, kept.not_both found]
      split_ifs <;> rfl

/-- Whether saving comes to the file of the zone. -/
def Saves (m : SpawnMonitor) (s : Saving) : Prop :=
  m.persist ∧ m.modified ∧ m.zoneName ≠ [] ∧ s.opens

theorem saveSpawnPoints_of_saves {s : Saving} (saves : m.Saves s)
    : m.saveSpawnPoints s
      = ({ m with modified := false },
          replaceFile s (s.directory.put .new (some (s.stores (m.spawnFile s.rank))))) := by
  obtain ⟨persist, modified, zone, opens⟩ := saves
  simp only [saveSpawnPoints, persist, modified, zone, opens, not_true_eq_false, if_false]

theorem saveSpawnPoints_of_not_saves {s : Saving} (not : ¬ m.Saves s)
    : m.saveSpawnPoints s = (m, s.directory) := by
  simp only [saveSpawnPoints]
  split_ifs with persist modified zone opens
  · rfl
  · exact absurd ⟨persist, modified, zone, opens⟩ not
  · rfl
  · rfl
  · rfl

/-- Saving changes no more than the mark of a change. -/
theorem saveSpawnPoints_eq (m : SpawnMonitor) (s : Saving)
    : ∃ modified, (m.saveSpawnPoints s).1 = { m with modified } := by
  by_cases saves : m.Saves s
  · rw [saveSpawnPoints_of_saves saves]
    exact ⟨false, rfl⟩
  · rw [saveSpawnPoints_of_not_saves saves]
    exact ⟨m.modified, rfl⟩

theorem place_saveSpawnPoints (m : SpawnMonitor) (s : Saving) (L : EQPoint)
    : (m.saveSpawnPoints s).1.place L = m.place L := by
  obtain ⟨_, saved⟩ := m.saveSpawnPoints_eq s
  rw [saved]
  rfl

theorem WellKept.saveSpawnPoints (kept : m.WellKept) (s : Saving)
    : (m.saveSpawnPoints s).1.WellKept := by
  obtain ⟨_, saved⟩ := m.saveSpawnPoints_eq s
  rw [saved]
  exact ⟨kept.points, kept.spawns, kept.disjoint⟩

theorem place_renameSpawnPoint (m : SpawnMonitor) (key name : List Char) (s : Saving)
    (L : EQPoint)
    : (m.renameSpawnPoint key name s).place L
      = if L.key = key then
          ⟨(m.place L).point.map ({ · with name }), (m.place L).candidate⟩
        else
          m.place L := by
  rw [renameSpawnPoint]
  cases point : m.points.find? key with
  | some sp =>
      rw [place_saveSpawnPoints]
      split_ifs with here
      · simp [place, setName, here, point]
      · simp [place, setName, OrderedMap.find?_insert_of_ne _ _ here]
  | none =>
      split_ifs with here
      · simp [place, here, point]
      · rfl

theorem WellKept.renameSpawnPoint (kept : m.WellKept) (key name : List Char) (s : Saving)
    : (m.renameSpawnPoint key name s).WellKept := by
  rw [SpawnMonitor.renameSpawnPoint]
  cases point : m.points.find? key with
  | some sp =>
      apply WellKept.saveSpawnPoints
      have own : SpawnPoint.key { sp with name } = key := kept.points key sp point
      refine wellKept_of (kept.points.insert own) kept.spawns ?_
      intro other held found
      simp only [setName] at found
      rw [OrderedMap.find?_insert] at found
      split_ifs at found with here
      · rw [here]
        exact kept.not_both point
      · exact kept.not_both found
  | none => exact kept

-----------------------------------------------------------------------------------------
-- Zones
-----------------------------------------------------------------------------------------

/-- The records that a monitor takes from the file of a zone. -/
def records (m : SpawnMonitor) (found : Option (List Char)) : List SpawnPointRecord :=
  if m.persist then (found.map spawnRecords).getD [] else []

/-- Loading holds the first record of a location, by induction on the records. -/
theorem find?_insertRecords (now : Int64) (rs : List SpawnPointRecord) (points : SpawnPoints)
    (L : EQPoint)
    : (rs.foldl (insertRecord now) points).find? L.key
      = (points.find? L.key <|> ((rs.find? (·.loc = L)).map (·.point now))) := by
  induction rs generalizing points with
  | nil => simp
  | cons r rest ih =>
      rw [List.foldl_cons, ih, insertRecord]
      by_cases here : r.loc = L
      · rw [List.find?_cons_of_pos (by simpa using here), here]
        cases held : points.find? L.key with
        | some sp => simp [held]
        | none => simp
      · rw [List.find?_cons_of_neg (by simpa using here)]
        have other : L.key ≠ r.loc.key := fun same => here (EQPoint.key_inj same).symm
        cases points.find? r.loc.key with
        | some sp => rfl
        | none =>
            dsimp only
            rw [OrderedMap.find?_insert_of_ne _ _ other]

theorem ownKeys_insertRecords (now : Int64) (rs : List SpawnPointRecord) {points : SpawnPoints}
    (own : OwnKeys points)
    : OwnKeys (rs.foldl (insertRecord now) points) := by
  induction rs generalizing points with
  | nil => exact own
  | cons r rest ih =>
      apply ih
      rw [insertRecord]
      cases points.find? r.loc.key with
      | some sp => exact own
      | none =>
          apply own.insert
          simp only [SpawnPointRecord.point]
          split_ifs <;> rfl

/-- A zone begins with the points of its file. -/
theorem place_loadSpawnPoints (m : SpawnMonitor) (found : Option (List Char)) (now : Int64)
    (L : EQPoint)
    : (m.clear.loadSpawnPoints found now).place L
      = ⟨((m.records found).find? (·.loc = L)).map (·.point now), .none⟩ := by
  simp only [loadSpawnPoints, records]
  cases persist : m.persist with
  | false => simp [place, clear, persist]
  | true =>
      cases found with
      | none => simp [place, clear, persist]
      | some file => simp [place, clear, persist, find?_insertRecords]

theorem wellKept_loadSpawnPoints (m : SpawnMonitor) (found : Option (List Char)) (now : Int64)
    : (m.clear.loadSpawnPoints found now).WellKept := by
  have cleared : m.clear.WellKept :=
    wellKept_of ownKeys_empty ownKeys_empty fun _ _ _ => rfl
  simp only [loadSpawnPoints]
  split_ifs
  · cases found with
    | none => exact cleared
    | some file =>
        exact wellKept_of (ownKeys_insertRecords now _ ownKeys_empty) ownKeys_empty
          fun _ _ _ => rfl
  · exact cleared

end SpawnMonitor

end Scry
