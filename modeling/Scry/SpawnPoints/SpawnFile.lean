import Scry.SpawnPoints.Bookkeeping

/-! The files of spawn points: what is written is read back, point by point, where every name is
one line without blanks around it.
-/

namespace Scry

open TextStream SpawnMonitor

-----------------------------------------------------------------------------------------
-- Rounds
-----------------------------------------------------------------------------------------

theorem length_takeDigits (digit : Char → Option Nat) (base v : UInt64) (s : List Char)
    : (takeDigits digit base v s).2.2.length ≤ s.length := by
  induction s generalizing v with
  | nil => exact Nat.le_refl _
  | cons c rest ih =>
      rw [takeDigits]
      cases digit c with
      | none => exact Nat.le_refl _
      | some d => exact Nat.le_succ_of_le (ih _)

theorem length_detectBase {s rest : List Char} {base : Nat}
    (found : detectBase s = some (base, rest))
    : rest.length = s.length := by
  cases s with
  | nil => cases found
  | cons c more =>
      simp only [detectBase] at found
      split_ifs at found with zero other
      · cases more with
        | nil =>
            obtain ⟨_, rfl⟩ := Prod.mk.inj (Option.some.inj found)
            rfl
        | cons second more =>
            obtain ⟨_, rfl⟩ := Prod.mk.inj (Option.some.inj found)
            rfl
      · obtain ⟨_, rfl⟩ := Prod.mk.inj (Option.some.inj found)
        rfl

theorem length_decimalNumber (s : List Char) : (decimalNumber s).2.length ≤ s.length := by
  cases s with
  | nil => exact Nat.le_refl _
  | cons sign rest =>
      have signed := length_takeDigits digitValue 10 0 rest
      have unsigned := length_takeDigits digitValue 10 0 (sign :: rest)
      simp only [decimalNumber]
      split_ifs
      all_goals first | exact Nat.le_succ_of_le signed | exact unsigned

theorem length_prefixedNumber (base : Nat) (s : List Char)
    : (prefixedNumber base s).2.length ≤ s.length := by
  have taken (digit : Char → Option Nat) (width : Nat)
      : (takeDigits digit (.ofNat base) 0 (s.drop width)).2.2.length ≤ s.length :=
    (length_takeDigits _ _ _ _).trans (List.drop_sublist width s).length_le
  simp only [prefixedNumber]
  split_ifs
  all_goals first | exact taken _ _ | exact Nat.le_refl _

theorem length_readNumber (s : List Char) : (readNumber s).2.length ≤ s.length := by
  have skipped := (List.dropWhile_sublist isSpace (l := s)).length_le
  simp only [readNumber, getNumber]
  cases found : detectBase (s.dropWhile isSpace) with
  | none => exact skipped
  | some detected =>
      obtain ⟨base, rest⟩ := detected
      have same := length_detectBase found
      dsimp only
      split_ifs
      · exact (length_decimalNumber rest).trans (same ▸ skipped)
      · exact (length_prefixedNumber base rest).trans (same ▸ skipped)

/-- A round takes a character at least. -/
theorem length_readRecord {input : List Char} (more : input ≠ [])
    : (readRecord input).2.length < input.length := by
  have x := length_readNumber input
  have y := length_readNumber (readNumber input).2
  have z := length_readNumber (readNumber (readNumber input).2).2
  simp only [readRecord]
  generalize readNumber (readNumber (readNumber input).2).2 = z' at *
  have diffTime := length_readNumber z'.2
  have count := length_readNumber (readNumber z'.2).2
  generalize readNumber (readNumber z'.2).2 = count' at *
  have positive := List.length_pos_of_ne_nil more
  cases left : count'.2 with
  | nil => exact positive
  | cons c rest =>
      have line := length_readLine c rest
      rw [left, List.length_cons] at count
      omega

/-- More fuel than characters reads no more. -/
theorem readRecords_add (fuel more : Nat) {input : List Char} (enough : input.length ≤ fuel)
    : readRecords (fuel + more) input = readRecords fuel input := by
  induction fuel generalizing input with
  | zero =>
      obtain rfl := List.length_eq_zero_iff.mp (Nat.le_zero.mp enough)
      cases more with
      | zero => rfl
      | succ more => rfl
  | succ fuel ih =>
      rw [Nat.succ_add, readRecords, readRecords]
      split_ifs with ended
      · rfl
      · have shorter := length_readRecord ended
        rw [ih (by omega)]

-----------------------------------------------------------------------------------------
-- A line
-----------------------------------------------------------------------------------------

/-- What a file is to keep of a point. -/
def SpawnPoint.record (sp : SpawnPoint) : SpawnPointRecord :=
  { loc := sp.loc, diffTime := sp.diffTime.toUInt64, count := sp.count, name := sp.name }

theorem record_point (r : SpawnPointRecord) (now : Int64) : (r.point now).record = r := by
  rw [SpawnPointRecord.point]
  split_ifs
  · simp [SpawnPoint.record, SpawnPoint.restart, SpawnPoint.create]
  · simp [SpawnPoint.record, SpawnPoint.create]

theorem coordinate_read (x : Int16) : (UInt64.ofInt x.toInt).toUInt16.toInt16 = x := by
  have same : (UInt64.ofInt x.toInt).toUInt16 = x.toUInt16 := by
    apply UInt16.toNat.inj
    have value : x.toInt = if 2 * x.toUInt16.toNat < 2 ^ 16 then (x.toUInt16.toNat : Int)
        else x.toUInt16.toNat - 2 ^ 16 := BitVec.toInt_eq_toNat_cond x.toBitVec
    have small := x.toUInt16.toNat_lt
    rw [UInt64.toNat_toUInt16, UInt64.ofInt, UInt64.toNat_ofNat', value]
    split_ifs <;> omega
  rw [same, Int16.toInt16_toUInt16]

/-- A count is read back though it is written as a signed number. -/
theorem count_read (count : UInt32) : (UInt64.ofInt count.toInt32.toInt).toUInt32 = count := by
  apply UInt32.toNat.inj
  have value : count.toInt32.toInt = if 2 * count.toNat < 2 ^ 32 then (count.toNat : Int)
      else count.toNat - 2 ^ 32 := BitVec.toInt_eq_toNat_cond count.toBitVec
  have small := count.toNat_lt
  rw [UInt64.toNat_toUInt32, UInt64.ofInt, UInt64.toNat_ofNat', value]
  split_ifs <;> omega

/-- The text behind the numbers of a line. -/
def SpawnPoint.nameText (sp : SpawnPoint) (rest : List Char) : List Char :=
  ' ' :: (sp.name ++ '\n' :: rest)

/-- The numbers of a line are read back, and the name is what the next line break leaves. -/
theorem readRecord_line (sp : SpawnPoint) (rest : List Char)
    : readRecord (sp.line ++ rest)
      = ({ sp.record with name := trimmed (readLine (sp.nameText rest)).1 },
          (readLine (sp.nameText rest)).2) := by
  have text : sp.line ++ rest
      = decimalInt sp.loc.x.toInt ++ ' ' :: (decimalInt sp.loc.y.toInt
        ++ ' ' :: (decimalInt sp.loc.z.toInt ++ ' ' :: (decimal sp.diffTime.toUInt64.toNat
        ++ ' ' :: (decimalInt sp.count.toInt32.toInt ++ sp.nameText rest)))) := by
    simp [SpawnPoint.line, SpawnPoint.nameText]
  have small (x : Int16) : (-2 ^ 63 : Int) < x.toInt := by
    have lower := x.le_toInt
    omega
  have smallCount : (-2 ^ 63 : Int) < sp.count.toInt32.toInt := by
    have lower := sp.count.toInt32.le_toInt
    omega
  have blank : ∀ c ∈ [' '], isSpace c = true := by
    intro c member
    rw [List.mem_singleton.mp member]
    rfl
  have first {i : Int} (small : -2 ^ 63 < i) (more : List Char)
      : readNumber (decimalInt i ++ ' ' :: more) = (.ofInt i, ' ' :: more) :=
    readNumber_decimalInt (List.forall_mem_nil _) small more
  have next {i : Int} (small : -2 ^ 63 < i) (more : List Char)
      : readNumber (' ' :: (decimalInt i ++ ' ' :: more)) = (.ofInt i, ' ' :: more) :=
    readNumber_decimalInt blank small more
  have natural (n : Nat) (more : List Char)
      : readNumber (' ' :: (decimal n ++ ' ' :: more)) = (.ofNat n, ' ' :: more) :=
    readNumber_decimal blank n more
  rw [text, SpawnPoint.nameText]
  simp only [readRecord, first (small _), next (small _), natural, next smallCount,
    coordinate_read, count_read, SpawnPoint.record, UInt64.ofNat_toNat]

/-- A name that a line keeps: without line breaks, and without blanks around it. -/
def OneLine (name : List Char) : Prop := '\n' ∉ name ∧ trimmed name = name

instance (name : List Char) : Decidable (OneLine name) :=
  inferInstanceAs (Decidable (_ ∧ _))

theorem readRecord_oneLine {sp : SpawnPoint} (one : OneLine sp.name) (rest : List Char)
    : readRecord (sp.line ++ rest) = (sp.record, rest) := by
  have ends : '\n' ∉ ' ' :: sp.name := by
    simpa using one.1
  have name : trimmed (readLine (sp.nameText rest)).1 = sp.name :=
    (trimmed_readLine ends rest).trans ((trimmed_blank sp.name).trans one.2)
  have left : (readLine (sp.nameText rest)).2 = rest := readLine_rest ends rest
  rw [readRecord_line, name, left]
  rfl

/-- Another name is not read back, for what is read is one line without blanks around it. -/
theorem readRecord_other {sp : SpawnPoint} (other : ¬ OneLine sp.name) (rest : List Char)
    : (readRecord (sp.line ++ rest)).1.loc = sp.loc
      ∧ (readRecord (sp.line ++ rest)).1.name ≠ sp.name := by
  rw [readRecord_line]
  refine ⟨rfl, ?_⟩
  intro same
  dsimp only at same
  apply other
  constructor
  · intro member
    rw [← same] at member
    exact mem_readLine (mem_of_mem_trimBy member) rfl
  · rw [← same]
    exact trimBy_trimBy isSpace _

theorem line_ne_nil (sp : SpawnPoint) (rest : List Char) : sp.line ++ rest ≠ [] := by
  simp [SpawnPoint.line]

/-- Lines are read back one after the other, by induction on the points. -/
theorem readRecords_lines {sps : List SpawnPoint} (one : ∀ sp ∈ sps, OneLine sp.name)
    {fuel : Nat} (enough : sps.length ≤ fuel) (rest : List Char)
    : readRecords fuel (sps.flatMap SpawnPoint.line ++ rest)
      = sps.map SpawnPoint.record ++ readRecords (fuel - sps.length) rest := by
  induction sps generalizing fuel with
  | nil => rfl
  | cons sp sps ih =>
      cases fuel with
      | zero => cases enough
      | succ fuel =>
          have here := readRecord_oneLine (one sp List.mem_cons_self)
            (sps.flatMap SpawnPoint.line ++ rest)
          rw [List.flatMap_cons, List.append_assoc, readRecords, if_neg (line_ne_nil sp _), here]
          dsimp only
          rw [ih (fun other member => one other (List.mem_cons_of_mem sp member))
            (Nat.le_of_succ_le_succ enough)]
          simp

theorem length_lines (sps : List SpawnPoint)
    : sps.length ≤ (sps.flatMap SpawnPoint.line).length := by
  induction sps with
  | nil => exact Nat.le_refl _
  | cons sp sps ih =>
      have positive := List.length_pos_of_ne_nil (line_ne_nil sp [])
      simp only [List.append_nil] at positive
      rw [List.flatMap_cons, List.length_append, List.length_cons]
      omega

-----------------------------------------------------------------------------------------
-- A file
-----------------------------------------------------------------------------------------

/-- The points of a map in the order of a hash. -/
def walked (rank : List Char → Nat) (points : SpawnPoints) : List SpawnPoint :=
  (walk rank points).map Prod.snd

theorem spawnFile_eq (m : SpawnMonitor) (rank : List Char → Nat)
    : m.spawnFile rank = (walked rank m.points).flatMap SpawnPoint.line := by
  rw [spawnFile, walked, List.flatMap_map]

theorem mem_walked {rank : List Char → Nat} {points : SpawnPoints} (own : OwnKeys points)
    {sp : SpawnPoint}
    : sp ∈ walked rank points ↔ points.find? sp.key = some sp := by
  rw [walked, List.mem_map]
  constructor
  · rintro ⟨entry, member, rfl⟩
    have found := mem_walk.mp member
    rwa [own _ _ found]
  · intro found
    exact ⟨(sp.key, sp), mem_walk.mpr found, rfl⟩

/-- Of the points in a map one at most is at a location. -/
theorem walked_loc {rank : List Char → Nat} {points : SpawnPoints} (own : OwnKeys points)
    {sp sp' : SpawnPoint} (member : sp ∈ walked rank points) (member' : sp' ∈ walked rank points)
    (same : sp.loc = sp'.loc)
    : sp = sp' := by
  have found := (mem_walked own).mp member
  have found' := (mem_walked own).mp member'
  rw [SpawnPoint.key, same] at found
  exact Option.some.inj (found.symm.trans found')

/-- The records of all points hold that of the point at each location. -/
theorem find?_records {rank : List Char → Nat} {points : SpawnPoints} (own : OwnKeys points)
    (L : EQPoint)
    : ((walked rank points).map SpawnPoint.record).find? (·.loc = L)
      = (points.find? L.key).map SpawnPoint.record := by
  rw [List.find?_map]
  cases held : points.find? L.key with
  | none =>
      apply Option.map_eq_none_iff.mpr
      apply List.find?_eq_none.mpr
      intro sp member here
      have found := (mem_walked own).mp member
      have there : sp.loc = L := of_decide_eq_true here
      rw [SpawnPoint.key, there, held] at found
      cases found
  | some sp =>
      have key := own _ _ held
      obtain rfl : sp.loc = L := EQPoint.key_inj key
      have member : sp ∈ walked rank points := (mem_walked own).mpr held
      cases first : (walked rank points).find? ((fun r : SpawnPointRecord => decide (r.loc = sp.loc))
          ∘ SpawnPoint.record) with
      | none => exact absurd (List.find?_eq_none.mp first sp member) (by simp [SpawnPoint.record])
      | some other =>
          have found := List.find?_some first
          have here : other.loc = sp.loc := of_decide_eq_true found
          rw [walked_loc own (List.mem_of_find?_eq_some first) member here]

/-- What a monitor holds after it saved its points and began the zone again. -/
def SpawnMonitor.reloaded (m : SpawnMonitor) (s : Saving) (now : Int64) : SpawnMonitor :=
  (m.saveSpawnPoints s).1.clear.loadSpawnPoints ((m.saveSpawnPoints s).2 .canonical) now

/-- Every step of a save succeeds. -/
structure Saving.Succeeds (s : Saving) : Prop where
  stores : s.stores = id
  seesOld : s.seesOld = true
  seesBackup : s.seesBackup = true
  removesBackup : s.removesBackup = true
  renamesOld : s.renamesOld = true
  renamesNew : s.renamesNew = true

/-- A save that succeeds leaves the points under the name of the file. -/
theorem stored_of_succeeds {m : SpawnMonitor} {s : Saving} (saves : m.Saves s)
    (succeeds : s.Succeeds)
    : (m.saveSpawnPoints s).2 .canonical = some (m.spawnFile s.rank) := by
  rw [saveSpawnPoints_of_saves saves]
  obtain ⟨stores, seesOld, seesBackup, removesBackup, renamesOld, renamesNew⟩ := succeeds
  cases old : s.directory .canonical with
  | none => simp [replaceFile, Directory.seen, Directory.rename, stores, renamesNew, old]
  | some contents =>
      cases backup : s.directory .backup with
      | none =>
          simp [replaceFile, removeBackup, Directory.seen, Directory.rename, stores, seesOld,
            renamesOld, renamesNew, old, backup]
      | some kept =>
          simp [replaceFile, removeBackup, Directory.seen, Directory.rename, Directory.remove, stores,
            seesOld, seesBackup, removesBackup, renamesOld, renamesNew, old, backup]

theorem find?_reloaded {m : SpawnMonitor} {s : Saving} (saves : m.Saves s)
    (succeeds : s.Succeeds) (now : Int64) (L : EQPoint)
    : ((m.reloaded s now).points.find? L.key).map SpawnPoint.record
      = (spawnRecords (m.spawnFile s.rank)).find? (·.loc = L) := by
  obtain ⟨_, saved⟩ := m.saveSpawnPoints_eq s
  have persist : (m.saveSpawnPoints s).1.persist = true := by
    rw [saved]
    exact saves.1
  have place := congrArg Place.point
    (place_loadSpawnPoints (m.saveSpawnPoints s).1 ((m.saveSpawnPoints s).2 .canonical) now L)
  rw [records, persist, stored_of_succeeds saves succeeds] at place
  rw [SpawnMonitor.reloaded, stored_of_succeeds saves succeeds]
  calc _ = (((spawnRecords (m.spawnFile s.rank)).find? (·.loc = L)).map (·.point now)).map
        SpawnPoint.record := congrArg _ place
    _ = (spawnRecords (m.spawnFile s.rank)).find? (·.loc = L) := by
        have undone : SpawnPoint.record ∘ (·.point now) = id :=
          funext fun r => record_point r now
        rw [Option.map_map, undone, Option.map_id]
        rfl

theorem spawnRecords_oneLine {m : SpawnMonitor} {rank : List Char → Nat}
    (one : ∀ sp ∈ walked rank m.points, OneLine sp.name)
    : spawnRecords (m.spawnFile rank) = (walked rank m.points).map SpawnPoint.record := by
  have read := readRecords_lines one (length_lines _) []
  have ended (fuel : Nat) : readRecords fuel [] = [] := by
    cases fuel <;> rfl
  rw [List.append_nil, ended, List.append_nil] at read
  rw [spawnRecords, spawnFile_eq, read]

/-- The first point whose name is not one line without blanks around it is read with another name,
and no point that is read before it has its location.
-/
theorem find?_other {m : SpawnMonitor} {rank : List Char → Nat} (own : OwnKeys m.points)
    {sp : SpawnPoint} (member : sp ∈ walked rank m.points) (other : ¬ OneLine sp.name)
    : ∃ bad ∈ walked rank m.points, ∃ r,
        (spawnRecords (m.spawnFile rank)).find? (·.loc = bad.loc) = some r
          ∧ r.name ≠ bad.name := by
  have some_bad : ((walked rank m.points).find? fun sp => !decide (OneLine sp.name)).isSome := by
    rw [List.find?_isSome]
    exact ⟨sp, member, by simpa using other⟩
  obtain ⟨bad, first⟩ := Option.isSome_iff_exists.mp some_bad
  obtain ⟨isBad, good, rest, split, allGood⟩ := List.find?_eq_some_iff_append.mp first
  have isBad : ¬ OneLine bad.name := by simpa using isBad
  have allGood : ∀ sp ∈ good, OneLine sp.name := fun sp member => by simpa using allGood sp member
  have inWalk : bad ∈ walked rank m.points := List.mem_of_find?_eq_some first
  obtain ⟨loc, name⟩ := readRecord_other isBad (rest.flatMap SpawnPoint.line)
  refine ⟨bad, inWalk, _, ?_, name⟩
  have enough := length_lines (walked rank m.points)
  have text : m.spawnFile rank
      = good.flatMap SpawnPoint.line ++ (bad.line ++ rest.flatMap SpawnPoint.line) := by
    rw [spawnFile_eq, split, List.flatMap_append, List.flatMap_cons]
  rw [← spawnFile_eq, split, List.length_append, List.length_cons] at enough
  obtain ⟨fuel, size⟩ : ∃ fuel, (m.spawnFile rank).length - good.length = fuel + 1 :=
    ⟨(m.spawnFile rank).length - good.length - 1, by omega⟩
  rw [spawnRecords]
  generalize (m.spawnFile rank).length = size' at enough size
  rw [text, readRecords_lines allGood (by omega), size, readRecords, if_neg (line_ne_nil bad _),
    List.find?_append, List.find?_cons_of_pos (by simpa using loc)]
  have none : (good.map SpawnPoint.record).find? (·.loc = bad.loc) = none := by
    apply List.find?_eq_none.mpr
    intro r read here
    obtain ⟨sp, before, rfl⟩ := List.mem_map.mp read
    have inWalk' : sp ∈ walked rank m.points := by
      rw [split]
      exact List.mem_append_left _ before
    have same : sp = bad := walked_loc own inWalk' inWalk (of_decide_eq_true here)
    exact isBad (same ▸ allGood sp before)
  rw [none]
  rfl

/-- Saving and loading again keeps location, respawn time, count and name of each point, and adds
none, if and only if every name is one line without blanks around it.
-/
theorem reloaded_iff {m : SpawnMonitor} {s : Saving} (own : OwnKeys m.points) (saves : m.Saves s)
    (succeeds : s.Succeeds) (now : Int64)
    : (m.reloaded s now).points.mapValues SpawnPoint.record
        = m.points.mapValues SpawnPoint.record
      ↔ ∀ entry ∈ m.points.entries, OneLine entry.2.name := by
  constructor
  · rintro same ⟨key, sp⟩ entry
    by_contra other
    have found := OrderedMap.find?_eq_some_iff.mpr entry
    have member : sp ∈ walked s.rank m.points :=
      (mem_walked own).mpr (by rw [own key sp found]; exact found)
    obtain ⟨bad, inWalk, r, read, name⟩ := find?_other own member other
    have kept : m.points.find? bad.loc.key = some bad := (mem_walked own).mp inWalk
    have lookup := congrArg (OrderedMap.find? · bad.loc.key) same
    simp only [OrderedMap.find?_mapValues, find?_reloaded saves succeeds, read, kept,
      Option.map_some] at lookup
    exact name (congrArg SpawnPointRecord.name (Option.some.inj lookup))
  · intro one
    have allOne : ∀ sp ∈ walked s.rank m.points, OneLine sp.name := by
      intro sp member
      exact one _ (OrderedMap.mem_of_find? ((mem_walked own).mp member))
    have ownAgain : OwnKeys (m.reloaded s now).points :=
      (wellKept_loadSpawnPoints _ _ now).points
    apply OrderedMap.ext_find?
    intro key
    rw [OrderedMap.find?_mapValues, OrderedMap.find?_mapValues]
    by_cases location : ∃ L : EQPoint, L.key = key
    · obtain ⟨L, rfl⟩ := location
      rw [find?_reloaded saves succeeds, spawnRecords_oneLine allOne, find?_records own]
    · have none {points : SpawnPoints} (own : OwnKeys points) : points.find? key = none := by
        cases held : points.find? key with
        | none => rfl
        | some sp => exact absurd ⟨sp.loc, own key sp held⟩ location
      rw [none own, none ownAgain]

/-- A monitor with a point that a client named. -/
def named (name : List Char) : SpawnMonitor :=
  { zoneName := ['q'], spawns := .empty
    points := OrderedMap.empty.insert (EQPoint.mk 1 (-2) 3).key
      { SpawnPoint.create 1000 7 ⟨1, -2, 3⟩ name 300 2 with last := "a_rat00".toList }
    persist := true, modified := true }

theorem saves_named (name : List Char) : (named name).Saves Watched.plainSaving :=
  ⟨rfl, rfl, List.cons_ne_nil _ _, rfl⟩

theorem ownKeys_named (name : List Char) : OwnKeys (named name).points :=
  ownKeys_empty.insert rfl

theorem succeeds_plainSaving : Watched.plainSaving.Succeeds := ⟨rfl, rfl, rfl, rfl, rfl, rfl⟩

/-- A point whose name has a blank between its words. -/
theorem reloaded_named
    : ((named "camp 4".toList).reloaded Watched.plainSaving 2000).points.mapValues
          SpawnPoint.record
        = (named "camp 4".toList).points.mapValues SpawnPoint.record
      ↔ ∀ entry ∈ (named "camp 4".toList).points.entries, OneLine entry.2.name :=
  reloaded_iff (ownKeys_named _) (saves_named _) succeeds_plainSaving 2000

/-- A name with a line break becomes two points. -/
theorem size_reloaded_named
    : ((named "camp\n5 6 7 8 9 x".toList).reloaded Watched.plainSaving 2000).points.size = 2 := by
  decide +kernel

theorem size_named (name : List Char) : (named name).points.size = 1 := rfl

theorem not_reloaded_named
    : ¬ ∀ (m : SpawnMonitor) (s : Saving) (now : Int64), OwnKeys m.points → m.Saves s →
        s.Succeeds →
        (m.reloaded s now).points.mapValues SpawnPoint.record
          = m.points.mapValues SpawnPoint.record := by
  intro reloads
  have two := size_reloaded_named
  generalize "camp\n5 6 7 8 9 x".toList = name at two
  have same := congrArg OrderedMap.size (reloads (named name) Watched.plainSaving 2000
    (ownKeys_named name) (saves_named name) succeeds_plainSaving)
  have one := size_named name
  rw [OrderedMap.size_mapValues, OrderedMap.size_mapValues, two, one] at same
  cases same

end Scry
