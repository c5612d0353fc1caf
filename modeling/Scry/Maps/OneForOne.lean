import Scry.Maps.MapFile

/-! What a map file draws: a line or a location for each valid record, in the order of the file,
and bounds that hold every point.
-/

namespace Scry
namespace Maps

/-! What each record stands for. -/

namespace MapRecord

/-- The points in the plane that fields give, two fields each. -/
def planePoints (fields : List (List Char)) : List QPoint :=
  (List.range (fields.length / 2)).map fun i =>
    ⟨(toShort (fields.getD (2 * i) [])).toInt, (toShort (fields.getD (2 * i + 1) [])).toInt⟩

/-- The points in space that fields give, three fields each. -/
def spacePoints (fields : List (List Char)) : List MapPoint :=
  (List.range (fields.length / 3)).map fun i =>
    ⟨toShort (fields.getD (3 * i) []), toShort (fields.getD (3 * i + 1) []),
      toShort (fields.getD (3 * i + 2) [])⟩

variable (numbers : NumberReader)

/-- The line of a valid L record: a name, a color, a number and at least two points. -/
def lLine (r : MapRecord) (height : Option Int16) : List MapLineL :=
  match r.entryType, r.fields with
  | some 'L', name :: color :: specified :: fields =>
      if 2 ≤ fields.length / 2 ∧ (toUInt? specified).isSome then
        [MapLineL.calcBounds
          { common := .ofName numbers name (lineColor color)
            points := planePoints fields
            z := height.getD 0
            heightSet := height.isSome
            bounds := .null }]
      else []
  | _, _ => []

/-- The line of a valid M record. -/
def mLine (r : MapRecord) : List MapLineM :=
  match r.entryType, r.fields with
  | some 'M', name :: color :: specified :: fields =>
      if 2 ≤ fields.length / 3 ∧ (toUInt? specified).isSome then
        [MapLineM.calcBounds
          { common := .ofName numbers name (lineColor color)
            points := spacePoints fields
            bounds := .null }]
      else []
  | _, _ => []

/-- The location of a valid P record: its own height where it has exactly five fields. -/
def location (r : MapRecord) (height : Option Int16) : List MapLocation :=
  match r.entryType, r.fields with
  | some 'P', name :: color :: x :: y :: fields =>
      match fields with
      | [z] => [.ofFields numbers name color (toShort x) (toShort y) (some (toShort z))]
      | _ => [.ofFields numbers name color (toShort x) (toShort y) height]
  | _, _ => []

/-- What an H record says of the height: nothing, or no valid height, or a height. -/
def mark? (r : MapRecord) : Option (Option Int16) :=
  match r.entryType, r.fields with
  | some 'H', height :: _ => some (toShort? height)
  | _, _ => none

/-- The height of a valid H record. -/
def height? (r : MapRecord) : Option Int16 := r.mark?.join

/-- A P record of exactly five fields. -/
def FiveFields (r : MapRecord) : Prop := r.entryType = some 'P' ∧ r.fields.length = 5

instance (r : MapRecord) : Decidable r.FiveFields :=
  inferInstanceAs (Decidable (r.entryType = some 'P' ∧ r.fields.length = 5))

/-- A record that is drawn at the height of the file where there is one. -/
def TakesHeight (r : MapRecord) : Prop :=
  r.lLine numbers none ≠ [] ∨ (r.location numbers none ≠ [] ∧ ¬ r.FiveFields)

end MapRecord

/-- The height of the latest valid H record. -/
def lastHeight (past : List MapRecord) : Option Int16 := past.reverse.findSome? MapRecord.height?

/-- What the latest H record says, valid or not. -/
def lastMark (past : List MapRecord) : Option (Option Int16) :=
  past.reverse.findSome? MapRecord.mark?

/-- What records draw one after the other, each at a height that the ones before it give. -/
def drawn {α : Type} (height : List MapRecord → Option Int16)
    (draw : MapRecord → Option Int16 → List α) (past : List MapRecord)
    : List MapRecord → List α
  | [] => []
  | r :: rest => draw r (height past) ++ drawn height draw (past ++ [r]) rest

/-- The points of a layer in the plane. -/
def MapLayer.points (layer : MapLayer) : List QPoint :=
  layer.lLines.flatMap MapLineL.points
    ++ layer.mLines.flatMap (fun line => line.points.map MapPoint.qpoint)
    ++ layer.locations.map (fun location => location.point.qpoint)

/-- A layer draws records one for one, and bounds hold what it draws. -/
structure OneForOne (numbers : NumberReader) (records : List MapRecord) (layer : MapLayer)
    (bounds : QRect) : Prop where
  lLines : layer.lLines = drawn lastHeight (MapRecord.lLine numbers) [] records
  mLines : layer.mLines = records.flatMap (MapRecord.mLine numbers)
  locations : layer.locations = drawn lastHeight (MapRecord.location numbers) [] records
  bounds : ∀ p ∈ layer.points, bounds.Contains p

/-- The latest H record is valid, or no height was set before it or one of 0. -/
def HeightKept (past : List MapRecord) : Prop :=
  lastMark past ≠ some none ∨ lastHeight past = none ∨ lastHeight past = some 0

/-- No P record has exactly five fields, and no invalid H record stands between a height other
than 0 and a record drawn at it.
-/
structure Plain (numbers : NumberReader) (records : List MapRecord) : Prop where
  fields : ∀ r ∈ records, ¬ r.FiveFields
  heights : ∀ past r later, records = past ++ r :: later → r.TakesHeight numbers → HeightKept past

namespace MapRecord

theorem planePoints_cons (x y : List Char) (fields : List (List Char))
    : planePoints (x :: y :: fields)
      = ⟨(toShort x).toInt, (toShort y).toInt⟩ :: planePoints fields := by
  have half : (x :: y :: fields).length / 2 = fields.length / 2 + 1 := by
    simp only [List.length_cons]
    omega
  rw [planePoints, half, List.range_succ_eq_map, List.map_cons, List.map_map]
  rfl

theorem spacePoints_cons (x y z : List Char) (fields : List (List Char))
    : spacePoints (x :: y :: z :: fields)
      = ⟨toShort x, toShort y, toShort z⟩ :: spacePoints fields := by
  have third : (x :: y :: z :: fields).length / 3 = fields.length / 3 + 1 := by
    simp only [List.length_cons]
    omega
  rw [spacePoints, third, List.range_succ_eq_map, List.map_cons, List.map_map]
  rfl

/-- A vector with its first points set, after the next one is. -/
theorem set_next {α : Type} (front : List α) (unset point : α) (n : Nat)
    : (front ++ List.replicate (n + 1) unset).set front.length point
      = (front ++ [point]) ++ List.replicate n unset := by
  rw [List.set_append_right _ _ (Nat.le_refl _), Nat.sub_self, List.replicate_succ,
    List.set_cons_zero, List.append_assoc, List.singleton_append]

/-- The loop sets the points of the fields one after the other, by induction on how many there
are.
-/
theorem readL_eq (front : List QPoint) (fields : List (List Char))
    : readL (front ++ List.replicate (fields.length / 2) ⟨0, 0⟩) front.length fields
      = front ++ planePoints fields := by
  induction count : fields.length / 2 generalizing front fields with
  | zero =>
      have few : fields.length < 2 := by omega
      have none : planePoints fields = [] := by
        rw [planePoints, count, List.range_zero, List.map_nil]
      rw [none]
      match fields with
      | [] => simp [readL]
      | [_] => simp [readL]
      | _ :: _ :: _ => simp only [List.length_cons] at few; omega
  | succ n ih =>
      match fields with
      | [] => simp at count
      | [_] => simp at count
      | x :: y :: rest =>
          have half : rest.length / 2 = n := by
            simp only [List.length_cons] at count
            omega
          have more := ih (front ++ [⟨(toShort x).toInt, (toShort y).toInt⟩]) rest half
          rw [readL, if_pos (by simp), set_next, planePoints_cons,
            List.append_cons front _ (planePoints rest), ← more, List.length_append]
          rfl

theorem readM_eq (front : List MapPoint) (fields : List (List Char))
    : readM (front ++ List.replicate (fields.length / 3) ⟨0, 0, 0⟩) front.length fields
      = front ++ spacePoints fields := by
  induction count : fields.length / 3 generalizing front fields with
  | zero =>
      have few : fields.length < 3 := by omega
      have none : spacePoints fields = [] := by
        rw [spacePoints, count, List.range_zero, List.map_nil]
      rw [none]
      match fields with
      | [] => simp [readM]
      | [_] => simp [readM]
      | [_, _] => simp [readM]
      | _ :: _ :: _ :: _ => simp only [List.length_cons] at few; omega
  | succ n ih =>
      match fields with
      | [] => simp at count
      | [_] => simp at count
      | [_, _] => simp at count
      | x :: y :: z :: rest =>
          have third : rest.length / 3 = n := by
            simp only [List.length_cons] at count
            omega
          have more := ih (front ++ [⟨toShort x, toShort y, toShort z⟩]) rest third
          rw [readM, if_pos (by simp), set_next, spacePoints_cons,
            List.append_cons front _ (spacePoints rest), ← more, List.length_append]
          rfl

/-- The locations of a P record as they are appended: one of five fields gets a second one, at the
height of the file.
-/
def locations (numbers : NumberReader) (r : MapRecord) (height : Option Int16)
    : List MapLocation :=
  match r.entryType, r.fields with
  | some 'P', name :: color :: x :: y :: fields =>
      (match fields with
      | [z] => [.ofFields numbers name color (toShort x) (toShort y) (some (toShort z))]
      | _ => [])
      ++ [.ofFields numbers name color (toShort x) (toShort y) height]
  | _, _ => []

end MapRecord

namespace Loading

variable {numbers : NumberReader} {s : Loading}

/-- The height that lines and locations get. -/
def height (s : Loading) : Option Int16 := if s.globHeightSet then some s.globHeight else none

theorem loadM_layer (fields : List (List Char))
    : (s.loadM numbers fields).layer
      = { s.layer with
          mLines := s.layer.mLines ++ (MapRecord.mk (some 'M') fields).mLine numbers } := by
  match fields with
  | [] => simp [loadM, MapRecord.mLine]
  | [_] => simp [loadM, MapRecord.mLine]
  | [_, _] => simp [loadM, MapRecord.mLine]
  | name :: color :: specified :: fields =>
      simp only [loadM, MapRecord.mLine]
      by_cases few : fields.length / 3 < 2
      · simp [few, Nat.not_le.mpr few]
      · have enough : 2 ≤ fields.length / 3 := Nat.not_lt.mp few
        cases number : toUInt? specified with
        | none => simp [few]
        | some n =>
            have points := MapRecord.readM_eq [] fields
            simp only [List.nil_append, List.length_nil] at points
            simp only [few, if_false, enough, Option.isSome_some, and_self, if_true, points]

theorem loadL_layer (fields : List (List Char))
    : (s.loadL numbers fields).layer
      = { s.layer with
          lLines := s.layer.lLines
            ++ (MapRecord.mk (some 'L') fields).lLine numbers s.height } := by
  match fields with
  | [] => simp [loadL, MapRecord.lLine]
  | [_] => simp [loadL, MapRecord.lLine]
  | [_, _] => simp [loadL, MapRecord.lLine]
  | name :: color :: specified :: fields =>
      simp only [loadL, MapRecord.lLine, Nat.shiftRight_one]
      by_cases few : fields.length / 2 < 2
      · simp [few, Nat.not_le.mpr few]
      · have enough : 2 ≤ fields.length / 2 := Nat.not_lt.mp few
        cases number : toUInt? specified with
        | none => simp [few]
        | some n =>
            have points := MapRecord.readL_eq [] fields
            simp only [List.nil_append, List.length_nil] at points
            have z : (if s.globHeightSet then s.globHeight else 0) = s.height.getD 0 := by
              rw [height]
              split <;> rfl
            have set : s.globHeightSet = s.height.isSome := by
              rw [height]
              split
              · assumption
              · simp_all
            simp only [few, if_false, enough, Option.isSome_some, and_self, if_true, points, z]
            rw [set]

theorem loadP_layer (fields : List (List Char))
    : (s.loadP numbers fields).layer
      = { s.layer with
          locations := s.layer.locations
            ++ (MapRecord.mk (some 'P') fields).locations numbers s.height } := by
  match fields with
  | [] => simp [loadP, MapRecord.locations]
  | [_] => simp [loadP, MapRecord.locations]
  | [_, _] => simp [loadP, MapRecord.locations]
  | [_, _, _] => simp [loadP, MapRecord.locations]
  | name :: color :: x :: y :: fields =>
      simp only [loadP, MapRecord.locations, height]
      split <;> split <;> simp

theorem loadA_layer (fields : List (List Char)) : (s.loadA fields).layer = s.layer := by
  rw [loadA.eq_def]
  split
  · split
    · rfl
    · dsimp only
      split <;> rfl
  · rfl

theorem loadH_layer (fields : List (List Char)) : (s.loadH fields).layer = s.layer := by
  rw [loadH.eq_def]
  split
  · dsimp only
    split <;> rfl
  · rfl

theorem loadZ_layer (fields : List (List Char)) : (s.loadZ fields).layer = s.layer := by
  rw [loadZ.eq_def]
  split <;> rfl

/-- What a record draws on the layer. -/
theorem loadRecord_layer (r : MapRecord)
    : (s.loadRecord numbers r).layer
      = { s.layer with
          lLines := s.layer.lLines ++ r.lLine numbers s.height
          mLines := s.layer.mLines ++ r.mLine numbers
          locations := s.layer.locations ++ r.locations numbers s.height } := by
  obtain ⟨entryType, fields⟩ := r
  simp only [loadRecord]
  split
  · simp [loadM_layer, MapRecord.lLine, MapRecord.locations]
  · simp [loadL_layer, MapRecord.mLine, MapRecord.locations]
  · simp [loadP_layer, MapRecord.lLine, MapRecord.mLine]
  · simp [loadA_layer, MapRecord.lLine, MapRecord.mLine, MapRecord.locations]
  · simp [loadH_layer, MapRecord.lLine, MapRecord.mLine, MapRecord.locations]
  · simp [loadZ_layer, MapRecord.lLine, MapRecord.mLine, MapRecord.locations]
  case _ notM notL notP _ _ _ =>
    have lLine : (MapRecord.mk entryType fields).lLine numbers s.height = [] := by
      unfold MapRecord.lLine
      split
      case h_1 type _ => exact absurd type notL
      · rfl
    have mLine : (MapRecord.mk entryType fields).mLine numbers = [] := by
      unfold MapRecord.mLine
      split
      case h_1 type _ => exact absurd type notM
      · rfl
    have locations : (MapRecord.mk entryType fields).locations numbers s.height = [] := by
      unfold MapRecord.locations
      split
      case h_1 type _ => exact absurd type notP
      · rfl
    simp only [lLine, mLine, locations, List.append_nil]

/-- The height's value and whether it is set. -/
def glob (s : Loading) : Int16 × Bool := (s.globHeight, s.globHeightSet)

theorem mapLayers_takeHint (m : MapData) (fields : List (List Char))
    : (takeHint m fields).mapLayers = m.mapLayers := by
  rw [takeHint]
  split
  · split <;> rfl
  · rfl

/-! All records but H records keep the height, and every record keeps the layers of the map. -/

theorem loadM_keeps (fields : List (List Char))
    : (s.loadM numbers fields).glob = s.glob
      ∧ (s.loadM numbers fields).data.mapLayers = s.data.mapLayers := by
  rw [loadM.eq_def]
  split
  · dsimp only
    split
    · exact ⟨rfl, rfl⟩
    · split <;> exact ⟨rfl, rfl⟩
  · exact ⟨rfl, rfl⟩

theorem loadL_keeps (fields : List (List Char))
    : (s.loadL numbers fields).glob = s.glob
      ∧ (s.loadL numbers fields).data.mapLayers = s.data.mapLayers := by
  rw [loadL.eq_def]
  split
  · dsimp only
    split
    · exact ⟨rfl, rfl⟩
    · split <;> exact ⟨rfl, rfl⟩
  · exact ⟨rfl, rfl⟩

theorem loadP_keeps (fields : List (List Char))
    : (s.loadP numbers fields).glob = s.glob
      ∧ (s.loadP numbers fields).data.mapLayers = s.data.mapLayers := by
  rw [loadP.eq_def]
  split
  · exact ⟨rfl, mapLayers_takeHint _ _⟩
  · exact ⟨rfl, rfl⟩

theorem loadA_keeps (fields : List (List Char))
    : (s.loadA fields).glob = s.glob ∧ (s.loadA fields).data.mapLayers = s.data.mapLayers := by
  rw [loadA.eq_def]
  split
  · split
    · exact ⟨rfl, rfl⟩
    · dsimp only
      split <;> exact ⟨rfl, rfl⟩
  · exact ⟨rfl, rfl⟩

theorem loadH_mapLayers (fields : List (List Char))
    : (s.loadH fields).data.mapLayers = s.data.mapLayers := by
  rw [loadH.eq_def]
  split
  · dsimp only
    split <;> rfl
  · rfl

theorem loadZ_keeps (fields : List (List Char))
    : (s.loadZ fields).glob = s.glob ∧ (s.loadZ fields).data.mapLayers = s.data.mapLayers := by
  rw [loadZ.eq_def]
  split <;> exact ⟨rfl, rfl⟩

theorem loadRecord_mapLayers (r : MapRecord)
    : (s.loadRecord numbers r).data.mapLayers = s.data.mapLayers := by
  rw [loadRecord]
  split
  · exact (loadM_keeps _).2
  · exact (loadL_keeps _).2
  · exact (loadP_keeps _).2
  · exact (loadA_keeps _).2
  · exact loadH_mapLayers _
  · exact (loadZ_keeps _).2
  · rfl

theorem foldl_mapLayers (records : List MapRecord)
    : (records.foldl (loadRecord numbers) s).data.mapLayers = s.data.mapLayers := by
  induction records generalizing s with
  | nil => rfl
  | cons r rest ih => exact ih.trans (loadRecord_mapLayers r)

/-- What a record makes of the height: one that says nothing of it leaves it, and an invalid one
makes it 0.
-/
theorem loadRecord_glob (r : MapRecord)
    : (s.loadRecord numbers r).globHeight = (r.mark?.map (·.getD 0)).getD s.globHeight
      ∧ (s.loadRecord numbers r).globHeightSet = (r.height?.isSome || s.globHeightSet) := by
  obtain ⟨entryType, fields⟩ := r
  by_cases type : entryType = some 'H'
  · subst type
    match fields with
    | [] => simp [loadRecord, loadH, MapRecord.height?, MapRecord.mark?]
    | height :: _ =>
        cases number : toShort? height with
        | none => simp [loadRecord, loadH, MapRecord.height?, MapRecord.mark?, toShort, number]
        | some z => simp [loadRecord, loadH, MapRecord.height?, MapRecord.mark?, toShort, number]
  · have mark : (MapRecord.mk entryType fields).mark? = none := by
      unfold MapRecord.mark?
      split
      case h_1 same _ => exact absurd same type
      · rfl
    have same : (s.loadRecord numbers ⟨entryType, fields⟩).glob = s.glob := by
      simp only [loadRecord]
      split
      · exact (loadM_keeps fields).1
      · exact (loadL_keeps fields).1
      · exact (loadP_keeps fields).1
      · exact (loadA_keeps fields).1
      · exact absurd rfl type
      · exact (loadZ_keeps fields).1
      · rfl
    rw [MapRecord.height?, mark]
    exact Prod.mk.inj same

theorem lastHeight_append (past : List MapRecord) (r : MapRecord)
    : lastHeight (past ++ [r]) = r.height?.or (lastHeight past) := by
  simp [lastHeight, List.findSome?_cons]
  cases r.height? <;> rfl

theorem lastMark_append (past : List MapRecord) (r : MapRecord)
    : lastMark (past ++ [r]) = r.mark?.or (lastMark past) := by
  simp [lastMark, List.findSome?_cons]
  cases r.mark? <;> rfl

/-- The height is what the records so far say. -/
structure Follows (s : Loading) (past : List MapRecord) : Prop where
  set : s.globHeightSet = (lastHeight past).isSome
  height : s.globHeight = (lastMark past).join.getD 0

theorem Follows.loadRecord {past : List MapRecord} (follows : s.Follows past) (r : MapRecord)
    : (s.loadRecord numbers r).Follows (past ++ [r]) := by
  obtain ⟨height, set⟩ := @loadRecord_glob numbers s r
  constructor
  · rw [set, lastHeight_append, follows.set]
    cases r.height? <;> rfl
  · rw [height, lastMark_append, follows.height]
    cases r.mark? <;> rfl

end Loading

/-- The height a file's records have set when a record is loaded. -/
def storedHeight (past : List MapRecord) : Option Int16 :=
  if (lastHeight past).isSome then some ((lastMark past).join.getD 0) else none

namespace Loading

variable {numbers : NumberReader}

theorem Follows.height_eq {s : Loading} {past : List MapRecord} (follows : s.Follows past)
    : s.height = storedHeight past := by
  rw [Loading.height, storedHeight, follows.set, follows.height]

/-- What records draw on the layer, by induction on them. -/
theorem foldl_loadRecord_layer {s : Loading} {past : List MapRecord} (follows : s.Follows past)
    (records : List MapRecord)
    : (records.foldl (loadRecord numbers) s).layer
      = { s.layer with
          lLines := s.layer.lLines ++ drawn storedHeight (MapRecord.lLine numbers) past records
          mLines := s.layer.mLines ++ records.flatMap (MapRecord.mLine numbers)
          locations := s.layer.locations
            ++ drawn storedHeight (MapRecord.locations numbers) past records } := by
  induction records generalizing s past with
  | nil => simp [drawn]
  | cons r rest ih =>
      rw [List.foldl_cons, ih (follows.loadRecord r), loadRecord_layer, follows.height_eq]
      simp only [drawn, List.flatMap_cons, List.append_assoc]

end Loading

/-! Where the height that is set is the one of the latest valid record. -/

/-- A valid latest H record gives the height, by induction on the records. -/
theorem lastHeight_of_lastMark (past : List MapRecord) (valid : lastMark past ≠ some none)
    : lastHeight past = (lastMark past).join := by
  rw [lastMark] at valid
  rw [lastHeight, lastMark]
  generalize past.reverse = latestFirst at valid ⊢
  induction latestFirst with
  | nil => rfl
  | cons r rest ih =>
      cases marks : r.mark? with
      | none =>
          rw [List.findSome?_cons, marks] at valid
          simp only [List.findSome?_cons, MapRecord.height?, marks, Option.join_none]
          exact ih valid
      | some height =>
          cases height with
          | none => simp [marks] at valid
          | some z => simp [marks, MapRecord.height?]

theorem storedHeight_eq_iff (past : List MapRecord)
    : storedHeight past = lastHeight past ↔ HeightKept past := by
  rw [storedHeight, HeightKept]
  by_cases valid : lastMark past = some none
  · rw [valid]
    cases lastHeight past with
    | none => simp
    | some z => simp [eq_comm]
  · refine iff_of_true ?_ (.inl valid)
    rw [lastHeight_of_lastMark past valid]
    cases (lastMark past).join with
    | none => rfl
    | some z => rfl

/-- Where the number of things a record draws does not depend on the height, two heights draw the
same exactly where they do for every record, by induction on the records.
-/
theorem drawn_eq_iff {α : Type} {first second : List MapRecord → Option Int16}
    {draw : MapRecord → Option Int16 → List α} (past records : List MapRecord)
    (length : ∀ r ∈ records, ∀ h h', (draw r h).length = (draw r h').length)
    : drawn first draw past records = drawn second draw past records
      ↔ ∀ before r later, records = before ++ r :: later
        → draw r (first (past ++ before)) = draw r (second (past ++ before)) := by
  induction records generalizing past with
  | nil => simp [drawn]
  | cons r rest ih =>
      obtain ⟨same, others⟩ := List.forall_mem_cons.mp length
      rw [drawn, drawn]
      constructor
      · intro equal before r' later split
        obtain ⟨here, after⟩ := List.append_inj equal (same _ _)
        cases before with
        | nil =>
            obtain ⟨rfl, _⟩ := List.cons.inj split
            simpa using here
        | cons b before =>
            obtain ⟨rfl, tail⟩ := List.cons.inj split
            simpa using (ih (past ++ [r]) others).mp after before r' later tail
      · intro each
        have here : draw r (first past) = draw r (second past) := by
          simpa using each [] r rest rfl
        have after := (ih (past ++ [r]) others).mpr fun before r' later split => by
          simpa using each (r :: before) r' later (congrArg _ split)
        rw [here, after]

/-! The bounds hold every point that is drawn. -/

theorem mem_points {layer : MapLayer} {p : QPoint}
    : p ∈ layer.points
      ↔ (∃ line ∈ layer.lLines, p ∈ line.points)
        ∨ (∃ line ∈ layer.mLines, ∃ q ∈ line.points, q.qpoint = p)
        ∨ ∃ location ∈ layer.locations, location.point.qpoint = p := by
  simp only [MapLayer.points, List.mem_append, List.mem_flatMap, List.mem_map, or_assoc]

theorem covers_takeHint {m : MapData} {p : QPoint} (covers : m.Covers p)
    (fields : List (List Char))
    : (Loading.takeHint m fields).Covers p := by
  rw [Loading.takeHint]
  split
  · split
    · exact covers
    · exact ⟨covers.left, covers.right, covers.top, covers.bottom⟩
  · exact covers

namespace Loading

variable {numbers : NumberReader} {s : Loading}

/-- The bounds hold what is on the layer. -/
def Bounded (s : Loading) : Prop := ∀ p ∈ s.layer.points, s.data.Covers p

/-- The bounds hold what is drawn within a rectangle that they are moved to hold. -/
theorem Bounded.draw {t : Loading} {rect : QRect} {points : List QPoint} (bounded : s.Bounded)
    (spans : rect.Spans points) (data : t.data = s.data.quickCheckRect rect)
    (draws : ∀ p ∈ t.layer.points, p ∈ s.layer.points ∨ p ∈ points)
    : t.Bounded := by
  intro p member
  rw [data]
  rcases draws p member with old | new
  · exact (bounded p old).quickCheckRect _
  · exact MapData.covers_quickCheckRect spans.range (spans.contains p new)

theorem Bounded.loadM (bounded : s.Bounded) (fields : List (List Char))
    : (s.loadM numbers fields).Bounded := by
  rw [loadM.eq_def]
  split
  case h_1 name color specified fields =>
    dsimp only
    split
    · exact bounded
    case isFalse enough =>
      split
      · exact bounded
      · have read := MapRecord.readM_eq [] fields
        simp only [List.nil_append, List.length_nil] at read
        rw [read]
        have some : MapRecord.spacePoints fields ≠ [] := by
          rw [MapRecord.spacePoints]
          simp only [ne_eq, List.map_eq_nil_iff, List.range_eq_nil]
          omega
        have spans := @MapLineM.spans_calcBounds
          { common := .ofName numbers name (lineColor color)
            points := MapRecord.spacePoints fields
            bounds := .null } some
        refine bounded.draw spans rfl fun p member => ?_
        rcases mem_points.mp member with old | ⟨line, among, q, inLine, rfl⟩ | old
        · exact .inl (mem_points.mpr (.inl old))
        · rcases List.mem_append.mp among with before | new
          · exact .inl (mem_points.mpr (.inr (.inl ⟨line, before, q, inLine, rfl⟩)))
          · obtain rfl := List.mem_singleton.mp new
            exact .inr (List.mem_map_of_mem inLine)
        · exact .inl (mem_points.mpr (.inr (.inr old)))
  · exact bounded

theorem Bounded.loadL (bounded : s.Bounded) (fields : List (List Char))
    : (s.loadL numbers fields).Bounded := by
  rw [loadL.eq_def]
  split
  case h_1 name color specified fields =>
    dsimp only
    split
    · exact bounded
    case isFalse enough =>
      split
      · exact bounded
      · have read := MapRecord.readL_eq [] fields
        simp only [List.nil_append, List.length_nil] at read
        rw [Nat.shiftRight_one] at enough
        rw [Nat.shiftRight_one, read]
        have some : MapRecord.planePoints fields ≠ [] := by
          rw [MapRecord.planePoints]
          simp only [ne_eq, List.map_eq_nil_iff, List.range_eq_nil]
          omega
        have inRange : ∀ q ∈ MapRecord.planePoints fields, q.InRange := by
          intro q inside
          obtain ⟨i, _, rfl⟩ := List.mem_map.mp inside
          exact MapPoint.inRange ⟨_, _, 0⟩
        have spans := @MapLineL.spans_calcBounds
          { common := .ofName numbers name (lineColor color)
            points := MapRecord.planePoints fields
            z := if s.globHeightSet then s.globHeight else 0
            heightSet := s.globHeightSet
            bounds := .null } some inRange
        refine bounded.draw spans rfl fun p member => ?_
        rcases mem_points.mp member with ⟨line, among, inLine⟩ | old
        · rcases List.mem_append.mp among with before | new
          · exact .inl (mem_points.mpr (.inl ⟨line, before, inLine⟩))
          · obtain rfl := List.mem_singleton.mp new
            exact .inr inLine
        · exact .inl (mem_points.mpr (.inr old))
  · exact bounded

theorem Bounded.loadP (bounded : s.Bounded) (fields : List (List Char))
    : (s.loadP numbers fields).Bounded := by
  match fields with
  | [] => exact bounded
  | [_] => exact bounded
  | [_, _] => exact bounded
  | [_, _, _] => exact bounded
  | name :: color :: x :: y :: fields =>
      intro p member
      have layer := @loadP_layer numbers s (name :: color :: x :: y :: fields)
      refine covers_takeHint ?_ (name :: color :: x :: y :: fields)
      rcases mem_points.mp member with old | old | ⟨location, among, rfl⟩
      · exact (bounded p (mem_points.mpr (.inl old))).quickCheckPos _ _
      · exact (bounded p (mem_points.mpr (.inr (.inl old)))).quickCheckPos _ _
      · rw [layer] at among
        rcases List.mem_append.mp among with old | new
        · exact (bounded _ (mem_points.mpr (.inr (.inr ⟨location, old, rfl⟩)))).quickCheckPos _ _
        · have placed : ∃ height,
              location = .ofFields numbers name color (toShort x) (toShort y) height := by
            rcases List.mem_append.mp new with own | last
            · split at own
              · exact ⟨_, List.mem_singleton.mp own⟩
              · exact absurd own List.not_mem_nil
            · exact ⟨_, List.mem_singleton.mp last⟩
          obtain ⟨height, rfl⟩ := placed
          exact MapData.covers_quickCheckPos ⟨toShort x, toShort y, height.getD 0⟩

theorem Bounded.loadA (bounded : s.Bounded) (fields : List (List Char))
    : (s.loadA fields).Bounded := by
  rw [loadA.eq_def]
  split
  · split
    · exact bounded
    · dsimp only
      split
      · exact bounded
      · exact fun p member =>
          ⟨(bounded p member).left, (bounded p member).right, (bounded p member).top,
            (bounded p member).bottom⟩
  · exact bounded

theorem Bounded.loadH (bounded : s.Bounded) (fields : List (List Char))
    : (s.loadH fields).Bounded := by
  rw [loadH.eq_def]
  split
  · dsimp only
    split <;> exact bounded
  · exact bounded

theorem Bounded.loadZ (bounded : s.Bounded) (fields : List (List Char))
    : (s.loadZ fields).Bounded := by
  rw [loadZ.eq_def]
  split
  · exact fun p member =>
      ⟨(bounded p member).left, (bounded p member).right, (bounded p member).top,
        (bounded p member).bottom⟩
  · exact bounded

theorem Bounded.loadRecord (bounded : s.Bounded) (r : MapRecord)
    : (s.loadRecord numbers r).Bounded := by
  rw [Loading.loadRecord]
  split
  · exact bounded.loadM _
  · exact bounded.loadL _
  · exact bounded.loadP _
  · exact bounded.loadA _
  · exact bounded.loadH _
  · exact bounded.loadZ _
  · exact bounded

theorem Bounded.foldl (bounded : s.Bounded) (records : List MapRecord)
    : (records.foldl (Loading.loadRecord numbers) s).Bounded := by
  induction records generalizing s with
  | nil => exact bounded
  | cons r rest ih => exact ih (bounded.loadRecord r)

end Loading

/-! One for one, exactly where the records are plain. -/

namespace MapRecord

variable {numbers : NumberReader} {r : MapRecord}

theorem height_eq {h h' : Option Int16} (set : h.isSome = h'.isSome)
    (same : h.getD 0 = h'.getD 0)
    : h = h' := by
  cases h with
  | none =>
      cases h' with
      | none => rfl
      | some _ => contradiction
  | some z =>
      cases h' with
      | none => contradiction
      | some _ => exact congrArg some same

/-- Lines of a record at two heights are the same where there is no line, or the heights are. -/
theorem lLine_eq_iff (h h' : Option Int16)
    : r.lLine numbers h = r.lLine numbers h' ↔ r.lLine numbers none = [] ∨ h = h' := by
  refine ⟨fun same => ?_, ?_⟩
  · unfold lLine at same ⊢
    split at same
    · split at same
      case isTrue valid =>
        have line := List.singleton_inj.mp same
        exact .inr (height_eq (congrArg MapLineL.heightSet line) (congrArg MapLineL.z line))
      case isFalse invalid => exact .inl (if_neg invalid)
    · left
      rfl
  · rintro (none | rfl)
    · unfold lLine at none ⊢
      split at none
      · split at none
        · cases none
        case isFalse invalid => simp only [invalid, if_false]
      · rfl
    · rfl

theorem locations_of_not_five (plain : ¬ r.FiveFields) (h : Option Int16)
    : r.locations numbers h = r.location numbers h := by
  obtain ⟨entryType, fields⟩ := r
  unfold locations location
  split
  case h_1 name color x y rest type count =>
    split
    case h_1 z => exact absurd ⟨type, by rw [count]; rfl⟩ plain
    case h_2 => rfl
  · rfl

theorem location_eq_iff (plain : ¬ r.FiveFields) (h h' : Option Int16)
    : r.location numbers h = r.location numbers h'
      ↔ r.location numbers none = [] ∨ h = h' := by
  rw [← locations_of_not_five plain, ← locations_of_not_five plain, ← locations_of_not_five plain]
  refine ⟨fun same => ?_, ?_⟩
  · unfold locations at same ⊢
    split at same
    · have placed := List.singleton_inj.mp (List.append_cancel_left same)
      exact .inr (height_eq (congrArg MapLocation.heightSet placed)
        (congrArg (fun location => location.point.z) placed))
    · left
      rfl
  · rintro (none | rfl)
    · unfold locations at none ⊢
      split at none
      · exact absurd none (List.append_ne_nil_of_right_ne_nil _ (List.cons_ne_nil _ _))
      · rfl
    · rfl

/-- A record of five fields gets one location too many. -/
theorem length_locations (h h' : Option Int16)
    : (r.locations numbers h).length
      = (r.location numbers h').length + if r.FiveFields then 1 else 0 := by
  obtain ⟨entryType, fields⟩ := r
  by_cases five : (MapRecord.mk entryType fields).FiveFields
  · obtain ⟨type, count⟩ := five
    subst type
    match fields with
    | [_, _, _, _, _] => rfl
  · rw [if_neg five, Nat.add_zero, locations_of_not_five five]
    unfold location
    split
    · split <;> rfl
    · rfl

end MapRecord

theorem length_drawn_locations {numbers : NumberReader}
    (first second : List MapRecord → Option Int16) (past records : List MapRecord)
    : (drawn first (MapRecord.locations numbers) past records).length
      = (drawn second (MapRecord.location numbers) past records).length
        + records.countP (fun r => r.FiveFields) := by
  induction records generalizing past with
  | nil => rfl
  | cons r rest ih =>
      rw [drawn, drawn, List.length_append, List.length_append, ih,
        MapRecord.length_locations _ (second past), List.countP_cons]
      simp only [decide_eq_true_eq]
      omega

theorem drawn_congr {α : Type} (height : List MapRecord → Option Int16)
    {draw draw' : MapRecord → Option Int16 → List α} (past records : List MapRecord)
    (same : ∀ r ∈ records, ∀ h, draw r h = draw' r h)
    : drawn height draw past records = drawn height draw' past records := by
  induction records generalizing past with
  | nil => rfl
  | cons r rest ih =>
      obtain ⟨first, others⟩ := List.forall_mem_cons.mp same
      rw [drawn, drawn, first, ih _ others]

/-- A height of its own matters to a record that takes it, and to no other. -/
theorem MapRecord.takesHeight_iff {numbers : NumberReader} {r : MapRecord}
    (plain : ¬ r.FiveFields) (h h' : Option Int16)
    : (r.lLine numbers h = r.lLine numbers h' ∧ r.location numbers h = r.location numbers h')
      ↔ (r.TakesHeight numbers → h = h') := by
  rw [r.lLine_eq_iff, r.location_eq_iff plain, TakesHeight]
  tauto

/-- What the records of a file draw is one for one exactly where they are plain. -/
theorem oneForOne_iff {numbers : NumberReader} {records : List MapRecord} {layer : MapLayer}
    {bounds : QRect}
    (lLines : layer.lLines = drawn storedHeight (MapRecord.lLine numbers) [] records)
    (mLines : layer.mLines = records.flatMap (MapRecord.mLine numbers))
    (locations : layer.locations = drawn storedHeight (MapRecord.locations numbers) [] records)
    (bounded : ∀ p ∈ layer.points, bounds.Contains p)
    : OneForOne numbers records layer bounds ↔ Plain numbers records := by
  have lLength : ∀ r ∈ records, ∀ h h',
      (r.lLine numbers h).length = (r.lLine numbers h').length := by
    intro r _ h h'
    unfold MapRecord.lLine
    split
    · split <;> rfl
    · rfl
  have lengths : ∀ r ∈ records, ∀ h h',
      (r.location numbers h).length = (r.location numbers h').length := by
    intro r _ h h'
    have same := @MapRecord.length_locations numbers r h
    exact Nat.add_right_cancel ((same h).symm.trans (same h'))
  constructor
  · intro one
    have fields : ∀ r ∈ records, ¬ r.FiveFields := by
      have count := @length_drawn_locations numbers storedHeight lastHeight [] records
      rw [← locations, one.locations] at count
      have none : records.countP (fun r => r.FiveFields) = 0 := by omega
      simpa [List.countP_eq_zero] using none
    refine ⟨fields, fun past r later split takes => ?_⟩
    have plain := fields r (by rw [split]; simp)
    have line := (drawn_eq_iff [] records lLength).mp (lLines.symm.trans one.lLines) past r later
      split
    have same := drawn_congr storedHeight [] records
      fun r member h => @MapRecord.locations_of_not_five numbers r (fields r member) h
    have location := (drawn_eq_iff [] records lengths).mp
      (same.symm.trans (locations.symm.trans one.locations)) past r later split
    exact (storedHeight_eq_iff past).mp
      ((MapRecord.takesHeight_iff plain _ _).mp ⟨line, location⟩ takes)
  · intro plain
    have each (past : List MapRecord) (r : MapRecord) (later : List MapRecord)
        (split : records = past ++ r :: later) :=
      (@MapRecord.takesHeight_iff numbers r (plain.fields r (by rw [split]; simp))
        (storedHeight past) (lastHeight past)).mpr
        fun takes => (storedHeight_eq_iff past).mpr (plain.heights past r later split takes)
    have same := drawn_congr storedHeight [] records
      fun r member h =>
        @MapRecord.locations_of_not_five numbers r (plain.fields r member) h
    refine ⟨?_, mLines, ?_, bounded⟩
    · rw [lLines]
      exact (drawn_eq_iff [] records lLength).mpr fun past r later split =>
        (each past r later split).1
    · rw [locations, same]
      exact (drawn_eq_iff [] records lengths).mpr fun past r later split =>
        (each past r later split).2

/-- The first line gives the names of the zone, and both parts of a size if any. -/
def ValidHeader (text : List Char) : Prop :=
  ∃ first ∈ (splitLines text).head?,
    2 ≤ (first.splitOn ',').length ∧ (first.splitOn ',').length ≠ 3

/-- The records of a file, which follow its first line. -/
def recordsOf (text : List Char) : List MapRecord := (splitLines text).tail.map MapRecord.ofLine

variable (numbers : NumberReader) (m : MapData) (importing : Bool) {fileName text : List Char}

/-- A file with a valid first line is the fold of its records. -/
theorem loadMap_eq (named : ¬ ['/', '.', 'm', 'a', 'p'] <:+: fileName)
    (header : ValidHeader text)
    : ∃ zoneLongName zoneShortName sizes, m.loadMap numbers fileName importing (some text)
      = ((recordsOf text).foldl (Loading.loadRecord numbers)
          (.start (if importing then m else m.clear) fileName zoneLongName zoneShortName
            sizes)).finish := by
  obtain ⟨first, head, two, notThree⟩ := header
  obtain ⟨lines, split⟩ : ∃ lines, splitLines text = first :: lines := by
    cases split : splitLines text with
    | nil => rw [split] at head; contradiction
    | cons line lines =>
        rw [split] at head
        exact ⟨lines, by rw [Option.some.inj head]⟩
  obtain ⟨zoneLongName, zoneShortName, sizes, fields⟩ :
      ∃ long short sizes, first.splitOn ',' = long :: short :: sizes := by
    match fields : first.splitOn ',' with
    | [] => rw [fields] at two; contradiction
    | [_] => rw [fields] at two; contradiction
    | long :: short :: sizes => exact ⟨long, short, sizes, rfl⟩
  have records : recordsOf text = lines.map MapRecord.ofLine := by rw [recordsOf, split]; rfl
  refine ⟨zoneLongName, zoneShortName, sizes, ?_⟩
  simp only [MapData.loadMap, if_neg named, split, fields, records]

/-- A file with a valid first line becomes one layer, with what its records draw. -/
theorem loadMap_drawn (named : ¬ ['/', '.', 'm', 'a', 'p'] <:+: fileName)
    (header : ValidHeader text)
    : ∃ layer, (m.loadMap numbers fileName importing (some text)).mapLayers
        = (if importing then m.mapLayers else []) ++ [layer]
      ∧ layer.lLines = drawn storedHeight (MapRecord.lLine numbers) [] (recordsOf text)
      ∧ layer.mLines = (recordsOf text).flatMap (MapRecord.mLine numbers)
      ∧ layer.locations = drawn storedHeight (MapRecord.locations numbers) [] (recordsOf text)
      ∧ ∀ p ∈ layer.points,
        (m.loadMap numbers fileName importing (some text)).boundingRect.Contains p := by
  obtain ⟨zoneLongName, zoneShortName, sizes, loads⟩ :=
    loadMap_eq numbers m importing named header
  have before : (if importing then m else m.clear).mapLayers
      = if importing then m.mapLayers else [] := by
    cases importing <;> rfl
  rw [loads, ← before]
  generalize (if importing then m else m.clear) = cleared
  let start := Loading.start cleared fileName zoneLongName zoneShortName sizes
  have follows : start.Follows [] := ⟨rfl, rfl⟩
  have bounded : start.Bounded := fun p member => absurd member List.not_mem_nil
  have layers := @Loading.foldl_mapLayers numbers start (recordsOf text)
  have drawn := @Loading.foldl_loadRecord_layer numbers start [] follows (recordsOf text)
  have held := @Loading.Bounded.foldl numbers start bounded (recordsOf text)
  refine ⟨{ ((recordsOf text).foldl (Loading.loadRecord numbers) start).layer with
    mapLoaded := true }, ?_, ?_, ?_, ?_, ?_⟩
  · exact congrArg (· ++ _) layers
  · exact congrArg MapLayer.lLines drawn
  · exact congrArg MapLayer.mLines drawn
  · exact congrArg MapLayer.locations drawn
  · exact fun p member => MapData.contains_updateBounds (held p member)

/-- A map file is loaded one for one exactly where its records are plain. -/
theorem loadMap_oneForOne_iff (named : ¬ ['/', '.', 'm', 'a', 'p'] <:+: fileName)
    (header : ValidHeader text)
    : ∃ layer, (m.loadMap numbers fileName importing (some text)).mapLayers
        = (if importing then m.mapLayers else []) ++ [layer]
      ∧ (OneForOne numbers (recordsOf text) layer
          (m.loadMap numbers fileName importing (some text)).boundingRect
        ↔ Plain numbers (recordsOf text)) := by
  obtain ⟨layer, layers, lLines, mLines, locations, bounded⟩ :=
    loadMap_drawn numbers m importing named header
  exact ⟨layer, layers, oneForOne_iff lLines mLines locations bounded⟩

/-- Without an invalid H record every height is kept. -/
theorem heightKept_of_valid {past : List MapRecord} (valid : ∀ r ∈ past, r.mark? ≠ some none)
    : HeightKept past := by
  refine .inl fun last => ?_
  obtain ⟨r, member, marks⟩ := List.exists_of_findSome?_eq_some last
  exact valid r (List.mem_reverse.mp member) marks

/-- A file with a height, two lines and a location. -/
def sampleMap : List Char :=
  "Rivervale,rivervale\nH,10\nL,wall,red,2,0,0,5,5\nM,stairs,blue,2,0,0,0,5,5,9\nP,inn,blue,1,2".toList

/-- A reader of decimal numbers alone, which is not asked for the color of a name. -/
def decimalReader : NumberReader where
  toInt text := (Decimal.signed? 32 text).map Int32.ofInt
  toULongLong text := (Decimal.unsigned? 64 text).map UInt64.ofNat
  toLongLong text := (Decimal.signed? 64 text).map Int64.ofInt
  toUInt _ := none

theorem recordsOf_sampleMap : recordsOf sampleMap
    = [⟨some 'H', [['1', '0']]⟩,
      ⟨some 'L', ["wall".toList, "red".toList, ['2'], ['0'], ['0'], ['5'], ['5']]⟩,
      ⟨some 'M', ["stairs".toList, "blue".toList, ['2'], ['0'], ['0'], ['0'], ['5'], ['5'],
        ['9']]⟩,
      ⟨some 'P', ["inn".toList, "blue".toList, ['1'], ['2']]⟩] := by
  decide +kernel

theorem plain_sampleMap : Plain decimalReader (recordsOf sampleMap) := by
  have checks : ∀ r ∈ recordsOf sampleMap, ¬ r.FiveFields ∧ r.mark? ≠ some none := by
    rw [recordsOf_sampleMap]
    decide +kernel
  refine ⟨fun r member => (checks r member).1, fun past r later split _ => ?_⟩
  refine heightKept_of_valid fun r' member => (checks r' ?_).2
  rw [split]
  exact List.mem_append_left _ member

theorem loadMap_oneForOne_rivervale
    : ∃ layer, (MapData.fresh.loadMap decimalReader ['r', '.', 'm', 'a', 'p'] false
          (some sampleMap)).mapLayers = [layer]
      ∧ OneForOne decimalReader (recordsOf sampleMap) layer
        (MapData.fresh.loadMap decimalReader ['r', '.', 'm', 'a', 'p'] false
          (some sampleMap)).boundingRect := by
  obtain ⟨layer, layers, exact⟩ := @loadMap_oneForOne_iff decimalReader .fresh false
    ['r', '.', 'm', 'a', 'p'] sampleMap (by decide)
    ⟨"Rivervale,rivervale".toList, by decide, by decide, by decide⟩
  exact ⟨layer, layers, exact.mpr plain_sampleMap⟩

/-- A P record of five fields is loaded as two locations. -/
theorem not_loadMap_oneForOne
    : ¬ ∀ (numbers : NumberReader) (m : MapData) (importing : Bool) (fileName text : List Char),
      ¬ ['/', '.', 'm', 'a', 'p'] <:+: fileName → ValidHeader text
      → ∃ layer, (m.loadMap numbers fileName importing (some text)).mapLayers
          = (if importing then m.mapLayers else []) ++ [layer]
        ∧ OneForOne numbers (recordsOf text) layer
          (m.loadMap numbers fileName importing (some text)).boundingRect := by
  intro all
  let text := "Rivervale,rivervale\nP,inn,blue,1,2,3".toList
  have header : ValidHeader text :=
    ⟨"Rivervale,rivervale".toList, by decide, by decide, by decide⟩
  obtain ⟨layer, layers, one⟩ := all decimalReader .fresh false ['r', '.', 'm', 'a', 'p'] text
    (by decide) header
  obtain ⟨drawn, same, lLines, mLines, locations, bounded⟩ :=
    @loadMap_drawn decimalReader .fresh false ['r', '.', 'm', 'a', 'p'] text (by decide) header
  obtain rfl : layer = drawn := by
    have equal := layers.symm.trans same
    simpa using equal
  have plain := (oneForOne_iff lLines mLines locations bounded).mp one
  exact plain.fields _ (List.mem_singleton_self _)
    (show MapRecord.FiveFields (MapRecord.ofLine "P,inn,blue,1,2,3".toList) by decide)

end Maps
end Scry
