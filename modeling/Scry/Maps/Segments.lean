import Scry.Maps.SoeFile

/-! The segments of a file are the pieces of its polylines, in their order.
-/

namespace Scry
namespace Maps

/-- What a valid L record says: the two ends of a segment, and its color. -/
structure SoeLine where
  x1 : ℚ
  y1 : ℚ
  z1 : ℚ
  x2 : ℚ
  y2 : ℚ
  z2 : ℚ
  r : UInt8
  g : UInt8
  b : UInt8
  deriving DecidableEq

/-- The L record of nine fields. -/
def MapRecord.soeLine? (reader : SoeReader) (r : MapRecord) : Option SoeLine :=
  match r.entryType, r.fields with
  | some 'L', [x1, y1, z1, x2, y2, z2, r, g, b] =>
      some
        { x1 := reader.toFloat x1, y1 := reader.toFloat y1, z1 := reader.toFloat z1
          x2 := reader.toFloat x2, y2 := reader.toFloat y2, z2 := reader.toFloat z2
          r := (toUShort r).toUInt8, g := (toUShort g).toUInt8, b := (toUShort b).toUInt8 }
  | _, _ => none

/-- The L records of a file. -/
def soeLines (reader : SoeReader) (text : List Char) : List SoeLine :=
  ((splitLines text).map MapRecord.ofSoeLine).filterMap (MapRecord.soeLine? reader)

/-- A whole number that a coordinate can have. -/
def InRange (q : ℚ) : Prop := ∃ n : ℤ, q = n ∧ -2 ^ 15 ≤ n ∧ n < 2 ^ 15

theorem inRange_iff {q : ℚ} : InRange q ↔ q.den = 1 ∧ -2 ^ 15 ≤ q.num ∧ q.num < 2 ^ 15 := by
  refine ⟨fun ⟨n, equal, low, high⟩ => ?_, fun ⟨whole, low, high⟩ => ⟨q.num, ?_, low, high⟩⟩
  · subst equal
    exact ⟨Rat.den_intCast n, low, high⟩
  · exact (Rat.den_eq_one_iff q).mp whole |>.symm

instance (q : ℚ) : Decidable (InRange q) := decidable_of_iff _ inRange_iff.symm

namespace SoeLine

/-- Integer coordinates in range, as they are given and after the change of the signs. -/
structure Integral (l : SoeLine) : Prop where
  given : ∀ q ∈ [l.x1, l.y1, l.z1, l.x2, l.y2, l.z2], InRange q
  negated : ∀ q ∈ [l.x1, l.y1, l.x2, l.y2], InRange (-q)

instance (l : SoeLine) : Decidable l.Integral :=
  decidable_of_iff (_ ∧ _) ⟨fun ⟨given, negated⟩ => ⟨given, negated⟩,
    fun ⟨given, negated⟩ => ⟨given, negated⟩⟩

/-- The ends of a segment, with the signs of the first two axes changed. -/
def segment (l : SoeLine) : (ℚ × ℚ × ℚ) × (ℚ × ℚ × ℚ) :=
  ((-l.x2, -l.y2, l.z2), (-l.x1, -l.y1, l.z1))

/-- Two records of the same color. -/
def SameColor (l l' : SoeLine) : Prop := l.r = l'.r ∧ l.g = l'.g ∧ l.b = l'.b

/-- The first end as a point of a line. -/
def first (l : SoeLine) : MapPoint := ⟨-toInt16 l.x1, -toInt16 l.y1, toInt16 l.z1⟩

/-- The second end as a point of a line. -/
def second (l : SoeLine) : MapPoint := ⟨-toInt16 l.x2, -toInt16 l.y2, toInt16 l.z2⟩

end SoeLine

/-- The coordinates of a point as numbers. -/
def MapPoint.coordinates (p : MapPoint) : ℚ × ℚ × ℚ := (p.x.toInt, p.y.toInt, p.z.toInt)

/-- The pieces between the points of a polyline. -/
def pieces (points : List MapPoint) : List (MapPoint × MapPoint) := points.zip points.tail

/-- The segments that a polyline is made of. -/
def MapLineM.segments (line : MapLineM) : List ((ℚ × ℚ × ℚ) × (ℚ × ℚ × ℚ)) :=
  (pieces line.points).map (Prod.map MapPoint.coordinates MapPoint.coordinates)

/-- A polyline draws records one after the other, of the color of the first of them or of the
color that this is shown in.
-/
structure Draws (reader : SoeReader) (line : MapLineM) (group : List SoeLine) : Prop where
  segments : line.segments = group.map SoeLine.segment
  colors : ∃ l ∈ group.head?, line.common.origColor = .rgb l.r l.g l.b
    ∧ ∀ l' ∈ group, l'.SameColor l
      ∨ hasParts (reader.lineColor l.r l.g l.b) l'.r l'.g l'.b = true

/-- What holds of a polyline while it is built, with the numbers that its points have. -/
structure Joins (reader : SoeReader) (line : MapLineM) (group : List SoeLine) : Prop where
  pieces : pieces line.points = group.map fun l => (l.second, l.first)
  colors : ∃ l ∈ group.head?, line.common.color = reader.lineColor l.r l.g l.b
    ∧ line.common.origColor = .rgb l.r l.g l.b
    ∧ ∀ l' ∈ group, l'.SameColor l
      ∨ hasParts (reader.lineColor l.r l.g l.b) l'.r l'.g l'.b = true

/-- The lines of the layer join the groups of the records so far, and the current line is the last
of them.
-/
inductive Builds (reader : SoeReader) : SoeLoading → List (List SoeLine) → Prop where
  | fresh {s : SoeLoading} (none : s.currentLineM = none) (lines : s.layer.mLines = [])
      : Builds reader s []
  | current {s : SoeLoading} {front : List MapLineM} {line : MapLineM}
      {done : List (List SoeLine)} {group : List SoeLine}
      (others : List.Forall₂ (Joins reader) front done) (joins : Joins reader line group)
      (lines : s.layer.mLines = front ++ [line]) (place : s.currentLineM = some front.length)
      (size : line.points.length = s.numPoints) (last : s.checkPoint + 1 = s.numPoints)
      : Builds reader s (done ++ [group])

/-! The coordinates of a segment in range are those of its points. -/

theorem toInt_toInt16 {q : ℚ} (inRange : InRange q) : ((toInt16 q).toInt : ℚ) = q := by
  obtain ⟨n, rfl, low, high⟩ := inRange
  have whole : (if (n : ℚ) < 0 then ⌈(n : ℚ)⌉ else ⌊(n : ℚ)⌋) = n := by
    split
    · exact Int.ceil_intCast n
    · exact Int.floor_intCast n
  rw [toInt16, whole, Int16.toInt_ofInt_of_le low high]

theorem toInt_neg_toInt16 {q : ℚ} (inRange : InRange q) (negated : InRange (-q))
    : ((-toInt16 q).toInt : ℚ) = -q := by
  have value := toInt_toInt16 inRange
  obtain ⟨n, equal, low, high⟩ := negated
  have whole : (toInt16 q).toInt = -n := by
    have cast : ((toInt16 q).toInt : ℚ) = (-n : ℤ) := by
      rw [value, Int.cast_neg, ← equal, neg_neg]
    exact_mod_cast cast
  rw [Int16.toInt_neg, whole, neg_neg, equal]
  exact_mod_cast Int.bmod_eq_of_le (by omega) (by omega)

theorem coordinates_first {l : SoeLine} (integral : l.Integral)
    : l.first.coordinates = (-l.x1, -l.y1, l.z1) := by
  obtain ⟨given, negated⟩ := integral
  have x := toInt_neg_toInt16 (given l.x1 (by simp)) (negated l.x1 (by simp))
  have y := toInt_neg_toInt16 (given l.y1 (by simp)) (negated l.y1 (by simp))
  have z := toInt_toInt16 (given l.z1 (by simp))
  rw [MapPoint.coordinates, SoeLine.first, x, y, z]

theorem coordinates_second {l : SoeLine} (integral : l.Integral)
    : l.second.coordinates = (-l.x2, -l.y2, l.z2) := by
  obtain ⟨given, negated⟩ := integral
  have x := toInt_neg_toInt16 (given l.x2 (by simp)) (negated l.x2 (by simp))
  have y := toInt_neg_toInt16 (given l.y2 (by simp)) (negated l.y2 (by simp))
  have z := toInt_toInt16 (given l.z2 (by simp))
  rw [MapPoint.coordinates, SoeLine.second, x, y, z]

theorem coordinates_segment {l : SoeLine} (integral : l.Integral)
    : Prod.map MapPoint.coordinates MapPoint.coordinates (l.second, l.first) = l.segment :=
  Prod.ext (coordinates_second integral) (coordinates_first integral)

theorem isEqual_iff {p q : MapPoint} : p.isEqual q.x q.y q.z = true ↔ p = q := by
  cases p
  cases q
  simp [MapPoint.isEqual, and_assoc]

/-- One point more is one piece more, from the last point to it. -/
theorem pieces_append (front : List MapPoint) (last point : MapPoint)
    : pieces (front ++ [last] ++ [point]) = pieces (front ++ [last]) ++ [(last, point)] := by
  induction front with
  | nil => rfl
  | cons first rest ih =>
      cases rest with
      | nil => rfl
      | cons next rest => exact congrArg ((first, next) :: ·) ih

/-- The place that the cursor is at holds the last point. -/
theorem points_of_last {points : List MapPoint} {place : Nat} (last : place + 1 = points.length)
    (missing : MapPoint)
    : ∃ front, points = front ++ [points.getD place missing] := by
  obtain rfl | ⟨front, point, rfl⟩ := points.eq_nil_or_concat
  · simp at last
  · obtain rfl : place = front.length := by simpa using last
    exact ⟨front, by simp⟩

/-! What the records do to the lines of the layer. -/

namespace Joins

variable {reader : SoeReader} {line : MapLineM} {group : List SoeLine}

/-- The bounds of a line are of no account. -/
theorem calcBounds (joins : Joins reader line group) : Joins reader line.calcBounds group :=
  ⟨joins.pieces, joins.colors⟩

/-- A line of two points joins one record. -/
theorem single (line : MapLineM) (l : SoeLine) (points : line.points = [l.second, l.first])
    (color : line.common.color = reader.lineColor l.r l.g l.b)
    (origColor : line.common.origColor = .rgb l.r l.g l.b)
    : Joins reader line [l] := by
  refine ⟨by rw [points]; rfl, l, rfl, color, origColor, fun l' member => .inl ?_⟩
  obtain rfl := List.mem_singleton.mp member
  exact ⟨rfl, rfl, rfl⟩

/-- A line that ends where a record begins joins that record too, if it has the record's color or
shows it.
-/
theorem append (joins : Joins reader line group) {l : SoeLine} {front : List MapPoint}
    (points : line.points = front ++ [l.second])
    (color : hasParts line.common.color l.r l.g l.b = true
      ∨ hasParts line.common.origColor l.r l.g l.b = true)
    : Joins reader { line with points := line.points ++ [l.first] } (group ++ [l]) := by
  obtain ⟨pieces, head, found, shown, original, same⟩ := joins
  refine ⟨?_, head, ?_, shown, original, fun l' member => ?_⟩
  · simp only [points, pieces_append]
    rw [← points, pieces, List.map_append]
    rfl
  · obtain ⟨tail, rfl⟩ := List.head?_eq_some_iff.mp found
    rfl
  · rcases List.mem_append.mp member with old | new
    · exact same l' old
    · obtain rfl := List.mem_singleton.mp new
      rcases color with parts | parts
      · exact .inr (shown ▸ parts)
      · rw [original] at parts
        simp only [hasParts, SeqColor.rgb, Bool.and_eq_true] at parts
        obtain ⟨⟨red, green⟩, blue⟩ := parts
        exact .inl ⟨(of_decide_eq_true red).symm, (of_decide_eq_true green).symm,
          (of_decide_eq_true blue).symm⟩

/-- In numbers, a polyline draws the records it joins. -/
theorem draws (joins : Joins reader line group) (integral : ∀ l ∈ group, l.Integral)
    : Draws reader line group := by
  obtain ⟨pieces, head, found, -, original, same⟩ := joins
  refine ⟨?_, head, found, original, same⟩
  rw [MapLineM.segments, pieces, List.map_map]
  exact List.map_congr_left fun l member => coordinates_segment (integral l member)

theorem forall_draws {lines : List MapLineM} {groups : List (List SoeLine)}
    (joins : List.Forall₂ (Joins reader) lines groups)
    (integral : ∀ l ∈ groups.flatten, l.Integral)
    : List.Forall₂ (Draws reader) lines groups := by
  induction joins with
  | nil => exact .nil
  | cons first _ ih =>
      rw [List.flatten_cons, List.forall_mem_append] at integral
      exact .cons (first.draws integral.1) (ih integral.2)

end Joins

namespace SoeLoading

variable {reader : SoeReader} {s : SoeLoading} {front : List MapLineM} {line : MapLineM}

theorem line_of_last (lines : s.layer.mLines = front ++ [line])
    (place : s.currentLineM = some front.length)
    : s.line = line := by
  simp [SoeLoading.line, place, lines]

theorem checkLine_last (lines : s.layer.mLines = front ++ [line])
    (place : s.currentLineM = some front.length)
    : s.checkLine.layer.mLines = front ++ [line.calcBounds]
      ∧ s.checkLine.currentLineM = some front.length
      ∧ s.checkLine.numPoints = s.numPoints ∧ s.checkLine.checkPoint = s.checkPoint := by
  have current := line_of_last lines place
  simp only [checkLine, place, current, lines]
  simp

theorem addPoint_last (lines : s.layer.mLines = front ++ [line])
    (place : s.currentLineM = some front.length) (size : line.points.length = s.numPoints)
    (point : MapPoint)
    : (s.addPoint point).layer.mLines
        = front ++ [{ line with points := line.points ++ [point] }]
      ∧ (s.addPoint point).currentLineM = some front.length
      ∧ (s.addPoint point).numPoints = s.numPoints + 1
      ∧ (s.addPoint point).checkPoint = s.numPoints := by
  have current := line_of_last lines place
  simp [addPoint, place, current, lines, ← size]

/-- The record of a line, with its points and the parts of its color. -/
theorem loadL_eq (reader : SoeReader) (s : SoeLoading) {record : MapRecord} {l : SoeLine}
    (valid : record.soeLine? reader = some l)
    : s.loadRecord reader record
      = (if s.currentLineM.isNone
            || !(s.line.points.getD s.checkPoint ⟨0, 0, 0⟩).isEqual l.second.x l.second.y
              l.second.z
            || (!hasParts s.line.common.color l.r l.g l.b
              && !hasParts s.line.common.origColor l.r l.g l.b)
          then s.startLine reader l.r l.g l.b l.first l.second
          else s.addPoint l.first).checkLine := by
  unfold MapRecord.soeLine? at valid
  split at valid
  next kind nine =>
    obtain rfl := Option.some.inj valid
    simp only [loadRecord, kind, nine]
    rfl
  next => cases valid

/-- Every record that is no valid L record leaves the lines as they are. -/
theorem loadRecord_others {record : MapRecord} (other : record.soeLine? reader = none)
    : (s.loadRecord reader record).layer.mLines = s.layer.mLines
      ∧ (s.loadRecord reader record).currentLineM = s.currentLineM
      ∧ (s.loadRecord reader record).numPoints = s.numPoints
      ∧ (s.loadRecord reader record).checkPoint = s.checkPoint := by
  unfold loadRecord
  split
  next kind =>
    unfold loadL
    split
    next nine =>
      rw [MapRecord.soeLine?, kind, nine] at other
      cases other
    next => exact ⟨rfl, rfl, rfl, rfl⟩
  · unfold loadP
    split <;> exact ⟨rfl, rfl, rfl, rfl⟩
  · exact ⟨rfl, rfl, rfl, rfl⟩

end SoeLoading

namespace Builds

variable {reader : SoeReader} {s t : SoeLoading} {groups : List (List SoeLine)}

/-- The lines of the layer join the groups. -/
theorem joins (builds : Builds reader s groups)
    : List.Forall₂ (Joins reader) s.layer.mLines groups := by
  cases builds with
  | fresh none lines => rw [lines]; exact .nil
  | current others joins lines place size last =>
      rw [lines]
      exact List.rel_append others (.cons joins .nil)

/-- Only the lines and the cursor count. -/
theorem congr (builds : Builds reader s groups) (lines : t.layer.mLines = s.layer.mLines)
    (place : t.currentLineM = s.currentLineM) (size : t.numPoints = s.numPoints)
    (last : t.checkPoint = s.checkPoint)
    : Builds reader t groups := by
  cases builds with
  | fresh none empty => exact .fresh (place.trans none) (lines.trans empty)
  | current others joins lines' place' size' last' =>
      exact .current others joins (lines.trans lines') (place.trans place') (by rw [size', size])
        (by rw [last, last', size])

theorem checkLine (builds : Builds reader s groups) : Builds reader s.checkLine groups := by
  cases builds with
  | fresh none lines =>
      have same : s.checkLine = s := by rw [SoeLoading.checkLine, none]
      rw [same]
      exact .fresh none lines
  | current others joins lines place size last =>
      obtain ⟨lines', place', size', last'⟩ := SoeLoading.checkLine_last lines place
      exact .current others joins.calcBounds lines' place' (size.trans size'.symm)
        (by rw [last', last, size'])

/-- A new line is a new group. -/
theorem startLine (builds : Builds reader s groups) (l : SoeLine)
    : Builds reader (s.startLine reader l.r l.g l.b l.first l.second) (groups ++ [[l]]) :=
  .current builds.joins (.single _ l rfl rfl rfl) rfl rfl rfl rfl

/-- One record more is one segment more, on a new line or at the end of the last one. -/
theorem loadL (builds : Builds reader s groups) {record : MapRecord} {l : SoeLine}
    (valid : record.soeLine? reader = some l)
    : ∃ groups', groups'.flatten = groups.flatten ++ [l]
      ∧ Builds reader (s.loadRecord reader record) groups' := by
  rw [SoeLoading.loadL_eq reader s valid]
  split
  · exact ⟨groups ++ [[l]], by simp, (builds.startLine l).checkLine⟩
  next merges =>
    cases builds with
    | fresh none lines => simp [none] at merges
    | @current front line done group others joins lines place size last =>
        have current := SoeLoading.line_of_last lines place
        simp only [place, current, Option.isNone_some, Bool.false_or, Bool.or_eq_true,
          Bool.and_eq_true, Bool.not_eq_true', not_or, Bool.not_eq_false, not_and_or] at merges
        obtain ⟨ends, color⟩ := merges
        obtain ⟨lines', place', size', last'⟩ :=
          SoeLoading.addPoint_last lines place size l.first
        obtain ⟨start, points⟩ := points_of_last (last.trans size.symm) ⟨0, 0, 0⟩
        rw [isEqual_iff.mp ends] at points
        refine ⟨done ++ [group ++ [l]], by simp, checkLine ?_⟩
        exact .current others (joins.append points color) lines' place' (by simp [size, size'])
          (by rw [last', size'])

theorem loadRecord (builds : Builds reader s groups) (record : MapRecord)
    : ∃ groups', groups'.flatten = groups.flatten ++ (record.soeLine? reader).toList
      ∧ Builds reader (s.loadRecord reader record) groups' := by
  cases valid : record.soeLine? reader with
  | none =>
      obtain ⟨lines, place, size, last⟩ := SoeLoading.loadRecord_others (s := s) valid
      exact ⟨groups, by simp, builds.congr lines place size last⟩
  | some l => exact builds.loadL valid

/-- All records are the segments of the lines, by induction on the records. -/
theorem foldl (builds : Builds reader s groups) (records : List MapRecord)
    : ∃ groups', groups'.flatten
          = groups.flatten ++ records.filterMap (MapRecord.soeLine? reader)
      ∧ Builds reader (records.foldl (SoeLoading.loadRecord reader) s) groups' := by
  induction records generalizing s groups with
  | nil => exact ⟨groups, by simp, builds⟩
  | cons record rest ih =>
      obtain ⟨next, flat, step⟩ := builds.loadRecord record
      obtain ⟨groups', flat', builds'⟩ := ih step
      refine ⟨groups', ?_, builds'⟩
      rw [flat', flat, List.append_assoc]
      cases valid : record.soeLine? reader <;> simp [valid]

end Builds

/-! ## The decomposition -/

theorem loadSOEMap_eq {reader : SoeReader} {m : MapData} {fileName : List Char}
    (fresh : m.loaded reader fileName = false) (named : ¬['/', '.', 't', 'x', 't'] <:+: fileName)
    (importing : Bool) (text : List Char)
    : m.loadSOEMap reader fileName importing (some text)
      = (((splitLines text).map MapRecord.ofSoeLine).foldl (SoeLoading.loadRecord reader)
          (.start (if importing then m else m.clear) fileName)).finish := by
  simp [MapData.loadSOEMap, fresh, named]

theorem SoeLoading.loadRecord_mapLayers (reader : SoeReader) (s : SoeLoading)
    (record : MapRecord)
    : (s.loadRecord reader record).data.mapLayers = s.data.mapLayers := by
  have checked (s : SoeLoading) : s.checkLine.data.mapLayers = s.data.mapLayers := by
    unfold SoeLoading.checkLine
    split <;> rfl
  have added (point : MapPoint) : (s.addPoint point).data.mapLayers = s.data.mapLayers := by
    unfold SoeLoading.addPoint
    split <;> rfl
  unfold SoeLoading.loadRecord
  split
  · unfold SoeLoading.loadL
    split
    · refine (checked _).trans ?_
      split
      · rfl
      · exact added _
    · rfl
  · unfold SoeLoading.loadP
    split <;> rfl
  · rfl

theorem SoeLoading.foldl_mapLayers (reader : SoeReader) (s : SoeLoading)
    (records : List MapRecord)
    : (records.foldl (SoeLoading.loadRecord reader) s).data.mapLayers = s.data.mapLayers := by
  induction records generalizing s with
  | nil => rfl
  | cons record rest ih => exact (ih _).trans (loadRecord_mapLayers reader s record)

/-- The polylines of a file draw its segments, each once and in order; a line goes on only with
segments of the color that it began with or of the one that this is shown in.
-/
theorem loadSOEMap_draws (reader : SoeReader) (m : MapData) (fileName : List Char)
    (importing : Bool) (text : List Char) (fresh : m.loaded reader fileName = false)
    (named : ¬['/', '.', 't', 'x', 't'] <:+: fileName)
    (integral : ∀ l ∈ soeLines reader text, l.Integral)
    : ∃ layer, (m.loadSOEMap reader fileName importing (some text)).mapLayers
          = (if importing then m.mapLayers else []) ++ [layer]
      ∧ ∃ groups, groups.flatten = soeLines reader text
        ∧ List.Forall₂ (Draws reader) layer.mLines groups := by
  let records := (splitLines text).map MapRecord.ofSoeLine
  let start : SoeLoading := .start (if importing then m else m.clear) fileName
  have empty : Builds reader start [] := .fresh rfl rfl
  obtain ⟨groups, flat, builds⟩ := empty.foldl records
  have before : start.data.mapLayers = if importing then m.mapLayers else [] := by
    change (if importing then m else m.clear).mapLayers = _
    cases importing <;> rfl
  refine ⟨{ (records.foldl (SoeLoading.loadRecord reader) start).layer with mapLoaded := true },
    ?_, groups, flat, Joins.forall_draws builds.joins (flat ▸ integral)⟩
  rw [loadSOEMap_eq fresh named, ← before]
  exact congrArg (· ++ _) (SoeLoading.foldl_mapLayers reader start records)

/-- A reader of decimal numbers, without preferences. -/
def decimalSoeReader : SoeReader where
  toFloat text := ((Decimal.signed? 32 text).getD 0 : ℤ)
  toLower text := text.map Char.toLower
  numbers :=
    { toInt := fun text => (Decimal.signed? 32 text).map Int32.ofInt
      toULongLong := fun text => (Decimal.unsigned? 64 text).map UInt64.ofNat
      toLongLong := fun text => (Decimal.signed? 64 text).map Int64.ofInt
      toUInt := fun _ => none }
  getPrefString _ _ value := value

/-- Two segments that meet, of two shades of red. -/
def sampleSoeMap : List Char :=
  "L 0, 0, 0, 5, 0, 0, 250, 0, 0\nP 1, 1, 0, 0, 0, 0, 2, inn\nL 5, -7, 0, 0, 0, 0, 255, 0, 0".toList

theorem soeLines_sampleSoeMap : soeLines decimalSoeReader sampleSoeMap
    = [⟨0, 0, 0, 5, 0, 0, 250, 0, 0⟩, ⟨5, -7, 0, 0, 0, 0, 255, 0, 0⟩] := by
  decide +kernel

theorem integral_sampleSoeMap : ∀ l ∈ soeLines decimalSoeReader sampleSoeMap, l.Integral := by
  rw [soeLines_sampleSoeMap]
  decide +kernel

theorem loadSOEMap_draws_red
    : ∃ layer, (MapData.fresh.loadSOEMap decimalSoeReader ['r', '.', 't', 'x', 't'] false
          (some sampleSoeMap)).mapLayers = [layer]
      ∧ ∃ groups, groups.flatten = soeLines decimalSoeReader sampleSoeMap
        ∧ List.Forall₂ (Draws decimalSoeReader) layer.mLines groups :=
  loadSOEMap_draws decimalSoeReader .fresh ['r', '.', 't', 'x', 't'] false sampleSoeMap rfl
    (by decide) integral_sampleSoeMap

/-- A segment is merged into a line of another color when the line is shown in its color. -/
theorem not_loadSOEMap_sameColor
    : ¬ ∀ (reader : SoeReader) (m : MapData) (fileName : List Char) (importing : Bool)
      (text : List Char),
      m.loaded reader fileName = false → ¬['/', '.', 't', 'x', 't'] <:+: fileName
      → (∀ l ∈ soeLines reader text, l.Integral)
      → ∃ layer, (m.loadSOEMap reader fileName importing (some text)).mapLayers
          = (if importing then m.mapLayers else []) ++ [layer]
        ∧ ∃ groups, groups.flatten = soeLines reader text
          ∧ List.Forall₂ (fun line group => line.segments = group.map SoeLine.segment
              ∧ ∀ l ∈ group, ∀ l' ∈ group, l.SameColor l')
            layer.mLines groups := by
  intro all
  obtain ⟨layer, layers, groups, flat, draws⟩ := all decimalSoeReader .fresh
    ['r', '.', 't', 'x', 't'] false sampleSoeMap rfl (by decide) integral_sampleSoeMap
  have lengths : (MapData.fresh.loadSOEMap decimalSoeReader ['r', '.', 't', 'x', 't'] false
      (some sampleSoeMap)).mapLayers.map (fun layer => layer.mLines.length) = [1] := by
    decide +kernel
  rw [layers] at lengths
  obtain ⟨line, single⟩ := List.length_eq_one_iff.mp (List.singleton_inj.mp lengths)
  rw [single] at draws
  cases draws with
  | cons first rest =>
      cases rest
      rw [soeLines_sampleSoeMap, List.flatten_cons, List.flatten_nil, List.append_nil] at flat
      obtain ⟨-, sameColor⟩ := first
      have red := (sameColor _ (flat ▸ List.mem_cons_self)
        _ (flat ▸ List.mem_cons_of_mem _ List.mem_cons_self)).1
      exact absurd red (by decide)

end Maps
end Scry
