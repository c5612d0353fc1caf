import Scry.Maps.PrintedMap

/-! A map that is saved and loaded again.
The lines of a layer come back as they were, with their heights, colors and points, and so do the
aggro ranges, the names and the experience modifier of the zone. Locations do not: each comes back
at the last height of the lines, and one with a height of its own once more at that.
-/

namespace Scry
namespace Maps

open TextStream Utf8

-----------------------------------------------------------------------------------------
-- What the saved records give
-----------------------------------------------------------------------------------------

/-- Records drawn after others. -/
theorem drawn_append {α : Type} (height : List MapRecord → Option Int16)
    (draw : MapRecord → Option Int16 → List α) (past first second : List MapRecord)
    : drawn height draw past (first ++ second)
      = drawn height draw past first ++ drawn height draw (past ++ first) second := by
  induction first generalizing past with
  | nil => simp [drawn]
  | cons r rest ih =>
      rw [List.cons_append, drawn, drawn, ih, List.append_assoc, List.append_assoc,
        List.singleton_append]

/-- Records that draw nothing. -/
theorem drawn_eq_nil {α : Type} {height : List MapRecord → Option Int16}
    {draw : MapRecord → Option Int16 → List α} (past : List MapRecord) {records : List MapRecord}
    (nothing : ∀ r ∈ records, ∀ h, draw r h = [])
    : drawn height draw past records = [] := by
  induction records generalizing past with
  | nil => rfl
  | cons r rest ih =>
      obtain ⟨here, others⟩ := List.forall_mem_cons.mp nothing
      rw [drawn, here, ih _ others, List.append_nil]

/-- Records that say nothing of the height leave it. -/
theorem storedHeight_append {past records : List MapRecord}
    (silent : ∀ r ∈ records, r.mark? = none)
    : storedHeight (past ++ records) = storedHeight past := by
  induction records generalizing past with
  | nil => rw [List.append_nil]
  | cons r rest ih =>
      obtain ⟨here, others⟩ := List.forall_mem_cons.mp silent
      have height : r.height? = none := by rw [MapRecord.height?, here]; rfl
      rw [List.append_cons, ih others, storedHeight, storedHeight, Loading.lastHeight_append,
        Loading.lastMark_append, here, height, Option.none_or, Option.none_or]

theorem storedHeight_heightRecord (past : List MapRecord) (z : Int16)
    : storedHeight (past ++ [heightRecord z]) = some z := by
  have mark : (heightRecord z).mark? = some (some z) := congrArg some (toShort?_decimalInt z)
  have height : (heightRecord z).height? = some z := by rw [MapRecord.height?, mark]; rfl
  rw [storedHeight, Loading.lastHeight_append, Loading.lastMark_append, mark, height]
  rfl

theorem printedColor_of_colored {c : MapCommon} (colored : c.colorName ≠ [])
    : c.printedColor = c.colorName := if_pos colored

/-- The points of fields that were printed, by induction on them. -/
theorem planePoints_printed {points : List QPoint} (inRange : ∀ p ∈ points, p.InRange)
    : MapRecord.planePoints (points.flatMap fun p => [decimalInt p.x, decimalInt p.y])
      = points := by
  induction points with
  | nil => rfl
  | cons p rest ih =>
      obtain ⟨⟨x, y⟩, others⟩ := List.forall_mem_cons.mp inRange
      rw [List.flatMap_cons, List.cons_append, List.singleton_append,
        MapRecord.planePoints_cons, ih others, toShort_inRange x.1 x.2, toShort_inRange y.1 y.2]

theorem spacePoints_printed (points : List MapPoint)
    : MapRecord.spacePoints (points.flatMap fun p =>
        [decimalInt p.x.toInt, decimalInt p.y.toInt, decimalInt p.z.toInt]) = points := by
  induction points with
  | nil => rfl
  | cons p rest ih =>
      rw [List.flatMap_cons, List.cons_append, List.cons_append, List.singleton_append,
        MapRecord.spacePoints_cons, ih, toShort_decimalInt, toShort_decimalInt,
        toShort_decimalInt]

theorem length_printed {α : Type} {n : Nat} (fields : α → List (List Char))
    (each : ∀ a, (fields a).length = n) (points : List α)
    : (points.flatMap fields).length = n * points.length := by
  induction points with
  | nil => rfl
  | cons a rest ih =>
      rw [List.flatMap_cons, List.length_append, each, ih, List.length_cons, Nat.mul_succ,
        Nat.add_comm]

/-- A saved L line is drawn as it was, at its height. -/
theorem MapLineL.Plain.lLine_record {numbers : NumberReader} {l : MapLineL}
    (plain : l.Plain numbers) {height : Option Int16}
    (high : height = if l.heightSet then some l.z else none)
    : l.record.lLine numbers height = [l] := by
  have size := @length_printed _ 2 (fun p : QPoint => [decimalInt p.x, decimalInt p.y])
    (fun _ => rfl) l.points
  have two := plain.two
  have values : height.getD 0 = l.z ∧ height.isSome = l.heightSet := by
    cases set : l.heightSet with
    | true => simp [high, set]
    | false => simp [high, set, plain.flat set]
  have drawn (name color specified : List Char) (fields : List (List Char))
      : MapRecord.lLine numbers ⟨some 'L', name :: color :: specified :: fields⟩ height
        = if 2 ≤ fields.length / 2 ∧ (toUInt? specified).isSome then
            [MapLineL.calcBounds
              { common := .ofName numbers name (lineColor color)
                points := MapRecord.planePoints fields
                z := height.getD 0
                heightSet := height.isSome
                bounds := .null }]
          else [] := rfl
  rw [MapLineL.record, drawn, if_pos ⟨by omega, toUInt?_decimal plain.few⟩,
    plain.common.name.cString, printedColor_of_colored plain.colored,
    plain.common.colorName.cString, planePoints_printed plain.inRange, lineColor,
    if_neg plain.colored, ← plain.common.read, values.1, values.2]
  exact congrArg (fun l => [l]) plain.bounds

theorem MapLineM.Plain.mLine_record {numbers : NumberReader} {l : MapLineM}
    (plain : l.Plain numbers)
    : l.record.mLine numbers = [l] := by
  have size := @length_printed _ 3 (fun p : MapPoint =>
    [decimalInt p.x.toInt, decimalInt p.y.toInt, decimalInt p.z.toInt]) (fun _ => rfl) l.points
  have two := plain.two
  have drawn (name color specified : List Char) (fields : List (List Char))
      : MapRecord.mLine numbers ⟨some 'M', name :: color :: specified :: fields⟩
        = if 2 ≤ fields.length / 3 ∧ (toUInt? specified).isSome then
            [MapLineM.calcBounds
              { common := .ofName numbers name (lineColor color)
                points := MapRecord.spacePoints fields
                bounds := .null }]
          else [] := rfl
  rw [MapLineM.record, drawn, if_pos ⟨by omega, toUInt?_decimal plain.few⟩,
    plain.common.name.cString, printedColor_of_colored plain.colored,
    plain.common.colorName.cString, spacePoints_printed, lineColor, if_neg plain.colored,
    ← plain.common.read]
  exact congrArg (fun l => [l]) plain.bounds

/-- The height that lines leave behind. -/
def leftHeight (last : Option Int16) (lines : List MapLineL) : Option Int16 :=
  lines.foldl (fun height l => if l.heightSet then some l.z else height) last

/-- Saved L lines are drawn as they were, after records that leave the height that was written
last, by induction on the lines.
-/
theorem drawn_savedL {numbers : NumberReader} {last : Option Int16} {lines : List MapLineL}
    (plain : ∀ l ∈ lines, l.Plain numbers)
    (heights : lines.Pairwise fun before after =>
      before.heightSet = true → after.heightSet = true)
    (set : last.isSome = true → ∀ l ∈ lines, l.heightSet = true) {past : List MapRecord}
    (left : storedHeight past = last)
    : drawn storedHeight (MapRecord.lLine numbers) past (savedL last lines) = lines
      ∧ storedHeight (past ++ savedL last lines) = leftHeight last lines := by
  induction lines generalizing last past with
  | nil => exact ⟨rfl, by rw [savedL, List.append_nil, left]; rfl⟩
  | cons l rest ih =>
      obtain ⟨here, others⟩ := List.forall_mem_cons.mp plain
      obtain ⟨first, later⟩ := List.pairwise_cons.mp heights
      have silent : l.record.mark? = none := rfl
      have behind (past : List MapRecord) : storedHeight (past ++ [l.record]) = storedHeight past :=
        storedHeight_append (by simpa using silent)
      rw [savedL]
      split_ifs with written
      · have stored := storedHeight_heightRecord past l.z
        obtain ⟨drawnRest, leftRest⟩ := ih others later (fun _ after member =>
          first after member written.1) ((behind (past ++ [heightRecord l.z])).trans stored)
        have quiet : (heightRecord l.z).lLine numbers (storedHeight past) = [] := rfl
        rw [drawn, drawn, quiet, drawnRest, stored,
          here.lLine_record (by rw [written.1, if_pos rfl])]
        refine ⟨rfl, ?_⟩
        simp only [List.append_assoc, List.cons_append, List.nil_append] at leftRest
        rw [leftRest, leftHeight, leftHeight, List.foldl_cons, written.1, if_pos rfl]
      · have high : last = if l.heightSet then some l.z else none := by
          cases on : l.heightSet with
          | true => simpa [on] using written
          | false =>
              cases last with
              | none => rfl
              | some z => simp [set rfl l List.mem_cons_self] at on
        obtain ⟨drawnRest, leftRest⟩ := ih others later (fun some after member =>
          set some after (List.mem_cons_of_mem l member)) ((behind past).trans left)
        rw [drawn, drawnRest, left, here.lLine_record high]
        refine ⟨rfl, ?_⟩
        rw [List.append_assoc, List.singleton_append] at leftRest
        rw [leftRest, leftHeight, leftHeight, List.foldl_cons]
        congr 1
        cases on : l.heightSet with
        | true => simpa [on] using high
        | false => rfl

/-- What becomes of a location: with a height of its own it comes back at that, and every location
comes back at the height of the file.
-/
def MapLocation.reloaded (numbers : NumberReader) (height : Option Int16) (l : MapLocation)
    : List MapLocation :=
  (if l.heightSet then
      [.ofFields numbers l.common.name l.common.printedColor l.point.x l.point.y (some l.point.z)]
    else [])
    ++ [.ofFields numbers l.common.name l.common.printedColor l.point.x l.point.y height]

theorem printedColor_plain {numbers : NumberReader} {c : MapCommon} (plain : c.Plain numbers)
    : PlainField c.printedColor := by
  rw [MapCommon.printedColor]
  split_ifs
  · exact plain.colorName
  · exact plainField_name c.color

theorem MapLocation.Plain.locations_record {numbers : NumberReader} {l : MapLocation}
    (plain : l.Plain numbers) (height : Option Int16)
    : l.record.locations numbers height = l.reloaded numbers height := by
  have raised (name color x y z : List Char)
      : MapRecord.locations numbers ⟨some 'P', [name, color, x, y, z]⟩ height
        = [.ofFields numbers name color (toShort x) (toShort y) (some (toShort z)),
            .ofFields numbers name color (toShort x) (toShort y) height] := rfl
  have flat (name color x y : List Char)
      : MapRecord.locations numbers ⟨some 'P', [name, color, x, y]⟩ height
        = [.ofFields numbers name color (toShort x) (toShort y) height] := rfl
  have color := printedColor_plain plain.common
  rw [MapLocation.record, plain.common.name.cString, color.cString, reloaded]
  cases l.heightSet with
  | true =>
      simp only [if_true, List.cons_append, List.nil_append, raised, toShort_decimalInt]
  | false =>
      simp only [Bool.false_eq_true, if_false, List.append_nil, List.nil_append, flat,
        toShort_decimalInt]

theorem MapAggro.Plain.aggro_record {a : MapAggro} (plain : a.Plain) : a.record.aggro = [a] := by
  have read (name range : List Char)
      : MapRecord.aggro ⟨some 'A', [name, range]⟩
        = if name = [] ∨ toUShort range = 0 then [] else [⟨name, toUShort range⟩] := rfl
  rw [MapAggro.record, read, plain.name.cString, toUShort_decimal,
    if_neg (not_or.mpr ⟨plain.named, plain.range⟩)]

/-- A record that is read as it was printed. -/
structure MapRecord.Printable (r : MapRecord) : Prop where
  type : ∃ c, r.entryType = some c ∧ Ascii c ∧ c ≠ ',' ∧ c ≠ '\n' ∧ c ≠ '\r'
  fields : ∀ field ∈ r.fields, PlainField field

theorem MapRecord.Printable.ofLine {r : MapRecord} (printable : r.Printable)
    : MapRecord.ofLine r.text = r := by
  obtain ⟨entryType, fields⟩ := r
  obtain ⟨⟨c, rfl, _, comma, _⟩, plain⟩ := printable
  exact ofLine_text comma plain

/-- The text of a record is a line. -/
theorem MapRecord.Printable.whole {r : MapRecord} (printable : r.Printable)
    : r.text ≠ [] ∧ ∀ ch ∈ r.text, Ascii ch ∧ ch ≠ '\n' ∧ ch ≠ '\r' := by
  obtain ⟨entryType, fields⟩ := r
  obtain ⟨⟨c, rfl, ascii, _, newline, carriage⟩, plain⟩ := printable
  refine ⟨by simp [MapRecord.text], fun ch member => ?_⟩
  rcases List.mem_cons.mp member with rfl | inside
  · exact ⟨ascii, newline, carriage⟩
  · obtain ⟨field, listed, here⟩ := List.mem_flatMap.mp inside
    rcases List.mem_cons.mp here with rfl | there
    · exact ⟨⟨by decide, by decide⟩, by decide, by decide⟩
    · have own := plain field listed
      exact ⟨own.ascii ch there, fun same => own.newline (same ▸ there),
        fun same => own.carriage (same ▸ there)⟩

theorem printable_of_type {c : Char} {fields : List (List Char)}
    (letter : c = 'L' ∨ c = 'M' ∨ c = 'P' ∨ c = 'A' ∨ c = 'H' ∨ c = 'Z')
    (plain : ∀ field ∈ fields, PlainField field)
    : MapRecord.Printable ⟨some c, fields⟩ := by
  refine ⟨⟨c, rfl, ?_⟩, plain⟩
  unfold Ascii
  rcases letter with rfl | rfl | rfl | rfl | rfl | rfl <;> decide

theorem plainFields_common {numbers : NumberReader} {c : MapCommon} (plain : c.Plain numbers)
    : PlainField (cString c.name) ∧ PlainField (cString c.printedColor) := by
  have color := printedColor_plain plain
  rw [plain.name.cString, color.cString]
  exact ⟨plain.name, color⟩

theorem MapLineL.Plain.printable {numbers : NumberReader} {l : MapLineL} (plain : l.Plain numbers)
    : l.record.Printable := by
  obtain ⟨name, color⟩ := plainFields_common plain.common
  refine printable_of_type (.inl rfl) fun field member => ?_
  simp only [List.mem_cons, List.mem_flatMap, List.not_mem_nil, or_false] at member
  rcases member with rfl | rfl | rfl | ⟨p, _, rfl | rfl⟩
  · exact name
  · exact color
  · exact plainField_decimal _
  · exact plainField_decimalInt _
  · exact plainField_decimalInt _

theorem MapLineM.Plain.printable {numbers : NumberReader} {l : MapLineM} (plain : l.Plain numbers)
    : l.record.Printable := by
  obtain ⟨name, color⟩ := plainFields_common plain.common
  refine printable_of_type (.inr (.inl rfl)) fun field member => ?_
  simp only [List.mem_cons, List.mem_flatMap, List.not_mem_nil, or_false] at member
  rcases member with rfl | rfl | rfl | ⟨p, _, rfl | rfl | rfl⟩
  · exact name
  · exact color
  · exact plainField_decimal _
  · exact plainField_decimalInt _
  · exact plainField_decimalInt _
  · exact plainField_decimalInt _

theorem MapLocation.Plain.printable {numbers : NumberReader} {l : MapLocation}
    (plain : l.Plain numbers)
    : l.record.Printable := by
  obtain ⟨name, color⟩ := plainFields_common plain.common
  refine printable_of_type (.inr (.inr (.inl rfl))) fun field member => ?_
  rcases List.mem_append.mp member with first | last
  · simp only [List.mem_cons, List.not_mem_nil, or_false] at first
    rcases first with rfl | rfl | rfl | rfl
    · exact name
    · exact color
    · exact plainField_decimalInt _
    · exact plainField_decimalInt _
  · split_ifs at last
    · rw [List.mem_singleton.mp last]
      exact plainField_decimalInt _
    · cases last

theorem MapAggro.Plain.printable {a : MapAggro} (plain : a.Plain) : a.record.Printable := by
  refine printable_of_type (.inr (.inr (.inr (.inl rfl)))) fun field member => ?_
  simp only [List.mem_cons, List.not_mem_nil, or_false] at member
  rcases member with rfl | rfl
  · rw [plain.name.cString]
    exact plain.name
  · exact plainField_decimal _

theorem printable_savedL {numbers : NumberReader} {last : Option Int16} {lines : List MapLineL}
    (plain : ∀ l ∈ lines, l.Plain numbers)
    : ∀ r ∈ savedL last lines, r.Printable := by
  induction lines generalizing last with
  | nil => exact fun r member => absurd member List.not_mem_nil
  | cons l rest ih =>
      obtain ⟨here, others⟩ := List.forall_mem_cons.mp plain
      have height : (heightRecord l.z).Printable := by
        refine printable_of_type (by decide) fun field member => ?_
        rw [List.mem_singleton.mp member]
        exact plainField_decimalInt _
      rw [savedL]
      split_ifs
      · exact List.forall_mem_cons.mpr
          ⟨height, List.forall_mem_cons.mpr ⟨here.printable, ih others⟩⟩
      · exact List.forall_mem_cons.mpr ⟨here.printable, ih others⟩

namespace MapData

variable {numbers : NumberReader} {m : MapData} {layer : MapLayer}

theorem printable_savedRecords (savable : m.Savable numbers) (plain : layer.Plain numbers)
    : ∀ r ∈ m.savedRecords layer, r.Printable := by
  intro r member
  simp only [savedRecords, List.mem_append, or_assoc] at member
  rcases member with zem | lLines | mLines | locations | aggros
  · split_ifs at zem
    · rw [List.mem_singleton.mp zem]
      refine printable_of_type (by decide) fun field member => ?_
      rw [List.mem_singleton.mp member]
      exact plainField_decimal _
    · cases zem
  · exact printable_savedL plain.lLines r lLines
  · obtain ⟨l, listed, rfl⟩ := List.mem_map.mp mLines
    exact (plain.mLines l listed).printable
  · obtain ⟨l, listed, rfl⟩ := List.mem_map.mp locations
    exact (plain.locations l listed).printable
  · obtain ⟨a, listed, rfl⟩ := List.mem_map.mp aggros
    exact (savable.aggros a listed).printable

/-- The first line of a saved file gives the names of the zone. -/
theorem splitOn_header (savable : m.Savable numbers)
    : m.header.splitOn ','
      = [m.zoneLongName, m.zoneShortName, decimalInt m.size.1, decimalInt m.size.2] := by
  rw [header, savable.zoneLongName.cString, savable.zoneShortName.cString,
    List.splitOn_append_cons_self_of_not_mem savable.zoneLongName.comma,
    List.splitOn_append_cons_self_of_not_mem savable.zoneShortName.comma,
    List.splitOn_append_cons_self_of_not_mem (plainField_decimalInt _).comma,
    List.splitOn_eq_singleton (plainField_decimalInt _).comma]

theorem whole_header (savable : m.Savable numbers)
    : m.header ≠ [] ∧ ∀ ch ∈ m.header, Ascii ch ∧ ch ≠ '\n' ∧ ch ≠ '\r' := by
  have own {text : List Char} (plain : PlainField text) {ch : Char} (member : ch ∈ text)
      : Ascii ch ∧ ch ≠ '\n' ∧ ch ≠ '\r' :=
    ⟨plain.ascii ch member, fun same => plain.newline (same ▸ member),
      fun same => plain.carriage (same ▸ member)⟩
  have comma : Ascii ',' ∧ ',' ≠ '\n' ∧ ',' ≠ '\r' :=
    ⟨⟨by decide, by decide⟩, by decide, by decide⟩
  refine ⟨by simp [header], fun ch member => ?_⟩
  rw [header, savable.zoneLongName.cString, savable.zoneShortName.cString] at member
  simp only [List.mem_append, List.mem_cons] at member
  rcases member with long | rfl | short | rfl | width | rfl | height
  · exact own savable.zoneLongName long
  · exact comma
  · exact own savable.zoneShortName short
  · exact comma
  · exact own (plainField_decimalInt _) width
  · exact comma
  · exact own (plainField_decimalInt _) height

/-- A saved file is split into the lines that were printed. -/
theorem splitLines_saveMap (savable : m.Savable numbers) (plain : layer.Plain numbers)
    : splitLines (fromUtf8 (m.saveMap layer))
      = m.header :: (m.savedRecords layer).map MapRecord.text := by
  have each : ∀ l ∈ m.header :: (m.savedRecords layer).map MapRecord.text,
      l ≠ [] ∧ ∀ ch ∈ l, Ascii ch ∧ ch ≠ '\n' ∧ ch ≠ '\r' := by
    refine List.forall_mem_cons.mpr ⟨whole_header savable, fun l member => ?_⟩
    obtain ⟨r, listed, rfl⟩ := List.mem_map.mp member
    exact (printable_savedRecords savable plain r listed).whole
  rw [saveMap, fromUtf8_toLatin1, splitLines_flatMap]
  · exact fun l member => ⟨(each l member).1, fun here => ((each l member).2 _ here).2.1 rfl,
      fun here => ((each l member).2 _ here).2.2 rfl⟩
  · intro ch member
    obtain ⟨l, listed, inside⟩ := List.mem_flatMap.mp member
    rcases List.mem_append.mp inside with there | last
    · exact ((each l listed).2 ch there).1
    · rw [List.mem_singleton.mp last]
      exact ⟨by decide, by decide⟩

/-- A saved file is the fold of its records. -/
theorem loadMap_saveMap (savable : m.Savable numbers) (plain : layer.Plain numbers) (into : MapData)
    {fileName : List Char} (named : ¬ ['/', '.', 'm', 'a', 'p'] <:+: fileName)
    : into.loadMap numbers fileName false (some (fromUtf8 (m.saveMap layer)))
      = ((m.savedRecords layer).foldl (Loading.loadRecord numbers)
          (.start into.clear fileName m.zoneLongName m.zoneShortName
            [decimalInt m.size.1, decimalInt m.size.2])).finish := by
  have read : ((m.savedRecords layer).map MapRecord.text).map MapRecord.ofLine
      = m.savedRecords layer := by
    rw [List.map_map]
    refine (List.map_congr_left fun r member => ?_).trans (List.map_id _)
    exact (printable_savedRecords savable plain r member).ofLine
  simp only [MapData.loadMap, Bool.false_eq_true, if_false, if_neg named,
    splitLines_saveMap savable plain, splitOn_header savable, read]

end MapData

-----------------------------------------------------------------------------------------
-- A map that is loaded again
-----------------------------------------------------------------------------------------

/-- Saved L lines are H and L records. -/
theorem type_savedL {last : Option Int16} {lines : List MapLineL}
    : ∀ r ∈ savedL last lines,
        ∃ fields, r = ⟨some 'H', fields⟩ ∨ r = ⟨some 'L', fields⟩ := by
  induction lines generalizing last with
  | nil => exact fun r member => absurd member List.not_mem_nil
  | cons l rest ih =>
      rw [savedL]
      split_ifs
      · exact List.forall_mem_cons.mpr
          ⟨⟨_, .inl rfl⟩, List.forall_mem_cons.mpr ⟨⟨_, .inr rfl⟩, ih⟩⟩
      · exact List.forall_mem_cons.mpr ⟨⟨_, .inr rfl⟩, ih⟩

/-- Saved locations are drawn at one height, by induction on them. -/
theorem drawn_locations {numbers : NumberReader} {locations : List MapLocation}
    (plain : ∀ l ∈ locations, l.Plain numbers) (past : List MapRecord)
    : drawn storedHeight (MapRecord.locations numbers) past (locations.map MapLocation.record)
      = locations.flatMap (MapLocation.reloaded numbers (storedHeight past)) := by
  induction locations generalizing past with
  | nil => rfl
  | cons l rest ih =>
      obtain ⟨here, others⟩ := List.forall_mem_cons.mp plain
      have silent : storedHeight (past ++ [l.record]) = storedHeight past :=
        storedHeight_append fun r last => by rw [List.mem_singleton.mp last]; rfl
      rw [List.map_cons, drawn, ih others, silent, here.locations_record, List.flatMap_cons]

/-- What a list draws that is drawn one by one. -/
theorem flatMap_singletons {α β : Type} {f : β → List α} {g : α → β} {items : List α}
    (each : ∀ a ∈ items, f (g a) = [a])
    : (items.map g).flatMap f = items := by
  induction items with
  | nil => rfl
  | cons a rest ih =>
      obtain ⟨here, others⟩ := List.forall_mem_cons.mp each
      rw [List.map_cons, List.flatMap_cons, here, ih others, List.singleton_append]

namespace MapData

variable {numbers : NumberReader} {m : MapData} {layer : MapLayer}

/-- The record of the experience modifier, where it is not the usual one. -/
def zemRecords (m : MapData) : List MapRecord :=
  if m.zoneZEM ≠ 75 then [{ entryType := some 'Z', fields := [decimal m.zoneZEM.toNat] }] else []

theorem type_zemRecords : ∀ r ∈ m.zemRecords, ∃ fields, r = ⟨some 'Z', fields⟩ := by
  intro r member
  rw [zemRecords] at member
  split_ifs at member
  · exact ⟨_, List.mem_singleton.mp member⟩
  · cases member

theorem zem_zemRecords : m.zemRecords.foldl (fun zem r => r.zem?.getD zem) 75 = m.zoneZEM := by
  rw [zemRecords]
  split_ifs with usual
  · have read : toUShort (decimal m.zoneZEM.toNat) = m.zoneZEM.toUInt16 := by
      have same := toUShort_decimal m.zoneZEM.toUInt16
      rwa [UInt8.toNat_toUInt16] at same
    change (toUShort (decimal m.zoneZEM.toNat)).toUInt8 = m.zoneZEM
    rw [read, UInt8.toUInt8_toUInt16]
  · exact (not_not.mp usual).symm

/-- Records that say nothing of the experience modifier leave it. -/
theorem zem_silent {records : List MapRecord} (silent : ∀ r ∈ records, r.zem? = none) (zem : UInt8)
    : records.foldl (fun zem r => r.zem?.getD zem) zem = zem := by
  induction records generalizing zem with
  | nil => rfl
  | cons r rest ih =>
      obtain ⟨here, others⟩ := List.forall_mem_cons.mp silent
      rw [List.foldl_cons, here]
      exact ih others zem

-----------------------------------------------------------------------------------------
-- What each part of a saved file says
-----------------------------------------------------------------------------------------

theorem savedRecords_eq (m : MapData) (layer : MapLayer)
    : m.savedRecords layer
      = m.zemRecords ++ (savedL none layer.lLines ++ (layer.mLines.map MapLineM.record
        ++ (layer.locations.map MapLocation.record ++ m.aggros.map MapAggro.record))) := by
  simp [savedRecords, zemRecords]

theorem zemRecords_read {r : MapRecord} (member : r ∈ m.zemRecords)
    : (∀ h, r.lLine numbers h = []) ∧ r.mLine numbers = [] ∧ (∀ h, r.locations numbers h = [])
      ∧ r.aggro = [] ∧ r.mark? = none := by
  obtain ⟨fields, rfl⟩ := type_zemRecords r member
  exact ⟨fun _ => rfl, rfl, fun _ => rfl, rfl, rfl⟩

theorem savedL_read {r : MapRecord} {last : Option Int16} {lines : List MapLineL}
    (member : r ∈ savedL last lines)
    : r.mLine numbers = [] ∧ (∀ h, r.locations numbers h = []) ∧ r.aggro = []
      ∧ r.zem? = none := by
  obtain ⟨fields, rfl | rfl⟩ := type_savedL r member
  · exact ⟨rfl, fun _ => rfl, rfl, rfl⟩
  · exact ⟨rfl, fun _ => rfl, rfl, rfl⟩

theorem mLines_say {r : MapRecord} {lines : List MapLineM}
    (member : r ∈ lines.map MapLineM.record)
    : (∀ h, r.lLine numbers h = []) ∧ (∀ h, r.locations numbers h = []) ∧ r.aggro = []
      ∧ r.mark? = none ∧ r.zem? = none := by
  obtain ⟨l, _, rfl⟩ := List.mem_map.mp member
  exact ⟨fun _ => rfl, fun _ => rfl, rfl, rfl, rfl⟩

theorem locations_say {r : MapRecord} {locations : List MapLocation}
    (member : r ∈ locations.map MapLocation.record)
    : (∀ h, r.lLine numbers h = []) ∧ r.mLine numbers = [] ∧ r.aggro = [] ∧ r.zem? = none := by
  obtain ⟨l, _, rfl⟩ := List.mem_map.mp member
  exact ⟨fun _ => rfl, rfl, rfl, rfl⟩

theorem aggros_say {r : MapRecord} {aggros : List MapAggro}
    (member : r ∈ aggros.map MapAggro.record)
    : (∀ h, r.lLine numbers h = []) ∧ r.mLine numbers = [] ∧ (∀ h, r.locations numbers h = [])
      ∧ r.zem? = none := by
  obtain ⟨a, _, rfl⟩ := List.mem_map.mp member
  exact ⟨fun _ => rfl, rfl, fun _ => rfl, rfl⟩

/-- The L lines of a saved file, and the height that they leave. -/
theorem lLines_savedRecords (plain : layer.Plain numbers)
    : drawn storedHeight (MapRecord.lLine numbers) [] (m.savedRecords layer) = layer.lLines
      ∧ storedHeight ([] ++ m.zemRecords ++ savedL none layer.lLines
          ++ layer.mLines.map MapLineM.record)
        = leftHeight none layer.lLines := by
  have begins : storedHeight ([] ++ m.zemRecords) = none :=
    storedHeight_append fun r member => (@zemRecords_read numbers m r member).2.2.2.2
  obtain ⟨drawnL, leftL⟩ := drawn_savedL plain.lLines plain.heights
    (fun set => absurd set (by decide)) begins
  constructor
  · rw [savedRecords_eq, drawn_append, drawn_append, drawn_append, drawn_append, drawnL,
      drawn_eq_nil _ fun r member => (zemRecords_read member).1,
      drawn_eq_nil _ fun r member => (mLines_say member).1,
      drawn_eq_nil _ fun r member => (locations_say member).1,
      drawn_eq_nil _ fun r member => (aggros_say member).1]
    simp
  · refine (storedHeight_append fun r member => ?_).trans leftL
    exact (@mLines_say numbers r _ member).2.2.2.1

theorem mLines_savedRecords (plain : layer.Plain numbers)
    : (m.savedRecords layer).flatMap (MapRecord.mLine numbers) = layer.mLines := by
  rw [savedRecords_eq, List.flatMap_append, List.flatMap_append, List.flatMap_append,
    List.flatMap_append, List.flatMap_eq_nil_iff.mpr fun r member => (zemRecords_read member).2.1,
    List.flatMap_eq_nil_iff.mpr fun r member => (savedL_read member).1,
    flatMap_singletons fun l member => (plain.mLines l member).mLine_record,
    List.flatMap_eq_nil_iff.mpr fun r member => (locations_say member).2.1,
    List.flatMap_eq_nil_iff.mpr fun r member => (aggros_say member).2.1]
  simp

theorem locations_savedRecords (plain : layer.Plain numbers)
    : drawn storedHeight (MapRecord.locations numbers) [] (m.savedRecords layer)
      = layer.locations.flatMap (MapLocation.reloaded numbers (leftHeight none layer.lLines)) := by
  rw [savedRecords_eq, drawn_append, drawn_append, drawn_append, drawn_append,
    drawn_eq_nil _ fun r member => (zemRecords_read member).2.2.1,
    drawn_eq_nil _ fun r member => (savedL_read member).2.1,
    drawn_eq_nil _ fun r member => (mLines_say member).2.1,
    drawn_locations plain.locations, (lLines_savedRecords plain).2,
    drawn_eq_nil _ fun r member => (aggros_say member).2.2.1]
  simp

theorem aggros_savedRecords (savable : m.Savable numbers)
    : (m.savedRecords layer).flatMap MapRecord.aggro = m.aggros := by
  rw [savedRecords_eq, List.flatMap_append, List.flatMap_append, List.flatMap_append,
    List.flatMap_append,
    List.flatMap_eq_nil_iff.mpr fun r member => (@zemRecords_read numbers m r member).2.2.2.1,
    List.flatMap_eq_nil_iff.mpr fun r member => (@savedL_read numbers r _ _ member).2.2.1,
    List.flatMap_eq_nil_iff.mpr fun r member => (@mLines_say numbers r _ member).2.2.1,
    List.flatMap_eq_nil_iff.mpr fun r member => (@locations_say numbers r _ member).2.2.1,
    flatMap_singletons fun a member => (savable.aggros a member).aggro_record]
  simp

theorem zem_savedRecords (numbers : NumberReader) (m : MapData) (layer : MapLayer)
    : (m.savedRecords layer).foldl (fun zem r => r.zem?.getD zem) 75 = m.zoneZEM := by
  rw [savedRecords_eq, List.foldl_append, List.foldl_append, List.foldl_append,
    List.foldl_append, zem_zemRecords,
    zem_silent fun r member => (@savedL_read numbers r _ _ member).2.2.2,
    zem_silent fun r member => (@mLines_say numbers r _ member).2.2.2.2,
    zem_silent fun r member => (@locations_say numbers r _ member).2.2.2,
    zem_silent fun r member => (@aggros_say numbers r _ member).2.2.2]

/-- What comes back of a layer that is saved and loaded again. -/
structure Reloads (numbers : NumberReader) (m : MapData) (layer : MapLayer) (again : MapData)
    (layer' : MapLayer)
    : Prop where
  mapLayers : again.mapLayers = [layer']
  lLines : layer'.lLines = layer.lLines
  mLines : layer'.mLines = layer.mLines
  locations : layer'.locations
    = layer.locations.flatMap (MapLocation.reloaded numbers (leftHeight none layer.lLines))
  aggros : again.aggros = m.aggros
  zoneZEM : again.zoneZEM = m.zoneZEM
  zoneLongName : again.zoneLongName = m.zoneLongName
  zoneShortName : again.zoneShortName = m.zoneShortName

/-- Whatever can be saved comes back, its locations apart. -/
theorem Savable.reloads (savable : m.Savable numbers) (plain : layer.Plain numbers)
    (into : MapData) {fileName : List Char} (named : ¬ ['/', '.', 'm', 'a', 'p'] <:+: fileName)
    : ∃ layer', Reloads numbers m layer
        (into.loadMap numbers fileName false (some (fromUtf8 (m.saveMap layer)))) layer' := by
  rw [loadMap_saveMap savable plain into named]
  generalize began : Loading.start into.clear fileName m.zoneLongName m.zoneShortName
    [decimalInt m.size.1, decimalInt m.size.2] = s
  have told := @Loading.tells_foldl numbers s (m.savedRecords layer)
  have layers := @Loading.foldl_mapLayers numbers s (m.savedRecords layer)
  have follows : s.Follows [] := by subst began; exact ⟨rfl, rfl⟩
  have shown := @Loading.foldl_loadRecord_layer numbers s [] follows (m.savedRecords layer)
  rw [(lLines_savedRecords plain).1, mLines_savedRecords plain, locations_savedRecords plain]
    at shown
  rw [aggros_savedRecords savable] at told
  generalize (m.savedRecords layer).foldl (Loading.loadRecord numbers) s = t at told layers shown ⊢
  subst began
  have lLines : t.layer.lLines = layer.lLines :=
    (congrArg MapLayer.lLines shown).trans (List.nil_append _)
  have mLines : t.layer.mLines = layer.mLines :=
    (congrArg MapLayer.mLines shown).trans (List.nil_append _)
  have locations : t.layer.locations
      = layer.locations.flatMap (MapLocation.reloaded numbers (leftHeight none layer.lLines)) :=
    congrArg MapLayer.locations shown
  exact ⟨{ t.layer with mapLoaded := true }, congrArg (· ++ _) layers, lLines, mLines, locations,
    told.aggros, told.zem.trans (zem_savedRecords numbers m layer), told.zoneLongName,
    told.zoneShortName⟩

end MapData

/-- A file that is loaded. -/
structure MapLoad where
  fileName : List Char
  importing : Bool
  text : List Char

/-- A map after some files. -/
def MapData.loadMaps (numbers : NumberReader) (m : MapData) (loads : List MapLoad) : MapData :=
  loads.foldl (fun m load => m.loadMap numbers load.fileName load.importing (some load.text)) m

/-- Clean files leave a savable map, by induction on them. -/
theorem MapData.Savable.loadMaps {numbers : NumberReader} {m : MapData}
    (savable : m.Savable numbers) {loads : List MapLoad}
    (clean : ∀ load ∈ loads, CleanText load.text)
    : (m.loadMaps numbers loads).Savable numbers := by
  induction loads generalizing m with
  | nil => exact savable
  | cons load rest ih =>
      obtain ⟨here, others⟩ := List.forall_mem_cons.mp clean
      exact ih (savable.loadMap here load.importing) others

/-- After any files, whatever is in them, each layer that is saved comes back when it is loaded,
into any map: its lines with their heights, the aggro ranges, the names and the experience
modifier as they were, and its locations at the last height of the lines.
-/
theorem saveMap_reloads (numbers : NumberReader) {loads : List MapLoad}
    (clean : ∀ load ∈ loads, CleanText load.text) {layer : MapLayer}
    (loaded : layer ∈ (MapData.fresh.loadMaps numbers loads).mapLayers) (into : MapData)
    {fileName : List Char} (named : ¬ ['/', '.', 'm', 'a', 'p'] <:+: fileName)
    : ∃ layer', MapData.Reloads numbers (MapData.fresh.loadMaps numbers loads) layer
        (into.loadMap numbers fileName false
          (some (fromUtf8 ((MapData.fresh.loadMaps numbers loads).saveMap layer)))) layer' := by
  have savable : (MapData.fresh.loadMaps numbers loads).Savable numbers :=
    MapData.savable_fresh.loadMaps clean
  exact savable.reloads (savable.layers layer loaded) into named

/-- A file with two heights, a line in space and a location with a height of its own. -/
def heightsMap : List Char :=
  "Rivervale,rivervale\nZ,80\nL,path,red,2,0,0,1,1\nH,10\nL,wall,red,2,0,0,5,5\nH,-7".toList
    ++ "\nL,roof,blue,2,0,0,5,9\nM,stairs,blue,2,0,0,0,5,5,9\nP,inn,blue,1,2,3\nA,orc,40".toList

theorem saveMap_reloads_heights
    : ∃ layer layer', layer ∈ (MapData.fresh.loadMaps decimalReader
          [⟨['a', '.', 'm', 'a', 'p'], false, heightsMap⟩]).mapLayers
        ∧ MapData.Reloads decimalReader (MapData.fresh.loadMaps decimalReader
            [⟨['a', '.', 'm', 'a', 'p'], false, heightsMap⟩]) layer
          (MapData.fresh.loadMap decimalReader ['b', '.', 'm', 'a', 'p'] false
            (some (fromUtf8 ((MapData.fresh.loadMaps decimalReader
              [⟨['a', '.', 'm', 'a', 'p'], false, heightsMap⟩]).saveMap layer)))) layer'
        ∧ layer'.lLines.map (·.z) = [0, 10, -7] := by
  have some : ((MapData.fresh.loadMaps decimalReader
      [⟨['a', '.', 'm', 'a', 'p'], false, heightsMap⟩]).mapLayers).map
        (fun layer => layer.lLines.map (·.z)) = [[0, 10, -7]] := by
    decide +kernel
  obtain ⟨layer, listed, heights⟩ := List.exists_of_mem_map (some ▸ List.mem_singleton_self _)
  have clean : ∀ load ∈ [MapLoad.mk ['a', '.', 'm', 'a', 'p'] false heightsMap],
      CleanText load.text := by
    intro load member
    rw [List.mem_singleton.mp member]
    exact ⟨ascii_of_all (by decide +kernel), by decide +kernel⟩
  obtain ⟨layer', reloads⟩ := saveMap_reloads decimalReader clean listed .fresh
    (by decide : ¬ ['/', '.', 'm', 'a', 'p'] <:+: ['b', '.', 'm', 'a', 'p'])
  exact ⟨layer, layer', listed, reloads, reloads.lLines ▸ heights⟩

end Maps
end Scry
