import Scry.Maps.ListAccess
import Scry.Maps.OneForOne
import Scry.Maps.Segments

/-! Map files of the other format, read with iterators over their lines and fields. -/

namespace Scry
namespace Maps

open Cursor

namespace SoeLoading

variable (reader : SoeReader)

/-- Whether a segment starts a line: the last point of the current one is looked at. -/
def readStarts (s : SoeLoading) (second : MapPoint) (r g b : UInt8) : Option Bool :=
  match s.currentLineM with
  | none => some true
  | some place => do
      let line ← s.layer.mLines[place]?
      let point ← line.points[s.checkPoint]?
      return !point.isEqual second.x second.y second.z
        || (!hasParts line.common.color r g b && !hasParts line.common.origColor r g b)

/-- A new line, whose two points are set. -/
def readStartLine (s : SoeLoading) (r g b : UInt8) (first second : MapPoint)
    : Option SoeLoading := do
  let common := MapCommon.ofColor ['s', 'o', 'e'] (reader.lineColor r g b)
  let points ← setAt (List.replicate 2 ⟨0, 0, 0⟩) 0 second
  let points ← setAt points 1 first
  let line : MapLineM :=
    { common := { common with origColor := .rgb r g b }, points, bounds := .null }
  return { s with
    currentLineM := some s.layer.mLines.length
    numPoints := 2
    checkPoint := 1
    layer := { s.layer with mLines := s.layer.mLines ++ [line] } }

/-- One point more on the current line. -/
def readAddPoint (s : SoeLoading) (point : MapPoint) : Option SoeLoading := do
  let place ← s.currentLineM
  let line ← s.layer.mLines[place]?
  let points :=
    if line.points.length < s.numPoints + 1 then
      line.points ++ List.replicate (s.numPoints + 1 - line.points.length) ⟨0, 0, 0⟩
    else line.points
  let points ← setAt points s.numPoints point
  let mLines ← setAt s.layer.mLines place { line with points }
  return { s with
    numPoints := s.numPoints + 1
    checkPoint := s.numPoints
    layer := { s.layer with mLines } }

/-- An L record of so many fields. -/
def readRecordL (s : SoeLoading) (count : Nat) : FieldReader SoeLoading := do
  if count ≠ 9 then
    return s
  let x1 := -toInt16 (reader.toFloat (← next))
  let y1 := -toInt16 (reader.toFloat (← next))
  let z1 := toInt16 (reader.toFloat (← next))
  let x2 := -toInt16 (reader.toFloat (← next))
  let y2 := -toInt16 (reader.toFloat (← next))
  let z2 := toInt16 (reader.toFloat (← next))
  let r := (toUShort (← next)).toUInt8
  let g := (toUShort (← next)).toUInt8
  let b := (toUShort (← current)).toUInt8
  let starts ← s.readStarts ⟨x2, y2, z2⟩ r g b
  let s ←
    if starts then s.readStartLine reader r g b ⟨x1, y1, z1⟩ ⟨x2, y2, z2⟩
    else s.readAddPoint ⟨x1, y1, z1⟩
  return s.checkLine

/-- The rest of the fields, joined again. -/
def readLabel : FieldReader (List Char) := fun fields => some (labelName fields, [])

/-- A P record. -/
def readRecordP (s : SoeLoading) (count : Nat) : FieldReader SoeLoading := do
  if count < 8 then
    return s
  let x := -toInt16 (reader.toFloat (← next))
  let y := -toInt16 (reader.toFloat (← next))
  let z := toInt16 (reader.toFloat (← next))
  let r := (toUShort (← next)).toUInt8
  let g := (toUShort (← next)).toUInt8
  let b := (toUShort (← next)).toUInt8
  let _ ← next
  let name ← readLabel
  let common := MapCommon.ofColor name (reader.lineColor r g b)
  let location : MapLocation :=
    { common := { common with origColor := .rgb r g b }, point := ⟨x, y, z⟩, heightSet := true }
  return { s with
    data := s.data.quickCheckPos x y
    layer := { s.layer with locations := s.layer.locations ++ [location] } }

/-- One line of the file. -/
def readRecord (s : SoeLoading) (entry : List Char) : Option SoeLoading := do
  let entryType ← entry[0]?
  let fields := splitFields (entry.drop 2)
  if fields.isEmpty then
    return s
  let count := fields.length
  let read :=
    match entryType with
    | 'L' => s.readRecordL reader count
    | 'P' => s.readRecordP reader count
    | _ => return s
  (read.run fields).map (·.1)

end SoeLoading

/-- `loadSOEMap` with its iterators. -/
def MapData.readSOEMap (reader : SoeReader) (m : MapData) (fileName : List Char)
    (importing : Bool) (content : Option (List Char))
    : Option MapData :=
  if m.loaded reader fileName then some m
  else
    let m := if importing then m else m.clear
    if ['/', '.', 't', 'x', 't'] <:+: fileName then some m
    else
      match content with
      | none => some m
      | some text => do
          let s ← (splitLines text).foldlM (SoeLoading.readRecord reader) (.start m fileName)
          return s.finish

namespace SoeLoading

variable {reader : SoeReader} {s : SoeLoading} {groups : List (List SoeLine)}

theorem readStartLine_eq (s : SoeLoading) (r g b : UInt8) (first second : MapPoint)
    : s.readStartLine reader r g b first second
      = some (s.startLine reader r g b first second) := rfl

/-- The current line has the point that is looked at. -/
theorem readStarts_eq (builds : Builds reader s groups) (second : MapPoint) (r g b : UInt8)
    : s.readStarts second r g b
      = some (s.currentLineM.isNone
          || !(s.line.points.getD s.checkPoint ⟨0, 0, 0⟩).isEqual second.x second.y second.z
          || (!hasParts s.line.common.color r g b
            && !hasParts s.line.common.origColor r g b)) := by
  cases builds with
  | fresh none lines => simp [readStarts, none]
  | @current front line done group others joins lines place size last =>
      have inside : s.checkPoint < line.points.length := by omega
      simp [readStarts, SoeLoading.line, place, lines, inside]

/-- It has room for one point more. -/
theorem readAddPoint_eq (builds : Builds reader s groups) (point : MapPoint)
    (some : s.currentLineM.isNone = false)
    : s.readAddPoint point = .some (s.addPoint point) := by
  cases builds with
  | fresh none lines => simp [none] at some
  | @current front line done group others joins lines place size last =>
      have current := line_of_last lines place
      have room : line.points.length < s.numPoints + 1 := by omega
      have inside : s.numPoints
          < (line.points ++ List.replicate (s.numPoints + 1 - line.points.length)
              (⟨0, 0, 0⟩ : MapPoint)).length := by
        rw [List.length_append, List.length_replicate]
        omega
      have there : front.length < s.layer.mLines.length := by simp [lines]
      have here : s.layer.mLines[front.length]? = .some line := by simp [lines]
      simp only [readAddPoint, addPoint, place, current, here, room, if_true, setAt_eq inside,
        setAt_eq there, Option.bind_eq_bind, Option.bind_some, Option.pure_def]

theorem run_readRecordL (reader : SoeReader) (builds : Builds reader s groups)
    (fields : List (List Char))
    : ∃ rest, (s.readRecordL reader fields.length).run fields
        = some (s.loadL reader fields, rest) := by
  by_cases nine : fields.length = 9
  · match fields, nine with
    | [fx1, fy1, fz1, fx2, fy2, fz2, fr, fg, fb], _ =>
        refine ⟨[fb], ?_⟩
        -- the fields are read, and what is left looks at the line
        change ((s.readStarts ⟨-toInt16 (reader.toFloat fx2), -toInt16 (reader.toFloat fy2),
            toInt16 (reader.toFloat fz2)⟩ (toUShort fr).toUInt8 (toUShort fg).toUInt8
            (toUShort fb).toUInt8).bind fun starts => some (starts, [fb])).bind _ = _
        rw [readStarts_eq builds, Option.bind_some, Option.bind_some]
        simp only [loadL, Bool.or_eq_true, Option.isNone_iff_eq_none]
        split_ifs with starts
        · rw [readStartLine_eq]
          rfl
        · have goesOn : s.currentLineM.isNone = false :=
            Bool.eq_false_iff.mpr fun none =>
              starts (Or.inl (Or.inl (Option.isNone_iff_eq_none.mp none)))
          rw [readAddPoint_eq builds _ goesOn]
          rfl
  · have other : s.loadL reader fields = s := by
      rw [loadL.eq_def]
      split
      · exact absurd rfl nine
      · rfl
    rw [readRecordL, if_pos nine, other]
    exact ⟨fields, rfl⟩

/-- A P record. -/
theorem run_readRecordP (reader : SoeReader) (s : SoeLoading) (fields : List (List Char))
    : ∃ rest, (s.readRecordP reader fields.length).run fields
        = some (s.loadP reader fields, rest) := by
  match fields with
  | fx :: fy :: fz :: fr :: fg :: fb :: unknown :: label :: more =>
      have enough : ¬ (fx :: fy :: fz :: fr :: fg :: fb :: unknown :: label :: more).length < 8 := by
        simp
      rw [readRecordP, if_neg enough]
      exact ⟨[], rfl⟩
  | [] | [_] | [_, _] | [_, _, _] | [_, _, _, _] | [_, _, _, _, _] | [_, _, _, _, _, _]
  | [_, _, _, _, _, _, _] => exact ⟨_, rfl⟩

/-- A line that is not empty is read as before. -/
theorem readRecord_eq (builds : Builds reader s groups) {line : List Char} (full : line ≠ [])
    : s.readRecord reader line = some (s.loadRecord reader (.ofSoeLine line)) := by
  obtain ⟨c, text, rfl⟩ := List.exists_cons_of_ne_nil full
  have isRecord : MapRecord.ofSoeLine (c :: text)
      = { entryType := some c, fields := splitFields ((c :: text).drop 2) } := rfl
  rw [isRecord, readRecord]
  generalize splitFields ((c :: text).drop 2) = fields
  rw [List.getElem?_cons_zero, Option.bind_eq_bind, Option.bind_some]
  dsimp only
  by_cases isLine : c = 'L'
  · obtain ⟨rest, run⟩ := run_readRecordL reader builds fields
    subst isLine
    change (if fields.isEmpty then some s
      else ((s.readRecordL reader fields.length).run fields).map (·.1)) = _
    rw [run]
    cases fields with
    | nil => rfl
    | cons first more => rfl
  · by_cases isPoint : c = 'P'
    · obtain ⟨rest, run⟩ := run_readRecordP reader s fields
      subst isPoint
      change (if fields.isEmpty then some s
        else ((s.readRecordP reader fields.length).run fields).map (·.1)) = _
      rw [run]
      cases fields with
      | nil => rfl
      | cons first more => rfl
    · simp [loadRecord, isLine, isPoint]

/-- By induction on the lines. -/
theorem readRecords_eq (builds : Builds reader s groups) {lines : List (List Char)}
    (full : ∀ line ∈ lines, line ≠ [])
    : lines.foldlM (readRecord reader) s
      = some ((lines.map MapRecord.ofSoeLine).foldl (loadRecord reader) s) := by
  induction lines generalizing s groups with
  | nil => rfl
  | cons line rest ih =>
      obtain ⟨groups', -, step⟩ := builds.loadRecord (.ofSoeLine line)
      rw [List.foldlM_cons, readRecord_eq builds (full line List.mem_cons_self),
        Option.bind_eq_bind, Option.bind_some,
        ih step fun line member => full line (List.mem_cons_of_mem _ member)]
      rfl

end SoeLoading

/-- A file of the other format is always read as before. -/
theorem readSOEMap_eq (reader : SoeReader) (m : MapData) (fileName : List Char)
    (importing : Bool) (content : Option (List Char))
    : m.readSOEMap reader fileName importing content
      = some (m.loadSOEMap reader fileName importing content) := by
  rw [MapData.readSOEMap.eq_def, MapData.loadSOEMap.eq_def]
  by_cases loaded : m.loaded reader fileName = true
  · rw [if_pos loaded, if_pos loaded]
  · rw [if_neg loaded, if_neg loaded]
    dsimp only
    by_cases named : ['/', '.', 't', 'x', 't'] <:+: fileName
    · rw [if_pos named, if_pos named]
    · rw [if_neg named, if_neg named]
      cases content with
      | none => rfl
      | some text =>
          have start : Builds reader (.start (if importing then m else m.clear) fileName) [] :=
            .fresh rfl rfl
          have full := fun line => @mem_splitLines_ne_nil text line
          simp only [SoeLoading.readRecords_eq start full, Option.bind_eq_bind, Option.bind_some,
            Option.pure_def]

/-- A map file is read without an access outside of a list if and only if it can be read, and then
as before; a file of the other format always is.
-/
theorem readMaps_iff (numbers : NumberReader) (reader : SoeReader) (m : MapData)
    (fileName : List Char) (importing : Bool) (content : Option (List Char))
    : ((m.readMap numbers fileName importing content).isSome = true
        ↔ ReadableFile fileName content)
      ∧ (ReadableFile fileName content →
          m.readMap numbers fileName importing content
            = some (m.loadMap numbers fileName importing content))
      ∧ m.readSOEMap reader fileName importing content
          = some (m.loadSOEMap reader fileName importing content) := by
  obtain ⟨kept, lost⟩ := readMap_eq numbers m fileName importing content
  refine ⟨⟨fun isRead => ?_, fun readable => ?_⟩, kept,
    readSOEMap_eq reader m fileName importing content⟩
  · by_contra unreadable
    rw [lost unreadable] at isRead
    exact Bool.false_ne_true isRead
  · rw [kept readable]
    rfl

/-- A map with a line of each kind. -/
theorem readMaps_iff_rivervale
    : MapData.fresh.readMap decimalReader ['r', '.', 'm', 'a', 'p'] false (some sampleMap)
      = some (MapData.fresh.loadMap decimalReader ['r', '.', 'm', 'a', 'p'] false
          (some sampleMap)) :=
  (readMaps_iff decimalReader decimalSoeReader .fresh ['r', '.', 'm', 'a', 'p'] false
    (some sampleMap)).2.1 (Or.inr fun _ text => Option.some.inj text ▸ by decide)

/-- An empty file has no first line. -/
theorem not_readMaps
    : ¬ ∀ (numbers : NumberReader) (m : MapData) (fileName : List Char) (importing : Bool)
        (content : Option (List Char)),
        (m.readMap numbers fileName importing content).isSome = true := by
  intro always
  exact absurd (always decimalReader .fresh ['r', '.', 'm', 'a', 'p'] false (some [])) (by decide)

end Maps
end Scry
