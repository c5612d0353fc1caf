import Mathlib.Data.Rat.Floor
import Scry.Maps.MapFile

/-! Map files of the other format: single segments with a color, which are merged into polylines
where one continues another, and labelled locations.
-/

namespace Scry
namespace Maps

open TextStream

/-- What reading such a file takes from the string class and from the preferences: the value of a
text that is no number is 0.
-/
structure SoeReader where
  toFloat : List Char → ℚ
  toLower : List Char → List Char
  numbers : NumberReader
  getPrefString : List Char → List Char → List Char → List Char

/-- `int16_t` of a number, without its fraction. -/
def toInt16 (q : ℚ) : Int16 := Int16.ofInt (if q < 0 then ⌈q⌉ else ⌊q⌋)

/-- `SEQMAP_COLOR_TABLE`. -/
def mapColorTable : List String :=
  ["Black", "DarkRed", "FireBrick", "Red", "DarkGreen", "Orange", "DarkOrange", "DarkOrange",
    "Green", "Chartreuse", "Gold", "Gold", "Green", "Chartreuse", "Goldenrod", "Yellow",
    "DarkBlue", "Magenta", "DeepPink", "DeepPink", "DarkCyan", "Grey", "IndianRed",
    "LightCoral", "SpringGreen", "LightGreen", "DarkKhaki", "Khaki", "SpringGreen",
    "PaleGreen", "DarkOliveGreen", "Khaki", "MediumBlue", "DarkViolet", "Magenta", "Maroon",
    "RoyalBlue", "SlateBlue", "Orchid", "HotPink", "Turquoise", "SkyBlue", "Snow",
    "LightPink", "Cyan", "Aquamarine", "DarkSeaGreen", "Beige", "Blue", "Purple", "Purple",
    "Magenta", "DodgerBlue", "SlateBlue", "MediumPurple", "Orchid", "DeepSkyBlue",
    "LightBlue", "Plum", "Cyan", "CadetBlue", "PaleTurquoise", "LightCyan", "White"]

/-- Where a color stands in the table, before black is taken for white. -/
def mapColorPlace (r g b : UInt8) : Nat :=
  r.toNat / 80 + g.toNat / 80 * 4 + b.toNat / 80 * 16

/-- `getMapConvertColorIndex`. -/
def getMapConvertColorIndex (r g b : UInt8) : Nat :=
  let index := mapColorPlace r g b
  if index = 0 then 63 else index

/-- `getMapConvertColor`. -/
def getMapConvertColor (r g b : UInt8) : String :=
  let color := mapColorPlace r g b
  if color = 0 then mapColorTable.getD 63 "" else mapColorTable.getD color ""

/-- The color that a color of the file is shown in. -/
def SoeReader.lineColor (reader : SoeReader) (r g b : UInt8) : SeqColor :=
  .ofText reader.numbers
    (reader.getPrefString ("MapColor".toList ++ decimal (getMapConvertColorIndex r g b))
      "MapColors".toList (getMapConvertColor r g b).toList)

/-- Whether the parts of a color are these. -/
def hasParts (c : SeqColor) (r g b : UInt8) : Bool := c.r = r && c.g = g && c.b = b

/-- The spaces that belong to the separator of two fields. -/
def isBlank (c : Char) : Bool := c.toNat = 0x20 || (0x09 ≤ c.toNat && c.toNat ≤ 0x0d)

/-- The fields of a line, each up to a comma and the blanks after it. -/
def splitFields (line : List Char) : List (List Char) :=
  match line.splitOn ',' with
  | [] => []
  | first :: rest => first :: rest.map (List.dropWhile isBlank)

/-- The record of a line: its first character, and the fields after the second one. -/
def MapRecord.ofSoeLine (line : List Char) : MapRecord :=
  { entryType := line.head?, fields := splitFields (line.drop 2) }

/-- What `loadSOEMap` keeps from one line to the next. The current line is a place in the layer's
list of lines.
-/
structure SoeLoading where
  data : MapData
  layer : MapLayer
  currentLineM : Option Nat
  numPoints : Nat
  checkPoint : Nat

/-- A line with nothing in it. -/
def MapLineM.empty : MapLineM := { common := .ofColor [] {}, points := [], bounds := .null }

namespace SoeLoading

variable (reader : SoeReader)

/-- The line that points are added to. -/
def line (s : SoeLoading) : MapLineM :=
  match s.currentLineM with
  | none => .empty
  | some place => s.layer.mLines.getD place .empty

/-- The bounds of the current line, and those of the map. -/
def checkLine (s : SoeLoading) : SoeLoading :=
  match s.currentLineM with
  | none => s
  | some place =>
      let line := s.line.calcBounds
      { s with
        data := s.data.quickCheckRect line.bounds
        layer := { s.layer with mLines := s.layer.mLines.set place line } }

/-- A new line of two points. -/
def startLine (s : SoeLoading) (r g b : UInt8) (first second : MapPoint) : SoeLoading :=
  let common := MapCommon.ofColor ['s', 'o', 'e'] (reader.lineColor r g b)
  let line : MapLineM :=
    { common := { common with origColor := .rgb r g b }
      points := ((List.replicate 2 ⟨0, 0, 0⟩).set 0 second).set 1 first
      bounds := .null }
  { s with
    currentLineM := some s.layer.mLines.length
    numPoints := 2
    checkPoint := 1
    layer := { s.layer with mLines := s.layer.mLines ++ [line] } }

/-- One point more on the current line, with room made for it. -/
def addPoint (s : SoeLoading) (point : MapPoint) : SoeLoading :=
  match s.currentLineM with
  | none => s
  | some place =>
      let points := s.line.points
      let points :=
        if points.length < s.numPoints + 1 then
          points ++ List.replicate (s.numPoints + 1 - points.length) ⟨0, 0, 0⟩
        else points
      { s with
        numPoints := s.numPoints + 1
        checkPoint := s.numPoints
        layer :=
          { s.layer with
            mLines := s.layer.mLines.set place
              { s.line with points := points.set s.numPoints point } } }

/-- An L record. -/
def loadL (s : SoeLoading) : List (List Char) → SoeLoading
  | [fx1, fy1, fz1, fx2, fy2, fz2, fr, fg, fb] =>
      let x1 := -toInt16 (reader.toFloat fx1)
      let y1 := -toInt16 (reader.toFloat fy1)
      let z1 := toInt16 (reader.toFloat fz1)
      let x2 := -toInt16 (reader.toFloat fx2)
      let y2 := -toInt16 (reader.toFloat fy2)
      let z2 := toInt16 (reader.toFloat fz2)
      let r := (toUShort fr).toUInt8
      let g := (toUShort fg).toUInt8
      let b := (toUShort fb).toUInt8
      let starts :=
        s.currentLineM.isNone
          || !(s.line.points.getD s.checkPoint ⟨0, 0, 0⟩).isEqual x2 y2 z2
          || (!hasParts s.line.common.color r g b && !hasParts s.line.common.origColor r g b)
      let s :=
        if starts then s.startLine reader r g b ⟨x1, y1, z1⟩ ⟨x2, y2, z2⟩
        else s.addPoint ⟨x1, y1, z1⟩
      s.checkLine
  | _ => s

/-- The name of a label, whose fields are joined again and whose underscores are spaces. -/
def labelName (fields : List (List Char)) : List Char :=
  (fields.foldl (fun name field => name ++ (if name = [] then [] else [',']) ++ field) []).map
    fun c => if c = '_' then ' ' else c

/-- A P record. -/
def loadP (s : SoeLoading) : List (List Char) → SoeLoading
  | fx :: fy :: fz :: fr :: fg :: fb :: _ :: label :: more =>
      let x := -toInt16 (reader.toFloat fx)
      let y := -toInt16 (reader.toFloat fy)
      let z := toInt16 (reader.toFloat fz)
      let r := (toUShort fr).toUInt8
      let g := (toUShort fg).toUInt8
      let b := (toUShort fb).toUInt8
      let common := MapCommon.ofColor (labelName (label :: more)) (reader.lineColor r g b)
      let location : MapLocation :=
        { common := { common with origColor := .rgb r g b }
          point := ⟨x, y, z⟩
          heightSet := true }
      { s with
        data := s.data.quickCheckPos x y
        layer := { s.layer with locations := s.layer.locations ++ [location] } }
  | _ => s

/-- One line of the file. -/
def loadRecord (s : SoeLoading) (r : MapRecord) : SoeLoading :=
  match r.entryType with
  | some 'L' => s.loadL reader r.fields
  | some 'P' => s.loadP reader r.fields
  | _ => s

/-- The name of a file up to its first dot, without the ends that number a layer. -/
def stripTrailers : List Char → List Char
  | '_' :: digit :: rest =>
      if '1' ≤ digit ∧ digit ≤ '9' then stripTrailers rest
      else '_' :: stripTrailers (digit :: rest)
  | c :: rest => c :: stripTrailers rest
  | [] => []

/-- The start of a file: the zone's names from the file's, and an empty layer. -/
def start (m : MapData) (fileName : List Char) : SoeLoading :=
  let base := ((fileName.reverse.takeWhile (· ≠ '/')).reverse).takeWhile (· ≠ '.')
  { data := { m with zoneLongName := stripTrailers base, zoneShortName := stripTrailers base }
    layer := .named fileName
    currentLineM := none
    numPoints := 0
    checkPoint := 0 }

/-- The end of a file: the bounding rectangle, and the layer added to the map. -/
def finish (s : SoeLoading) : MapData :=
  let m := s.data.updateBounds
  { m with mapLayers := m.mapLayers ++ [{ s.layer with mapLoaded := true }] }

end SoeLoading

/-- Whether a file is loaded already. -/
def MapData.loaded (reader : SoeReader) (m : MapData) (fileName : List Char) : Bool :=
  m.mapLayers.any fun layer =>
    layer.mapLoaded && reader.toLower layer.fileName == reader.toLower fileName

/-- `loadSOEMap` on a file with some content, or on one that cannot be opened. -/
def MapData.loadSOEMap (reader : SoeReader) (m : MapData) (fileName : List Char)
    (importing : Bool) (content : Option (List Char))
    : MapData :=
  if m.loaded reader fileName then m
  else
    let m := if importing then m else m.clear
    if ['/', '.', 't', 'x', 't'] <:+: fileName then m
    else
      match content with
      | none => m
      | some text =>
          (((splitLines text).map MapRecord.ofSoeLine).foldl (SoeLoading.loadRecord reader)
            (.start m fileName)).finish

end Maps
end Scry
