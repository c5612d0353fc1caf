import Mathlib.Data.List.Infix
import Scry.Maps.MapData

/-! Map files: a line with the zone's names and then one record a line, of lines, locations, aggro
ranges, a height and the zone's experience modifier.
-/

namespace Scry
namespace Maps

/-- `toShort`, where the text is such a number. -/
def toShort? (text : List Char) : Option Int16 := (Decimal.signed? 16 text).map Int16.ofInt

/-- `toShort`. -/
def toShort (text : List Char) : Int16 := (toShort? text).getD 0

/-- `toUShort`, where the text is such a number. -/
def toUShort? (text : List Char) : Option UInt16 := (Decimal.unsigned? 16 text).map UInt16.ofNat

/-- `toUShort`. -/
def toUShort (text : List Char) : UInt16 := (toUShort? text).getD 0

/-- `toUInt`, where the text is such a number. -/
def toUInt? (text : List Char) : Option UInt32 := (Decimal.unsigned? 32 text).map UInt32.ofNat

/-- `toInt`. -/
def toInt (text : List Char) : Int := (Decimal.signed? 32 text).getD 0

/-- The text split at ends of lines, empty parts skipped. -/
def splitLines (text : List Char) : List (List Char) :=
  (text.splitOnP fun c => c = '\r' || c = '\n').filter (· ≠ [])

/-- A line of a map: the first character and the fields after the first. -/
structure MapRecord where
  entryType : Option Char
  fields : List (List Char)
  deriving DecidableEq

/-- The record of a line. The first character of an empty first field is none of the types. -/
def MapRecord.ofLine (line : List Char) : MapRecord :=
  match line.splitOn ',' with
  | [] => { entryType := none, fields := [] }
  | first :: fields => { entryType := first.head?, fields }

/-- What `loadMap` keeps from one line to the next. -/
structure Loading where
  data : MapData
  layer : MapLayer
  globHeight : Int16
  globHeightSet : Bool

/-- The color of a line without one. -/
def lineColor (color : List Char) : List Char :=
  if color = [] then ['#', '7', 'F', '7', 'F', '7', 'F'] else color

/-- The points of an M line as they are read one after the other. -/
def readM (points : List MapPoint) (numPoints : Nat) : List (List Char) → List MapPoint
  | x :: y :: z :: fields =>
      if numPoints < points.length then
        readM (points.set numPoints ⟨toShort x, toShort y, toShort z⟩) (numPoints + 1) fields
      else points
  | _ => points

/-- The points of an L line as they are read one after the other. -/
def readL (points : List QPoint) (numPoints : Nat) : List (List Char) → List QPoint
  | x :: y :: fields =>
      if numPoints < points.length then
        readL (points.set numPoints ⟨(toShort x).toInt, (toShort y).toInt⟩) (numPoints + 1) fields
      else points
  | _ => points

/-- The rectangle of no points. -/
def QRect.null : QRect := { left := 0, top := 0, right := -1, bottom := -1 }

/-- The location's constructors, with a height and without one. -/
def MapLocation.ofFields (numbers : NumberReader) (name color : List Char) (x y : Int16)
    (height : Option Int16)
    : MapLocation :=
  { common := .ofName numbers name color
    point := ⟨x, y, height.getD 0⟩
    heightSet := height.isSome }

namespace Loading

variable (numbers : NumberReader)

/-- An M record. -/
def loadM (s : Loading) : List (List Char) → Loading
  | name :: color :: specified :: fields =>
      let linePoints := fields.length / 3
      if linePoints < 2 then s
      else
        match toUInt? specified with
        | none => s
        | some _ =>
            let line : MapLineM :=
              { common := .ofName numbers name (lineColor color)
                points := readM (List.replicate linePoints ⟨0, 0, 0⟩) 0 fields
                bounds := .null }
            let line := line.calcBounds
            { s with
              data := s.data.quickCheckRect line.bounds
              layer := { s.layer with mLines := s.layer.mLines ++ [line] } }
  | _ => s

/-- An L record. -/
def loadL (s : Loading) : List (List Char) → Loading
  | name :: color :: specified :: fields =>
      let linePoints := fields.length >>> 1
      if linePoints < 2 then s
      else
        match toUInt? specified with
        | none => s
        | some _ =>
            let line : MapLineL :=
              { common := .ofName numbers name (lineColor color)
                points := readL (List.replicate linePoints ⟨0, 0⟩) 0 fields
                z := if s.globHeightSet then s.globHeight else 0
                heightSet := s.globHeightSet
                bounds := .null }
            let line := line.calcBounds
            { s with
              data := s.data.quickCheckRect line.bounds
              layer := { s.layer with lLines := s.layer.lLines ++ [line] } }
  | _ => s

/-- The digits after a text's beginning, and what follows them. -/
def heightDigits (text : List Char) : Option (List Char × List Char) :=
  match text.takeWhile Char.isDigit with
  | [] => none
  | digits => some (digits, text.dropWhile Char.isDigit)

/-- The two numbers of a name that begins with `Height_Filter:_`, in any case. -/
def heightHint (name : List Char) : Option (List Char × List Char) :=
  let hint := ['h', 'e', 'i', 'g', 'h', 't', '_', 'f', 'i', 'l', 't', 'e', 'r', ':', '_']
  if (name.take hint.length).map Char.toLower = hint then
    match heightDigits (name.drop hint.length) with
    | some (above, '/' :: rest) => (heightDigits rest).map fun below => (above, below.1)
    | _ => none
  else none

/-- The first height hint of a map. -/
def takeHint (m : MapData) (fields : List (List Char)) : MapData :=
  if fields.length = 7 ∧ m.heightHintAbove = 0 then
    match heightHint (Decimal.trim (fields.getD 6 [])) with
    | none => m
    | some (above, below) =>
        { m with heightHintAbove := toUShort above, heightHintBelow := toUShort below }
  else m

/-- A P record. -/
def loadP (s : Loading) : List (List Char) → Loading
  | name :: color :: x :: y :: fields =>
      let mx := toShort x
      let my := toShort y
      let locations :=
        match fields with
        | [z] => s.layer.locations ++ [.ofFields numbers name color mx my (some (toShort z))]
        | _ => s.layer.locations
      let locations :=
        if s.globHeightSet then
          locations ++ [.ofFields numbers name color mx my (some s.globHeight)]
        else
          locations ++ [.ofFields numbers name color mx my none]
      { s with
        data := takeHint (s.data.quickCheckPos mx my) (name :: color :: x :: y :: fields)
        layer := { s.layer with locations } }
  | _ => s

/-- An A record. -/
def loadA (s : Loading) : List (List Char) → Loading
  | name :: range :: _ =>
      if name = [] then s
      else
        let rangeVal := toUShort range
        if rangeVal = 0 then s
        else { s with data := { s.data with aggros := s.data.aggros ++ [⟨name, rangeVal⟩] } }
  | _ => s

/-- An H record. -/
def loadH (s : Loading) : List (List Char) → Loading
  | height :: _ =>
      let s := { s with globHeight := toShort height }
      match toShort? height with
      | none => s
      | some _ => { s with globHeightSet := true }
  | _ => s

/-- A Z record. -/
def loadZ (s : Loading) : List (List Char) → Loading
  | zem :: _ => { s with data := { s.data with zoneZEM := (toUShort zem).toUInt8 } }
  | _ => s

/-- One line of a map. -/
def loadRecord (s : Loading) (r : MapRecord) : Loading :=
  match r.entryType with
  | some 'M' => s.loadM numbers r.fields
  | some 'L' => s.loadL numbers r.fields
  | some 'P' => s.loadP numbers r.fields
  | some 'A' => s.loadA r.fields
  | some 'H' => s.loadH r.fields
  | some 'Z' => s.loadZ r.fields
  | _ => s

/-- The start of a file: the names and the size of its first line, and an empty layer. -/
def start (m : MapData) (fileName zoneLongName zoneShortName : List Char)
    (sizes : List (List Char))
    : Loading :=
  let size :=
    match sizes with
    | width :: height :: _ => (toInt width, toInt height)
    | _ => m.size
  { data := { m with zoneLongName, zoneShortName, size }
    layer := .named fileName
    globHeight := 0
    globHeightSet := false }

/-- The end of a file: the bounding rectangle, and the layer added to the map. -/
def finish (s : Loading) : MapData :=
  let m := s.data.updateBounds
  { m with mapLayers := m.mapLayers ++ [{ s.layer with mapLoaded := true }] }

end Loading

/-- `loadMap` on a file with some content, or on one that cannot be opened. -/
def MapData.loadMap (numbers : NumberReader) (m : MapData) (fileName : List Char)
    (importing : Bool) (content : Option (List Char))
    : MapData :=
  let m := if importing then m else m.clear
  if ['/', '.', 'm', 'a', 'p'] <:+: fileName then m
  else
    match content with
    | none => m
    | some text =>
        match splitLines text with
        | [] => m
        | first :: lines =>
            match first.splitOn ',' with
            | zoneLongName :: zoneShortName :: sizes =>
                ((lines.map MapRecord.ofLine).foldl (Loading.loadRecord numbers)
                  (.start m fileName zoneLongName zoneShortName sizes)).finish
            | _ => m

end Maps
end Scry
