import Scry.Library.Decimal
import Scry.Preferences.SeqColor

/-! Maps: lines and locations in layers, and bounds that grow with every point that is checked. -/

namespace Scry
namespace Maps

open TextStream

/-- `MapPoint`. -/
structure MapPoint where
  x : Int16
  y : Int16
  z : Int16
  deriving DecidableEq

/-- `isEqual`. -/
def MapPoint.isEqual (p : MapPoint) (x y z : Int16) : Bool := p.x = x && p.y = y && p.z = z

/-- A point in the plane. -/
structure QPoint where
  x : Int
  y : Int
  deriving DecidableEq

/-- `qpoint`. -/
def MapPoint.qpoint (p : MapPoint) : QPoint := ⟨p.x.toInt, p.y.toInt⟩

/-- A rectangle by its first and its last columns and rows. -/
structure QRect where
  left : Int
  top : Int
  right : Int
  bottom : Int
  deriving DecidableEq

namespace QRect

def width (r : QRect) : Int := r.right - r.left + 1

def height (r : QRect) : Int := r.bottom - r.top + 1

/-- A point lies in a rectangle. -/
structure Contains (r : QRect) (p : QPoint) : Prop where
  left : r.left ≤ p.x
  right : p.x ≤ r.right
  top : r.top ≤ p.y
  bottom : p.y ≤ r.bottom

end QRect

/-- `MapCommon`. -/
structure MapCommon where
  name : List Char
  colorName : List Char
  color : SeqColor
  origColor : SeqColor
  deriving DecidableEq

/-- The constructor from the name of a color. -/
def MapCommon.ofName (numbers : NumberReader) (name color : List Char) : MapCommon :=
  { name, colorName := color, color := .ofText numbers color, origColor := {} }

/-- The constructor from a color. -/
def MapCommon.ofColor (name : List Char) (color : SeqColor) : MapCommon :=
  { name, colorName := [], color, origColor := {} }

/-- `MapLineL`, a line in the plane that may have a height. -/
structure MapLineL where
  common : MapCommon
  points : List QPoint
  z : Int16
  heightSet : Bool
  bounds : QRect
  deriving DecidableEq

/-- `MapLineM`, a line in space. -/
structure MapLineM where
  common : MapCommon
  points : List MapPoint
  bounds : QRect
  deriving DecidableEq

/-- `MapLocation`, a named point that may have a height. -/
structure MapLocation where
  common : MapCommon
  point : MapPoint
  heightSet : Bool
  deriving DecidableEq

/-- `MapAggro`. -/
structure MapAggro where
  name : List Char
  range : UInt16
  deriving DecidableEq

/-- `MapLayer`. -/
structure MapLayer where
  fileName : List Char
  lLines : List MapLineL
  mLines : List MapLineM
  locations : List MapLocation
  mapLoaded : Bool
  deriving DecidableEq

/-- `MapData`. -/
structure MapData where
  minX : Int16
  minY : Int16
  maxX : Int16
  maxY : Int16
  boundingRect : QRect
  size : Int × Int
  zoneLongName : List Char
  zoneShortName : List Char
  mapLayers : List MapLayer
  aggros : List MapAggro
  zoneZEM : UInt8
  heightHintAbove : UInt16
  heightHintBelow : UInt16
  deriving DecidableEq

namespace MapLineL

/-- One point more in the bounds of a line. -/
def widen (r : QRect) (p : QPoint) : QRect :=
  { left := if p.x < r.left then p.x else r.left
    right := if p.x > r.right then p.x else r.right
    top := if p.y < r.top then p.y else r.top
    bottom := if p.y > r.bottom then p.y else r.bottom }

/-- `calcBounds`. -/
def calcBounds (line : MapLineL) : MapLineL :=
  { line with
    bounds :=
      match line.points with
      | [] => { left := 0, top := 0, right := -1, bottom := -1 }
      | p :: rest =>
          rest.foldl widen { left := p.x, top := p.y, right := p.x, bottom := p.y } }

end MapLineL

namespace MapLineM

/-- One point more in the bounds of a line, whose upper end is not looked at where the lower one
moves.
-/
def widen (r : QRect) (p : QPoint) : QRect :=
  { left := if p.x < r.left then p.x else r.left
    right := if p.x < r.left then r.right else if p.x > r.right then p.x else r.right
    top := if p.y < r.top then p.y else r.top
    bottom := if p.y < r.top then r.bottom else if p.y > r.bottom then p.y else r.bottom }

/-- `calcBounds`. -/
def calcBounds (line : MapLineM) : MapLineM :=
  { line with
    bounds :=
      match line.points.map MapPoint.qpoint with
      | [] => { left := 0, top := 0, right := 0, bottom := 0 }
      | p :: rest =>
          rest.foldl widen { left := p.x, top := p.y, right := p.x, bottom := p.y } }

end MapLineM

namespace MapLayer

/-- The constructor, and `setFileName`. -/
def named (fileName : List Char) : MapLayer :=
  { fileName, lLines := [], mLines := [], locations := [], mapLoaded := false }

end MapLayer

namespace MapData

/-- `quickCheckPos`. -/
def quickCheckPos (m : MapData) (x y : Int16) : MapData :=
  { m with
    maxX := if x > m.maxX then x else m.maxX
    maxY := if y > m.maxY then y else m.maxY
    minX := if x < m.minX then x else m.minX
    minY := if y < m.minY then y else m.minY }

/-- `quickCheckPos` at two corners of a rectangle. -/
def quickCheckRect (m : MapData) (r : QRect) : MapData :=
  (m.quickCheckPos (Int16.ofInt r.left) (Int16.ofInt r.top)).quickCheckPos (Int16.ofInt r.right)
    (Int16.ofInt r.bottom)

/-- `updateBounds`. -/
def updateBounds (m : MapData) : MapData :=
  let boundingRect : QRect :=
    { left := m.minX.toInt, top := m.minY.toInt, right := m.maxX.toInt, bottom := m.maxY.toInt }
  { m with boundingRect, size := (boundingRect.width, boundingRect.height) }

/-- `clear`. -/
def clear (m : MapData) : MapData :=
  updateBounds { m with
    zoneLongName := []
    zoneShortName := []
    minX := -50
    maxX := 50
    minY := -50
    maxY := 50
    mapLayers := []
    aggros := []
    zoneZEM := 75
    heightHintAbove := 0
    heightHintBelow := 0 }

/-- The constructor. -/
def fresh : MapData :=
  clear
    { minX := 0
      minY := 0
      maxX := 0
      maxY := 0
      boundingRect := ⟨0, 0, 0, 0⟩
      size := (0, 0)
      zoneLongName := []
      zoneShortName := []
      mapLayers := []
      aggros := []
      zoneZEM := 0
      heightHintAbove := 0
      heightHintBelow := 0 }

end MapData

/-! What is in the bounds stays there. -/

/-- A rectangle of coordinates that a point can have. -/
structure QRect.InRange (r : QRect) : Prop where
  left : -2 ^ 15 ≤ r.left ∧ r.left < 2 ^ 15
  right : -2 ^ 15 ≤ r.right ∧ r.right < 2 ^ 15
  top : -2 ^ 15 ≤ r.top ∧ r.top < 2 ^ 15
  bottom : -2 ^ 15 ≤ r.bottom ∧ r.bottom < 2 ^ 15

/-- A point of the coordinates that a point can have. -/
structure QPoint.InRange (p : QPoint) : Prop where
  x : -2 ^ 15 ≤ p.x ∧ p.x < 2 ^ 15
  y : -2 ^ 15 ≤ p.y ∧ p.y < 2 ^ 15

theorem MapPoint.inRange (p : MapPoint) : p.qpoint.InRange :=
  ⟨⟨p.x.le_toInt, p.x.toInt_lt⟩, ⟨p.y.le_toInt, p.y.toInt_lt⟩⟩

/-- A rectangle of coordinates in range that some points lie in. -/
structure QRect.Spans (r : QRect) (points : List QPoint) : Prop where
  contains : ∀ p ∈ points, r.Contains p
  range : r.InRange

/-- Bounds that hold a point are not empty. -/
theorem QRect.Contains.ordered {r : QRect} {p : QPoint} (inside : r.Contains p)
    : r.left ≤ r.right ∧ r.top ≤ r.bottom :=
  ⟨inside.left.trans inside.right, inside.top.trans inside.bottom⟩

namespace MapLineL

variable {r : QRect} {p q : QPoint}

theorem contains_widen (ordered : r.left ≤ r.right ∧ r.top ≤ r.bottom)
    : (widen r p).Contains p := by
  obtain ⟨across, down⟩ := ordered
  constructor <;> (simp only [widen]; split <;> omega)

theorem contains_widen_of_contains (inside : r.Contains q) : (widen r p).Contains q := by
  obtain ⟨left, right, top, bottom⟩ := inside
  constructor <;> (simp only [widen]; split <;> omega)

theorem inRange_widen (range : r.InRange) (inRange : p.InRange) : (widen r p).InRange := by
  obtain ⟨left, right, top, bottom⟩ := range
  obtain ⟨x, y⟩ := inRange
  constructor <;> (simp only [widen]; split <;> assumption)

/-- The bounds of some points span them and all that follow, by induction on these. -/
theorem spans_foldl {seen rest : List QPoint} (spans : r.Spans (p :: seen))
    (inRange : ∀ q ∈ rest, q.InRange)
    : (rest.foldl widen r).Spans (p :: seen ++ rest) := by
  induction rest generalizing r seen with
  | nil => simpa using spans
  | cons next rest ih =>
      obtain ⟨first, others⟩ := List.forall_mem_cons.mp inRange
      have ordered := (spans.contains p List.mem_cons_self).ordered
      have wider : (widen r next).Spans (p :: (seen ++ [next])) := by
        refine ⟨fun q member => ?_, inRange_widen spans.range first⟩
        rcases List.mem_append.mp ((List.cons_append ..).symm ▸ member) with old | new
        · exact contains_widen_of_contains (spans.contains q old)
        · obtain rfl := List.mem_singleton.mp new
          exact contains_widen ordered
      simpa using ih wider others

/-- The bounds of a line hold its points. -/
theorem spans_calcBounds {line : MapLineL} (some : line.points ≠ [])
    (inRange : ∀ p ∈ line.points, p.InRange)
    : line.calcBounds.bounds.Spans line.points := by
  cases points : line.points with
  | nil => exact absurd points some
  | cons p rest =>
      rw [points] at inRange
      obtain ⟨⟨x, y⟩, others⟩ := List.forall_mem_cons.mp inRange
      have single : QRect.Spans { left := p.x, top := p.y, right := p.x, bottom := p.y } [p] := by
        refine ⟨fun q member => ?_, ⟨x, x, y, y⟩⟩
        obtain rfl := List.mem_singleton.mp member
        exact ⟨Int.le_refl _, Int.le_refl _, Int.le_refl _, Int.le_refl _⟩
      simpa [calcBounds, points] using spans_foldl single others

end MapLineL

namespace MapLineM

/-- Where the bounds are not empty, the shorter comparison makes no difference. -/
theorem widen_eq {r : QRect} (p : QPoint) (ordered : r.left ≤ r.right ∧ r.top ≤ r.bottom)
    : widen r p = MapLineL.widen r p := by
  obtain ⟨across, down⟩ := ordered
  have right : (if p.x < r.left then r.right else if p.x > r.right then p.x else r.right)
      = if p.x > r.right then p.x else r.right := by
    split
    · rw [if_neg (by omega)]
    · rfl
  have bottom : (if p.y < r.top then r.bottom else if p.y > r.bottom then p.y else r.bottom)
      = if p.y > r.bottom then p.y else r.bottom := by
    split
    · rw [if_neg (by omega)]
    · rfl
  rw [widen, MapLineL.widen, right, bottom]

theorem foldl_widen_eq {r : QRect} {p : QPoint} (inside : r.Contains p) (rest : List QPoint)
    : rest.foldl widen r = rest.foldl MapLineL.widen r := by
  induction rest generalizing r with
  | nil => rfl
  | cons next rest ih =>
      rw [List.foldl_cons, List.foldl_cons, widen_eq next inside.ordered,
        ih (MapLineL.contains_widen_of_contains inside)]

/-- The bounds of a line in space are those of its points in the plane. -/
theorem bounds_calcBounds {line : MapLineM} (some : line.points ≠ [])
    : line.calcBounds.bounds
      = (MapLineL.calcBounds
          { common := line.common
            points := line.points.map MapPoint.qpoint
            z := 0
            heightSet := false
            bounds := line.bounds }).bounds := by
  cases points : line.points with
  | nil => exact absurd points some
  | cons p rest =>
      simp only [calcBounds, MapLineL.calcBounds, points, List.map_cons]
      exact @foldl_widen_eq _ p.qpoint
        ⟨Int.le_refl _, Int.le_refl _, Int.le_refl _, Int.le_refl _⟩ _

theorem spans_calcBounds {line : MapLineM} (some : line.points ≠ [])
    : line.calcBounds.bounds.Spans (line.points.map MapPoint.qpoint) := by
  rw [bounds_calcBounds some]
  refine MapLineL.spans_calcBounds (by simpa using some) fun p member => ?_
  obtain ⟨point, _, rfl⟩ := List.mem_map.mp member
  exact point.inRange

end MapLineM

namespace MapData

variable {m : MapData}

/-- The bounds of a map hold a point. -/
structure Covers (m : MapData) (p : QPoint) : Prop where
  left : m.minX.toInt ≤ p.x
  right : p.x ≤ m.maxX.toInt
  top : m.minY.toInt ≤ p.y
  bottom : p.y ≤ m.maxY.toInt

theorem covers_quickCheckPos (p : MapPoint) : (m.quickCheckPos p.x p.y).Covers p.qpoint := by
  constructor <;>
    (simp only [quickCheckPos, MapPoint.qpoint, gt_iff_lt, Int16.lt_iff_toInt_lt]
     split <;> omega)

theorem Covers.quickCheckPos {p : QPoint} (covers : m.Covers p) (x y : Int16)
    : (m.quickCheckPos x y).Covers p := by
  obtain ⟨left, right, top, bottom⟩ := covers
  constructor <;>
    (simp only [MapData.quickCheckPos, gt_iff_lt, Int16.lt_iff_toInt_lt]
     split <;> omega)

theorem Covers.quickCheckRect {p : QPoint} (covers : m.Covers p) (r : QRect)
    : (m.quickCheckRect r).Covers p :=
  (covers.quickCheckPos _ _).quickCheckPos _ _

/-- Two corners in the bounds keep a whole rectangle there. -/
theorem covers_quickCheckRect {r : QRect} {p : QPoint} (range : r.InRange)
    (inside : r.Contains p)
    : (m.quickCheckRect r).Covers p := by
  obtain ⟨leftRange, rightRange, topRange, bottomRange⟩ := range
  obtain ⟨left, right, top, bottom⟩ := inside
  have exact {i : Int} (range : -2 ^ 15 ≤ i ∧ i < 2 ^ 15) : (Int16.ofInt i).toInt = i :=
    Int16.toInt_ofInt_of_le range.1 range.2
  have first := (@covers_quickCheckPos m ⟨Int16.ofInt r.left, Int16.ofInt r.top, 0⟩).quickCheckPos
    (Int16.ofInt r.right) (Int16.ofInt r.bottom)
  have second := @covers_quickCheckPos (m.quickCheckPos (Int16.ofInt r.left) (Int16.ofInt r.top))
    ⟨Int16.ofInt r.right, Int16.ofInt r.bottom, 0⟩
  exact ⟨first.left.trans ((exact leftRange).le.trans left),
    right.trans ((exact rightRange).ge.trans second.right),
    first.top.trans ((exact topRange).le.trans top),
    bottom.trans ((exact bottomRange).ge.trans second.bottom)⟩

/-- The bounding rectangle is that of the bounds. -/
theorem contains_updateBounds {p : QPoint} (covers : m.Covers p)
    : m.updateBounds.boundingRect.Contains p :=
  ⟨covers.left, covers.right, covers.top, covers.bottom⟩

end MapData

end Maps
end Scry
