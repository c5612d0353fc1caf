import Scry.Library.Cursor
import Scry.Maps.MapFile

/-! Map files read with iterators over their lines and fields, as the code does it: what reads
outside of a list comes to nothing.
-/

namespace Scry
namespace Maps

open Cursor

abbrev FieldReader := Reader (List Char)

namespace Loading

variable (numbers : NumberReader)

/-- A point of an M line. -/
def readPointM : FieldReader MapPoint := do
  let mx ← next
  let my ← next
  let mz ← next
  return ⟨toShort mx, toShort my, toShort mz⟩

/-- A point of an L line. -/
def readPointL : FieldReader QPoint := do
  let mx ← next
  let my ← next
  return ⟨(toShort mx).toInt, (toShort my).toInt⟩

/-- An M record of so many fields. -/
def readRecordM (s : Loading) (count : Nat) : FieldReader Loading := do
  if count < 3 then
    return s
  let linePoints := (count - 3) / 3
  if linePoints < 2 then
    return s
  let name ← next
  let color ← next
  let specified ← next
  match toUInt? specified with
  | none => return s
  | some _ =>
      let points ← fillFrom readPointM linePoints 0 (List.replicate linePoints ⟨0, 0, 0⟩)
      let line : MapLineM :=
        { common := .ofName numbers name (lineColor color), points, bounds := .null }
      let line := line.calcBounds
      return { s with
        data := s.data.quickCheckRect line.bounds
        layer := { s.layer with mLines := s.layer.mLines ++ [line] } }

/-- An L record. -/
def readRecordL (s : Loading) (count : Nat) : FieldReader Loading := do
  if count < 3 then
    return s
  let linePoints := (count - 3) >>> 1
  if linePoints < 2 then
    return s
  let name ← next
  let color ← next
  let specified ← next
  match toUInt? specified with
  | none => return s
  | some _ =>
      let points ← fillFrom readPointL linePoints 0 (List.replicate linePoints ⟨0, 0⟩)
      let line : MapLineL :=
        { common := .ofName numbers name (lineColor color)
          points
          z := if s.globHeightSet then s.globHeight else 0
          heightSet := s.globHeightSet
          bounds := .null }
      let line := line.calcBounds
      return { s with
        data := s.data.quickCheckRect line.bounds
        layer := { s.layer with lLines := s.layer.lLines ++ [line] } }

/-- The first height hint of a map, in the last of seven fields. -/
def readHint (m : MapData) (count : Nat) (fields : List (List Char)) : Option MapData :=
  if count = 7 ∧ m.heightHintAbove = 0 then
    fields[6]?.map fun field =>
      match heightHint (Decimal.trim field) with
      | none => m
      | some (above, below) =>
          { m with heightHintAbove := toUShort above, heightHintBelow := toUShort below }
  else some m

/-- A P record. -/
def readRecordP (s : Loading) (count : Nat) (fields : List (List Char)) : FieldReader Loading := do
  if count < 4 then
    return s
  let name ← next
  let color ← next
  let mx := toShort (← next)
  let my := toShort (← next)
  let mut locations := s.layer.locations
  if count = 5 then
    let mz := toShort (← next)
    locations := locations ++ [.ofFields numbers name color mx my (some mz)]
  if s.globHeightSet then
    locations := locations ++ [.ofFields numbers name color mx my (some s.globHeight)]
  else
    locations := locations ++ [.ofFields numbers name color mx my none]
  let data ← readHint (s.data.quickCheckPos mx my) count fields
  return { s with data, layer := { s.layer with locations } }

/-- An A record. -/
def readRecordA (s : Loading) (count : Nat) : FieldReader Loading := do
  if count < 2 then
    return s
  let name ← next
  if name = [] then
    return s
  let rangeVal := toUShort (← next)
  if rangeVal = 0 then
    return s
  return { s with data := { s.data with aggros := s.data.aggros ++ [⟨name, rangeVal⟩] } }

/-- An H record. -/
def readRecordH (s : Loading) (count : Nat) : FieldReader Loading := do
  if count < 1 then
    return s
  let height ← next
  let s := { s with globHeight := toShort height }
  match toShort? height with
  | none => return s
  | some _ => return { s with globHeightSet := true }

/-- A Z record. -/
def readRecordZ (s : Loading) (count : Nat) : FieldReader Loading := do
  if count < 1 then
    return s
  let zem ← next
  return { s with data := { s.data with zoneZEM := (toUShort zem).toUInt8 } }

/-- One line of a map. -/
def readRecord (s : Loading) (line : List Char) : Option Loading := do
  let fields := line.splitOn ','
  if fields.isEmpty then
    return s
  let first ← fields.head?
  let entryType ← first[0]?
  let fields := fields.tail
  let count := fields.length
  let read :=
    match entryType with
    | 'M' => s.readRecordM numbers count
    | 'L' => s.readRecordL numbers count
    | 'P' => s.readRecordP numbers count fields
    | 'A' => s.readRecordA count
    | 'H' => s.readRecordH count
    | 'Z' => s.readRecordZ count
    | _ => return s
  (read.run fields).map (·.1)

/-- The first line of a map, of so many fields. -/
def readHeader (m : MapData) (fileName : List Char) (count : Nat) : FieldReader Loading := do
  let zoneLongName ← next
  let zoneShortName ← next
  let mut size := m.size
  if count > 2 then
    let width ← next
    let height ← next
    size := (toInt width, toInt height)
  return {
    data := { m with zoneLongName, zoneShortName, size }
    layer := .named fileName
    globHeight := 0
    globHeightSet := false }

end Loading

/-- `loadMap` with its iterators. -/
def MapData.readMap (numbers : NumberReader) (m : MapData) (fileName : List Char)
    (importing : Bool) (content : Option (List Char))
    : Option MapData :=
  let m := if importing then m else m.clear
  if ['/', '.', 'm', 'a', 'p'] <:+: fileName then some m
  else
    match content with
    | none => some m
    | some text => do
        let lines := splitLines text
        let first ← lines.head?
        let fields := first.splitOn ','
        let count := fields.length
        if count < 2 then
          return m
        let (s, _) ← (Loading.readHeader m fileName count).run fields
        let s ← lines.tail.foldlM (Loading.readRecord numbers) s
        return s.finish

namespace Loading

variable {numbers : NumberReader}

-----------------------------------------------------------------------------------------
-- Records
-----------------------------------------------------------------------------------------

/-- By induction on the rounds: each takes three of the fields that there are. -/
theorem run_pointsM {rounds i : Nat} {points : List MapPoint} {fields : List (List Char)}
    (inside : i + rounds = points.length) (enough : 3 * rounds ≤ fields.length)
    : ∃ rest, (fillFrom readPointM rounds i points).run fields
        = some (readM points i fields, rest) := by
  induction rounds generalizing i points fields with
  | zero =>
      have full : ¬ i < points.length := by omega
      refine ⟨fields, ?_⟩
      rw [readM.eq_def]
      split
      · rw [if_neg full]
        rfl
      · rfl
  | succ rounds ih =>
      obtain ⟨x, y, z, rest, rfl⟩ : ∃ x y z rest, fields = x :: y :: z :: rest := by
        match fields, enough with
        | x :: y :: z :: rest, _ => exact ⟨x, y, z, rest, rfl⟩
        | [], enough | [_], enough | [_, _], enough =>
            exact absurd enough (by simp only [List.length_cons, List.length_nil]; omega)
      have below : i < points.length := by omega
      rw [run_fillFrom_succ (List.cons_ne_nil _ _) rfl below, readM, if_pos below]
      simp only [List.length_cons] at enough
      exact ih (by rw [List.length_set]; omega) (by omega)

/-- By induction on the rounds: each takes two of the fields that there are. -/
theorem run_pointsL {rounds i : Nat} {points : List QPoint} {fields : List (List Char)}
    (inside : i + rounds = points.length) (enough : 2 * rounds ≤ fields.length)
    : ∃ rest, (fillFrom readPointL rounds i points).run fields
        = some (readL points i fields, rest) := by
  induction rounds generalizing i points fields with
  | zero =>
      have full : ¬ i < points.length := by omega
      refine ⟨fields, ?_⟩
      rw [readL.eq_def]
      split
      · rw [if_neg full]
        rfl
      · rfl
  | succ rounds ih =>
      obtain ⟨x, y, rest, rfl⟩ : ∃ x y rest, fields = x :: y :: rest := by
        match fields, enough with
        | x :: y :: rest, _ => exact ⟨x, y, rest, rfl⟩
        | [], enough | [_], enough =>
            exact absurd enough (by simp only [List.length_cons, List.length_nil]; omega)
      have below : i < points.length := by omega
      rw [run_fillFrom_succ (List.cons_ne_nil _ _) rfl below, readL, if_pos below]
      simp only [List.length_cons] at enough
      exact ih (by rw [List.length_set]; omega) (by omega)

theorem run_readRecordM (numbers : NumberReader) (s : Loading) (fields : List (List Char))
    : ∃ rest, (s.readRecordM numbers fields.length).run fields
        = some (s.loadM numbers fields, rest) := by
  match fields with
  | [] => exact ⟨[], rfl⟩
  | [a] => exact ⟨[a], rfl⟩
  | [a, b] => exact ⟨[a, b], rfl⟩
  | name :: color :: specified :: more =>
      have count : (name :: color :: specified :: more).length - 3 = more.length := by simp
      have enough : ¬ (name :: color :: specified :: more).length < 3 := by simp
      rw [readRecordM, if_neg enough, loadM, count]
      dsimp only
      by_cases few : more.length / 3 < 2
      · rw [if_pos few, if_pos few]
        exact ⟨_, rfl⟩
      · rw [if_neg few, if_neg few]
        cases number : toUInt? specified with
        | none =>
            refine ⟨more, ?_⟩
            simp [number]
        | some _ =>
            obtain ⟨rest, points⟩ := @run_pointsM (more.length / 3) 0
              (List.replicate (more.length / 3) ⟨0, 0, 0⟩) more (by simp)
              (by omega)
            refine ⟨rest, ?_⟩
            simp [number, points]

theorem run_readRecordL (numbers : NumberReader) (s : Loading) (fields : List (List Char))
    : ∃ rest, (s.readRecordL numbers fields.length).run fields
        = some (s.loadL numbers fields, rest) := by
  match fields with
  | [] => exact ⟨[], rfl⟩
  | [a] => exact ⟨[a], rfl⟩
  | [a, b] => exact ⟨[a, b], rfl⟩
  | name :: color :: specified :: more =>
      have count : (name :: color :: specified :: more).length - 3 = more.length := by simp
      have enough : ¬ (name :: color :: specified :: more).length < 3 := by simp
      rw [readRecordL, if_neg enough, loadL, count]
      dsimp only
      by_cases few : more.length >>> 1 < 2
      · rw [if_pos few, if_pos few]
        exact ⟨_, rfl⟩
      · rw [if_neg few, if_neg few]
        cases number : toUInt? specified with
        | none =>
            refine ⟨more, ?_⟩
            simp [number]
        | some _ =>
            have half : more.length >>> 1 = more.length / 2 := Nat.shiftRight_one _
            obtain ⟨rest, points⟩ := @run_pointsL (more.length >>> 1) 0
              (List.replicate (more.length >>> 1) ⟨0, 0⟩) more (by simp)
              (by rw [half]; omega)
            refine ⟨rest, ?_⟩
            simp [number, points]

theorem readHint_eq (m : MapData) (fields : List (List Char))
    : readHint m fields.length fields = some (takeHint m fields) := by
  rw [readHint, takeHint]
  split_ifs with seven
  · have inside : 6 < fields.length := by omega
    rw [List.getElem?_eq_getElem inside, List.getD_eq_getElem?_getD,
      List.getElem?_eq_getElem inside, Option.map_some]
    rfl
  · rfl

theorem run_readRecordP (numbers : NumberReader) (s : Loading) (fields : List (List Char))
    : ∃ rest, (s.readRecordP numbers fields.length fields).run fields
        = some (s.loadP numbers fields, rest) := by
  match fields with
  | [] => exact ⟨[], rfl⟩
  | [a] => exact ⟨[a], rfl⟩
  | [a, b] => exact ⟨[a, b], rfl⟩
  | [a, b, c] => exact ⟨[a, b, c], rfl⟩
  | name :: color :: x :: y :: more =>
      have enough : ¬ (name :: color :: x :: y :: more).length < 4 := by simp
      rw [readRecordP, if_neg enough]
      simp only [readHint_eq]
      -- a fifth field alone is read as a height
      match more with
      | [] => exact ⟨[], by by_cases high : s.globHeightSet = true <;> simp [loadP, high]⟩
      | [z] => exact ⟨[], by by_cases high : s.globHeightSet = true <;> simp [loadP, high]⟩
      | z :: w :: more =>
          refine ⟨z :: w :: more, ?_⟩
          by_cases high : s.globHeightSet = true <;> simp [loadP, high]

theorem run_readRecordA (s : Loading) (fields : List (List Char))
    : ∃ rest, (s.readRecordA fields.length).run fields = some (s.loadA fields, rest) := by
  match fields with
  | [] => exact ⟨[], rfl⟩
  | [a] => exact ⟨[a], rfl⟩
  | name :: range :: more =>
      have enough : ¬ (name :: range :: more).length < 2 := by simp
      rw [readRecordA, if_neg enough, loadA]
      by_cases unnamed : name = []
      · exact ⟨range :: more, by simp [unnamed]⟩
      · by_cases zero : toUShort range = 0 <;> exact ⟨more, by simp [unnamed, zero]⟩

theorem run_readRecordH (s : Loading) (fields : List (List Char))
    : ∃ rest, (s.readRecordH fields.length).run fields = some (s.loadH fields, rest) := by
  match fields with
  | [] => exact ⟨[], rfl⟩
  | height :: more =>
      refine ⟨more, ?_⟩
      cases number : toShort? height <;> simp [readRecordH, loadH, number]

theorem run_readRecordZ (s : Loading) (fields : List (List Char))
    : ∃ rest, (s.readRecordZ fields.length).run fields = some (s.loadZ fields, rest) := by
  match fields with
  | [] => exact ⟨[], rfl⟩
  | zem :: more => exact ⟨more, by simp [readRecordZ, loadZ]⟩

-----------------------------------------------------------------------------------------
-- Lines
-----------------------------------------------------------------------------------------

/-- A line that begins with a separator has no type. -/
theorem readRecord_separator (s : Loading) (rest : List Char)
    : s.readRecord numbers (',' :: rest) = none := by
  have fields : (',' :: rest).splitOn ',' = [] :: rest.splitOn ',' := by
    rw [List.splitOn_cons_eq_if_modifyHead]
    rfl
  rw [readRecord, fields]
  rfl

/-- Every other line is read as before. -/
theorem readRecord_other (s : Loading) {c : Char} (other : c ≠ ',') (rest : List Char)
    : s.readRecord numbers (c :: rest) = some (s.loadRecord numbers (.ofLine (c :: rest))) := by
  obtain ⟨first, fields, parts⟩ := List.exists_cons_of_ne_nil (List.splitOn_ne_nil ',' rest)
  have whole : (c :: rest).splitOn ',' = (c :: first) :: fields := by
    rw [List.splitOn_cons_eq_if_modifyHead, if_neg (by simpa using other), parts]
    rfl
  have isRecord : MapRecord.ofLine (c :: rest) = { entryType := some c, fields } := by
    rw [MapRecord.ofLine, whole]
    rfl
  rw [isRecord, readRecord, whole]
  simp only [List.isEmpty_cons, Bool.false_eq_true, if_false, List.head?_cons,
    List.getElem?_cons_zero, List.tail_cons, loadRecord, Option.bind_eq_bind, Option.bind_some]
  split
  · obtain ⟨left, run⟩ := run_readRecordM numbers s fields
    rw [run]
    rfl
  · obtain ⟨left, run⟩ := run_readRecordL numbers s fields
    rw [run]
    rfl
  · obtain ⟨left, run⟩ := run_readRecordP numbers s fields
    rw [run]
    rfl
  · obtain ⟨left, run⟩ := run_readRecordA s fields
    rw [run]
    rfl
  · obtain ⟨left, run⟩ := run_readRecordH s fields
    rw [run]
    rfl
  · obtain ⟨left, run⟩ := run_readRecordZ s fields
    rw [run]
    rfl
  · next m l p a h z =>
      refine congrArg some ?_
      split
      · next same => exact (m (Option.some.inj same)).elim
      · next same => exact (l (Option.some.inj same)).elim
      · next same => exact (p (Option.some.inj same)).elim
      · next same => exact (a (Option.some.inj same)).elim
      · next same => exact (h (Option.some.inj same)).elim
      · next same => exact (z (Option.some.inj same)).elim
      · rfl

/-- The lines of a map are read as before if none begins with a separator, and otherwise not to
the end. By induction on the lines.
-/
theorem readRecords_eq (numbers : NumberReader) (s : Loading) {lines : List (List Char)}
    (full : ∀ line ∈ lines, line ≠ [])
    : lines.foldlM (readRecord numbers) s
      = if ∀ line ∈ lines, line.head? ≠ some ',' then
          some ((lines.map MapRecord.ofLine).foldl (loadRecord numbers) s)
        else none := by
  induction lines generalizing s with
  | nil => rfl
  | cons line rest ih =>
      obtain ⟨c, text, rfl⟩ := List.exists_cons_of_ne_nil (full line List.mem_cons_self)
      rw [List.foldlM_cons]
      by_cases separator : c = ','
      · have starts : ¬ ∀ line ∈ (c :: text) :: rest, line.head? ≠ some ',' := fun none =>
          none _ List.mem_cons_self (congrArg some separator)
        rw [if_neg starts, separator, readRecord_separator]
        rfl
      · rw [readRecord_other s separator, Option.bind_eq_bind, Option.bind_some,
          ih _ fun line member => full line (List.mem_cons_of_mem _ member)]
        simp [separator]

theorem run_readHeader (m : MapData) (fileName : List Char) (fields : List (List Char))
    : ((readHeader m fileName fields.length).run fields).map (·.1)
      = match fields with
        | zoneLongName :: zoneShortName :: sizes =>
            if sizes.length = 1 then none
            else some (.start m fileName zoneLongName zoneShortName sizes)
        | _ => none := by
  match fields with
  | [] => rfl
  | [a] => rfl
  | [a, b] => rfl
  | [a, b, c] => rfl
  | zoneLongName :: zoneShortName :: width :: height :: more =>
      simp [readHeader, start]

end Loading

/-- Lines that can be read: there is one, it has not three fields, and no other line begins with a
separator unless the first one has a single field.
-/
def Readable : List (List Char) → Prop
  | [] => False
  | first :: lines =>
      (first.splitOn ',').length < 2
        ∨ (first.splitOn ',').length ≠ 3 ∧ ∀ line ∈ lines, line.head? ≠ some ','

instance : ∀ lines, Decidable (Readable lines)
  | [] => inferInstanceAs (Decidable False)
  | _ :: _ => inferInstanceAs (Decidable (_ ∨ _ ∧ _))

theorem mem_splitLines_ne_nil {text line : List Char} (member : line ∈ splitLines text)
    : line ≠ [] :=
  of_decide_eq_true (List.mem_filter.mp member).2

/-- A file that is not read at all, or whose lines can be read. -/
def ReadableFile (fileName : List Char) (content : Option (List Char)) : Prop :=
  ['/', '.', 'm', 'a', 'p'] <:+: fileName ∨ ∀ text ∈ content, Readable (splitLines text)

/-- A map is read as before, or not to the end. -/
theorem readMap_eq (numbers : NumberReader) (m : MapData) (fileName : List Char)
    (importing : Bool) (content : Option (List Char))
    : (ReadableFile fileName content →
        m.readMap numbers fileName importing content
          = some (m.loadMap numbers fileName importing content))
      ∧ (¬ ReadableFile fileName content →
          m.readMap numbers fileName importing content = none) := by
  rw [MapData.readMap.eq_def, MapData.loadMap.eq_def, ReadableFile]
  dsimp only
  by_cases named : ['/', '.', 'm', 'a', 'p'] <:+: fileName
  · simp [named]
  · cases content with
    | none => simp [named]
    | some text =>
        simp only [named, false_or, if_false, Option.mem_some_iff, forall_eq']
        have full := fun line => @mem_splitLines_ne_nil text line
        generalize (if importing = true then m else m.clear) = m
        cases lines : splitLines text with
        | nil => exact ⟨False.elim, fun _ => rfl⟩
        | cons first rest =>
            rw [lines] at full
            have run := Loading.run_readHeader m fileName (first.splitOn ',')
            have records := fun s : Loading => Loading.readRecords_eq numbers s
              fun line member => full line (List.mem_cons_of_mem _ member)
            simp only [Readable]
            rcases fields : first.splitOn ',' with _ | ⟨zoneLongName, _ | ⟨zoneShortName, sizes⟩⟩
            · exact absurd fields (List.splitOn_ne_nil _ _)
            · simp [fields]
            · rw [fields] at run
              have several : ¬ (zoneLongName :: zoneShortName :: sizes).length < 2 := by simp
              have three : (zoneLongName :: zoneShortName :: sizes).length = 3
                  ↔ sizes.length = 1 := by simp
              simp only [List.head?_cons, Option.bind_eq_bind, Option.bind_some, fields, several,
                if_false, List.tail_cons, false_or, ne_eq, three]
              dsimp only at run
              by_cases single : sizes.length = 1
              · rw [if_pos single, Option.map_eq_none_iff] at run
                simp only [run, Option.bind_none, single, not_true_eq_false, false_and]
                exact ⟨False.elim, fun _ => trivial⟩
              · rw [if_neg single, Option.map_eq_some_iff] at run
                obtain ⟨⟨s, left⟩, run, rfl⟩ := run
                simp only [run, Option.bind_some, records, single, not_false_eq_true, true_and]
                constructor
                · intro kept
                  rw [if_pos kept]
                  rfl
                · intro lost
                  rw [if_neg lost]
                  rfl

end Maps
end Scry
