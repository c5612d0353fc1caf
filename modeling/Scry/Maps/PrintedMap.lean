import Scry.Library.Utf8
import Scry.Maps.OneForOne

/-! A layer of a map as it is printed to a file, and what a map has that was loaded from files of
ASCII: no name breaks its field or its line, no line has more points than can be told, and no line
without a height follows one that has it.
-/

namespace Scry
namespace Maps

open TextStream Utf8

-----------------------------------------------------------------------------------------
-- What is printed
-----------------------------------------------------------------------------------------

/-- A text as `%s` prints it, which ends at a null. -/
def cString (text : List Char) : List Char := text.takeWhile fun c => c ≠ '\x00'

/-- `colorName`. -/
def MapCommon.printedColor (c : MapCommon) : List Char :=
  if c.colorName ≠ [] then c.colorName else c.color.name

/-- A record with a comma before each field. -/
def MapRecord.text (r : MapRecord) : List Char :=
  r.entryType.toList ++ r.fields.flatMap fun field => ',' :: field

/-- An L record. -/
def MapLineL.record (l : MapLineL) : MapRecord :=
  { entryType := some 'L'
    fields :=
      cString l.common.name :: cString l.common.printedColor :: decimal l.points.length
        :: l.points.flatMap fun p => [decimalInt p.x, decimalInt p.y] }

/-- An M record. -/
def MapLineM.record (l : MapLineM) : MapRecord :=
  { entryType := some 'M'
    fields :=
      cString l.common.name :: cString l.common.printedColor :: decimal l.points.length
        :: l.points.flatMap fun p =>
          [decimalInt p.x.toInt, decimalInt p.y.toInt, decimalInt p.z.toInt] }

/-- A P record, with a height where the location has one. -/
def MapLocation.record (l : MapLocation) : MapRecord :=
  { entryType := some 'P'
    fields :=
      [cString l.common.name, cString l.common.printedColor, decimalInt l.point.x.toInt,
          decimalInt l.point.y.toInt]
        ++ if l.heightSet then [decimalInt l.point.z.toInt] else [] }

/-- An A record. -/
def MapAggro.record (a : MapAggro) : MapRecord :=
  { entryType := some 'A', fields := [cString a.name, decimal a.range.toNat] }

/-- An H record. -/
def heightRecord (z : Int16) : MapRecord :=
  { entryType := some 'H', fields := [decimalInt z.toInt] }

/-- The L lines, after the last height that was written: a line with another height writes it
first.
-/
def savedL (last : Option Int16) : List MapLineL → List MapRecord
  | [] => []
  | l :: rest =>
      if l.heightSet ∧ last ≠ some l.z then heightRecord l.z :: l.record :: savedL (some l.z) rest
      else l.record :: savedL last rest

namespace MapData

/-- The first line of a file. -/
def header (m : MapData) : List Char :=
  cString m.zoneLongName ++ ',' :: (cString m.zoneShortName ++ ',' ::
    (decimalInt m.size.1 ++ ',' :: decimalInt m.size.2))

/-- The other lines. -/
def savedRecords (m : MapData) (layer : MapLayer) : List MapRecord :=
  (if m.zoneZEM ≠ 75 then [{ entryType := some 'Z', fields := [decimal m.zoneZEM.toNat] }] else [])
    ++ savedL none layer.lLines
    ++ layer.mLines.map MapLineM.record
    ++ layer.locations.map MapLocation.record
    ++ m.aggros.map MapAggro.record

/-- `saveMap` of a layer: the bytes of the file. -/
def saveMap (m : MapData) (layer : MapLayer) : List UInt8 :=
  toLatin1 ((m.header :: (m.savedRecords layer).map MapRecord.text).flatMap (· ++ ['\n']))

end MapData

-----------------------------------------------------------------------------------------
-- Numbers that are read back
-----------------------------------------------------------------------------------------

theorem digits?_decimal (n : Nat) : Decimal.digits? (decimal n) = some n := by
  have value : Nat.ofDigitChars 10 (decimal n) 0 = n := Nat.ofDigitChars_ten_toDigits
  have digits : (decimal n).all Char.isDigit = true :=
    List.all_eq_true.mpr fun c member => isDigit_decimal member
  rw [Decimal.digits?, if_pos ⟨decimal_ne_nil n, digits⟩, value]

theorem trim_decimal (n : Nat) : Decimal.trim (decimal n) = decimal n :=
  Decimal.trim_eq_self fun _ member => Decimal.not_blank_of_isDigit (isDigit_decimal member)

/-- No sign comes before the digits of a number. -/
theorem decimal_ne_cons {n : Nat} {c : Char} {rest : List Char} (other : c.isDigit = false)
    : decimal n ≠ c :: rest := by
  intro same
  have digit := isDigit_decimal (n := n) (same ▸ List.mem_cons_self)
  rw [other] at digit
  cases digit

theorem unsigned?_decimal {bits n : Nat} (small : n < 2 ^ bits)
    : Decimal.unsigned? bits (decimal n) = some n := by
  rw [Decimal.unsigned?, trim_decimal]
  split
  · next rest same => exact absurd same (decimal_ne_cons rfl)
  · next rest same => exact absurd same (decimal_ne_cons rfl)
  · rw [digits?_decimal, Option.filter_some, if_pos (by simpa using small)]

theorem signed?_decimalInt {bits : Nat} {i : Int} (low : -(2 ^ (bits - 1)) ≤ i)
    (high : i < 2 ^ (bits - 1))
    : Decimal.signed? bits (decimalInt i) = some i := by
  have plain : Decimal.trim (decimalInt i) = decimalInt i := by
    refine Decimal.trim_eq_self fun c member => ?_
    rcases mem_decimalInt member with rfl | digit
    · decide
    · exact Decimal.not_blank_of_isDigit digit
  have value : Decimal.integer? (decimalInt i) = some i := by
    rw [decimalInt]
    split_ifs with negative
    · rw [Decimal.integer?, digits?_decimal]
      change some (-(i.natAbs : Int)) = some i
      congr 1
      omega
    · rw [Decimal.integer?.eq_def]
      split
      · next rest same => exact absurd same (decimal_ne_cons rfl)
      · next rest same => exact absurd same (decimal_ne_cons rfl)
      · rw [digits?_decimal]
        change some (i.natAbs : Int) = some i
        congr 1
        omega
  rw [Decimal.signed?, plain, value, Option.filter_some, if_pos (by simp [low, high])]

theorem toShort?_decimalInt (z : Int16) : toShort? (decimalInt z.toInt) = some z := by
  rw [toShort?, signed?_decimalInt z.le_toInt z.toInt_lt, Option.map_some, Int16.ofInt_toInt]

theorem toShort_decimalInt (z : Int16) : toShort (decimalInt z.toInt) = z := by
  rw [toShort, toShort?_decimalInt, Option.getD_some]

theorem toShort_inRange {i : Int} (low : -2 ^ 15 ≤ i) (high : i < 2 ^ 15)
    : (toShort (decimalInt i)).toInt = i := by
  rw [toShort, toShort?, signed?_decimalInt low high, Option.map_some, Option.getD_some,
    Int16.toInt_ofInt_of_le low high]

theorem toUInt?_decimal {n : Nat} (small : n < 2 ^ 32) : (toUInt? (decimal n)).isSome := by
  rw [toUInt?, unsigned?_decimal small]
  rfl

theorem toUShort_decimal (n : UInt16) : toUShort (decimal n.toNat) = n := by
  rw [toUShort, toUShort?, unsigned?_decimal n.toNat_lt, Option.map_some, Option.getD_some,
    UInt16.ofNat_toNat]

-----------------------------------------------------------------------------------------
-- Fields
-----------------------------------------------------------------------------------------

/-- A character of ASCII that is no null. -/
def Ascii (c : Char) : Prop := 0 < c.toNat ∧ c.toNat < 0x80

/-- A text of ASCII can be tested. -/
theorem ascii_of_all {text : List Char}
    (each : text.all (fun c => decide (0 < c.toNat) && decide (c.toNat < 0x80)) = true)
    : ∀ c ∈ text, Ascii c := by
  intro c member
  simpa [Ascii] using List.all_eq_true.mp each c member

/-- A text that is a field of a line: nothing in it ends it, and it is printed as it is. -/
structure PlainField (text : List Char) : Prop where
  ascii : ∀ c ∈ text, Ascii c
  comma : ',' ∉ text
  newline : '\n' ∉ text
  carriage : '\r' ∉ text

theorem PlainField.cString {text : List Char} (plain : PlainField text) : cString text = text := by
  rw [Maps.cString, List.takeWhile_eq_self_iff]
  intro c member
  have ascii := plain.ascii c member
  by_contra null
  have zero : c = '\x00' := by simpa using null
  subst zero
  exact absurd ascii.1 (by decide)

theorem plainField_of_digits {text : List Char}
    (digits : ∀ c ∈ text, c = '-' ∨ c = '#' ∨ c.isDigit = true ∨ 'a' ≤ c ∧ c ≤ 'f')
    : PlainField text := by
  have bounds {c : Char} (member : c ∈ text) : 35 ≤ c.toNat ∧ c.toNat < 128 ∧ c.toNat ≠ 44 := by
    rcases digits c member with rfl | rfl | digit | ⟨low, high⟩
    · decide
    · decide
    · have range := toNat_of_isDigit digit
      omega
    · have first : 97 ≤ c.toNat := low
      have last : c.toNat ≤ 102 := high
      omega
  refine ⟨fun c member => ⟨?_, (bounds member).2.1⟩, fun member => ?_, fun member => ?_,
    fun member => ?_⟩
  · have := bounds member
    omega
  · exact absurd (bounds member) (by decide)
  · exact absurd (bounds member) (by decide)
  · exact absurd (bounds member) (by decide)

theorem plainField_decimal (n : Nat) : PlainField (decimal n) :=
  plainField_of_digits fun _ member => .inr (.inr (.inl (isDigit_decimal member)))

theorem plainField_decimalInt (i : Int) : PlainField (decimalInt i) :=
  plainField_of_digits fun _ member =>
    (mem_decimalInt member).imp_right fun digit => .inr (.inl digit)

/-- The name of a color is a field. -/
theorem plainField_name (c : SeqColor) : PlainField c.name := by
  have digit : ∀ d < 16, d.digitChar.isDigit = true ∨ 'a' ≤ d.digitChar ∧ d.digitChar ≤ 'f' := by
    decide
  have byte (n : UInt8) {ch : Char} (member : ch ∈ SeqColor.hexByte n)
      : ch.isDigit = true ∨ 'a' ≤ ch ∧ ch ≤ 'f' := by
    have small := n.toNat_lt
    simp only [SeqColor.hexByte, List.mem_cons, List.not_mem_nil, or_false] at member
    rcases member with rfl | rfl
    · exact digit _ (by omega)
    · exact digit _ (by omega)
  refine plainField_of_digits fun ch member => ?_
  rcases List.mem_cons.mp member with mark | inside
  · exact .inr (.inl mark)
  · rcases List.mem_append.mp inside with front | last
    · rcases List.mem_append.mp front with first | second
      · exact .inr (.inr (byte c.r first))
      · exact .inr (.inr (byte c.g second))
    · exact .inr (.inr (byte c.b last))

/-- A record of plain fields is read as it was printed, by induction on its fields. -/
theorem ofLine_text {type : Char} {fields : List (List Char)} (named : type ≠ ',')
    (plain : ∀ field ∈ fields, PlainField field)
    : MapRecord.ofLine (MapRecord.text ⟨some type, fields⟩) = ⟨some type, fields⟩ := by
  have split (first : List Char) (free : ',' ∉ first)
      : (first ++ fields.flatMap fun field => ',' :: field).splitOn ',' = first :: fields := by
    induction fields generalizing first with
    | nil =>
        rw [List.flatMap_nil, List.append_nil]
        exact List.splitOn_eq_singleton free
    | cons field rest ih =>
        obtain ⟨here, others⟩ := List.forall_mem_cons.mp plain
        rw [List.flatMap_cons, List.cons_append,
          List.splitOn_append_cons_self_of_not_mem free, ih others field here.comma]
  have whole := split [type] (by simpa using named.symm)
  simp only [MapRecord.text, Option.toList_some, MapRecord.ofLine, whole, List.head?_cons]

/-- Lines that nothing breaks are read one by one, by induction on them. -/
theorem splitLines_flatMap {lines : List (List Char)}
    (whole : ∀ l ∈ lines, l ≠ [] ∧ '\n' ∉ l ∧ '\r' ∉ l)
    : splitLines (lines.flatMap (· ++ ['\n'])) = lines := by
  induction lines with
  | nil => rfl
  | cons first rest ih =>
      obtain ⟨⟨full, newline, carriage⟩, others⟩ := List.forall_mem_cons.mp whole
      have unbroken : ∀ c ∈ first, (c = '\r' || c = '\n') = false := by
        intro c member
        have noReturn : c ≠ '\r' := fun same => carriage (same ▸ member)
        have noBreak : c ≠ '\n' := fun same => newline (same ▸ member)
        simp [noReturn, noBreak]
      have next := ih others
      rw [splitLines] at next ⊢
      rw [List.flatMap_cons, List.append_assoc, List.singleton_append,
        List.splitOnP_append_cons_of_forall_mem unbroken _ (by decide), List.filter_cons_of_pos
          (by simpa using full), next]

/-- Text of ASCII is read as it was written. -/
theorem fromUtf8_toLatin1 {text : List Char} (ascii : ∀ c ∈ text, Ascii c)
    : fromUtf8 (toLatin1 text) = text := by
  have byte {c : Char} (member : c ∈ text)
      : (if c.toNat < 0x100 then UInt8.ofNat c.toNat else 0x3f).toNat = c.toNat := by
    have small := (ascii c member).2
    rw [if_pos (by omega), UInt8.toNat_ofNat']
    omega
  rw [fromUtf8_eq_fromLatin1_iff.mpr, fromLatin1, toLatin1, List.map_map]
  · refine (List.map_congr_left fun c member => ?_).trans (List.map_id text)
    simp only [Function.comp_apply, byte member, Char.ofNat_toNat, id_eq]
  · intro b member
    obtain ⟨c, inText, rfl⟩ := List.mem_map.mp member
    rw [UInt8.lt_iff_toNat_lt, byte inText]
    exact (ascii c inText).2

-----------------------------------------------------------------------------------------
-- Maps that can be saved
-----------------------------------------------------------------------------------------

/-- A name and a color that are fields, with the color that is read of its name. -/
structure MapCommon.Plain (numbers : NumberReader) (c : MapCommon) : Prop where
  name : PlainField c.name
  colorName : PlainField c.colorName
  read : c = .ofName numbers c.name c.colorName

/-- An L line as it is loaded. -/
structure MapLineL.Plain (numbers : NumberReader) (l : MapLineL) : Prop where
  common : l.common.Plain numbers
  colored : l.common.colorName ≠ []
  two : 2 ≤ l.points.length
  few : l.points.length < 2 ^ 32
  inRange : ∀ p ∈ l.points, p.InRange
  flat : l.heightSet = false → l.z = 0
  bounds : l.calcBounds = l

/-- An M line as it is loaded. -/
structure MapLineM.Plain (numbers : NumberReader) (l : MapLineM) : Prop where
  common : l.common.Plain numbers
  colored : l.common.colorName ≠ []
  two : 2 ≤ l.points.length
  few : l.points.length < 2 ^ 32
  bounds : l.calcBounds = l

/-- A location as it is loaded. -/
structure MapLocation.Plain (numbers : NumberReader) (l : MapLocation) : Prop where
  common : l.common.Plain numbers
  flat : l.heightSet = false → l.point.z = 0

/-- An aggro range as it is loaded. -/
structure MapAggro.Plain (a : MapAggro) : Prop where
  name : PlainField a.name
  named : a.name ≠ []
  range : a.range ≠ 0

/-- A layer as it is loaded: once a line has a height, all that follow have one. -/
structure MapLayer.Plain (numbers : NumberReader) (layer : MapLayer) : Prop where
  lLines : ∀ l ∈ layer.lLines, l.Plain numbers
  heights : layer.lLines.Pairwise fun before after =>
    before.heightSet = true → after.heightSet = true
  mLines : ∀ l ∈ layer.mLines, l.Plain numbers
  locations : ∀ l ∈ layer.locations, l.Plain numbers

/-- A map whose layers can be saved. -/
structure MapData.Savable (numbers : NumberReader) (m : MapData) : Prop where
  zoneLongName : PlainField m.zoneLongName
  zoneShortName : PlainField m.zoneShortName
  layers : ∀ layer ∈ m.mapLayers, layer.Plain numbers
  aggros : ∀ a ∈ m.aggros, a.Plain

-----------------------------------------------------------------------------------------
-- What a file gives can be saved
-----------------------------------------------------------------------------------------

/-- A file that is printed as it is and no longer than it may be. -/
structure CleanText (text : List Char) : Prop where
  ascii : ∀ c ∈ text, Ascii c
  few : text.length < 2 ^ 32

/-- The parts of a text are of its characters, without the separators, and no more than these and
one, by induction on the text.
-/
theorem splitOnP_parts (p : Char → Bool) (text : List Char)
    : (∀ part ∈ text.splitOnP p, part.length ≤ text.length ∧ ∀ c ∈ part, c ∈ text ∧ p c = false)
      ∧ (text.splitOnP p).length ≤ text.length + 1 := by
  induction text with
  | nil => simp
  | cons c rest ih =>
      obtain ⟨inside, few⟩ := ih
      have wider {part : List Char} (member : part ∈ rest.splitOnP p)
          : part.length ≤ (c :: rest).length ∧ ∀ d ∈ part, d ∈ c :: rest ∧ p d = false := by
        obtain ⟨short, each⟩ := inside part member
        exact ⟨short.trans (Nat.le_succ _),
          fun d here => ⟨List.mem_cons_of_mem c (each d here).1, (each d here).2⟩⟩
      rw [List.splitOnP_cons_eq_if_modifyHead]
      split_ifs with stop
      · refine ⟨fun part member => ?_, by simpa using few⟩
        rcases List.mem_cons.mp member with rfl | later
        · simp
        · exact wider later
      · cases parts : rest.splitOnP p with
        | nil => exact absurd parts (List.splitOnP_ne_nil p rest)
        | cons first more =>
            rw [parts] at few
            refine ⟨fun part member => ?_, by simpa using few.trans (Nat.le_succ _)⟩
            rcases List.mem_cons.mp member with rfl | later
            · obtain ⟨short, each⟩ := inside first (parts ▸ List.mem_cons_self)
              refine ⟨by simpa using short, fun d here => ?_⟩
              rcases List.mem_cons.mp here with rfl | behind
              · exact ⟨List.mem_cons_self, by simpa using stop⟩
              · exact ⟨List.mem_cons_of_mem c (each d behind).1, (each d behind).2⟩
            · exact wider (parts ▸ List.mem_cons_of_mem first later)

/-- The fields of a line of a clean text are plain. -/
theorem CleanText.fields {text entry : List Char} (clean : CleanText text)
    (listed : entry ∈ splitLines text)
    : (∀ field ∈ entry.splitOn ',', PlainField field)
      ∧ (entry.splitOn ',').length ≤ 2 ^ 32 := by
  have inSplit := (List.mem_filter.mp listed).1
  obtain ⟨short, chars⟩ := (splitOnP_parts _ text).1 entry inSplit
  rw [List.splitOn_eq_splitOnP]
  obtain ⟨parts, few⟩ := splitOnP_parts (· == ',') entry
  have size := clean.few
  refine ⟨fun field member => ?_, by omega⟩
  have each {c : Char} (here : c ∈ field) : c ∈ entry ∧ c ≠ ',' := by
    simpa using (parts field member).2 c here
  refine ⟨fun c here => clean.ascii c (chars c (each here).1).1, fun here => (each here).2 rfl,
    fun here => ?_, fun here => ?_⟩
  · exact absurd (chars _ (each here).1).2 (by decide)
  · exact absurd (chars _ (each here).1).2 (by decide)

/-- The fields of a record are plain, and fewer than a number of 32 bits tells. -/
structure MapRecord.Plain (r : MapRecord) : Prop where
  fields : ∀ field ∈ r.fields, PlainField field
  few : r.fields.length < 2 ^ 32

theorem CleanText.records {text : List Char} (clean : CleanText text)
    : ∀ r ∈ recordsOf text, r.Plain := by
  intro r member
  obtain ⟨entry, listed, rfl⟩ := List.mem_map.mp member
  obtain ⟨fields, few⟩ := clean.fields (List.mem_of_mem_tail listed)
  rw [MapRecord.ofLine]
  cases parts : entry.splitOn ',' with
  | nil => exact absurd parts (List.splitOn_ne_nil _ _)
  | cons first rest =>
      rw [parts] at fields few
      exact ⟨fun field member => fields field (List.mem_cons_of_mem first member), few⟩

theorem plain_ofName {numbers : NumberReader} {name color : List Char} (first : PlainField name)
    (second : PlainField color)
    : (MapCommon.ofName numbers name color).Plain numbers :=
  ⟨first, second, rfl⟩

/-- A line gets a color. -/
theorem lineColor_plain {color : List Char} (plain : PlainField color)
    : PlainField (lineColor color) ∧ lineColor color ≠ [] := by
  rw [lineColor]
  split_ifs with empty
  · refine ⟨⟨?_, ?_, ?_, ?_⟩, ?_⟩
    · exact ascii_of_all (by decide)
    all_goals decide
  · exact ⟨plain, empty⟩

namespace MapRecord

variable {numbers : NumberReader} {r : MapRecord} {height : Option Int16}

theorem Plain.lLine (plain : r.Plain) {l : MapLineL} (member : l ∈ r.lLine numbers height)
    : l.Plain numbers ∧ l.heightSet = height.isSome := by
  obtain ⟨fields, few⟩ := plain
  rw [MapRecord.lLine] at member
  split at member
  · next name color specified points type parts =>
      rw [parts] at fields few
      obtain ⟨nameField, colorField, _⟩ := List.forall_mem_cons.mp fields |>.imp_right
        List.forall_mem_cons.mp
      obtain ⟨colorField, colored⟩ := lineColor_plain colorField
      split_ifs at member with valid
      · obtain rfl := List.mem_singleton.mp member
        have length : (planePoints points).length = points.length / 2 := by
          rw [planePoints, List.length_map, List.length_range]
        have size : points.length < 2 ^ 32 := by
          simp only [List.length_cons] at few
          omega
        refine ⟨⟨plain_ofName nameField colorField, colored, ?_, ?_, ?_, ?_, rfl⟩, rfl⟩
        · exact length ▸ valid.1
        · change (planePoints points).length < 2 ^ 32
          rw [length]
          omega
        · intro p inside
          obtain ⟨i, _, rfl⟩ := List.mem_map.mp inside
          exact ⟨⟨Int16.le_toInt _, Int16.toInt_lt _⟩, ⟨Int16.le_toInt _, Int16.toInt_lt _⟩⟩
        · intro off
          cases height with
          | none => rfl
          | some z => cases off
      · cases member
  · cases member

theorem Plain.mLine (plain : r.Plain) {l : MapLineM} (member : l ∈ r.mLine numbers)
    : l.Plain numbers := by
  obtain ⟨fields, few⟩ := plain
  rw [MapRecord.mLine] at member
  split at member
  · next name color specified points type parts =>
      rw [parts] at fields few
      obtain ⟨nameField, colorField, _⟩ := List.forall_mem_cons.mp fields |>.imp_right
        List.forall_mem_cons.mp
      obtain ⟨colorField, colored⟩ := lineColor_plain colorField
      split_ifs at member with valid
      · obtain rfl := List.mem_singleton.mp member
        have length : (spacePoints points).length = points.length / 3 := by
          rw [spacePoints, List.length_map, List.length_range]
        refine ⟨plain_ofName nameField colorField, colored, length ▸ valid.1, ?_, rfl⟩
        change (spacePoints points).length < 2 ^ 32
        simp only [List.length_cons] at few
        omega
      · cases member
  · cases member

theorem Plain.locations (plain : r.Plain) {l : MapLocation}
    (member : l ∈ r.locations numbers height)
    : l.Plain numbers := by
  obtain ⟨fields, _⟩ := plain
  rw [MapRecord.locations] at member
  split at member
  · next name color x y rest type parts =>
      rw [parts] at fields
      obtain ⟨nameField, colorField, _⟩ := List.forall_mem_cons.mp fields |>.imp_right
        List.forall_mem_cons.mp
      have placed (h : Option Int16)
          : (MapLocation.ofFields numbers name color (toShort x) (toShort y) h).Plain numbers := by
        refine ⟨plain_ofName nameField colorField, fun off => ?_⟩
        cases h with
        | none => rfl
        | some z => cases off
      rcases List.mem_append.mp member with own | last
      · split at own
        · rw [List.mem_singleton.mp own]
          exact placed _
        · cases own
      · rw [List.mem_singleton.mp last]
        exact placed _
  · cases member

end MapRecord

/-- What plain records draw has a property that each has, by induction on them. -/
theorem forall_mem_drawn {α : Type} {P : α → Prop} {height : List MapRecord → Option Int16}
    {draw : MapRecord → Option Int16 → List α} (past : List MapRecord) {records : List MapRecord}
    (each : ∀ r ∈ records, ∀ h, ∀ a ∈ draw r h, P a)
    : ∀ a ∈ drawn height draw past records, P a := by
  induction records generalizing past with
  | nil => simp [drawn]
  | cons r rest ih =>
      obtain ⟨here, others⟩ := List.forall_mem_cons.mp each
      intro a member
      rcases List.mem_append.mp member with first | later
      · exact here _ a first
      · exact ih _ others a later

/-- A height once set stays set. -/
theorem storedHeight_isSome_append {past : List MapRecord} (r : MapRecord)
    (set : (storedHeight past).isSome = true)
    : (storedHeight (past ++ [r])).isSome = true := by
  have stored (past : List MapRecord)
      : (storedHeight past).isSome = (lastHeight past).isSome := by
    rw [storedHeight]
    split_ifs with some
    · exact some.symm
    · simpa using some
  rw [stored] at set ⊢
  rw [Loading.lastHeight_append, Option.isSome_or, set, Bool.or_true]

/-- After a line with a height no line is without one, by induction on the records. -/
theorem heights_drawn {numbers : NumberReader} {records : List MapRecord}
    (plain : ∀ r ∈ records, r.Plain) (past : List MapRecord)
    : (drawn storedHeight (MapRecord.lLine numbers) past records).Pairwise
          (fun before after => before.heightSet = true → after.heightSet = true)
      ∧ ((storedHeight past).isSome = true →
          ∀ l ∈ drawn storedHeight (MapRecord.lLine numbers) past records,
            l.heightSet = true) := by
  induction records generalizing past with
  | nil => simp [drawn]
  | cons r rest ih =>
      obtain ⟨here, others⟩ := List.forall_mem_cons.mp plain
      obtain ⟨later, set⟩ := ih others (past ++ [r])
      have own {l : MapLineL} (member : l ∈ r.lLine numbers (storedHeight past))
          : l.heightSet = (storedHeight past).isSome := (here.lLine member).2
      rw [drawn]
      refine ⟨List.pairwise_append.mpr ⟨?_, later, ?_⟩, ?_⟩
      · refine List.pairwise_of_forall_mem_list fun before first after second high => ?_
        rw [own second, ← own first]
        exact high
      · intro before first after second high
        rw [own first] at high
        exact set (storedHeight_isSome_append r high) after second
      · intro high l member
        rcases List.mem_append.mp member with first | second
        · rw [own first]
          exact high
        · exact set (storedHeight_isSome_append r high) l second

-----------------------------------------------------------------------------------------
-- What records say of the zone
-----------------------------------------------------------------------------------------

namespace MapRecord

/-- The aggro range of a valid A record. -/
def aggro (r : MapRecord) : List MapAggro :=
  match r.entryType, r.fields with
  | some 'A', name :: range :: _ =>
      if name = [] ∨ toUShort range = 0 then [] else [⟨name, toUShort range⟩]
  | _, _ => []

/-- The experience modifier of a Z record. -/
def zem? (r : MapRecord) : Option UInt8 :=
  match r.entryType, r.fields with
  | some 'Z', zem :: _ => some (toUShort zem).toUInt8
  | _, _ => none

end MapRecord

namespace Loading

variable {numbers : NumberReader} {s : Loading}

/-- What a file says of its zone. -/
structure Tells (s t : Loading) (aggros : List MapAggro) (zem : UInt8) : Prop where
  zoneLongName : t.data.zoneLongName = s.data.zoneLongName
  zoneShortName : t.data.zoneShortName = s.data.zoneShortName
  aggros : t.data.aggros = s.data.aggros ++ aggros
  zem : t.data.zoneZEM = zem

theorem tells_of_data {t : Loading} (names : t.data.zoneLongName = s.data.zoneLongName)
    (short : t.data.zoneShortName = s.data.zoneShortName) (aggros : t.data.aggros = s.data.aggros)
    (zem : t.data.zoneZEM = s.data.zoneZEM)
    : Tells s t [] s.data.zoneZEM :=
  ⟨names, short, aggros.trans (List.append_nil _).symm, zem⟩

theorem tells_loadM (fields : List (List Char))
    : Tells s (s.loadM numbers fields) [] s.data.zoneZEM := by
  rw [loadM.eq_def]
  split
  · dsimp only
    split_ifs
    · exact tells_of_data rfl rfl rfl rfl
    · split <;> exact tells_of_data rfl rfl rfl rfl
  · exact tells_of_data rfl rfl rfl rfl

theorem tells_loadL (fields : List (List Char))
    : Tells s (s.loadL numbers fields) [] s.data.zoneZEM := by
  rw [loadL.eq_def]
  split
  · dsimp only
    split_ifs
    all_goals first
      | exact tells_of_data rfl rfl rfl rfl
      | split <;> exact tells_of_data rfl rfl rfl rfl
  · exact tells_of_data rfl rfl rfl rfl

/-- A height hint says nothing else of the zone. -/
theorem tells_takeHint (m : MapData) (fields : List (List Char))
    : (takeHint m fields).zoneLongName = m.zoneLongName
      ∧ (takeHint m fields).zoneShortName = m.zoneShortName
      ∧ (takeHint m fields).aggros = m.aggros ∧ (takeHint m fields).zoneZEM = m.zoneZEM := by
  rw [takeHint]
  split
  · split <;> exact ⟨rfl, rfl, rfl, rfl⟩
  · exact ⟨rfl, rfl, rfl, rfl⟩

theorem tells_loadP (fields : List (List Char))
    : Tells s (s.loadP numbers fields) [] s.data.zoneZEM := by
  rw [loadP.eq_def]
  split
  · next name color x y fields =>
      obtain ⟨names, short, aggros, zem⟩ :=
        tells_takeHint (s.data.quickCheckPos (toShort x) (toShort y))
          (name :: color :: x :: y :: fields)
      exact tells_of_data names short aggros zem
  · exact tells_of_data rfl rfl rfl rfl

theorem tells_loadH (fields : List (List Char))
    : Tells s (s.loadH fields) [] s.data.zoneZEM := by
  rw [loadH.eq_def]
  split
  · dsimp only
    split <;> exact tells_of_data rfl rfl rfl rfl
  · exact tells_of_data rfl rfl rfl rfl

theorem tells_loadA (fields : List (List Char))
    : Tells s (s.loadA fields) (MapRecord.aggro ⟨some 'A', fields⟩) s.data.zoneZEM := by
  rw [loadA.eq_def]
  split
  · next name range rest =>
      have aggro : MapRecord.aggro ⟨some 'A', name :: range :: rest⟩
          = if name = [] ∨ toUShort range = 0 then [] else [⟨name, toUShort range⟩] := rfl
      rw [aggro]
      dsimp only
      by_cases unnamed : name = []
      · rw [if_pos unnamed, if_pos (.inl unnamed)]
        exact tells_of_data rfl rfl rfl rfl
      · by_cases zero : toUShort range = 0
        · rw [if_neg unnamed, if_pos zero, if_pos (.inr zero)]
          exact tells_of_data rfl rfl rfl rfl
        · rw [if_neg unnamed, if_neg zero, if_neg (not_or.mpr ⟨unnamed, zero⟩)]
          exact ⟨rfl, rfl, rfl, rfl⟩
  · next short =>
      have quiet : MapRecord.aggro ⟨some 'A', fields⟩ = [] := by
        rcases fields with _ | ⟨name, _ | ⟨range, rest⟩⟩
        · rfl
        · rfl
        · exact absurd rfl (short name range rest)
      rw [quiet]
      exact tells_of_data rfl rfl rfl rfl

/-- What a record says of the zone. -/
theorem tells_loadRecord (r : MapRecord)
    : Tells s (s.loadRecord numbers r) r.aggro (r.zem?.getD s.data.zoneZEM) := by
  obtain ⟨entryType, fields⟩ := r
  simp only [loadRecord]
  split
  · exact tells_loadM fields
  · exact tells_loadL fields
  · exact tells_loadP fields
  · exact tells_loadA fields
  · exact tells_loadH fields
  · cases fields with
    | nil => exact tells_of_data rfl rfl rfl rfl
    | cons zem rest => exact ⟨rfl, rfl, (List.append_nil _).symm, rfl⟩
  · next _ _ _ notA _ notZ =>
      have quiet : MapRecord.aggro ⟨entryType, fields⟩ = [] := by
        rw [MapRecord.aggro]
        split
        · next type _ => exact absurd type notA
        · rfl
      have still : MapRecord.zem? ⟨entryType, fields⟩ = none := by
        rw [MapRecord.zem?]
        split
        · next type _ => exact absurd type notZ
        · rfl
      rw [quiet, still]
      exact tells_of_data rfl rfl rfl rfl

/-- What records say of the zone, by induction on them. -/
theorem tells_foldl (records : List MapRecord)
    : Tells s (records.foldl (loadRecord numbers) s) (records.flatMap MapRecord.aggro)
        (records.foldl (fun zem r => r.zem?.getD zem) s.data.zoneZEM) := by
  induction records generalizing s with
  | nil => exact tells_of_data rfl rfl rfl rfl
  | cons r rest ih =>
      have first := @tells_loadRecord numbers s r
      have later := @ih (s.loadRecord numbers r)
      rw [first.zem] at later
      refine ⟨later.zoneLongName.trans first.zoneLongName,
        later.zoneShortName.trans first.zoneShortName, ?_, later.zem⟩
      rw [List.foldl_cons, later.aggros, first.aggros, List.append_assoc, List.flatMap_cons]

end Loading

/-- The aggro ranges of plain records are plain. -/
theorem MapRecord.Plain.aggro {r : MapRecord} (plain : r.Plain) {a : MapAggro}
    (member : a ∈ r.aggro)
    : a.Plain := by
  obtain ⟨fields, _⟩ := plain
  rw [MapRecord.aggro] at member
  split at member
  · next name range rest type parts =>
      rw [parts] at fields
      split_ifs at member with none
      · cases member
      · rw [List.mem_singleton.mp member]
        exact ⟨fields name List.mem_cons_self, fun same => none (.inl same),
          fun same => none (.inr same)⟩
  · cases member

-----------------------------------------------------------------------------------------
-- Loading keeps maps savable
-----------------------------------------------------------------------------------------

namespace MapData

variable {numbers : NumberReader} {m : MapData}

theorem Savable.clear : m.clear.Savable numbers :=
  ⟨⟨nofun, nofun, nofun, nofun⟩, ⟨nofun, nofun, nofun, nofun⟩, nofun, nofun⟩

theorem savable_fresh : fresh.Savable numbers := Savable.clear

/-- A clean file leaves a savable map, whatever becomes of it. -/
theorem Savable.loadMap (savable : m.Savable numbers) {fileName text : List Char}
    (clean : CleanText text) (importing : Bool)
    : (m.loadMap numbers fileName importing (some text)).Savable numbers := by
  have base : (if importing then m else m.clear).Savable numbers := by
    split_ifs
    · exact savable
    · exact .clear
  rw [MapData.loadMap]
  generalize (if importing then m else m.clear) = start at base
  split_ifs
  · exact base
  cases parts : splitLines text with
  | nil => exact base
  | cons first lines =>
      dsimp only
      have header := clean.fields (parts ▸ List.mem_cons_self : first ∈ splitLines text)
      rcases names : first.splitOn ',' with _ | ⟨zoneLongName, _ | ⟨zoneShortName, sizes⟩⟩
      · exact base
      · exact base
      · dsimp only
        rw [names] at header
        have records : lines.map MapRecord.ofLine = recordsOf text := by rw [recordsOf, parts]; rfl
        rw [records]
        have plain := clean.records
        let s := Loading.start start fileName zoneLongName zoneShortName sizes
        have told := @Loading.tells_foldl numbers s (recordsOf text)
        have layers := @Loading.foldl_mapLayers numbers s (recordsOf text)
        have drawn := @Loading.foldl_loadRecord_layer numbers s [] ⟨rfl, rfl⟩ (recordsOf text)
        refine ⟨?_, ?_, ?_, ?_⟩
        · exact told.zoneLongName ▸ header.1 zoneLongName List.mem_cons_self
        · exact told.zoneShortName ▸
            header.1 zoneShortName (List.mem_cons_of_mem _ List.mem_cons_self)
        · intro layer member
          rcases List.mem_append.mp member with old | new
          · exact base.layers layer (layers ▸ old)
          · obtain rfl := List.mem_singleton.mp new
            have lLines := congrArg MapLayer.lLines drawn
            have mLines := congrArg MapLayer.mLines drawn
            have locations := congrArg MapLayer.locations drawn
            refine ⟨?_, ?_, ?_, ?_⟩
            · exact lLines ▸ forall_mem_drawn [] fun r inside h l here =>
                ((plain r inside).lLine here).1
            · exact lLines ▸ (heights_drawn plain []).1
            · refine mLines ▸ fun l here => ?_
              obtain ⟨r, inside, there⟩ := List.mem_flatMap.mp here
              exact (plain r inside).mLine there
            · exact locations ▸ forall_mem_drawn [] fun r inside h l here =>
                (plain r inside).locations here
        · intro a member
          have there : a ∈ ((recordsOf text).foldl (Loading.loadRecord numbers) s).data.aggros :=
            member
          rw [told.aggros] at there
          rcases List.mem_append.mp there with old | new
          · exact base.aggros a old
          · obtain ⟨r, inside, there⟩ := List.mem_flatMap.mp new
            exact (plain r inside).aggro there

end MapData

end Maps
end Scry
