import Scry.Library.Binary
import Scry.Library.TextStream

/-! Values of JSON and how a reader converts them. What has another type than is asked for reads
as the default of that type.
-/

inductive Json
  | null
  | boolean (truth : Bool)
  | number (q : ℚ)
  | string (text : List Char)
  | array (elements : List Json)
  | object (members : List (String × Json))

namespace Json

open Binary

-----------------------------------------------------------------------------------------
-- Reading
-----------------------------------------------------------------------------------------

/-- The member with a key. -/
def value (members : List (String × Json)) (key : String) : Json :=
  (members.lookup key).getD .null

def toText : Json → List Char
  | .string text => text
  | _ => []

def toDouble : Json → Double
  | .number q => .nearest q
  | _ => 0

/-- Only a whole number within the type is taken. -/
def toInt : Json → Int32
  | .number q => if q.den = 1 ∧ -2 ^ 31 ≤ q.num ∧ q.num < 2 ^ 31 then .ofInt q.num else 0
  | _ => 0

/-- The nearest whole number, away from zero. -/
def roundAway (q : ℚ) : ℤ := if 0 ≤ q then ⌊q + 1 / 2⌋ else ⌈q - 1 / 2⌉

/-- An unsigned number by way of a variant. -/
def toULongLong : Json → UInt64
  | .boolean truth => if truth then 1 else 0
  | .number q => .ofInt (roundAway q)
  | .string text => TextStream.toULong text
  | _ => 0

def toArray : Json → List Json
  | .array elements => elements
  | _ => []

@[simp]
theorem toText_string (text : List Char) : toText (.string text) = text := rfl

@[simp]
theorem toArray_array (elements : List Json) : toArray (.array elements) = elements := rfl

@[simp]
theorem toInt_int32 (i : Int32) : toInt (.number i.toInt) = i := by
  have within : -2 ^ 31 ≤ i.toInt ∧ i.toInt < 2 ^ 31 := ⟨i.le_toInt, i.toInt_lt⟩
  rw [toInt, Rat.den_intCast, Rat.num_intCast, if_pos ⟨rfl, within⟩, Int32.ofInt_toInt]

/-- A byte is read back by way of an integer. -/
@[simp]
theorem toInt_int8 (i : Int8) : (toInt (.number i.toInt)).toInt8 = i := by
  rw [← Int8.toInt_toInt32, toInt_int32, Int8.toInt8_toInt32]

theorem roundAway_natCast (n : Nat) : roundAway n = (n : ℤ) := by
  have whole : ⌊(n : ℚ) + 1 / 2⌋ = n := by
    rw [Int.floor_eq_iff]
    constructor
    · norm_num
    · push_cast
      norm_num
  rw [roundAway, if_pos n.cast_nonneg, whole]

@[simp]
theorem toULongLong_uint32 (n : UInt32) : (toULongLong (.number n.toNat)).toUInt32 = n := by
  rw [toULongLong, roundAway_natCast]
  have wide : UInt64.ofInt (n.toNat : ℤ) = n.toUInt64 := by
    rw [UInt64.ofInt]
    apply UInt64.toNat_inj.mp
    have small : n.toNat < 2 ^ 32 := n.toNat_lt
    simp only [UInt64.toNat_ofNat', UInt32.toNat_toUInt64]
    omega
  rw [wide, UInt32.toUInt32_toUInt64]

@[simp]
theorem toDouble_double (x : Double) : toDouble (.number x.value) = x := Number.nearest_value x

-----------------------------------------------------------------------------------------
-- Members that may be left out
-----------------------------------------------------------------------------------------

/-- The members that are there. -/
def present (fields : List (String × Option Json)) : List (String × Json) :=
  fields.filterMap fun field => field.2.map (field.1, ·)

/-- A member that is left out reads as null, by induction on the fields. -/
theorem value_present {fields : List (String × Option Json)} (nodup : (fields.map Prod.fst).Nodup)
    (key : String)
    : value (present fields) key = (fields.lookup key).join.getD .null := by
  induction fields with
  | nil => rfl
  | cons field rest ih =>
      obtain ⟨name, member⟩ := field
      obtain ⟨fresh, nodup⟩ := List.nodup_cons.mp nodup
      have read : value (present rest) key = (rest.lookup key).join.getD .null := ih nodup
      rw [value] at read ⊢
      by_cases same : key = name
      · subst same
        have absent : rest.lookup key = none := by
          rw [List.lookup_eq_none_iff]
          intro field there
          have differs : key ≠ field.1 := by
            rintro rfl
            exact fresh (List.mem_map.mpr ⟨field, there, rfl⟩)
          simpa using differs
        cases member with
        | none =>
            rw [absent] at read
            simpa [present] using read
        | some _ => simp [present]
      · have differs : (key == name) = false := by simpa using same
        rw [List.lookup_cons, differs]
        cases member with
        | none => exact read
        | some shown =>
            rw [present, List.filterMap_cons]
            simp only [Option.map_some, List.lookup_cons, differs]
            exact read

end Json
