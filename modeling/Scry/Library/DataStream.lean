import Mathlib.Data.Vector.Basic

/-! A stream of typed values, read back one after the other. A read past the end, or where a value
of another type was written, gives the zero value of its type and leaves nothing to read.
-/

namespace Scry

/-- A value as it was written. `raw` is a piece of memory, whose content the program names. -/
inductive Datum (ρ : Type) where
  | uint8 (v : UInt8)
  | uint16 (v : UInt16)
  | uint32 (v : UInt32)
  | int8 (v : Int8)
  | int16 (v : Int16)
  | int32 (v : Int32)
  | string (v : String)
  | raw (v : ρ)

/-- A stream with the values that are left to read. -/
abbrev DataStream (ρ : Type) : Type := List (Datum ρ)

/-- How values of a type are written and read. -/
structure DataField (ρ α : Type) where
  write : α → Datum ρ
  read? : Datum ρ → Option α
  zero : α
  read?_write : ∀ v, read? (write v) = some v

namespace DataField

variable {ρ α β : Type}

/-- The next value of the stream. -/
def get (f : DataField ρ α) : StateM (DataStream ρ) α := fun stream =>
  match stream with
  | [] => (f.zero, [])
  | d :: rest =>
      match f.read? d with
      | none => (f.zero, [])
      | some v => (v, rest)

/-- The next values, as many as an array has. -/
def getMany (f : DataField ρ α) : (n : Nat) → StateM (DataStream ρ) (List.Vector α n)
  | 0 => pure .nil
  | n + 1 => do
      let v ← f.get
      let rest ← f.getMany n
      pure (v ::ᵥ rest)

/-- The values of an array, one after the other. -/
def writeMany {n : Nat} (f : DataField ρ α) (values : List.Vector α n) : DataStream ρ :=
  values.toList.map f.write

/-- A value that was written is read back. -/
@[simp]
theorem get_bind_run (f : DataField ρ α) (v : α) (rest : DataStream ρ)
    (k : α → StateM (DataStream ρ) β)
    : (f.get >>= k).run (f.write v :: rest) = (k v).run rest := by
  change (k (f.get (f.write v :: rest)).1).run (f.get (f.write v :: rest)).2 = _
  rw [get, f.read?_write]

/-- An array is read back, by induction on its length. -/
@[simp]
theorem getMany_bind_run {n : Nat} (f : DataField ρ α) (values : List.Vector α n)
    (rest : DataStream ρ) (k : List.Vector α n → StateM (DataStream ρ) β)
    : (f.getMany n >>= k).run (f.writeMany values ++ rest) = (k values).run rest := by
  induction n with
  | zero =>
      obtain rfl := values.eq_nil
      rfl
  | succ n ih =>
      obtain ⟨v, others, rfl⟩ := values.exists_eq_cons
      simp only [getMany, bind_assoc, pure_bind, writeMany, List.Vector.toList_cons,
        List.map_cons, List.cons_append, get_bind_run]
      exact ih others fun rest => k (v ::ᵥ rest)

end DataField

namespace DataStream

variable {ρ : Type}

def uint8 : DataField ρ UInt8 :=
  { write := .uint8
    read? := fun
      | .uint8 v => some v
      | _ => none
    zero := 0
    read?_write := fun _ => rfl }

def uint16 : DataField ρ UInt16 :=
  { write := .uint16
    read? := fun
      | .uint16 v => some v
      | _ => none
    zero := 0
    read?_write := fun _ => rfl }

def uint32 : DataField ρ UInt32 :=
  { write := .uint32
    read? := fun
      | .uint32 v => some v
      | _ => none
    zero := 0
    read?_write := fun _ => rfl }

def int8 : DataField ρ Int8 :=
  { write := .int8
    read? := fun
      | .int8 v => some v
      | _ => none
    zero := 0
    read?_write := fun _ => rfl }

def int16 : DataField ρ Int16 :=
  { write := .int16
    read? := fun
      | .int16 v => some v
      | _ => none
    zero := 0
    read?_write := fun _ => rfl }

def int32 : DataField ρ Int32 :=
  { write := .int32
    read? := fun
      | .int32 v => some v
      | _ => none
    zero := 0
    read?_write := fun _ => rfl }

def string : DataField ρ String :=
  { write := .string
    read? := fun
      | .string v => some v
      | _ => none
    zero := ""
    read?_write := fun _ => rfl }

end DataStream

end Scry
