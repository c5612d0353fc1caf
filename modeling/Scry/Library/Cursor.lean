import Mathlib.Data.List.Basic

/-! Iterators over lists and places of arrays, used without a look at the end: what reads or
writes outside comes to nothing.
-/

namespace Cursor

variable {α β : Type}

/-- A program with an iterator, whose state is what lies before the end. -/
abbrev Reader (α : Type) := StateT (List α) Option

/-- `*it++`. -/
def next : Reader α α := fun items =>
  match items with
  | [] => none
  | a :: rest => some (a, rest)

/-- `*it`. -/
def current : Reader α α := fun items => items.head?.map fun a => (a, items)

/-- `it == end()`. -/
def atEnd : Reader α Bool := fun items => some (items.isEmpty, items)

@[simp]
theorem run_next (a : α) (rest : List α) : next.run (a :: rest) = some (a, rest) := rfl

@[simp]
theorem run_current (a : α) (rest : List α) : current.run (a :: rest) = some (a, a :: rest) := rfl

@[simp]
theorem run_atEnd (items : List α) : atEnd.run items = some (items.isEmpty, items) := rfl

/-- `items[i] = item`. -/
def setAt (items : List α) (i : Nat) (item : α) : Option (List α) :=
  if i < items.length then some (items.set i item) else none

theorem setAt_eq {items : List α} {i : Nat} (inside : i < items.length) (item : α)
    : setAt items i item = some (items.set i item) :=
  if_pos inside

/-- A loop that reads items into an array from a place on, for so many rounds or to the end. -/
def fillFrom (read : Reader α β) : Nat → Nat → List β → Reader α (List β)
  | 0, _, items => return items
  | rounds + 1, i, items => do
      if ← atEnd then
        return items
      let item ← read
      let items ← setAt items i item
      fillFrom read rounds (i + 1) items

/-- A round that reads inside. -/
theorem run_fillFrom_succ {read : Reader α β} {rounds i : Nat} {items : List β}
    {fields rest : List α} {item : β} (more : fields ≠ []) (isRead : read.run fields = some (item, rest))
    (inside : i < items.length)
    : (fillFrom read (rounds + 1) i items).run fields
      = (fillFrom read rounds (i + 1) (items.set i item)).run rest := by
  have before : fields.isEmpty = false := List.isEmpty_eq_false_iff.mpr more
  simp [fillFrom, before, isRead, setAt_eq inside]

end Cursor
