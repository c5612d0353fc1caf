import Mathlib.Logic.Function.Basic
import Mathlib.Tactic.SplitIfs

/-! Directories whose steps can fail: a file is found, removed or renamed only where the system
lets it be, and a file that is written holds what the system stored of it.
-/

/-- A directory: what the file of each name holds. -/
abbrev Directory (ν τ : Type) : Type := ν → Option τ

namespace Directory

variable {ν τ : Type} [DecidableEq ν]

/-- The directory with a file set or taken away. -/
def put (d : Directory ν τ) (name : ν) (contents : Option τ) : Directory ν τ :=
  Function.update d name contents

@[simp]
theorem put_self (d : Directory ν τ) (name : ν) (contents : Option τ)
    : d.put name contents name = contents :=
  Function.update_self ..

@[simp]
theorem put_of_ne (d : Directory ν τ) {name other : ν} (ne : other ≠ name) (contents : Option τ)
    : d.put name contents other = d other :=
  Function.update_of_ne ne ..

/-- Whether a file is found. -/
def seen (d : Directory ν τ) (name : ν) (sees : Bool) : Bool := (d name).isSome && sees

/-- A file is removed where it is there and the system lets it go. -/
def remove (d : Directory ν τ) (name : ν) (removes : Bool) : Bool × Directory ν τ :=
  if d.seen name removes then (true, d.put name none) else (false, d)

/-- A file is renamed where it is there, no file has the new name, and the system lets it. -/
def rename (d : Directory ν τ) (name newName : ν) (renames : Bool) : Bool × Directory ν τ :=
  if d.seen name renames && (d newName).isNone then
    (true, (d.put newName (d name)).put name none)
  else
    (false, d)

variable {d : Directory ν τ} {name newName : ν} {renames : Bool}

/-- A file is renamed only to a name that no file has. -/
theorem of_renamed (renamed : (d.rename name newName renames).1 = true)
    : d.seen name renames = true ∧ d newName = none := by
  rw [rename] at renamed
  split_ifs at renamed with free
  simpa [Bool.and_eq_true] using free

/-- What is not renamed stays. -/
theorem rename_of_not (refused : ¬ (d.rename name newName renames).1 = true)
    : (d.rename name newName renames).2 = d := by
  rw [rename] at refused ⊢
  split_ifs at refused ⊢
  · exact absurd rfl refused
  · rfl

end Directory

/-- The names of a file that is replaced: its own, the one its new contents are written to, and
the one its old contents are kept under.
-/
inductive SaveName
  | canonical
  | new
  | backup
  deriving DecidableEq
