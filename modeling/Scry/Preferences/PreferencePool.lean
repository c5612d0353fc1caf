import Mathlib.Data.Char
import Mathlib.Data.List.Lex
import Mathlib.Data.List.Nodup
import Scry.Library.OrderedMap
import Scry.Preferences.SeqColor

/-! The pools of the preference store: the values of one origin, by section and name.
A section is there as long as it holds a value, so that a pool is known by its values.
-/

namespace Scry

open TextStream

/-- A stored value with its kind. -/
inductive PreferenceValue
  | str (s : List Char)
  | int (i : Int64)
  | uint (u : UInt64)
  | bool (b : Bool)
deriving DecidableEq

/-- Any kind renders as a string. -/
def PreferenceValue.toText : PreferenceValue → List Char
  | .str s => s
  | .int i => decimalInt i.toInt
  | .uint u => decimal u.toNat
  | .bool b => if b then "true".toList else "false".toList

/-- A value with its section and its name. -/
structure PreferenceItem where
  sect : List Char
  name : List Char
  value : PreferenceValue
deriving DecidableEq

/-- `Pool`: sections of values, none of them empty. -/
structure PreferencePool where
  sections : OrderedMap (List Char) (OrderedMap (List Char) PreferenceValue)
  inhabited : ∀ entry ∈ sections.entries, entry.2.entries ≠ []

namespace PreferencePool

def empty : PreferencePool := ⟨.empty, by intro entry member; cases member⟩

/-- `pool[section][name] = v`. -/
def set (pool : PreferencePool) (item : PreferenceItem) : PreferencePool where
  sections :=
    pool.sections.insert item.sect
      (((pool.sections.find? item.sect).getD .empty).insert item.name item.value)
  inhabited := by
    intro entry member
    rcases OrderedMap.mem_entries_insert.mp member with rfl | ⟨old, _⟩
    · exact OrderedMap.insert_entries_ne_nil _ _ _
    · exact pool.inhabited entry old

/-- The value under a section and a name. -/
def get (pool : PreferencePool) (sect name : List Char) : Option PreferenceValue :=
  (pool.sections.find? sect).bind fun values => values.find? name

def contains (pool : PreferencePool) (sect : List Char) : Bool :=
  (pool.sections.find? sect).isSome

/-- Values written one after another. -/
def setAll (pool : PreferencePool) (items : List PreferenceItem) : PreferencePool :=
  items.foldl set pool

-----------------------------------------------------------------------------------------
-- Lookups
-----------------------------------------------------------------------------------------

@[simp]
theorem get_empty (sect name : List Char) : empty.get sect name = none := rfl

theorem get_set (pool : PreferencePool) (item : PreferenceItem) (sect name : List Char)
    : (pool.set item).get sect name
      = if sect = item.sect ∧ name = item.name then some item.value else pool.get sect name := by
  rw [get, get, set]
  dsimp only
  rw [OrderedMap.find?_insert]
  by_cases here : sect = item.sect
  · subst here
    rw [if_pos rfl, Option.bind_some, OrderedMap.find?_insert]
    by_cases same : name = item.name
    · rw [if_pos same, if_pos ⟨rfl, same⟩]
    · rw [if_neg same, if_neg (fun both => same both.2)]
      cases pool.sections.find? item.sect with
      | none => rfl
      | some values => rfl
  · rw [if_neg here, if_neg (fun both => here both.1)]

/-- A section is there where one of its names is. -/
theorem contains_iff {pool : PreferencePool} {sect : List Char}
    : pool.contains sect = true ↔ ∃ name, (pool.get sect name).isSome := by
  rw [contains, Option.isSome_iff_exists]
  constructor
  · rintro ⟨values, found⟩
    have some := pool.inhabited _ (OrderedMap.mem_of_find? found)
    obtain ⟨⟨name, value⟩, rest, listed⟩ := List.exists_cons_of_ne_nil some
    have first : (name, value) ∈ values.entries := listed ▸ List.mem_cons_self
    refine ⟨name, ?_⟩
    rw [get, found, Option.bind_some, OrderedMap.find?_eq_some_iff.mpr first]
    rfl
  · rintro ⟨name, there⟩
    rw [get] at there
    cases found : pool.sections.find? sect with
    | none =>
        rw [found] at there
        cases there
    | some values => exact ⟨values, rfl⟩

/-- The last of several values for one name counts, by induction on them. -/
theorem get_setAll (items : List PreferenceItem) (pool : PreferencePool) (sect name : List Char)
    : (pool.setAll items).get sect name
      = ((items.reverse.find? fun item => item.sect = sect ∧ item.name = name).map
          PreferenceItem.value <|> pool.get sect name) := by
  induction items generalizing pool with
  | nil => rfl
  | cons item rest ih =>
      rw [setAll, List.foldl_cons, ← setAll, ih, List.reverse_cons, List.find?_append, get_set]
      cases rest.reverse.find? fun item => item.sect = sect ∧ item.name = name with
      | some later => rfl
      | none =>
          by_cases here : item.sect = sect ∧ item.name = name
          · rw [if_pos ⟨here.1.symm, here.2.symm⟩]
            simp [here]
          · rw [if_neg (fun both => here ⟨both.1.symm, both.2.symm⟩)]
            simp only [Option.none_or, List.find?_singleton, here, decide_false]
            rfl

end PreferencePool

end Scry
