import Scry.Library.Machine
import Scry.Preferences.Reload

/-! The categories of spawns: a list of any length in memory, and numbered preferences that hold
the first 32 of them.
-/

namespace Scry

open TextStream

/-- A name with the filters that its spawns meet and do not meet, and a colour. -/
structure Category where
  name : List Char
  filter : List Char
  filterout : List Char
  color : SeqColor
deriving DecidableEq

def tMaxNumCategories : Nat := 32

/-- The categories, and whether they may differ from the preferences. -/
structure CategoryMgr where
  categories : List Category
  changed : Bool
  prefs : TomlPreferences

namespace CategoryMgr

variable (numbers : NumberReader)

def sectionName : List Char := "CategoryMgr".toList

/-- `Category%d_` and what follows it. -/
def key (i : Nat) (ending : String) : List Char :=
  "Category".toList ++ (decimal i ++ '_' :: ending.toList)

/-- Only a category with a name and a filter is taken in. -/
def addCategory (m : CategoryMgr) (name filter filterout : List Char) (color : SeqColor)
    : CategoryMgr :=
  if name ≠ [] ∧ filter ≠ [] then
    { m with changed := true, categories := m.categories ++ [{ name, filter, filterout, color }] }
  else { m with changed := true }

/-- A category is removed by its place in the list; the null pointer has none. -/
def remCategory (m : CategoryMgr) (cat : Option Nat) : CategoryMgr :=
  match cat with
  | none => { m with changed := true }
  | some i => { m with changed := true, categories := m.categories.eraseIdx i }

def clearCategories (m : CategoryMgr) : CategoryMgr := { m with categories := [], changed := true }

/-- `SeqColor("black")`. -/
def black : SeqColor := SeqColor.ofText numbers "black".toList

/-- The category of a number, if there is one. -/
def readCategory (prefs : TomlPreferences) (i : Nat) : Option Category :=
  if prefs.isPreference (key i "Name") sectionName .any then
    let name := prefs.getPrefString (key i "Name") sectionName [] .any
    let filter := prefs.getPrefString (key i "Filter") sectionName [] .any
    let color := prefs.getPrefColor numbers (key i "Color") sectionName (black numbers) .any
    let filterout :=
      if prefs.isPreference (key i "FilterOut") sectionName .any then
        prefs.getPrefString (key i "FilterOut") sectionName [] .any
      else []
    if name ≠ [] ∧ filter ≠ [] then some { name, filter, filterout, color } else none
  else none

def reloadCategories (m : CategoryMgr) : CategoryMgr :=
  { m.clearCategories with
    changed := false
    categories := (List.range' 1 tMaxNumCategories).filterMap (readCategory numbers m.prefs) }

/-- The constructor. -/
def create (prefs : TomlPreferences) : CategoryMgr :=
  reloadCategories numbers { categories := [], changed := false, prefs }

def writeCategory (prefs : TomlPreferences) (i : Nat) (c : Category) : TomlPreferences :=
  (((prefs.setPref (key i "Name") sectionName (.string c.name)).setPref
    (key i "Filter") sectionName (.string c.filter)).setPref
      (key i "FilterOut") sectionName (.string c.filterout)).setPref
        (key i "Color") sectionName (.color c.color)

/-- Categories under the numbers from a count on. -/
def writeCategories (prefs : TomlPreferences) (count : Nat) : List Category → TomlPreferences
  | [] => prefs
  | c :: rest => writeCategories (writeCategory prefs count c) (count + 1) rest

/-- What takes the place of a category behind the last one. -/
def blank : Category := ⟨[], [], [], black numbers⟩

def savePrefs (m : CategoryMgr) : CategoryMgr :=
  if !m.changed then m
  else
    let written := writeCategories m.prefs 1 m.categories
    let count := m.categories.length
    { m with
      prefs :=
        writeCategories written (1 + count)
          (List.replicate (tMaxNumCategories - count) (blank numbers)) }

inductive Operation
  | addCategory (name filter filterout : List Char) (color : SeqColor)
  | remCategory (cat : Option Nat)
  | clearCategories
  | reloadCategories
  | savePrefs

def step (op : Operation) (m : CategoryMgr) : CategoryMgr :=
  match op with
  | .addCategory name filter filterout color => m.addCategory name filter filterout color
  | .remCategory cat => m.remCategory cat
  | .clearCategories => m.clearCategories
  | .reloadCategories => m.reloadCategories numbers
  | .savePrefs => m.savePrefs numbers

-----------------------------------------------------------------------------------------
-- What is written under a number
-----------------------------------------------------------------------------------------

variable {numbers} {p : TomlPreferences} {m : CategoryMgr} {c : Category}

/-- The endings of the keys. -/
def endings : List String := ["Name", "Filter", "FilterOut", "Color"]

theorem key_eq_iff {i j : Nat} {left right : String}
    : key i left = key j right ↔ i = j ∧ left = right := by
  constructor
  · intro same
    have apart (ending : String) : ∀ c ∈ ('_' :: ending.toList).head?, c.isDigit = false := by
      intro c first
      obtain rfl : '_' = c := by simpa using first
      rfl
    obtain ⟨numbers, texts⟩ :=
      decimal_append_inj (apart left) (apart right) (List.append_cancel_left same)
    exact ⟨numbers, String.toList_injective (List.cons.inj texts).2⟩
  · rintro ⟨rfl, rfl⟩
    rfl

/-- What a category sets under its number. -/
def field (c : Category) (ending : String) : Option PreferenceValue :=
  [("Name", PreferenceValue.str c.name), ("Filter", .str c.filter),
    ("FilterOut", .str c.filterout), ("Color", .str c.color.name)].lookup ending

theorem find_writeCategory (runtime : p.runtime = .empty) (i j : Nat) (c : Category)
    {ending : String} (listed : ending ∈ endings)
    : (writeCategory p i c).find (key j ending) sectionName .any
      = if j = i then field c ending else p.find (key j ending) sectionName .any := by
  rw [writeCategory, TomlPreferences.find_setPref, TomlPreferences.find_setPref,
    TomlPreferences.find_setPref, TomlPreferences.find_setPref runtime]
  · simp only [key_eq_iff, true_and]
    by_cases here : j = i
    · simp only [here, true_and, if_true]
      simp only [endings, List.mem_cons, List.not_mem_nil, or_false] at listed
      rcases listed with rfl | rfl | rfl | rfl <;> rfl
    · simp only [here, false_and, if_false]
  · exact runtime
  · exact runtime
  · exact runtime

/-- The categories stand under their numbers, and nothing else is touched; by induction on them.
-/
theorem find_writeCategories (runtime : p.runtime = .empty) (count j : Nat) (cs : List Category)
    {ending : String} (listed : ending ∈ endings)
    : (writeCategories p count cs).find (key j ending) sectionName .any
      = if count ≤ j ∧ j < count + cs.length then (cs[j - count]?).bind (field · ending)
        else p.find (key j ending) sectionName .any := by
  induction cs generalizing p count with
  | nil =>
      rw [writeCategories, if_neg]
      simp
  | cons c rest ih =>
      have kept : (writeCategory p count c).runtime = .empty := runtime
      rw [writeCategories, ih kept, find_writeCategory runtime _ _ _ listed]
      by_cases here : j = count
      · subst here
        simp
      · by_cases later : count + 1 ≤ j ∧ j < count + 1 + rest.length
        · have next : j - count = j - (count + 1) + 1 := by omega
          rw [if_pos later, if_pos ⟨by omega, by simp only [List.length_cons]; omega⟩, next]
          rfl
        · rw [if_neg later, if_neg here, if_neg]
          simp only [List.length_cons]
          omega

end CategoryMgr

end Scry
