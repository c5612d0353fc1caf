import Mathlib.Data.List.Count
import Scry.Filters.Marks
import Scry.Filters.Rules

/-! Adding, finding, removing and editing agree exactly while patterns and the patterns that
they are searched with are the same.
-/

namespace Scry

open FilterItem (markHashOptional HasName markHashOptional_eq_self)

namespace Filters

/-- What is said of adding, finding and removing: a pattern is added while no rule was made
from it, and once; a refusal changes nothing; what was added can be removed again; and the
pattern that is shown for a rule is the one that removes it and that it is edited by.
-/
structure Agree (re : RegularExpressions) (f : Filters) (type : UInt8)
    (pattern newPattern : List Char) (minLevel maxLevel : UInt8)
    : Prop where
  exclusive : (f.addFilter re type pattern minLevel maxLevel).1 = true →
    ∀ item ∈ f.rulesOf (FilterTypes.mask type), item.originalPattern ≠ pattern
  once : (f.addFilter re type pattern minLevel maxLevel).1 = true →
    let added := (f.addFilter re type pattern minLevel maxLevel).2
    (added.addFilter re type pattern minLevel maxLevel).1 = false
      ∧ (added.addFilter re type pattern minLevel maxLevel).2.rulesOf = added.rulesOf
  refused : (f.addFilter re type pattern minLevel maxLevel).1 = false →
    (f.addFilter re type pattern minLevel maxLevel).2.rulesOf = f.rulesOf
  undone : (f.addFilter re type pattern minLevel maxLevel).1 = true →
    ((f.addFilter re type pattern minLevel maxLevel).2.remFilter type pattern).rulesOf = f.rulesOf
  removed : ∀ i < f.numFilters type,
    (f.remFilter type (f.getOrigFilterString type i)).rulesOf
      = Function.update f.rulesOf (FilterTypes.mask type)
          ((f.rulesOf (FilterTypes.mask type)).eraseIdx i)
  edited : ∀ i < f.numFilters type,
    let after := FilterMgr.editFilter re f type (f.getOrigFilterString type i) newPattern
    after.1 = true
      ∧ ∃ item : FilterItem, item.originalPattern = newPattern
        ∧ (after.2.rulesOf (FilterTypes.mask type)).Perm
            ((f.rulesOf (FilterTypes.mask type)).set i item)

/-- When that is so: unless a rule is looked up under the pattern, it is valid and has no
`Name:`; no rule of the type was made from a pattern that has one; and the new pattern is
valid, of a type that can be edited, and no other rule is looked up under it.
-/
structure Agreeable (re : RegularExpressions) (f : Filters) (type : UInt8)
    (pattern newPattern : List Char)
    : Prop where
  fresh : f.types.validMask (FilterTypes.mask type) = true →
    ¬ Named (f.rulesOf (FilterTypes.mask type)) pattern →
      re.isValid (markHashOptional pattern) = true ∧ ¬ HasName pattern
  shown : ∀ item ∈ f.rulesOf (FilterTypes.mask type), ¬ HasName item.originalPattern
  replaces : ∀ i < (f.rulesOf (FilterTypes.mask type)).length,
    type.toNat < FilterMgr.sizeofFilters
      ∧ re.isValid (markHashOptional newPattern) = true
      ∧ ¬ Named ((f.rulesOf (FilterTypes.mask type)).eraseIdx i) newPattern

-----------------------------------------------------------------------------------------
-- Taking one rule out of a list
-----------------------------------------------------------------------------------------

section Lists

variable {items : List FilterItem} {found : FilterItem → Bool} {i : Nat}

/-- The item at a place is taken out where it is the first that is found. -/
theorem eraseP_eq_eraseIdx (inside : i < items.length) (here : found items[i] = true)
    (before : ∀ j (earlier : j < i), found items[j] = false)
    : items.eraseP found = items.eraseIdx i := by
  have first : items.findIdx? found = some i := by
    rw [List.findIdx?_eq_some_iff_getElem]
    exact ⟨inside, here, fun j earlier => by simp [before j earlier]⟩
  rw [List.eraseP_eq_eraseIdx, first]

/-- Only an item that is found is taken out: with another one, the list would hold the one
at the place once more.
-/
theorem found_of_eraseP_perm (inside : i < items.length)
    (same : (items.eraseP found).Perm (items.eraseIdx i))
    : found items[i] = true := by
  rcases List.exists_or_eq_self_of_eraseP found items with all
    | ⟨item, front, rest, _, here, split, gone⟩
  · have lengths := same.length_eq
    rw [all, List.length_eraseIdx_of_lt inside] at lengths
    omega
  · have back : (item :: items.eraseP found).Perm items := by
      rw [gone, split]
      exact List.perm_middle.symm
    have whole : (item :: items.eraseIdx i).Perm (items[i] :: items.eraseIdx i) :=
      ((same.symm.cons item).trans back).trans (List.getElem_cons_eraseIdx_perm inside).symm
    have counts := whole.count_eq item
    rw [List.count_cons_self, List.count_cons] at counts
    have is : items[i] = item := by
      by_contra other
      rw [if_neg (by simpa using other)] at counts
      omega
    exact is ▸ here

end Lists

-----------------------------------------------------------------------------------------
-- The rule that a client names
-----------------------------------------------------------------------------------------

variable {re : RegularExpressions} {f : Filters} {type : UInt8} {i : Nat}

/-- The pattern shown for a rule takes out that rule where it is the one it is searched with:
the rules before it were not looked up under it when it was added.
-/
theorem eraseP_shown {mask : Nat} (kept : f.Kept) (inside : i < (f.rulesOf mask).length)
    (plain : markHashOptional (f.rulesOf mask)[i].originalPattern
      = (f.rulesOf mask)[i].originalPattern)
    : ((f.rulesOf mask).eraseP fun item => item.pattern == (f.rulesOf mask)[i].originalPattern)
      = (f.rulesOf mask).eraseIdx i := by
  apply eraseP_eq_eraseIdx inside
  · rw [beq_iff_eq, kept.marked mask _ (List.getElem_mem inside), plain]
  · intro j earlier
    rw [beq_eq_false_iff_ne]
    exact (List.pairwise_iff_getElem.mp (kept.added mask) j i _ inside earlier).symm

/-- The pattern shown for a rule takes out no other one. -/
theorem plain_of_eraseP {mask : Nat} (kept : f.Kept) (inside : i < (f.rulesOf mask).length)
    (same : ((f.rulesOf mask).eraseP fun item =>
        item.pattern == (f.rulesOf mask)[i].originalPattern).Perm ((f.rulesOf mask).eraseIdx i))
    : markHashOptional (f.rulesOf mask)[i].originalPattern
      = (f.rulesOf mask)[i].originalPattern := by
  have named := found_of_eraseP_perm inside same
  rw [beq_iff_eq, kept.marked mask _ (List.getElem_mem inside)] at named
  exact named

/-- A type that has a rule is registered. -/
theorem Kept.registered (kept : f.Kept)
    (inside : i < (f.rulesOf (FilterTypes.mask type)).length)
    : f.types.validMask (FilterTypes.mask type) = true := by
  apply kept.valid
  intro none
  rw [none] at inside
  contradiction

/-- Removing the pattern shown for a rule removes the rule exactly where the pattern is the
one the rule is searched with.
-/
theorem removed_iff (kept : f.Kept)
    : (∀ i < f.numFilters type,
        (f.remFilter type (f.getOrigFilterString type i)).rulesOf
          = Function.update f.rulesOf (FilterTypes.mask type)
              ((f.rulesOf (FilterTypes.mask type)).eraseIdx i))
      ↔ ∀ item ∈ f.rulesOf (FilterTypes.mask type), ¬ HasName item.originalPattern := by
  simp only [numFilters_eq, ← markHashOptional_eq_self]
  constructor
  · intro removed item listed
    obtain ⟨i, inside, rfl⟩ := List.getElem_of_mem listed
    have at_type := congrFun (removed i inside) (FilterTypes.mask type)
    rw [rulesOf_remFilter (kept.registered inside), getOrigFilterString_eq inside,
      Function.update_self, Function.update_self] at at_type
    exact plain_of_eraseP kept inside (.of_eq at_type)
  · intro plain i inside
    rw [rulesOf_remFilter (kept.registered inside), getOrigFilterString_eq inside,
      eraseP_shown kept inside (plain _ (List.getElem_mem inside))]

-----------------------------------------------------------------------------------------
-- A rule that was just added
-----------------------------------------------------------------------------------------

variable {pattern newPattern : List Char} {minLevel maxLevel : UInt8}

/-- A rule that was added comes out again exactly where its pattern stayed as it is. -/
theorem eraseP_added {items : List FilterItem} {caseSensitive : Bool}
    (fresh : ¬ Named items pattern)
    : ((items ++ [FilterItem.init pattern caseSensitive minLevel maxLevel]).eraseP
        fun item => item.pattern == pattern) = items
      ↔ ¬ HasName pattern := by
  have others : ∀ item ∈ items, ¬ (item.pattern == pattern) = true := by
    intro item listed same
    exact fresh ⟨item, listed, beq_iff_eq.mp same⟩
  rw [List.eraseP_append_right _ others, ← markHashOptional_eq_self]
  by_cases plain : markHashOptional pattern = pattern
  · simp [FilterItem.init, plain]
  · simp [FilterItem.init, plain]

/-- What a caller relies on makes its patterns plain and its rules valid. -/
theorem Agree.agreeable (kept : f.Kept)
    (agree : Agree re f type pattern newPattern minLevel maxLevel)
    : Agreeable re f type pattern newPattern := by
  refine ⟨?_, (removed_iff kept).mp agree.removed, ?_⟩
  · intro registered fresh
    obtain ⟨result, caseSensitive, added⟩ :=
      addFilter_fresh re minLevel maxLevel registered fresh
    have valid : re.isValid (markHashOptional pattern) = true := by
      by_contra invalid
      have same := agree.refused (result.trans (by simpa using invalid))
      have lengths :=
        congrArg List.length (congrFun (added.symm.trans same) (FilterTypes.mask type))
      simp at lengths
    have undone := congrFun (agree.undone (result.trans valid)) (FilterTypes.mask type)
    rw [rulesOf_remFilter ((addFilter_validMask _).trans registered), added, Function.update_self,
      Function.update_self, eraseP_added fresh] at undone
    exact ⟨valid, undone⟩
  · intro i inside
    rw [← numFilters_eq] at inside
    obtain ⟨accepted, _⟩ := agree.edited i inside
    rw [FilterMgr.editFilter] at accepted
    split_ifs at accepted with beyond
    obtain ⟨_, other, valid⟩ := addFilter_accepted accepted
    rw [agree.removed i inside, Function.update_self] at other
    exact ⟨by omega, valid, other⟩

/-- An accepted rule of a plain pattern is the last one of its type, and had no namesake. -/
theorem Agreeable.added (able : Agreeable re f type pattern newPattern)
    (accepted : (f.addFilter re type pattern minLevel maxLevel).1 = true)
    : f.types.validMask (FilterTypes.mask type) = true
      ∧ ¬ Named (f.rulesOf (FilterTypes.mask type)) pattern ∧ ¬ HasName pattern
      ∧ ∃ caseSensitive, (f.addFilter re type pattern minLevel maxLevel).2.rulesOf
        = Function.update f.rulesOf (FilterTypes.mask type)
            (f.rulesOf (FilterTypes.mask type)
              ++ [FilterItem.init pattern caseSensitive minLevel maxLevel]) := by
  obtain ⟨registered, fresh, _⟩ := addFilter_accepted accepted
  obtain ⟨_, caseSensitive, added⟩ := addFilter_fresh re minLevel maxLevel registered fresh
  exact ⟨registered, fresh, (able.fresh registered fresh).2, caseSensitive, added⟩

/-- Plain patterns and valid rules give a caller what it relies on. -/
theorem Agreeable.agree (kept : f.Kept) (able : Agreeable re f type pattern newPattern)
    (minLevel maxLevel : UInt8)
    : Agree re f type pattern newPattern minLevel maxLevel := by
  have removed := (removed_iff kept).mpr able.shown
  refine ⟨?_, ?_, ?_, ?_, removed, ?_⟩
  · intro accepted item listed same
    obtain ⟨_, fresh, plain, _⟩ := able.added accepted
    apply fresh
    refine ⟨item, listed, ?_⟩
    rw [kept.marked _ item listed, same]
    exact markHashOptional_eq_self.mpr plain
  · intro accepted
    obtain ⟨registered, fresh, plain, caseSensitive, added⟩ := able.added accepted
    apply addFilter_named ((addFilter_validMask _).trans registered)
    rw [added, Function.update_self]
    exact ⟨_, List.mem_append_right _ List.mem_cons_self, markHashOptional_eq_self.mpr plain⟩
  · intro refused
    cases registered : f.types.validMask (FilterTypes.mask type) with
    | false => rw [addFilter_unregistered registered]
    | true =>
        by_cases named : Named (f.rulesOf (FilterTypes.mask type)) pattern
        · exact (addFilter_named registered named).2
        · rw [(addFilter_fresh re minLevel maxLevel registered named).1,
            (able.fresh registered named).1] at refused
          contradiction
  · intro accepted
    obtain ⟨registered, fresh, plain, caseSensitive, added⟩ := able.added accepted
    rw [rulesOf_remFilter ((addFilter_validMask _).trans registered), added, Function.update_self,
      (eraseP_added fresh).mpr plain, Function.update_idem, Function.update_eq_self]
  · intro i inside
    have rest := removed i inside
    rw [numFilters_eq] at inside
    obtain ⟨editable, valid, other⟩ := able.replaces i inside
    have registered : (f.remFilter type (f.getOrigFilterString type i)).types.validMask
        (FilterTypes.mask type) = true :=
      (remFilter_validMask _).trans (kept.registered inside)
    have fresh : ¬ Named ((f.remFilter type (f.getOrigFilterString type i)).rulesOf
        (FilterTypes.mask type)) newPattern := by
      rwa [rest, Function.update_self]
    obtain ⟨result, caseSensitive, added⟩ := addFilter_fresh re 0 0 registered fresh
    rw [FilterMgr.editFilter, if_neg (by omega)]
    refine ⟨result.trans valid, FilterItem.init newPattern caseSensitive 0 0, rfl, ?_⟩
    rw [added, Function.update_self, rest, Function.update_self]
    exact (List.perm_append_singleton _ _).trans
      (List.set_perm_cons_eraseIdx inside _).symm

/-- Adding, finding, removing and editing agree on the rules of an object exactly where the
pattern is refused as a duplicate, or valid and without a `Name:`, the patterns of the rules
that are there are without one, and the new pattern is valid and not that of another rule.
-/
theorem rules_agree_iff {read : List Char → List Xml.Token} {re : RegularExpressions}
    {types : FilterTypes} {f : Filters} (held : Held read re types f) (type : UInt8)
    (pattern newPattern : List Char) (minLevel maxLevel : UInt8)
    : Agree re f type pattern newPattern minLevel maxLevel
      ↔ Agreeable re f type pattern newPattern :=
  ⟨Agree.agreeable held.kept, fun able => able.agree held.kept minLevel maxLevel⟩

/-- Patterns that are found wherever they are asked for. -/
def anyPattern : RegularExpressions := ⟨fun _ => true, fun _ _ _ => true⟩

/-- The rule of one pattern, to hunt by. -/
def oneRule (pattern : List Char) : Filters :=
  ((new FilterTypes.registered false).addFilter anyPattern 0 pattern 0 0).2

theorem rules_agree_plain : Agree anyPattern (oneRule "orc".toList) 0 "rat".toList
    "bat".toList 0 0 := by
  have held : Held (fun _ => []) anyPattern FilterTypes.registered (oneRule "orc".toList) :=
    (Held.new false).addFilter 0 _ 0 0
  apply (rules_agree_iff held 0 _ _ 0 0).mpr
  refine ⟨fun _ _ => ⟨rfl, markHashOptional_eq_self.mp (by decide)⟩, ?_, ?_⟩
  · intro item listed
    rw [List.mem_singleton.mp listed]
    exact markHashOptional_eq_self.mp (by decide)
  · intro i inside
    refine ⟨by decide, rfl, ?_⟩
    rintro ⟨item, listed, _⟩
    obtain rfl : i = 0 := by
      have : i < 1 := inside
      omega
    exact absurd listed List.not_mem_nil

/-- A pattern with a `Name:` is added a second time, and its rule cannot be removed by it. -/
theorem not_rules_agree : ¬ Agree anyPattern (oneRule "Name:orc".toList) 0
    "Name:orc".toList "bat".toList 0 0 := by
  intro agree
  exact agree.exclusive (by decide) _ List.mem_cons_self rfl

end Filters

end Scry
