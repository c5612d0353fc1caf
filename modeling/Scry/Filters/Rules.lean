import Mathlib.Data.List.Perm.Basic
import Scry.Filters.Filters

/-! Adding, finding, removing and editing rules. A rule is looked up by the pattern that it is
searched with, in which every `Name:` got a mark, while callers and clients hold the pattern
that it was made from.
-/

namespace Scry

open FilterItem (markHashOptional)

-----------------------------------------------------------------------------------------
-- The other operations
-----------------------------------------------------------------------------------------

namespace Filter

/-- `remFilter`: the first item of the name is taken out. -/
def remFilter (f : Filter) (filterPattern : List Char) : Filter :=
  { f with filterItems := f.filterItems.eraseP fun item => item.pattern == filterPattern }

def numFilters (f : Filter) : Nat := f.filterItems.length

def getOrigFilterString (f : Filter) (index : Nat) : List Char :=
  match f.filterItems[index]? with
  | none => []
  | some item => item.originalPattern

end Filter

namespace Filters

def clearType (f : Filters) (type : UInt8) : Filters :=
  { f with filters := f.filters.erase (FilterTypes.mask type) }

/-- `setCaseSensitive`: of the types that have rules. -/
def setCaseSensitive (f : Filters) (caseSensitive : Bool) : Filters :=
  { f with filters := f.filters.mapValues fun filter => { filter with caseSensitive } }

def remFilter (f : Filters) (type : UInt8) (filterPattern : List Char) : Filters :=
  let mask := FilterTypes.mask type
  if f.types.validMask mask then
    match f.filters.find? mask with
    | none => f
    | some filter => { f with filters := f.filters.insert mask (filter.remFilter filterPattern) }
  else f

def numFilters (f : Filters) (type : UInt8) : Nat :=
  match f.filters.find? (FilterTypes.mask type) with
  | none => 0
  | some filter => filter.numFilters

def getOrigFilterString (f : Filters) (type : UInt8) (index : Nat) : List Char :=
  match f.filters.find? (FilterTypes.mask type) with
  | none => []
  | some filter => filter.getOrigFilterString index

end Filters

namespace FilterMgr

/-- `SIZEOF_FILTERS`. -/
def sizeofFilters : Nat := FilterTypes.table.length

/-- `editFilter`, and `editZoneFilter`, of the rules that each of them is about. -/
def editFilter (re : RegularExpressions) (filters : Filters) (filter : UInt8)
    (oldPattern newPattern : List Char)
    : Bool × Filters :=
  if sizeofFilters ≤ filter.toNat then (false, filters)
  else (filters.remFilter filter oldPattern).addFilter re filter newPattern 0 0

end FilterMgr

-----------------------------------------------------------------------------------------
-- The rule lists
-----------------------------------------------------------------------------------------

namespace Filters

/-- The rules of a type, by its mask. -/
def rulesOf (f : Filters) (mask : Nat) : List FilterItem :=
  match f.filters.find? mask with
  | none => []
  | some filter => filter.filterItems

/-- A rule is looked up under the pattern. -/
def Named (items : List FilterItem) (pattern : List Char) : Prop :=
  ∃ item ∈ items, item.pattern = pattern

/-- The rules that an object can hold: it starts out with none, and only its own operations
change them.
-/
inductive Held (read : List Char → List Xml.Token) (re : RegularExpressions)
    (types : FilterTypes)
    : Filters → Prop
  | new (caseSensitive : Bool) : Held read re types (new types caseSensitive)
  | clear {f} (held : Held read re types f) : Held read re types f.clear
  | clearType {f} (held : Held read re types f) (type : UInt8)
    : Held read re types (f.clearType type)
  | setCaseSensitive {f} (held : Held read re types f) (caseSensitive : Bool)
    : Held read re types (f.setCaseSensitive caseSensitive)
  | load {f} (held : Held read re types f) (text : Option (List Char))
    : Held read re types (f.load read re text).2
  | addFilter {f} (held : Held read re types f) (type : UInt8) (pattern : List Char)
    (minLevel maxLevel : UInt8)
    : Held read re types (f.addFilter re type pattern minLevel maxLevel).2
  | remFilter {f} (held : Held read re types f) (type : UInt8) (pattern : List Char)
    : Held read re types (f.remFilter type pattern)

/-- What the rule lists keep to: rules are of registered types, each is searched with the
rewritten pattern, and none was added while another was looked up under its pattern.
-/
structure Kept (f : Filters) : Prop where
  valid : ∀ mask, f.rulesOf mask ≠ [] → f.types.validMask mask = true
  marked : ∀ mask, ∀ item ∈ f.rulesOf mask, item.pattern = markHashOptional item.originalPattern
  added : ∀ mask, (f.rulesOf mask).Pairwise fun earlier later =>
    later.originalPattern ≠ earlier.pattern

end Filters

-----------------------------------------------------------------------------------------
-- What each operation does to the lists
-----------------------------------------------------------------------------------------

namespace Filters

variable {re : RegularExpressions} {f : Filters} {type : UInt8} {pattern : List Char}
  {minLevel maxLevel : UInt8}

theorem rulesOf_insert (f : Filters) (mask : Nat) (filter : Filter)
    : ({ f with filters := f.filters.insert mask filter } : Filters).rulesOf
      = Function.update f.rulesOf mask filter.filterItems := by
  funext other
  rw [Function.update_apply, rulesOf, OrderedMap.find?_insert]
  split_ifs <;> rfl

/-- The rules that were found under the mask are those that are given back. -/
theorem rulesOf_eq_getD (f : Filters) (mask : Nat)
    : ((f.filters.find? mask).getD ⟨f.caseSensitive, []⟩).filterItems = f.rulesOf mask := by
  rw [rulesOf]
  cases f.filters.find? mask <;> rfl

theorem findFilter_isSome {filter : Filter}
    : (filter.findFilter pattern).isSome = true ↔ Named filter.filterItems pattern := by
  rw [Filter.findFilter, List.find?_isSome]
  simp only [beq_iff_eq, Named]

theorem addFilter_types : (f.addFilter re type pattern minLevel maxLevel).2.types = f.types := by
  rw [addFilter]
  split_ifs <;> rfl

theorem addFilter_validMask (mask : Nat)
    : (f.addFilter re type pattern minLevel maxLevel).2.types.validMask mask
      = f.types.validMask mask :=
  congrArg (·.validMask mask) addFilter_types

/-- No rule is added for a type that is not registered. -/
theorem addFilter_unregistered (none : f.types.validMask (FilterTypes.mask type) = false)
    : f.addFilter re type pattern minLevel maxLevel = (false, f) := by
  rw [addFilter, if_neg (by rw [none]; exact Bool.false_ne_true)]

/-- Nothing is added where a rule is looked up under the pattern. -/
theorem addFilter_named (valid : f.types.validMask (FilterTypes.mask type) = true)
    (named : Named (f.rulesOf (FilterTypes.mask type)) pattern)
    : (f.addFilter re type pattern minLevel maxLevel).1 = false
      ∧ (f.addFilter re type pattern minLevel maxLevel).2.rulesOf = f.rulesOf := by
  rw [← rulesOf_eq_getD] at named
  rw [addFilter, if_pos valid]
  simp only [Filter.addFilter, if_pos (findFilter_isSome.mpr named)]
  refine ⟨trivial, ?_⟩
  rw [rulesOf_insert, rulesOf_eq_getD, Function.update_eq_self]

/-- Where none is, the rule comes last, whether it is valid or not. -/
theorem addFilter_fresh (re : RegularExpressions) (minLevel maxLevel : UInt8)
    (valid : f.types.validMask (FilterTypes.mask type) = true)
    (fresh : ¬ Named (f.rulesOf (FilterTypes.mask type)) pattern)
    : (f.addFilter re type pattern minLevel maxLevel).1 = re.isValid (markHashOptional pattern)
      ∧ ∃ caseSensitive,
        (f.addFilter re type pattern minLevel maxLevel).2.rulesOf
          = Function.update f.rulesOf (FilterTypes.mask type)
              (f.rulesOf (FilterTypes.mask type)
                ++ [FilterItem.init pattern caseSensitive minLevel maxLevel]) := by
  rw [← rulesOf_eq_getD] at fresh
  rw [addFilter, if_pos valid]
  simp only [Filter.addFilter, if_neg fun some => fresh (findFilter_isSome.mp some)]
  refine ⟨rfl, ((f.filters.find? (FilterTypes.mask type)).getD
    ⟨f.caseSensitive, []⟩).caseSensitive, ?_⟩
  rw [rulesOf_insert, rulesOf_eq_getD]

/-- A pattern is added only where no rule is looked up under it, for a registered type. -/
theorem addFilter_accepted (accepted : (f.addFilter re type pattern minLevel maxLevel).1 = true)
    : f.types.validMask (FilterTypes.mask type) = true
      ∧ ¬ Named (f.rulesOf (FilterTypes.mask type)) pattern
      ∧ re.isValid (markHashOptional pattern) = true := by
  cases valid : f.types.validMask (FilterTypes.mask type) with
  | false => simp [addFilter_unregistered valid] at accepted
  | true =>
      have fresh : ¬ Named (f.rulesOf (FilterTypes.mask type)) pattern := by
        intro named
        simp [(addFilter_named valid named).1] at accepted
      exact ⟨rfl, fresh, (addFilter_fresh re minLevel maxLevel valid fresh).1.symm.trans accepted⟩

theorem remFilter_types : (f.remFilter type pattern).types = f.types := by
  rw [remFilter]
  split
  · split <;> rfl
  · rfl

theorem remFilter_validMask (mask : Nat)
    : (f.remFilter type pattern).types.validMask mask = f.types.validMask mask :=
  congrArg (·.validMask mask) remFilter_types

theorem remFilter_unregistered (none : f.types.validMask (FilterTypes.mask type) = false)
    : f.remFilter type pattern = f := by
  rw [remFilter, if_neg (by rw [none]; exact Bool.false_ne_true)]

/-- The first rule that is looked up under the pattern is gone. -/
theorem rulesOf_remFilter (valid : f.types.validMask (FilterTypes.mask type) = true)
    : (f.remFilter type pattern).rulesOf
      = Function.update f.rulesOf (FilterTypes.mask type)
          ((f.rulesOf (FilterTypes.mask type)).eraseP fun item => item.pattern == pattern) := by
  rw [remFilter, if_pos valid]
  cases found : f.filters.find? (FilterTypes.mask type) with
  | none =>
      have none : f.rulesOf (FilterTypes.mask type) = [] := by rw [rulesOf, found]
      simp only
      rw [none, List.eraseP_nil, ← none, Function.update_eq_self]
  | some filter =>
      have some : f.rulesOf (FilterTypes.mask type) = filter.filterItems := by rw [rulesOf, found]
      rw [some]
      exact rulesOf_insert f _ _

theorem numFilters_eq : f.numFilters type = (f.rulesOf (FilterTypes.mask type)).length := by
  rw [numFilters, rulesOf]
  cases f.filters.find? (FilterTypes.mask type) <;> rfl

theorem getOrigFilterString_eq {i : Nat} (inside : i < (f.rulesOf (FilterTypes.mask type)).length)
    : f.getOrigFilterString type i = (f.rulesOf (FilterTypes.mask type))[i].originalPattern := by
  cases found : f.filters.find? (FilterTypes.mask type) with
  | none =>
      have none : f.rulesOf (FilterTypes.mask type) = [] := by rw [rulesOf, found]
      rw [none] at inside
      contradiction
  | some filter =>
      have some : f.rulesOf (FilterTypes.mask type) = filter.filterItems := by rw [rulesOf, found]
      simp only [some] at inside ⊢
      simp [getOrigFilterString, found, Filter.getOrigFilterString, inside]

-----------------------------------------------------------------------------------------
-- What every object keeps to
-----------------------------------------------------------------------------------------

/-- Rules stay as they should while one mask gets a list that is as it should. -/
theorem Kept.update {g : Filters} (kept : f.Kept) (types : g.types = f.types)
    (mask : Nat) {items : List FilterItem}
    (rules : g.rulesOf = Function.update f.rulesOf mask items)
    (valid : items ≠ [] → f.types.validMask mask = true)
    (marked : ∀ item ∈ items, item.pattern = markHashOptional item.originalPattern)
    (added : items.Pairwise fun earlier later => later.originalPattern ≠ earlier.pattern)
    : g.Kept := by
  have split : ∀ P : Nat → List FilterItem → Prop, P mask items →
      (∀ other, P other (f.rulesOf other)) → ∀ other, P other (g.rulesOf other) := by
    intro P here there other
    rw [rules, Function.update_apply]
    split_ifs with same
    · exact same ▸ here
    · exact there other
  refine ⟨?_, ?_, ?_⟩
  · rw [types]
    exact split (fun mask items => items ≠ [] → f.types.validMask mask = true) valid kept.valid
  · exact split
      (fun _ items => ∀ item ∈ items, item.pattern = markHashOptional item.originalPattern)
      marked kept.marked
  · exact split
      (fun _ items => items.Pairwise fun earlier later =>
        later.originalPattern ≠ earlier.pattern)
      added kept.added

theorem kept_new (types : FilterTypes) (caseSensitive : Bool) : (new types caseSensitive).Kept :=
  ⟨fun _ some => absurd rfl some, fun _ _ inside => absurd inside List.not_mem_nil,
    fun _ => .nil⟩

theorem Kept.addFilter (kept : f.Kept) (type : UInt8) (pattern : List Char)
    (minLevel maxLevel : UInt8)
    : (f.addFilter re type pattern minLevel maxLevel).2.Kept := by
  cases valid : f.types.validMask (FilterTypes.mask type) with
  | false =>
      rw [addFilter_unregistered valid]
      exact kept
  | true =>
      by_cases named : Named (f.rulesOf (FilterTypes.mask type)) pattern
      · refine kept.update addFilter_types (FilterTypes.mask type)
          ((addFilter_named valid named).2.trans (Function.update_eq_self _ _).symm)
          (fun _ => valid) (kept.marked _) (kept.added _)
      · obtain ⟨_, caseSensitive, rules⟩ := addFilter_fresh re minLevel maxLevel valid named
        refine kept.update addFilter_types _ rules (fun _ => valid) ?_ ?_
        · intro item inside
          rcases List.mem_append.mp inside with old | new
          · exact kept.marked _ item old
          · rw [List.mem_singleton.mp new]
            rfl
        · refine List.pairwise_append.mpr ⟨kept.added _, List.pairwise_singleton _ _, ?_⟩
          intro earlier old later new same
          rw [List.mem_singleton.mp new] at same
          exact named ⟨earlier, old, same.symm⟩

theorem Kept.remFilter (kept : f.Kept) (type : UInt8) (pattern : List Char)
    : (f.remFilter type pattern).Kept := by
  cases valid : f.types.validMask (FilterTypes.mask type) with
  | false =>
      rw [remFilter_unregistered valid]
      exact kept
  | true =>
      refine kept.update remFilter_types _ (rulesOf_remFilter valid) (fun _ => valid) ?_ ?_
      · exact fun item inside => kept.marked _ item (List.mem_of_mem_eraseP inside)
      · exact (kept.added _).sublist List.eraseP_sublist

theorem Kept.clearType (kept : f.Kept) (type : UInt8) : (f.clearType type).Kept := by
  have gone : (f.clearType type).rulesOf
      = Function.update f.rulesOf (FilterTypes.mask type) [] := by
    funext other
    rw [Function.update_apply, Filters.clearType, rulesOf, OrderedMap.find?_erase]
    split_ifs <;> rfl
  exact kept.update rfl _ gone (fun some => absurd rfl some)
    (fun _ inside => absurd inside List.not_mem_nil) .nil

theorem rulesOf_setCaseSensitive (caseSensitive : Bool)
    : (f.setCaseSensitive caseSensitive).rulesOf = f.rulesOf := by
  funext mask
  rw [rulesOf, rulesOf, setCaseSensitive, OrderedMap.find?_mapValues]
  cases f.filters.find? mask <;> rfl

end Filters

namespace LoadXmlContentHandler

variable {re : RegularExpressions} {Q : Filters → Prop}

/-- What adding a rule keeps is kept by every token. -/
theorem token_keeps
    (adds : ∀ f type pattern minLevel maxLevel,
      Q f → Q (f.addFilter re type pattern minLevel maxLevel).2)
    {h after : LoadXmlContentHandler} {t : Xml.Token} (taken : h.token re t = some after)
    (held : Q h.filters)
    : Q after.filters := by
  cases t with
  | startElement name attributes =>
      rw [token, startElement] at taken
      split_ifs at taken
      all_goals
        obtain rfl := Option.some.inj taken
        exact held
  | endElement name =>
      obtain rfl := Option.some.inj taken
      rw [endElement]
      split_ifs
      all_goals first
        | exact adds _ _ _ _ _ held
        | exact held
  | characters text =>
      obtain rfl := Option.some.inj taken
      rw [characters]
      split_ifs
      all_goals exact held
  | invalid => contradiction
  | startDocument | endDocument | dtd | comment | entityReference | processingInstruction =>
      obtain rfl := Option.some.inj taken
      exact held

/-- So it is by all tokens. -/
theorem tokens_keeps
    (adds : ∀ f type pattern minLevel maxLevel,
      Q f → Q (f.addFilter re type pattern minLevel maxLevel).2)
    {h : LoadXmlContentHandler} {ts : List Xml.Token} (held : Q h.filters)
    : Q (h.tokens re ts).2.filters := by
  induction ts generalizing h with
  | nil => exact held
  | cons t rest ih =>
      rw [tokens]
      cases taken : h.token re t with
      | none => exact held
      | some after => exact ih (token_keeps adds taken held)

end LoadXmlContentHandler

namespace Filters

variable {read : List Char → List Xml.Token} {re : RegularExpressions} {types : FilterTypes}
  {f : Filters}

/-- Every object keeps its rules so. -/
theorem Held.kept (held : Held read re types f) : f.Kept := by
  induction held with
  | new caseSensitive => exact kept_new types caseSensitive
  | @clear f _ _ => exact kept_new f.types f.caseSensitive
  | clearType _ type ih => exact ih.clearType type
  | setCaseSensitive _ caseSensitive ih =>
      refine ⟨?_, ?_, ?_⟩
      all_goals rw [rulesOf_setCaseSensitive]
      · exact ih.valid
      · exact ih.marked
      · exact ih.added
  | @load f _ text _ =>
      cases text with
      | none => exact kept_new f.types f.caseSensitive
      | some text =>
          exact LoadXmlContentHandler.tokens_keeps
            (fun _ type pattern minLevel maxLevel kept =>
              kept.addFilter type pattern minLevel maxLevel)
            (kept_new f.types f.caseSensitive)
  | addFilter _ type pattern minLevel maxLevel ih =>
      exact ih.addFilter type pattern minLevel maxLevel
  | remFilter _ type pattern ih => exact ih.remFilter type pattern

end Filters

end Scry
