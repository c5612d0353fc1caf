import Mathlib.Data.Nat.Bitwise
import Scry.Filters.Filters
import Scry.Library.Machine

/-! Registering and unregistering filter types, and looking them up by name. The highest type
is kept in 8 bits and only ever counted down by one, and the lookups run an 8-bit counter up to
it.
-/

namespace Scry

namespace FilterTypes

/-- The type that `registerType` answers, if it finds a free one. -/
def freeType (types : FilterTypes) : Option UInt8 :=
  ((List.range 33).find? fun i => types.allocated &&& mask (.ofNat i) == 0).map .ofNat

/-- `m_allocated &= ~tmpMask`, in 32 bits. -/
def unallocate (allocated tmpMask : Nat) : Nat := allocated &&& ((2 ^ 32 - 1) ^^^ tmpMask)

def unregisterType (types : FilterTypes) (type : UInt8) : FilterTypes :=
  if types.allocated &&& mask type ≠ 0 then
    { allocated := unallocate types.allocated (mask type)
      filters := types.filters.erase (mask type)
      maxType := if type = types.maxType then types.maxType - 1 else types.maxType }
  else types

/-- The loop of the lookups by name from a counter on, for so many rounds: nothing where they
do not suffice, else where it found the name, if it did.
-/
def search (types : FilterTypes) (query : List Char) : Nat → UInt8 → Option (Option UInt8)
  | 0, _ => none
  | fuel + 1, i =>
      if i ≤ types.maxType then
        if types.name (mask i) == query then some (some i) else types.search query fuel (i + 1)
      else some none

/-- `mask` of a name. -/
def maskOf (types : FilterTypes) (query : List Char) (fuel : Nat) : Option Nat :=
  (types.search query fuel 0).map fun
    | some i => mask i
    | none => 0

/-- `type` of a name. -/
def typeOf (types : FilterTypes) (query : List Char) (fuel : Nat) : Option UInt8 :=
  (types.search query fuel 0).map fun
    | some i => i
    | none => 255

end FilterTypes

-----------------------------------------------------------------------------------------
-- Runs
-----------------------------------------------------------------------------------------

/-- A call of the registry. -/
inductive RegistryCall
  | register (name : List Char)
  | unregister (type : UInt8)

/-- The registry, with the types that were handed out and not unregistered since. -/
structure TypeRegistry where
  types : FilterTypes
  held : List (UInt8 × List Char)

namespace TypeRegistry

open FilterTypes (mask)

def new : TypeRegistry := ⟨.empty, []⟩

def step (call : RegistryCall) (r : TypeRegistry) : TypeRegistry :=
  match call with
  | .register name =>
      { types := r.types.registerType name
        held := match r.types.freeType with
          | some type => r.held ++ [(type, name)]
          | none => r.held }
  | .unregister type =>
      { types := r.types.unregisterType type
        held := r.held.filter fun h => h.1 ≠ type }

/-- The registry knows exactly the types that are held, under distinct numbers below 32 and
distinct masks, with the highest type at least each of them and at most 31.
-/
structure Sound (r : TypeRegistry) : Prop where
  below : ∀ h ∈ r.held, h.1.toNat < 32
  distinct : (r.held.map Prod.fst).Nodup
  masks : (r.held.map fun h => mask h.1).Nodup
  bounded : ∀ h ∈ r.held, h.1 ≤ r.types.maxType
  most : r.types.maxType.toNat ≤ 31
  valid : ∀ i : UInt8, i.toNat < 32 →
    (r.types.validMask (mask i) = true ↔ ∃ h ∈ r.held, h.1 = i)
  named : ∀ i : UInt8, i.toNat < 32 → ∀ name,
    (r.types.filters.find? (mask i) = some name ↔ (i, name) ∈ r.held)

/-- Both lookups of a name end, with the number and the mask of a type that is held under it,
or with 255 and 0 where none is.
-/
structure Finds (r : TypeRegistry) (query : List Char) : Prop where
  registered : (∃ h ∈ r.held, h.2 = query) → ∃ h ∈ r.held, h.2 = query
    ∧ ∃ fuel, r.types.typeOf query fuel = some h.1 ∧ r.types.maskOf query fuel = some (mask h.1)
  unregistered : (∀ h ∈ r.held, h.2 ≠ query) →
    ∃ fuel, r.types.typeOf query fuel = some 255 ∧ r.types.maskOf query fuel = some 0

/-- A call does not unregister the last type below the lowest one, and not a type by a number
that stands for it in 32 bits only.
-/
def Safe (r : TypeRegistry) : RegistryCall → Prop
  | .register _ => True
  | .unregister type => (∃ h ∈ r.held, h.1.toNat = type.toNat % 32) →
      type.toNat < 32 ∧ ¬ (type = 0 ∧ r.types.maxType = 0)

/-- A name is read as that of a type that is not registered: it is what such a type up to the
highest one is called, and no lower type is registered under it.
-/
def Misread (r : TypeRegistry) (query : List Char) : Prop :=
  ∃ i : UInt8, i ≤ r.types.maxType ∧ (∀ h ∈ r.held, h.1 ≠ i)
    ∧ query = "Unknown:".toList ++ Nat.toDigits 10 (mask i)
    ∧ ∀ h ∈ r.held, h.2 = query → i < h.1

end TypeRegistry

-----------------------------------------------------------------------------------------
-- Masks
-----------------------------------------------------------------------------------------

namespace FilterTypes

variable {types : FilterTypes}

theorem mask_eq (type : UInt8) : mask type = 2 ^ (type.toNat % 32) := Nat.one_shiftLeft _

theorem and_mask_eq_zero {allocated : Nat} {type : UInt8}
    : allocated &&& mask type = 0 ↔ allocated.testBit (type.toNat % 32) = false := by
  rw [mask_eq, Nat.and_comm, Nat.two_pow_and]
  cases allocated.testBit (type.toNat % 32) with
  | false => simp
  | true => simp

theorem validMask_iff (type : UInt8)
    : types.validMask (mask type) = true ↔ types.allocated.testBit (type.toNat % 32) = true := by
  rw [validMask, bne_iff_ne, ne_eq, and_mask_eq_zero, Bool.not_eq_false]

/-- Numbers below 32 have a mask each. -/
theorem mask_inj {i j : UInt8} (hi : i.toNat < 32) (hj : j.toNat < 32)
    : mask i = mask j ↔ i = j := by
  rw [mask_eq, mask_eq, Nat.mod_eq_of_lt hi, Nat.mod_eq_of_lt hj,
    Nat.pow_right_inj (by decide : 2 ≤ 2), UInt8.toNat_inj]

/-- The type that is found free is the first one that is, and below 32: the last round of the
loop looks at the first bit again.
-/
theorem freeType_eq_some {type : UInt8} (free : types.freeType = some type)
    : type.toNat < 32 ∧ types.allocated &&& mask type = 0
      ∧ (List.range 33).find? (fun i => types.allocated &&& mask (.ofNat i) == 0)
        = some type.toNat := by
  obtain ⟨i, found, rfl⟩ := Option.map_eq_some_iff.mp free
  have small : i < 33 := List.mem_range.mp (List.mem_of_find?_eq_some found)
  have bit : types.allocated &&& mask (.ofNat i) = 0 := by
    simpa using List.find?_some found
  have number : (UInt8.ofNat i).toNat = i := UInt8.toNat_ofNat_of_lt' (by
    change i < 256
    omega)
  refine ⟨?_, bit, by rw [number]; exact found⟩
  rw [number]
  by_contra last
  obtain rfl : i = 32 := by omega
  have first := (List.find?_range_eq_some.mp found).2.2 0 (by omega)
  have same : mask (.ofNat 0) = mask (.ofNat 32) := by decide
  rw [same] at first
  exact absurd bit (by simpa using first)

theorem registerType_of_freeType {type : UInt8} (free : types.freeType = some type)
    (name : List Char)
    : types.registerType name
      = { allocated := types.allocated ||| mask type
          filters := types.filters.insert (mask type) name
          maxType := if type > types.maxType then type else types.maxType } := by
  have found := (freeType_eq_some free).2.2
  rw [registerType, found]
  simp

/-- The highest type is the new one, if that is higher. -/
theorem maxType_register {type : UInt8} (free : types.freeType = some type) (name : List Char)
    : (types.registerType name).maxType.toNat = max types.maxType.toNat type.toNat := by
  rw [registerType_of_freeType free]
  dsimp only
  split_ifs with above
  · have := UInt8.lt_iff_toNat_lt.mp above
    omega
  · have := UInt8.le_iff_toNat_le.mp (UInt8.not_lt.mp above)
    omega

theorem find?_register {type i : UInt8} (free : types.freeType = some type) (name : List Char)
    (small : i.toNat < 32)
    : (types.registerType name).filters.find? (mask i)
      = if i = type then some name else types.filters.find? (mask i) := by
  have below := (freeType_eq_some free).1
  rw [registerType_of_freeType free, OrderedMap.find?_insert]
  simp only [mask_inj small below]

theorem registerType_of_full (full : types.freeType = none) (name : List Char)
    : types.registerType name = types := by
  rw [registerType, Option.map_eq_none_iff.mp full]

theorem validMask_register {type : UInt8} (free : types.freeType = some type)
    (name : List Char) {i : UInt8} (small : i.toNat < 32)
    : (types.registerType name).validMask (mask i) = true
      ↔ types.validMask (mask i) = true ∨ i = type := by
  have below := (freeType_eq_some free).1
  rw [registerType_of_freeType free, validMask_iff, validMask_iff]
  simp only [Nat.testBit_or, mask_eq, Nat.testBit_two_pow, Nat.mod_eq_of_lt small,
    Nat.mod_eq_of_lt below, Bool.or_eq_true, decide_eq_true_eq, UInt8.toNat_inj]
  rw [eq_comm (a := type)]

theorem unregisterType_of_valid {type : UInt8} (valid : types.validMask (mask type) = true)
    : types.unregisterType type
      = { allocated := unallocate types.allocated (mask type)
          filters := types.filters.erase (mask type)
          maxType := if type = types.maxType then types.maxType - 1 else types.maxType } :=
  if_pos (bne_iff_ne.mp valid)

/-- The highest type goes down by one where it is unregistered, as long as it is not 0. -/
theorem maxType_unregister {type : UInt8} (valid : types.validMask (mask type) = true)
    (stays : ¬ (type = 0 ∧ types.maxType = 0))
    : (types.unregisterType type).maxType.toNat
      = if type = types.maxType then types.maxType.toNat - 1 else types.maxType.toNat := by
  rw [unregisterType_of_valid valid]
  dsimp only
  split_ifs with highest
  · have one : (1 : UInt8) ≤ types.maxType := by
      apply UInt8.le_iff_toNat_le.mpr
      change 1 ≤ types.maxType.toNat
      by_contra zero
      have last : types.maxType = 0 := UInt8.toNat_inj.mp (by
        change types.maxType.toNat = 0
        omega)
      exact stays ⟨highest.trans last, last⟩
    rw [UInt8.toNat_sub_of_le _ _ one]
    rfl
  · rfl

theorem find?_unregister {type i : UInt8} (valid : types.validMask (mask type) = true)
    (below : type.toNat < 32) (small : i.toNat < 32)
    : (types.unregisterType type).filters.find? (mask i)
      = if i = type then none else types.filters.find? (mask i) := by
  rw [unregisterType_of_valid valid, OrderedMap.find?_erase]
  simp only [mask_inj small below]

theorem unregisterType_of_invalid {type : UInt8} (valid : types.validMask (mask type) = false)
    : types.unregisterType type = types :=
  if_neg (by simpa [validMask] using valid)

theorem validMask_unregister {type i : UInt8} (small : i.toNat < 32)
    : (types.unregisterType type).validMask (mask i) = true
      ↔ types.validMask (mask i) = true ∧ type.toNat % 32 ≠ i.toNat := by
  cases valid : types.validMask (mask type) with
  | true =>
      rw [unregisterType_of_valid valid, validMask_iff, validMask_iff, Nat.mod_eq_of_lt small]
      simp [unallocate, Nat.testBit_two_pow_sub_one 32, mask_eq, Nat.testBit_two_pow, small]
  | false =>
      rw [unregisterType_of_invalid valid, iff_self_and]
      intro set same
      have bit := (validMask_iff i).mp set
      rw [Nat.mod_eq_of_lt small, ← same] at bit
      rw [(validMask_iff type).mpr bit] at valid
      contradiction

end FilterTypes

-----------------------------------------------------------------------------------------
-- One call
-----------------------------------------------------------------------------------------

namespace TypeRegistry

open FilterTypes (mask mask_inj)

variable {r : TypeRegistry}

theorem sound_new : new.Sound := by
  refine ⟨fun _ none => absurd none List.not_mem_nil, .nil, .nil,
    fun _ none => absurd none List.not_mem_nil, by decide, ?_, ?_⟩
  · intro i small
    rw [FilterTypes.validMask_iff]
    simp [new, FilterTypes.empty]
  · intro i small name
    simp [new, FilterTypes.empty]

/-- Distinct numbers below 32 have distinct masks. -/
theorem masks_nodup {held : List (UInt8 × List Char)} (below : ∀ h ∈ held, h.1.toNat < 32)
    (distinct : (held.map Prod.fst).Nodup)
    : (held.map fun h => mask h.1).Nodup := by
  rw [List.nodup_map_iff_inj_on (List.Nodup.of_map _ distinct)]
  intro h member other member' same
  have number := (mask_inj (below h member) (below other member')).mp same
  exact List.inj_on_of_nodup_map distinct member member' number

/-- A registration hands out a number that is not held. -/
theorem Sound.register (sound : r.Sound) (name : List Char)
    : (step (.register name) r).Sound := by
  cases free : r.types.freeType with
  | none =>
      have same : step (.register name) r = r := by
        simp only [step, free, FilterTypes.registerType_of_full free]
      rw [same]
      exact sound
  | some type =>
      obtain ⟨small, bit, _⟩ := FilterTypes.freeType_eq_some free
      have unheld : ∀ h ∈ r.held, h.1 ≠ type := by
        intro h member same
        have valid := (sound.valid type small).mpr ⟨h, member, same⟩
        rw [FilterTypes.validMask_iff, FilterTypes.and_mask_eq_zero.mp bit] at valid
        contradiction
      have after : (step (.register name) r).held = r.held ++ [(type, name)] := by
        simp only [step, free]
      have types : (step (.register name) r).types = r.types.registerType name := rfl
      have split : ∀ {h}, h ∈ (step (.register name) r).held ↔ h ∈ r.held ∨ h = (type, name) := by
        intro h
        rw [after, List.mem_append, List.mem_singleton]
      have below : ∀ h ∈ (step (.register name) r).held, h.1.toNat < 32 := by
        intro h member
        rcases split.mp member with old | rfl
        · exact sound.below h old
        · exact small
      have distinct : ((step (.register name) r).held.map Prod.fst).Nodup := by
        rw [after, List.map_append, List.map_singleton, List.nodup_append]
        refine ⟨sound.distinct, List.nodup_singleton _, ?_⟩
        intro number old other new same
        obtain ⟨h, member, rfl⟩ := List.mem_map.mp old
        rw [List.mem_singleton.mp new] at same
        exact unheld h member same
      refine ⟨below, distinct, masks_nodup below distinct, ?_, ?_, ?_, ?_⟩
      · intro h member
        rw [UInt8.le_iff_toNat_le, types, FilterTypes.maxType_register free]
        rcases split.mp member with old | rfl
        · have := UInt8.le_iff_toNat_le.mp (sound.bounded h old)
          omega
        · exact Nat.le_max_right _ _
      · have most := sound.most
        rw [types, FilterTypes.maxType_register free]
        omega
      · intro i i_small
        rw [types, FilterTypes.validMask_register free name i_small, sound.valid i i_small]
        constructor
        · rintro (⟨h, member, rfl⟩ | rfl)
          · exact ⟨h, split.mpr (.inl member), rfl⟩
          · exact ⟨(i, name), split.mpr (.inr rfl), rfl⟩
        · rintro ⟨h, member, rfl⟩
          rcases split.mp member with old | rfl
          · exact .inl ⟨h, old, rfl⟩
          · exact .inr rfl
      · intro i i_small other
        rw [types, FilterTypes.find?_register free name i_small, split, Prod.mk.injEq]
        split_ifs with same
        · subst same
          have absent : (i, other) ∉ r.held := fun old => unheld _ old rfl
          simp [absent, eq_comm]
        · rw [sound.named i i_small]
          simp [same]

theorem mem_unregister {type : UInt8} {h : UInt8 × List Char}
    : h ∈ (step (.unregister type) r).held ↔ h ∈ r.held ∧ h.1 ≠ type := by
  simp [step]

/-- An unsafe call leaves a held type unknown, or the highest type beyond 31. -/
theorem safe_of_sound {type : UInt8} (sound : r.Sound)
    (after : (step (.unregister type) r).Sound)
    : r.Safe (.unregister type) := by
  rintro ⟨h, member, number⟩
  have small := sound.below h member
  refine ⟨?_, ?_⟩
  · by_contra large
    have other : h.1 ≠ type := by
      rintro rfl
      exact large small
    have known := (after.valid h.1 small).mpr ⟨h, mem_unregister.mpr ⟨member, other⟩, rfl⟩
    have gone := (FilterTypes.validMask_unregister small).mp known
    exact gone.2 number.symm
  · rintro ⟨rfl, highest⟩
    have zero : h.1 = 0 := UInt8.toNat_inj.mp (number.trans (by decide))
    have valid : r.types.validMask (mask 0) = true :=
      (sound.valid 0 (by decide)).mpr ⟨h, member, zero⟩
    have most := after.most
    simp only [step, FilterTypes.unregisterType_of_valid valid, highest, if_true] at most
    exact absurd most (by decide)

/-- A safe call keeps the registry sound. -/
theorem Sound.unregister {type : UInt8} (sound : r.Sound) (safe : r.Safe (.unregister type))
    : (step (.unregister type) r).Sound := by
  have types : (step (.unregister type) r).types = r.types.unregisterType type := rfl
  cases valid : r.types.validMask (mask type) with
  | false =>
      have unheld : ∀ h ∈ r.held, decide (h.1 ≠ type) = true := by
        intro h member
        apply decide_eq_true
        rintro rfl
        have known := (sound.valid h.1 (sound.below h member)).mpr ⟨h, member, rfl⟩
        rw [valid] at known
        contradiction
      have same : step (.unregister type) r = r := by
        simp only [step, FilterTypes.unregisterType_of_invalid valid,
          List.filter_eq_self.mpr unheld]
      rw [same]
      exact sound
  | true =>
      have number : (UInt8.ofNat (type.toNat % 32)).toNat = type.toNat % 32 :=
        UInt8.toNat_ofNat_of_lt' (by
          change type.toNat % 32 < 256
          omega)
      have aliased : mask (.ofNat (type.toNat % 32)) = mask type := by
        rw [FilterTypes.mask_eq, FilterTypes.mask_eq, number, Nat.mod_mod]
      have known : ∃ h ∈ r.held, h.1.toNat = type.toNat % 32 := by
        obtain ⟨h, member, same⟩ := (sound.valid (.ofNat (type.toNat % 32)) (by omega)).mp
          (aliased ▸ valid)
        exact ⟨h, member, same ▸ number⟩
      obtain ⟨small, stays⟩ := safe known
      have highest := FilterTypes.maxType_unregister valid stays
      have below : ∀ h ∈ (step (.unregister type) r).held, h.1.toNat < 32 :=
        fun h member => sound.below h (mem_unregister.mp member).1
      have distinct : ((step (.unregister type) r).held.map Prod.fst).Nodup :=
        sound.distinct.sublist (List.filter_sublist.map Prod.fst)
      refine ⟨below, distinct, masks_nodup below distinct, ?_, ?_, ?_, ?_⟩
      · intro h member
        obtain ⟨old, other⟩ := mem_unregister.mp member
        have bounded := UInt8.le_iff_toNat_le.mp (sound.bounded h old)
        rw [UInt8.le_iff_toNat_le, types, highest]
        split_ifs with last
        · have ne : h.1.toNat ≠ r.types.maxType.toNat := by
            rw [← last]
            exact fun same => other (UInt8.toNat_inj.mp same)
          omega
        · exact bounded
      · have most := sound.most
        rw [types, highest]
        split_ifs <;> omega
      · intro i i_small
        rw [types, FilterTypes.validMask_unregister i_small, sound.valid i i_small,
          Nat.mod_eq_of_lt small]
        constructor
        · rintro ⟨⟨h, member, rfl⟩, other⟩
          exact ⟨h, mem_unregister.mpr ⟨member, fun same => other (same ▸ rfl)⟩, rfl⟩
        · rintro ⟨h, member, rfl⟩
          obtain ⟨old, other⟩ := mem_unregister.mp member
          exact ⟨⟨h, old, rfl⟩, fun same => other (UInt8.toNat_inj.mp same.symm)⟩
      · intro i i_small name
        rw [types, FilterTypes.find?_unregister valid small i_small, mem_unregister]
        split_ifs with same
        · subst same
          simp
        · rw [sound.named i i_small]
          simp [same]

end TypeRegistry

-----------------------------------------------------------------------------------------
-- The lookups
-----------------------------------------------------------------------------------------

namespace FilterTypes

variable {types : FilterTypes} {query : List Char}

/-- Two searches that end agree. -/
theorem search_agree {fuel more : Nat} {i : UInt8} {left right : Option UInt8}
    (first : types.search query fuel i = some left)
    (second : types.search query more i = some right)
    : left = right := by
  induction fuel generalizing more i with
  | zero => contradiction
  | succ fuel ih =>
      cases more with
      | zero => contradiction
      | succ more =>
          rw [search] at first second
          split_ifs at first second
          · exact Option.some.inj (first.symm.trans second)
          · exact ih first second
          · exact Option.some.inj (first.symm.trans second)

/-- A search up to a type below 255 ends, at the first type of the name or behind the last. -/
theorem search_ends (most : types.maxType.toNat ≤ 31) (rounds : Nat) (i : UInt8)
    (left : i.toNat + rounds = types.maxType.toNat + 1)
    : (∃ k, types.search query (rounds + 1) i = some (some k) ∧ i ≤ k ∧ k ≤ types.maxType
        ∧ types.name (mask k) = query ∧ ∀ j, i ≤ j → j < k → types.name (mask j) ≠ query)
      ∨ (types.search query (rounds + 1) i = some none
        ∧ ∀ j, i ≤ j → j ≤ types.maxType → types.name (mask j) ≠ query) := by
  induction rounds generalizing i with
  | zero =>
      have beyond : ¬ i ≤ types.maxType := by
        rw [UInt8.le_iff_toNat_le]
        omega
      refine .inr ⟨by rw [search, if_neg beyond], fun j low high => ?_⟩
      rw [UInt8.le_iff_toNat_le] at low high
      omega
  | succ rounds ih =>
      have inside : i ≤ types.maxType := by
        rw [UInt8.le_iff_toNat_le]
        omega
      rw [search, if_pos inside]
      by_cases here : types.name (mask i) = query
      · rw [if_pos (beq_iff_eq.mpr here)]
        refine .inl ⟨i, rfl, UInt8.le_refl i, inside, here, fun j low high => ?_⟩
        rw [UInt8.le_iff_toNat_le] at low
        rw [UInt8.lt_iff_toNat_lt] at high
        omega
      · rw [if_neg fun same => here (beq_iff_eq.mp same)]
        have next : (i + 1).toNat = i.toNat + 1 := by
          rw [UInt8.toNat_add]
          change (i.toNat + 1) % 256 = i.toNat + 1
          omega
        have later : ∀ j, i ≤ j → j ≠ i → i + 1 ≤ j := by
          intro j low other
          have ne : j.toNat ≠ i.toNat := fun same => other (UInt8.toNat_inj.mp same)
          rw [UInt8.le_iff_toNat_le] at low ⊢
          omega
        rcases ih (i + 1) (by omega) with ⟨k, found, low, high, named, before⟩ | ⟨none, absent⟩
        · refine .inl ⟨k, found, ?_, high, named, fun j above below => ?_⟩
          · rw [UInt8.le_iff_toNat_le] at low ⊢
            omega
          · by_cases same : j = i
            · exact same ▸ here
            · exact before j (later j above same) below
        · refine .inr ⟨none, fun j above below => ?_⟩
          by_cases same : j = i
          · exact same ▸ here
          · exact absent j (later j above same) below

/-- With the highest type at 255, a search for a name that no type has never ends. -/
theorem search_never_ends (top : types.maxType = 255)
    (absent : ∀ i, types.name (mask i) ≠ query) (fuel : Nat) (i : UInt8)
    : types.search query fuel i = none := by
  induction fuel generalizing i with
  | zero => rfl
  | succ fuel ih =>
      have inside : i ≤ types.maxType := by
        rw [top, UInt8.le_iff_toNat_le]
        have := i.toNat_lt
        change i.toNat ≤ 255
        omega
      rw [search, if_pos inside, if_neg fun same => absent i (beq_iff_eq.mp same), ih]

end FilterTypes

namespace TypeRegistry

open FilterTypes (mask)

variable {r : TypeRegistry} {query : List Char}

/-- A type is called what it is registered under. -/
theorem Sound.name_of_held (sound : r.Sound) {h : UInt8 × List Char} (member : h ∈ r.held)
    : r.types.name (mask h.1) = h.2 := by
  rw [FilterTypes.name, (sound.named h.1 (sound.below h member) h.2).mpr member]
  rfl

/-- One that is not registered is called unknown. -/
theorem Sound.name_of_unheld (sound : r.Sound) {i : UInt8} (small : i.toNat < 32)
    (unheld : ∀ h ∈ r.held, h.1 ≠ i)
    : r.types.name (mask i) = "Unknown:".toList ++ Nat.toDigits 10 (mask i) := by
  have none : r.types.filters.find? (mask i) = none := by
    apply Option.eq_none_iff_forall_ne_some.mpr
    intro name found
    exact unheld _ ((sound.named i small name).mp found) rfl
  rw [FilterTypes.name, none]
  rfl

/-- A lookup ends at the first type of the name, or behind the highest one. -/
theorem Sound.search_ends (sound : r.Sound) (query : List Char)
    : (∃ k, r.types.search query (r.types.maxType.toNat + 1 + 1) 0 = some (some k)
        ∧ k ≤ r.types.maxType ∧ r.types.name (mask k) = query
        ∧ ∀ j, j < k → r.types.name (mask j) ≠ query)
      ∨ (r.types.search query (r.types.maxType.toNat + 1 + 1) 0 = some none
        ∧ ∀ j, j ≤ r.types.maxType → r.types.name (mask j) ≠ query) := by
  rcases @FilterTypes.search_ends _ query sound.most (r.types.maxType.toNat + 1) 0 (by simp) with
    ⟨k, found, _, top, named, before⟩ | ⟨none, absent⟩
  · exact .inl ⟨k, found, top, named, fun j => before j UInt8.zero_le⟩
  · exact .inr ⟨none, fun j => absent j UInt8.zero_le⟩

/-- A name that is found is not read as that of a type that is not registered. -/
theorem Sound.not_misread (sound : r.Sound) (finds : r.Finds query) : ¬ r.Misread query := by
  have most := sound.most
  obtain ⟨registered, unregistered⟩ := finds
  rintro ⟨i, high, unheld, rfl, above⟩
  have small : i.toNat < 32 := by
    rw [UInt8.le_iff_toNat_le] at high
    omega
  have named := sound.name_of_unheld small unheld
  rcases sound.search_ends _ with ⟨k, found, top, name, before⟩ | ⟨_, absent⟩
  · have hole : ∀ h ∈ r.held, h.1 ≠ k := by
      rintro h member rfl
      have later := above h member ((sound.name_of_held member).symm.trans name)
      exact before i later named
    by_cases known : ∃ h ∈ r.held, h.2 = "Unknown:".toList ++ Nat.toDigits 10 (mask i)
    · obtain ⟨h, member, _, fuel, type, _⟩ := registered known
      obtain ⟨result, ended, is⟩ := Option.map_eq_some_iff.mp type
      obtain rfl := FilterTypes.search_agree ended found
      exact hole h member is.symm
    · obtain ⟨fuel, type, _⟩ := unregistered fun h member same => known ⟨h, member, same⟩
      obtain ⟨result, ended, is⟩ := Option.map_eq_some_iff.mp type
      obtain rfl := FilterTypes.search_agree ended found
      rw [UInt8.le_iff_toNat_le] at top
      have : k.toNat = 255 := congrArg UInt8.toNat is
      omega
  · exact absent i high named

/-- A name that is not read so is found, by the search that ends at the first type of it. -/
theorem Sound.finds (sound : r.Sound) (clear : ¬ r.Misread query) : r.Finds query := by
  have most := sound.most
  rcases sound.search_ends query with ⟨k, found, top, name, before⟩ | ⟨none, absent⟩
  · have small : k.toNat < 32 := by
      rw [UInt8.le_iff_toNat_le] at top
      omega
    by_cases held : ∃ h ∈ r.held, h.1 = k
    · obtain ⟨h, member, rfl⟩ := held
      have same : h.2 = query := (sound.name_of_held member).symm.trans name
      refine ⟨fun _ => ⟨h, member, same, r.types.maxType.toNat + 1 + 1, ?_, ?_⟩,
        fun other => absurd same (other h member)⟩
      · rw [FilterTypes.typeOf, found]
        rfl
      · rw [FilterTypes.maskOf, found]
        rfl
    · have unheld : ∀ h ∈ r.held, h.1 ≠ k := fun h member same => held ⟨h, member, same⟩
      refine absurd ⟨k, top, unheld, ?_, ?_⟩ clear
      · rw [← name, sound.name_of_unheld small unheld]
      · intro h member same
        by_contra low
        have other : h.1.toNat ≠ k.toNat := fun eq => unheld h member (UInt8.toNat_inj.mp eq)
        have earlier : h.1 < k := by
          rw [UInt8.lt_iff_toNat_lt] at low ⊢
          omega
        exact before h.1 earlier ((sound.name_of_held member).trans same)
  · have unnamed : ∀ h ∈ r.held, h.2 ≠ query := fun h member same =>
      absent h.1 (sound.bounded h member)
        ((sound.name_of_held member).trans same)
    refine ⟨fun ⟨h, member, same⟩ => absurd same (unnamed h member),
      fun _ => ⟨r.types.maxType.toNat + 1 + 1, ?_, ?_⟩⟩
    · rw [FilterTypes.typeOf, none]
      rfl
    · rw [FilterTypes.maskOf, none]
      rfl

/-- Where the registry is sound, both lookups of a name are right exactly where it is not
read as that of a type that is not registered.
-/
theorem Sound.finds_iff (sound : r.Sound) : r.Finds query ↔ ¬ r.Misread query :=
  ⟨sound.not_misread, sound.finds⟩

/-- In every state of a run the registry is sound and finds a name, exactly where no call of
the run unregisters type 0 as the highest one, or a type by a number beyond 31, and the name is
never read as that of a type that is not registered.
-/
theorem registry_iff (calls : List RegistryCall) (query : List Char)
    : Machine.Always step (fun r => r.Sound ∧ r.Finds query) new calls
      ↔ Machine.Permits step Safe new calls
        ∧ Machine.Always step (fun r => ¬ r.Misread query) new calls := by
  have sound : Machine.Always step Sound new calls ↔ Machine.Permits step Safe new calls := by
    apply Machine.always_iff_permits (W := fun _ => True) trivial sound_new
      (fun _ _ _ => trivial)
    intro r call _ sound
    cases call with
    | register name => exact iff_of_true (sound.register name) trivial
    | unregister type => exact ⟨safe_of_sound sound, sound.unregister⟩
  rw [Machine.always_and, ← sound, ← Machine.always_and, ← Machine.always_and]
  constructor
  · exact fun both => both.mono fun r ⟨sound, finds⟩ => ⟨sound, sound.finds_iff.mp finds⟩
  · exact fun both => both.mono fun r ⟨sound, clear⟩ => ⟨sound, sound.finds_iff.mpr clear⟩

/-- The one type is registered and unregistered. -/
def onceAndGone : List RegistryCall := [.register "pets".toList, .unregister 0]

/-- The highest type is 255 then, and neither lookup of a name that no type has ever ends. -/
theorem not_registry
    : ¬ Machine.Always step (fun r => r.Sound ∧ r.Finds "pets".toList) new onceAndGone
      ∧ ∀ fuel, (Machine.exec step new onceAndGone).types.typeOf "pets".toList fuel = none := by
  have top : (Machine.exec step new onceAndGone).types.maxType = 255 := by decide
  have absent : ∀ i, (Machine.exec step new onceAndGone).types.name (mask i)
      ≠ "pets".toList := by
    intro i same
    have head := congrArg List.head? same
    have none : (Machine.exec step new onceAndGone).types.filters = .empty := by decide
    rw [FilterTypes.name, none] at head
    exact absurd head (by simp)
  refine ⟨?_, ?_⟩
  · intro always
    have last : (Machine.exec step new onceAndGone).Sound := always.2.2.1
    exact absurd last.most (by rw [top]; decide)
  · intro fuel
    rw [FilterTypes.typeOf, FilterTypes.search_never_ends top absent]
    rfl

end TypeRegistry

end Scry
