import Mathlib.Order.Lattice
import Mathlib.Data.List.Nodup

/-! Finite maps kept as key-ordered association lists.
The carrier is strictly ordered by construction, so lookup, insertion, erasure and the
iterator steps of an ordered container need no side condition about duplicates.
-/

instance linearOrderUInt32 : LinearOrder UInt32 where
  le_refl _ := UInt32.le_refl _
  le_trans _ _ _ := UInt32.le_trans
  le_antisymm _ _ := UInt32.le_antisymm
  le_total := UInt32.le_total
  lt_iff_le_not_ge a b := by
    simp only [UInt32.lt_iff_toNat_lt, UInt32.le_iff_toNat_le]
    omega
  toDecidableLE := inferInstance
  toDecidableEq := inferInstance

/-- A finite map whose entries are listed in strictly increasing key order. -/
structure OrderedMap (κ : Type) (ν : Type) [LT κ] where
  entries : List (κ × ν)
  sorted : entries.Pairwise (fun left right => left.1 < right.1)

namespace OrderedMap

variable {κ ν : Type} [LinearOrder κ]

/-- Two maps with the same entries are equal: the order proof carries no data. -/
@[ext]
theorem ext_entries {left right : OrderedMap κ ν} (h : left.entries = right.entries)
    : left = right := by
  cases left
  cases right
  cases h
  rfl

instance [DecidableEq ν] : DecidableEq (OrderedMap κ ν) := fun left right =>
  decidable_of_iff (left.entries = right.entries) ⟨ext_entries, fun h => h ▸ rfl⟩

-----------------------------------------------------------------------------------------
-- Operations
-----------------------------------------------------------------------------------------

/-- The map without entries. -/
def empty : OrderedMap κ ν := ⟨[], .nil⟩

/-- The number of entries. -/
def size (m : OrderedMap κ ν) : Nat := m.entries.length

/-- Whether the map has no entry. -/
def isEmpty (m : OrderedMap κ ν) : Bool := m.entries.isEmpty

/-- The keys in increasing order. -/
def keys (m : OrderedMap κ ν) : List κ := m.entries.map Prod.fst

/-- The value stored under a key. -/
def find? (m : OrderedMap κ ν) (key : κ) : Option ν :=
  (m.entries.find? (fun entry => entry.1 == key)).map Prod.snd

/-- The least key. -/
def first? (m : OrderedMap κ ν) : Option κ := m.entries.head?.map Prod.fst

/-- The least key above a given one: an iterator advanced past that key. -/
def next? (m : OrderedMap κ ν) (key : κ) : Option κ :=
  (m.entries.find? (fun entry => key < entry.1)).map Prod.fst

/-- Insertion into an ordered entry list, replacing the value of an equal key. -/
def insertEntries (key : κ) (value : ν) : List (κ × ν) → List (κ × ν)
  | [] => [(key, value)]
  | entry :: rest =>
      if key < entry.1 then (key, value) :: entry :: rest
      else if entry.1 < key then entry :: insertEntries key value rest
      else (key, value) :: rest

/-- Every entry of an insertion is the new one or an old one. -/
theorem mem_insertEntries {key : κ} {value : ν} {entries : List (κ × ν)} {entry : κ × ν}
    (h : entry ∈ insertEntries key value entries)
    : entry = (key, value) ∨ entry ∈ entries := by
  induction entries with
  | nil => exact Or.inl (by simpa [insertEntries] using h)
  | cons head rest ih =>
      simp only [insertEntries] at h
      split_ifs at h with below above
      · rcases List.mem_cons.mp h with same | old
        · exact Or.inl same
        · exact Or.inr old
      · rcases List.mem_cons.mp h with same | later
        · exact Or.inr (by simp [same])
        · exact (ih later).imp_right (List.mem_cons_of_mem head)
      · rcases List.mem_cons.mp h with same | old
        · exact Or.inl same
        · exact Or.inr (List.mem_cons_of_mem head old)

/-- Insertion keeps strict key order, by induction on the entry list. -/
theorem insertEntries_sorted (key : κ) (value : ν) {entries : List (κ × ν)}
    (h : entries.Pairwise (fun left right => left.1 < right.1))
    : (insertEntries key value entries).Pairwise (fun left right => left.1 < right.1) := by
  induction entries with
  | nil => exact List.pairwise_singleton _ _
  | cons head rest ih =>
      obtain ⟨headBelow, restSorted⟩ := List.pairwise_cons.mp h
      simp only [insertEntries]
      split_ifs with below above
      · refine List.pairwise_cons.mpr ⟨?_, h⟩
        intro entry member
        rcases List.mem_cons.mp member with same | later
        · exact same ▸ below
        · exact below.trans (headBelow entry later)
      · refine List.pairwise_cons.mpr ⟨?_, ih restSorted⟩
        intro entry member
        rcases mem_insertEntries member with same | later
        · exact same ▸ above
        · exact headBelow entry later
      · have same : head.1 = key := le_antisymm (not_lt.mp below) (not_lt.mp above)
        refine List.pairwise_cons.mpr ⟨?_, restSorted⟩
        intro entry later
        exact same ▸ headBelow entry later

/-- The map with a key set to a value. -/
def insert (m : OrderedMap κ ν) (key : κ) (value : ν) : OrderedMap κ ν :=
  ⟨insertEntries key value m.entries, insertEntries_sorted key value m.sorted⟩

/-- The map with a key removed. -/
def erase (m : OrderedMap κ ν) (key : κ) : OrderedMap κ ν :=
  ⟨m.entries.filter (fun entry => entry.1 != key), m.sorted.filter _⟩

/-- The map without the entries whose value fails. -/
def filterValues (p : ν → Bool) (m : OrderedMap κ ν) : OrderedMap κ ν :=
  ⟨m.entries.filter (fun entry => p entry.2), m.sorted.filter _⟩

/-- The map with every value replaced. -/
def mapValues {ω : Type} (f : ν → ω) (m : OrderedMap κ ν) : OrderedMap κ ω :=
  ⟨m.entries.map (fun entry => (entry.1, f entry.2)), List.pairwise_map.mpr m.sorted⟩

-----------------------------------------------------------------------------------------
-- Lookup after each operation
-----------------------------------------------------------------------------------------

/-- A successful lookup names an entry of the list. -/
theorem mem_of_find? {m : OrderedMap κ ν} {key : κ} {value : ν}
    (h : m.find? key = some value)
    : (key, value) ∈ m.entries := by
  obtain ⟨entry, found, rfl⟩ := Option.map_eq_some_iff.mp h
  have same : entry.1 = key := by simpa using List.find?_some found
  simpa [← same] using List.mem_of_find?_eq_some found

/-- The keys are listed without repetition. -/
theorem keys_nodup (m : OrderedMap κ ν) : m.keys.Nodup :=
  List.pairwise_map.mpr (m.sorted.imp ne_of_lt)

/-- Distinct entries of an ordered list have distinct keys. -/
theorem entry_unique {m : OrderedMap κ ν} {left right : κ × ν} (hl : left ∈ m.entries)
    (hr : right ∈ m.entries) (same : left.1 = right.1)
    : left = right :=
  List.inj_on_of_nodup_map m.keys_nodup hl hr same

/-- Membership of an entry decides the lookup of its key. -/
theorem find?_eq_some_iff {m : OrderedMap κ ν} {key : κ} {value : ν}
    : m.find? key = some value ↔ (key, value) ∈ m.entries := by
  refine ⟨mem_of_find?, ?_⟩
  intro member
  have present : (m.entries.find? (fun entry => entry.1 == key)).isSome := by
    rw [List.find?_isSome]
    exact ⟨_, member, by simp⟩
  obtain ⟨entry, found⟩ := Option.isSome_iff_exists.mp present
  have same : entry.1 = key := by simpa using List.find?_some found
  have := entry_unique (List.mem_of_find?_eq_some found) member same
  simp [find?, found, this]

/-- A lookup fails exactly when the key is not listed. -/
theorem find?_eq_none_iff {m : OrderedMap κ ν} {key : κ}
    : m.find? key = none ↔ key ∉ m.keys := by
  simp only [find?, keys, Option.map_eq_none_iff, List.find?_eq_none, List.mem_map, not_exists,
    not_and, beq_iff_eq]

/-- A key is listed exactly when its lookup succeeds. -/
theorem mem_keys_iff {m : OrderedMap κ ν} {key : κ}
    : key ∈ m.keys ↔ ∃ value, m.find? key = some value := by
  rw [← Option.ne_none_iff_exists', Ne, find?_eq_none_iff, not_not]

@[simp]
theorem find?_empty (key : κ) : (empty : OrderedMap κ ν).find? key = none := rfl

@[simp]
theorem keys_empty : (empty : OrderedMap κ ν).keys = [] := rfl

theorem insert_entries_ne_nil (m : OrderedMap κ ν) (key : κ) (value : ν)
    : (m.insert key value).entries ≠ [] := by
  cases entries : m.entries with
  | nil => simp [insert, insertEntries, entries]
  | cons head rest =>
      simp only [insert, insertEntries, entries]
      split_ifs <;> simp

/-- Membership after an insertion: the new entry, or an old one under another key. -/
theorem mem_entries_insert {m : OrderedMap κ ν} {key : κ} {value : ν} {entry : κ × ν}
    : entry ∈ (m.insert key value).entries
      ↔ entry = (key, value) ∨ (entry ∈ m.entries ∧ entry.1 ≠ key) := by
  obtain ⟨entries, sorted⟩ := m
  simp only [insert]
  induction entries with
  | nil => simp [insertEntries]
  | cons head rest ih =>
      obtain ⟨headBelow, restSorted⟩ := List.pairwise_cons.mp sorted
      simp only [insertEntries]
      split_ifs with below above
      · have distinct : ∀ other ∈ head :: rest, other.1 ≠ key := by
          intro other member
          rcases List.mem_cons.mp member with same | later
          · exact same ▸ (ne_of_gt below)
          · exact ne_of_gt (below.trans (headBelow other later))
        rw [List.mem_cons]
        exact or_congr Iff.rfl ⟨fun h => ⟨h, distinct entry h⟩, And.left⟩
      · rw [List.mem_cons, ih restSorted, List.mem_cons]
        constructor
        · rintro (rfl | rfl | ⟨member, ne⟩)
          · exact Or.inr ⟨Or.inl rfl, ne_of_lt above⟩
          · exact Or.inl rfl
          · exact Or.inr ⟨Or.inr member, ne⟩
        · rintro (rfl | ⟨rfl | member, ne⟩)
          · exact Or.inr (Or.inl rfl)
          · exact Or.inl rfl
          · exact Or.inr (Or.inr ⟨member, ne⟩)
      · have same : head.1 = key := le_antisymm (not_lt.mp below) (not_lt.mp above)
        rw [List.mem_cons, List.mem_cons]
        refine or_congr Iff.rfl ⟨fun h => ⟨Or.inr h, ?_⟩, ?_⟩
        · exact ne_of_gt (same ▸ headBelow entry h)
        · rintro ⟨rfl | member, ne⟩
          · exact absurd same ne
          · exact member

@[simp]
theorem find?_insert_self (m : OrderedMap κ ν) (key : κ) (value : ν)
    : (m.insert key value).find? key = some value :=
  find?_eq_some_iff.mpr (mem_entries_insert.mpr (Or.inl rfl))

/-- Insertion leaves every other key's lookup unchanged. -/
theorem find?_insert_of_ne (m : OrderedMap κ ν) {key other : κ} (value : ν)
    (ne : other ≠ key)
    : (m.insert key value).find? other = m.find? other := by
  apply Option.ext
  intro found
  rw [find?_eq_some_iff, find?_eq_some_iff, mem_entries_insert]
  simp [ne]

@[simp]
theorem find?_erase_self (m : OrderedMap κ ν) (key : κ) : (m.erase key).find? key = none := by
  rw [find?_eq_none_iff]
  simp [keys, erase]

/-- Erasure leaves every other key's lookup unchanged. -/
theorem find?_erase_of_ne (m : OrderedMap κ ν) {key other : κ} (ne : other ≠ key)
    : (m.erase key).find? other = m.find? other := by
  apply Option.ext
  intro found
  rw [find?_eq_some_iff, find?_eq_some_iff]
  simp [erase, ne]

theorem find?_filterValues {p : ν → Bool} {m : OrderedMap κ ν} {key : κ} {value : ν}
    : (m.filterValues p).find? key = some value ↔ m.find? key = some value ∧ p value = true := by
  rw [find?_eq_some_iff, find?_eq_some_iff]
  exact List.mem_filter

theorem find?_insert (m : OrderedMap κ ν) (key other : κ) (value : ν)
    : (m.insert key value).find? other = if other = key then some value else m.find? other := by
  by_cases same : other = key
  · rw [if_pos same, same, find?_insert_self]
  · rw [if_neg same, find?_insert_of_ne m value same]

theorem find?_erase (m : OrderedMap κ ν) (key other : κ)
    : (m.erase key).find? other = if other = key then none else m.find? other := by
  by_cases same : other = key
  · rw [if_pos same, same, find?_erase_self]
  · rw [if_neg same, find?_erase_of_ne m same]

/-- The keys of an insertion are the old keys and the inserted one. -/
@[simp]
theorem mem_keys_insert {m : OrderedMap κ ν} {key other : κ} {value : ν}
    : other ∈ (m.insert key value).keys ↔ other = key ∨ other ∈ m.keys := by
  by_cases same : other = key
  · subst same
    simp [mem_keys_iff]
  · simp [mem_keys_iff, find?_insert_of_ne m value same, same]

/-- The keys of an erasure are the other old keys. -/
@[simp]
theorem mem_keys_erase {m : OrderedMap κ ν} {key other : κ}
    : other ∈ (m.erase key).keys ↔ other ≠ key ∧ other ∈ m.keys := by
  by_cases same : other = key
  · subst same
    simp [mem_keys_iff]
  · simp [mem_keys_iff, find?_erase_of_ne m same, same]

/-- The entries are listed without repetition. -/
theorem entries_nodup (m : OrderedMap κ ν) : m.entries.Nodup :=
  m.sorted.imp (fun below same => absurd (congrArg Prod.fst same) (ne_of_lt below))

/-- An erasure takes one entry out of the list. -/
theorem entries_perm_erase {m : OrderedMap κ ν} {key : κ} {value : ν}
    (found : m.find? key = some value)
    : m.entries.Perm ((key, value) :: (m.erase key).entries) := by
  have member := find?_eq_some_iff.mp found
  have gone : (key, value) ∉ (m.erase key).entries := by simp [erase]
  refine (List.perm_ext_iff_of_nodup m.entries_nodup
    ((m.erase key).entries_nodup.cons gone)).mpr ?_
  intro entry
  rw [List.mem_cons]
  constructor
  · intro present
    by_cases same : entry.1 = key
    · exact Or.inl (entry_unique present member same)
    · exact Or.inr (by simp [erase, present, same])
  · intro h
    rcases h with rfl | kept
    · exact member
    · exact List.mem_of_mem_filter kept

/-- A lookup after the replacement finds the old value replaced. -/
@[simp]
theorem find?_mapValues {ω : Type} (f : ν → ω) (m : OrderedMap κ ν) (key : κ)
    : (m.mapValues f).find? key = (m.find? key).map f := by
  simp only [find?, mapValues, List.find?_map, Option.map_map]
  rfl

/-- Insertion of a list with distinct keys finds what is listed, and else what was there; by
induction on the list.
-/
theorem find?_foldl_insert {ω : Type} (f : ω → ν) {items : List (κ × ω)}
    (distinct : (items.map Prod.fst).Nodup) (m : OrderedMap κ ν) (key : κ)
    : (items.foldl (fun m item => m.insert item.1 (f item.2)) m).find? key
      = (((items.find? fun item => item.1 == key).map fun item => f item.2)
        <|> m.find? key) := by
  induction items generalizing m with
  | nil => rfl
  | cons item rest ih =>
      rw [List.map_cons, List.nodup_cons] at distinct
      rw [List.foldl_cons, ih distinct.2, List.find?_cons]
      by_cases here : item.1 = key
      · have later : (rest.find? fun item => item.1 == key) = none := by
          apply List.find?_eq_none.mpr
          intro other member same
          apply distinct.1
          rw [here, ← beq_iff_eq.mp same]
          exact List.mem_map_of_mem member
        rw [later, ← here, find?_insert_self, beq_self_eq_true]
        rfl
      · rw [find?_insert_of_ne _ _ (Ne.symm here), beq_eq_false_iff_ne.mpr here]

theorem size_mapValues {ω : Type} (f : ν → ω) (m : OrderedMap κ ν)
    : (m.mapValues f).size = m.size :=
  List.length_map _

/-- Maps with the same lookups are equal: both entry lists are ordered and have the same
members.
-/
theorem ext_find? {left right : OrderedMap κ ν} (h : ∀ key, left.find? key = right.find? key)
    : left = right := by
  apply ext_entries
  have members : ∀ entry, entry ∈ left.entries ↔ entry ∈ right.entries := by
    rintro ⟨key, value⟩
    rw [← find?_eq_some_iff, ← find?_eq_some_iff, h key]
  have perm :=
    (List.perm_ext_iff_of_nodup left.entries_nodup right.entries_nodup).mpr members
  exact perm.eq_of_pairwise (fun _ _ _ _ up down => absurd (up.trans down) (lt_irrefl _))
    left.sorted right.sorted

/-- What is not there is not erased. -/
theorem erase_of_find?_eq_none {m : OrderedMap κ ν} {key : κ} (absent : m.find? key = none)
    : m.erase key = m := by
  apply ext_find?
  intro other
  rw [find?_erase]
  split_ifs with same
  · rw [same, absent]
  · rfl

theorem mapValues_insert {ω : Type} (f : ν → ω) (m : OrderedMap κ ν) (key : κ) (value : ν)
    : (m.insert key value).mapValues f = (m.mapValues f).insert key (f value) := by
  apply ext_find?
  intro other
  rw [find?_mapValues, find?_insert, find?_insert, find?_mapValues]
  split_ifs <;> rfl

theorem mapValues_erase {ω : Type} (f : ν → ω) (m : OrderedMap κ ν) (key : κ)
    : (m.erase key).mapValues f = (m.mapValues f).erase key := by
  apply ext_find?
  intro other
  rw [find?_mapValues, find?_erase, find?_erase, find?_mapValues]
  split_ifs <;> rfl

/-- A second value under a key takes the place of the first. -/
theorem insert_insert (m : OrderedMap κ ν) (key : κ) (first second : ν)
    : (m.insert key first).insert key second = m.insert key second := by
  apply ext_find?
  intro other
  by_cases same : other = key
  · rw [same, find?_insert_self, find?_insert_self]
  · rw [find?_insert_of_ne _ _ same, find?_insert_of_ne _ _ same, find?_insert_of_ne _ _ same]

-----------------------------------------------------------------------------------------
-- Size and iterator steps
-----------------------------------------------------------------------------------------

/-- A map is empty exactly when no key is listed. -/
theorem isEmpty_iff {m : OrderedMap κ ν} : m.isEmpty = true ↔ ∀ key, key ∉ m.keys := by
  simp [isEmpty, keys, List.isEmpty_iff, List.eq_nil_iff_forall_not_mem]

/-- The first key is the least one. -/
theorem first?_eq_some_iff {m : OrderedMap κ ν} {first : κ}
    : m.first? = some first ↔ first ∈ m.keys ∧ ∀ other ∈ m.keys, first ≤ other := by
  obtain ⟨entries, sorted⟩ := m
  cases entries with
  | nil => simp [first?, keys]
  | cons head rest =>
      obtain ⟨headBelow, -⟩ := List.pairwise_cons.mp sorted
      simp only [first?, keys, List.head?_cons, Option.map_some, Option.some.injEq,
        List.map_cons, List.mem_cons]
      constructor
      · rintro rfl
        refine ⟨Or.inl rfl, ?_⟩
        rintro other (rfl | member)
        · exact le_refl _
        · obtain ⟨entry, later, rfl⟩ := List.mem_map.mp member
          exact (headBelow entry later).le
      · rintro ⟨same | member, least⟩
        · exact same.symm
        · obtain ⟨entry, later, rfl⟩ := List.mem_map.mp member
          exact absurd (least head.1 (Or.inl rfl)) (not_le.mpr (headBelow entry later))

/-- The next key is the least one above. -/
theorem next?_eq_some_iff {m : OrderedMap κ ν} {key next : κ}
    : m.next? key = some next
      ↔ (next ∈ m.keys ∧ key < next) ∧ ∀ other ∈ m.keys, key < other → next ≤ other := by
  obtain ⟨entries, sorted⟩ := m
  rw [next?, keys]
  induction entries with
  | nil => simp
  | cons head rest ih =>
      obtain ⟨headBelow, sortedRest⟩ := List.pairwise_cons.mp sorted
      have later {other : κ} (member : other ∈ rest.map Prod.fst) : head.1 < other := by
        obtain ⟨entry, listed, rfl⟩ := List.mem_map.mp member
        exact headBelow entry listed
      simp only [List.map_cons, List.mem_cons, forall_eq_or_imp]
      by_cases above : key < head.1
      · rw [List.find?_cons_of_pos (by simpa using above)]
        simp only [Option.map_some, Option.some.injEq]
        constructor
        · rintro rfl
          exact ⟨⟨.inl rfl, above⟩, fun _ => le_refl _, fun _ member _ => (later member).le⟩
        · rintro ⟨⟨same | member, -⟩, least, -⟩
          · exact same.symm
          · exact absurd (least above) (not_le.mpr (later member))
      · rw [List.find?_cons_of_neg (by simpa using above), ih sortedRest]
        constructor
        · rintro ⟨⟨member, below⟩, least⟩
          exact ⟨⟨.inr member, below⟩, fun less => absurd less above, least⟩
        · rintro ⟨⟨same | member, below⟩, -, least⟩
          · exact absurd (same ▸ below) above
          · exact ⟨⟨member, below⟩, least⟩

/-- The next key is a key. -/
theorem mem_keys_of_next? {m : OrderedMap κ ν} {key next : κ} (found : m.next? key = some next)
    : next ∈ m.keys ∧ key < next :=
  (next?_eq_some_iff.mp found).1

/-- Erasing an entry makes the map smaller by one. -/
theorem size_erase {m : OrderedMap κ ν} {key : κ} {value : ν} (entry : m.find? key = some value)
    : (m.erase key).size + 1 = m.size := by
  rw [size, size, (entries_perm_erase entry).length_eq, List.length_cons]

end OrderedMap
