import Scry.Library.OrderedMap

/-! Replicas of a collection of items, kept by key.
A source holds items, several of which may have one key; a replica holds one value for each
key. The replica mirrors the source, as far as a view of the values goes, if it has a value for
each key in use and for no other, and each item's view is that of the value under its key.
-/

namespace Replica

variable {κ ι ν α : Type} {key : ι → κ} {encode : ι → ν} {view : ν → α}

/-- Items with one key look the same. -/
def Coherent (key : ι → κ) (encode : ι → ν) (view : ν → α) (items : List ι) : Prop :=
  ∀ i ∈ items, ∀ j ∈ items, key i = key j → view (encode i) = view (encode j)

/-- An item of the later source that a replica of the earlier one already shows. -/
def Shown (key : ι → κ) (encode : ι → ν) (view : ν → α) (before : List ι) (j : ι) : Prop :=
  ∃ i ∈ before, key i = key j ∧ view (encode i) = view (encode j)

/-- Each key of the earlier source is one of the later. -/
def KeysKept (key : ι → κ) (before after : List ι) : Prop :=
  ∀ i ∈ before, ∃ j ∈ after, key j = key i

theorem shown_of_mem {before : List ι} {j : ι} (member : j ∈ before)
    : Shown key encode view before j :=
  ⟨j, member, rfl, rfl⟩

variable [LinearOrder κ]

/-- The replica shows each item, and nothing under a key that no item has. -/
structure Mirrors (key : ι → κ) (encode : ι → ν) (view : ν → α) (items : List ι)
    (m : OrderedMap κ ν)
    : Prop where
  complete : ∀ i ∈ items, (m.find? (key i)).map view = some (view (encode i))
  sound : ∀ k ∈ m.keys, ∃ i ∈ items, key i = k

theorem Mirrors.find?_of_shown {before : List ι} {m : OrderedMap κ ν} {j : ι}
    (mirrors : Mirrors key encode view before m) (shown : Shown key encode view before j)
    : (m.find? (key j)).map view = some (view (encode j)) := by
  obtain ⟨i, member, sameKey, sameView⟩ := shown
  rw [← sameKey, ← sameView]
  exact mirrors.complete i member

/-- A key is in use in the source exactly when the replica lists it. -/
theorem Mirrors.mem_keys_iff {items : List ι} {m : OrderedMap κ ν}
    (mirrors : Mirrors key encode view items m) {k : κ}
    : k ∈ m.keys ↔ ∃ i ∈ items, key i = k := by
  constructor
  · exact mirrors.sound k
  · intro used
    obtain ⟨i, member, rfl⟩ := used
    obtain ⟨value, found, _⟩ := Option.map_eq_some_iff.mp (mirrors.complete i member)
    exact OrderedMap.mem_keys_iff.mpr ⟨value, found⟩

/-- Two replicas of one source look the same under every key. -/
theorem Mirrors.agree {items : List ι} {m n : OrderedMap κ ν}
    (left : Mirrors key encode view items m) (right : Mirrors key encode view items n) (k : κ)
    : (m.find? k).map view = (n.find? k).map view := by
  by_cases used : ∃ i ∈ items, key i = k
  · obtain ⟨i, member, rfl⟩ := used
    rw [left.complete i member, right.complete i member]
  · have absent {r : OrderedMap κ ν} (mirrors : Mirrors key encode view items r)
        : r.find? k = none :=
      OrderedMap.find?_eq_none_iff.mpr (fun listed => used (mirrors.sound k listed))
    rw [absent left, absent right]

-----------------------------------------------------------------------------------------
-- What keeps a replica
-----------------------------------------------------------------------------------------

/-- Nothing is sent: the later items all look like earlier ones, and no key goes. -/
theorem Mirrors.quiet {before after : List ι} {m : OrderedMap κ ν}
    (mirrors : Mirrors key encode view before m)
    (shown : ∀ j ∈ after, Shown key encode view before j) (kept : KeysKept key before after)
    : Mirrors key encode view after m where
  complete j member := mirrors.find?_of_shown (shown j member)
  sound k listed := by
    obtain ⟨i, member, rfl⟩ := mirrors.sound k listed
    exact kept i member

/-- A value sent for an item that looks like it. -/
theorem Mirrors.put {before after : List ι} {m : OrderedMap κ ν} {i : ι} {value : ν}
    (mirrors : Mirrors key encode view before m) (member : i ∈ after)
    (coherent : Coherent key encode view after) (looks : view value = view (encode i))
    (shown : ∀ j ∈ after, key j ≠ key i → Shown key encode view before j)
    (kept : KeysKept key before after)
    : Mirrors key encode view after (m.insert (key i) value) where
  complete j present := by
    by_cases same : key j = key i
    · rw [same, OrderedMap.find?_insert_self, Option.map_some, looks]
      exact congrArg some (coherent i member j present same.symm)
    · rw [OrderedMap.find?_insert_of_ne m value same]
      exact mirrors.find?_of_shown (shown j present same)
  sound k listed := by
    rcases OrderedMap.mem_keys_insert.mp listed with rfl | old
    · exact ⟨i, member, rfl⟩
    · obtain ⟨j, present, rfl⟩ := mirrors.sound k old
      exact kept j present

/-- A key dropped that no item has any more. -/
theorem Mirrors.drop {before after : List ι} {m : OrderedMap κ ν} {gone : κ}
    (mirrors : Mirrors key encode view before m) (unused : ∀ j ∈ after, key j ≠ gone)
    (shown : ∀ j ∈ after, Shown key encode view before j)
    (kept : ∀ i ∈ before, key i ≠ gone → ∃ j ∈ after, key j = key i)
    : Mirrors key encode view after (m.erase gone) where
  complete j member := by
    rw [OrderedMap.find?_erase_of_ne m (unused j member)]
    exact mirrors.find?_of_shown (shown j member)
  sound k listed := by
    obtain ⟨other, old⟩ := OrderedMap.mem_keys_erase.mp listed
    obtain ⟨i, member, rfl⟩ := mirrors.sound k old
    exact kept i member other

-----------------------------------------------------------------------------------------
-- Many items at once
-----------------------------------------------------------------------------------------

/-- Items put into a replica one after another. -/
def putAll (key : ι → κ) (encode : ι → ν) (m : OrderedMap κ ν) (sent : List ι)
    : OrderedMap κ ν :=
  sent.foldl (fun r i => r.insert (key i) (encode i)) m

theorem putAll_append (key : ι → κ) (encode : ι → ν) (m : OrderedMap κ ν) (first last : List ι)
    : putAll key encode m (first ++ last) = putAll key encode (putAll key encode m first) last :=
  List.foldl_append

/-- A lookup afterwards finds what was there, or else the last item with the key that was put. -/
theorem find?_putAll_last (key : ι → κ) (encode : ι → ν) (sent : List ι) (m : OrderedMap κ ν)
    (k : κ)
    : ((putAll key encode m sent).find? k = m.find? k ∧ ∀ i ∈ sent, key i ≠ k)
      ∨ ∃ front i rest,
          sent = front ++ i :: rest ∧ key i = k ∧ (∀ j ∈ rest, key j ≠ k)
          ∧ (putAll key encode m sent).find? k = some (encode i) := by
  induction sent generalizing m with
  | nil => exact Or.inl ⟨rfl, by simp⟩
  | cons first rest ih =>
      rcases ih (m.insert (key first) (encode first)) with ⟨found, others⟩ | later
      · by_cases same : key first = k
        · subst same
          refine Or.inr ⟨[], first, rest, rfl, rfl, others, ?_⟩
          exact found.trans (OrderedMap.find?_insert_self _ _ _)
        · refine Or.inl ⟨found.trans (OrderedMap.find?_insert_of_ne _ _ (Ne.symm same)), ?_⟩
          exact List.forall_mem_cons.mpr ⟨same, others⟩
      · obtain ⟨front, i, last, rfl, sameKey, others, found⟩ := later
        exact Or.inr ⟨first :: front, i, last, rfl, sameKey, others, found⟩

theorem find?_putAll (key : ι → κ) (encode : ι → ν) (sent : List ι) (m : OrderedMap κ ν) (k : κ)
    : ((putAll key encode m sent).find? k = m.find? k ∧ ∀ i ∈ sent, key i ≠ k)
      ∨ ∃ i ∈ sent, key i = k ∧ (putAll key encode m sent).find? k = some (encode i) := by
  rcases find?_putAll_last key encode sent m k with none | ⟨front, i, rest, rfl, same, _, found⟩
  · exact Or.inl none
  · exact Or.inr ⟨i, by simp, same, found⟩

/-- An item after which none with its key is put. -/
theorem find?_putAll_middle (m : OrderedMap κ ν) (front : List ι) (i : ι) {rest : List ι}
    (last : ∀ j ∈ rest, key j ≠ key i)
    : (putAll key encode m (front ++ i :: rest)).find? (key i) = some (encode i) := by
  rw [putAll_append]
  let before := (putAll key encode m front).insert (key i) (encode i)
  rcases find?_putAll key encode rest before (key i) with ⟨found, _⟩ | ⟨j, member, same, _⟩
  · exact found.trans (OrderedMap.find?_insert_self _ _ _)
  · exact absurd same (last j member)

/-- The entries of a map, put one after another into an empty one. -/
theorem putAll_entries {ω : Type} (m : OrderedMap κ ν) (f : ν → ω)
    : putAll Prod.fst (fun entry : κ × ν => f entry.2) .empty m.entries = m.mapValues f := by
  apply OrderedMap.ext_find?
  intro k
  rw [OrderedMap.find?_mapValues]
  rcases find?_putAll Prod.fst (fun entry : κ × ν => f entry.2) m.entries .empty k with
    ⟨found, others⟩ | ⟨entry, member, rfl, found⟩
  · have absent : m.find? k = none := by
      rw [OrderedMap.find?_eq_none_iff]
      intro listed
      obtain ⟨value, stored⟩ := OrderedMap.mem_keys_iff.mp listed
      exact others _ (OrderedMap.mem_of_find? stored) rfl
    rw [found, absent, OrderedMap.find?_empty, Option.map_none]
  · rw [found, OrderedMap.find?_eq_some_iff.mpr member, Option.map_some]

/-- Several items of the later source sent in full. -/
theorem Mirrors.putAll {before after sent : List ι} {m : OrderedMap κ ν}
    (mirrors : Mirrors key encode view before m) (members : ∀ i ∈ sent, i ∈ after)
    (coherent : Coherent key encode view after)
    (shown : ∀ j ∈ after, (∀ i ∈ sent, key i ≠ key j) → Shown key encode view before j)
    (kept : KeysKept key before after)
    : Mirrors key encode view after (Replica.putAll key encode m sent) where
  complete j present := by
    rcases find?_putAll key encode sent m (key j) with
      ⟨found, others⟩ | ⟨i, member, sameKey, found⟩
    · rw [found]
      exact mirrors.find?_of_shown (shown j present others)
    · rw [found, Option.map_some]
      exact congrArg some (coherent i (members i member) j present sameKey)
  sound k listed := by
    obtain ⟨value, stored⟩ := OrderedMap.mem_keys_iff.mp listed
    rcases find?_putAll key encode sent m k with
      ⟨found, _⟩ | ⟨i, member, sameKey, _⟩
    · obtain ⟨i, member, rfl⟩ :=
        mirrors.sound k (OrderedMap.mem_keys_iff.mpr ⟨value, found.symm.trans stored⟩)
      exact kept i member
    · exact ⟨i, members i member, sameKey⟩

theorem mirrors_empty : Mirrors key encode view [] (.empty : OrderedMap κ ν) where
  complete := by simp
  sound := by simp

/-- A replica made anew from all the items, in whatever order. -/
theorem mirrors_putAll_empty {items sent : List ι} (same : ∀ i, i ∈ sent ↔ i ∈ items)
    (coherent : Coherent key encode view items)
    : Mirrors key encode view items (putAll key encode .empty sent) :=
  mirrors_empty.putAll (fun i member => (same i).mp member) coherent
    (fun j present others => absurd rfl (others j ((same j).mpr present)))
    (fun _ member => absurd member List.not_mem_nil)

end Replica
