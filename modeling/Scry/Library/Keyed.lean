import Mathlib.Data.List.Nodup
import Mathlib.Logic.Function.Basic

/-! Lists whose elements are known by a key, and hash indexes over them. -/

namespace Keyed

variable {α κ : Type} [DecidableEq κ] {key : α → κ} {items : List α} {x y : α}

/-- A lookup by key finds an element of the list that has the key. -/
theorem of_find?_key {k : κ} (found : items.find? (fun y => decide (key y = k)) = some x)
    : x ∈ items ∧ key x = k := by
  have member := List.mem_of_find?_eq_some found
  have holds := List.find?_some found
  exact ⟨member, by simpa using holds⟩

/-- Where keys are unique, a lookup by the key of an element finds that element. -/
theorem find?_key (unique : (items.map key).Nodup) (member : x ∈ items)
    : items.find? (fun y => decide (key y = key x)) = some x := by
  cases found : items.find? (fun y => decide (key y = key x)) with
  | none =>
      have missing := List.find?_eq_none.mp found x member
      simp at missing
  | some y =>
      obtain ⟨other, same⟩ := of_find?_key found
      rw [List.inj_on_of_nodup_map unique other member same]

/-- A lookup by key fails exactly when no element has the key. -/
theorem find?_key_eq_none {k : κ}
    : items.find? (fun y => decide (key y = k)) = none ↔ ∀ x ∈ items, key x ≠ k := by
  simp [List.find?_eq_none]

/-- Where keys are unique, erasing by their keys the elements that a test collected leaves the
ones it refuses, by induction on the list behind those already kept.
-/
theorem foldl_eraseP_filter (unique : (items.map key).Nodup) (p : α → Bool)
    : (items.filter p).foldl (fun l x => l.eraseP fun y => decide (key y = key x)) items
      = items.filter fun x => !p x := by
  suffices behind : ∀ kept : List α, (∀ y ∈ kept, ∀ x ∈ items, key y ≠ key x)
      → (items.filter p).foldl (fun l x => l.eraseP fun y => decide (key y = key x))
          (kept ++ items)
        = kept ++ items.filter fun x => !p x by
    simpa using behind [] (by simp)
  induction items with
  | nil => simp
  | cons x rest ih =>
      intro kept apart
      obtain ⟨fresh, restUnique⟩ := List.nodup_cons.mp unique
      by_cases chosen : p x = true
      · have erased : (kept ++ x :: rest).eraseP (fun y => decide (key y = key x)) = kept ++ rest := by
          rw [List.eraseP_append_right _ fun y member => by simp [apart y member x], List.eraseP_cons]
          simp
        rw [List.filter_cons_of_pos chosen, List.foldl_cons, erased,
          ih restUnique kept fun y member z later => apart y member z (List.mem_cons_of_mem x later),
          List.filter_cons_of_neg (by simp [chosen])]
      · have moved := ih restUnique (kept ++ [x]) (by
          intro y member z later
          rcases List.mem_append.mp member with old | same
          · exact apart y old z (List.mem_cons_of_mem x later)
          · rw [List.mem_singleton.mp same]
            exact fun equal => fresh (List.mem_map.mpr ⟨z, later, equal.symm⟩))
        rw [List.filter_cons_of_neg chosen, List.filter_cons_of_pos (by simpa using chosen)]
        simpa [List.append_assoc] using moved

/-- An index over a growing list points, for each key, to the last element that has it. -/
def IndexesLast (items : List α) (key : α → κ) (index : κ → Option Nat) : Prop :=
  ∀ k i, index k = some i ↔
    (∃ x, items[i]? = some x ∧ key x = k)
    ∧ ∀ later x, i < later → items[later]? = some x → key x ≠ k

omit [DecidableEq κ] in
theorem indexesLast_nil (key : α → κ) : IndexesLast [] key (fun _ => none) := by
  simp [IndexesLast]

/-- An element of a list with one more at its end is an old one or the new one. -/
theorem getElem?_snoc_iff {i : Nat}
    : (items ++ [x])[i]? = some y ↔ items[i]? = some y ∨ (i = items.length ∧ x = y) := by
  rcases Nat.lt_trichotomy i items.length with h | h | h
  · simp [List.getElem?_append_left h, Nat.ne_of_lt h]
  · simp [h]
  · have hout : (items ++ [x])[i]? = none := List.getElem?_eq_none (by simp; omega)
    simp [hout, List.getElem?_eq_none (Nat.le_of_lt h), Nat.ne_of_gt h]

/-- Appending an element and pointing its key to it keeps the index. -/
theorem IndexesLast.append {index : κ → Option Nat} (h : IndexesLast items key index) (x : α)
    : IndexesLast (items ++ [x]) key (Function.update index (key x) (some items.length)) := by
  have bound : ∀ {i y}, items[i]? = some y → i < items.length := fun hy =>
    (List.getElem?_eq_some_iff.mp hy).1
  intro k i
  by_cases hk : key x = k
  · subst hk
    rw [Function.update_self, Option.some.injEq]
    constructor
    · intro hi
      subst hi
      refine ⟨⟨x, by simp, rfl⟩, ?_⟩
      intro later y hl hy
      rcases getElem?_snoc_iff.mp hy with hy | ⟨he, -⟩
      · exact absurd (bound hy) (by omega)
      · omega
    · intro hi
      obtain ⟨⟨y, hy, -⟩, hlast⟩ := hi
      rcases getElem?_snoc_iff.mp hy with hy | ⟨he, -⟩
      · exact absurd rfl (hlast items.length x (bound hy) (by simp))
      · exact he.symm
  · rw [Function.update_of_ne (Ne.symm hk), h k i]
    constructor
    · intro hi
      obtain ⟨⟨y, hy, hkey⟩, hlast⟩ := hi
      refine ⟨⟨y, getElem?_snoc_iff.mpr (Or.inl hy), hkey⟩, ?_⟩
      intro later z hl hz
      rcases getElem?_snoc_iff.mp hz with hz | ⟨-, rfl⟩
      · exact hlast later z hl hz
      · exact hk
    · intro hi
      obtain ⟨⟨y, hy, hkey⟩, hlast⟩ := hi
      rcases getElem?_snoc_iff.mp hy with hy | ⟨-, rfl⟩
      · refine ⟨⟨y, hy, hkey⟩, ?_⟩
        intro later z hl hz
        exact hlast later z hl (getElem?_snoc_iff.mpr (Or.inl hz))
      · exact absurd hkey hk

omit [DecidableEq κ] in
/-- Where a key belongs to one element, the index points to it. -/
theorem IndexesLast.eq_some {index : κ → Option Nat} (h : IndexesLast items key index)
    {i : Nat} (hx : items[i]? = some x)
    (unique : ∀ (j : Nat) y, items[j]? = some y → key y = key x → j = i)
    : index (key x) = some i := by
  rw [h]
  refine ⟨⟨x, hx, rfl⟩, ?_⟩
  intro later y hl hy hkey
  have := unique later y hy hkey
  omega

end Keyed
