import Mathlib.Data.Finset.Card
import Mathlib.Data.Finset.Filter
import Mathlib.Data.Set.Finite.Basic
import Mathlib.Order.Interval.Finset.Nat

/-! Numbered items that arrive in any order and are delivered in order. After any arrivals the
longest prefix without a gap can be delivered; what came from beyond its end is held back until
the gap is filled.
-/

namespace InOrder

variable {received : Finset Nat} {i k : Nat}

/-- The first number that did not arrive, which is how many items can be delivered. -/
def firstMissing (received : Finset Nat) : Nat :=
  Nat.find (Infinite.exists_notMem_finset received)

/-- What arrived from beyond the first gap. -/
def heldBack (received : Finset Nat) : Finset Nat := received.filter (firstMissing received < ·)

theorem firstMissing_notMem (received : Finset Nat) : firstMissing received ∉ received :=
  Nat.find_spec (Infinite.exists_notMem_finset received)

theorem mem_of_lt_firstMissing (below : i < firstMissing received) : i ∈ received :=
  not_not.mp (Nat.find_min (Infinite.exists_notMem_finset received) below)

/-- No more is held back than arrived. -/
theorem card_heldBack_le (received : Finset Nat) : (heldBack received).card ≤ received.card :=
  Finset.card_filter_le _ _

/-- The first gap is the only number that did not arrive while all the numbers below it did. -/
theorem firstMissing_eq (below : ∀ i < k, i ∈ received) (missing : k ∉ received)
    : firstMissing received = k :=
  (Nat.find_eq_iff _).mpr ⟨missing, fun i less => not_not.mpr (below i less)⟩

theorem mem_heldBack : i ∈ heldBack received ↔ i ∈ received ∧ firstMissing received < i :=
  Finset.mem_filter

@[simp]
theorem firstMissing_empty : firstMissing ∅ = 0 :=
  firstMissing_eq (fun _ below => absurd below (Nat.not_lt_zero _)) (Finset.notMem_empty 0)

@[simp]
theorem heldBack_empty : heldBack ∅ = ∅ := Finset.filter_empty _

/-- An arrival elsewhere than at the gap leaves the gap. -/
theorem firstMissing_insert_of_ne (elsewhere : i ≠ firstMissing received)
    : firstMissing (insert i received) = firstMissing received := by
  apply firstMissing_eq
  · intro j below
    exact Finset.mem_insert_of_mem (mem_of_lt_firstMissing below)
  · rw [Finset.mem_insert, not_or]
    exact ⟨elsewhere.symm, firstMissing_notMem received⟩

/-- An arrival from beyond the gap is held back. -/
theorem heldBack_insert_of_lt (beyond : firstMissing received < i)
    : heldBack (insert i received) = insert i (heldBack received) := by
  rw [heldBack, firstMissing_insert_of_ne beyond.ne', Finset.filter_insert, if_pos beyond, heldBack]

/-- An arrival from before the gap is a repetition. -/
theorem insert_of_lt (before : i < firstMissing received) : insert i received = received :=
  Finset.insert_eq_of_mem (mem_of_lt_firstMissing before)

/-- An arrival at the gap moves it behind the items held back without a gap. -/
theorem firstMissing_insert_self (further : firstMissing received < k)
    (followers : ∀ j, firstMissing received < j → j < k → j ∈ heldBack received)
    (missing : k ∉ heldBack received)
    : firstMissing (insert (firstMissing received) received) = k := by
  apply firstMissing_eq
  · intro j below
    rcases lt_trichotomy j (firstMissing received) with earlier | rfl | later
    · exact Finset.mem_insert_of_mem (mem_of_lt_firstMissing earlier)
    · exact Finset.mem_insert_self _ _
    · exact Finset.mem_insert_of_mem (mem_heldBack.mp (followers j later below)).1
  · rw [Finset.mem_insert, not_or]
    exact ⟨further.ne', fun member => missing (mem_heldBack.mpr ⟨member, further⟩)⟩

/-- A further arrival does not move the gap back. -/
theorem firstMissing_le_insert (received : Finset Nat) (i : Nat)
    : firstMissing received ≤ firstMissing (insert i received) := by
  by_contra earlier
  exact firstMissing_notMem (insert i received)
    (Finset.mem_insert_of_mem (mem_of_lt_firstMissing (not_le.mp earlier)))

/-- What is still held back then is what lies behind it. -/
theorem heldBack_insert_self (further : firstMissing received < k)
    (moved : firstMissing (insert (firstMissing received) received) = k)
    : heldBack (insert (firstMissing received) received) = (heldBack received).filter (k < ·) := by
  ext j
  rw [mem_heldBack, moved, Finset.mem_filter, mem_heldBack, Finset.mem_insert]
  constructor
  · rintro ⟨rfl | member, beyond⟩
    · exact absurd further beyond.asymm
    · exact ⟨⟨member, further.trans beyond⟩, beyond⟩
  · rintro ⟨⟨member, _⟩, beyond⟩
    exact ⟨.inr member, beyond⟩

/-- Lists are cut alike by tests that agree on their members. -/
theorem takeWhile_congr {α : Type} {p q : α → Bool} {items : List α}
    (agree : ∀ item ∈ items, p item = q item)
    : items.takeWhile p = items.takeWhile q := by
  induction items with
  | nil => rfl
  | cons item rest ih =>
      rw [List.takeWhile_cons, List.takeWhile_cons, agree item List.mem_cons_self,
        ih fun other member => agree other (List.mem_cons_of_mem _ member)]

theorem range_append (first length : Nat)
    : List.range first ++ List.range' first length = List.range (first + length) := by
  have joined := List.range'_append_1 (s := 0) (m := first) (n := length)
  rwa [Nat.zero_add, ← List.range_eq_range', ← List.range_eq_range'] at joined

/-- The longest run without a gap, by induction on how far is looked. -/
theorem exists_run (p : Nat → Bool) (start count : Nat)
    : ∃ length ≤ count,
        (List.range' start count).takeWhile p = List.range' start length
          ∧ (∀ i, start ≤ i → i < start + length → p i = true)
          ∧ (length < count → p (start + length) = false) := by
  induction count generalizing start with
  | zero => exact ⟨0, le_rfl, rfl, fun i least below => by omega, fun less => by omega⟩
  | succ count ih =>
      rw [List.range'_succ]
      cases here : p start with
      | false =>
          exact ⟨0, Nat.zero_le _, List.takeWhile_cons_of_neg (by simp [here]),
            fun i least below => by omega, fun _ => here⟩
      | true =>
          obtain ⟨length, fits, taken, inside, stops⟩ := ih (start + 1)
          refine ⟨length + 1, Nat.succ_le_succ fits, ?_, fun i least below => ?_, fun less => ?_⟩
          · rw [List.takeWhile_cons_of_pos here, taken, List.range'_succ]
          · rcases Nat.eq_or_lt_of_le least with rfl | later
            · exact here
            · exact inside i later (by omega)
          · have further := stops (by omega)
            rwa [Nat.add_right_comm] at further

end InOrder
