import Mathlib.Data.List.Infix
import Mathlib.Data.List.MinMax

/-! The longest tail that two lists share, and loops that keep the first of the items with the
highest score.
-/

namespace LongestTail

variable {α : Type}

-----------------------------------------------------------------------------------------
-- Shared tails
-----------------------------------------------------------------------------------------

section Shared

variable [DecidableEq α]

/-- How many items two lists have in common at their beginnings. -/
def sharedHead : List α → List α → Nat
  | a :: as, b :: bs => if a = b then sharedHead as bs + 1 else 0
  | _, _ => 0

/-- A longer beginning in common is a longer list that both begin with; by the recursion. -/
theorem le_sharedHead_iff {as bs : List α} {n : Nat}
    : n ≤ sharedHead as bs ↔ ∃ head, head.length = n ∧ head <+: as ∧ head <+: bs := by
  induction as, bs using sharedHead.induct generalizing n with
  | case1 as b bs ih =>
      rw [sharedHead, if_pos rfl]
      constructor
      · intro short
        cases n with
        | zero => exact ⟨[], rfl, List.nil_prefix, List.nil_prefix⟩
        | succ n =>
            obtain ⟨head, rfl, first, second⟩ := ih.mp (Nat.le_of_succ_le_succ short)
            exact ⟨b :: head, rfl, (List.prefix_cons_inj b).mpr first,
              (List.prefix_cons_inj b).mpr second⟩
      · rintro ⟨head, rfl, first, second⟩
        cases head with
        | nil => exact Nat.zero_le _
        | cons c head =>
            have behindFirst := (List.cons_prefix_cons.mp first).2
            have behindSecond := (List.cons_prefix_cons.mp second).2
            exact Nat.succ_le_succ (ih.mpr ⟨head, rfl, behindFirst, behindSecond⟩)
  | case2 a as b bs differ =>
      rw [sharedHead, if_neg differ]
      constructor
      · intro none
        obtain rfl := Nat.le_zero.mp none
        exact ⟨[], rfl, List.nil_prefix, List.nil_prefix⟩
      · rintro ⟨head, rfl, first, second⟩
        cases head with
        | nil => exact Nat.le_refl _
        | cons c head =>
            obtain ⟨rfl, -⟩ := List.cons_prefix_cons.mp first
            exact absurd (List.cons_prefix_cons.mp second).1 differ
  | case3 as bs short =>
      rw [sharedHead.eq_def]
      constructor
      · intro none
        split at none
        · exact absurd rfl (short _ _ _ _ rfl)
        · obtain rfl := Nat.le_zero.mp none
          exact ⟨[], rfl, List.nil_prefix, List.nil_prefix⟩
      · rintro ⟨head, rfl, first, second⟩
        cases head with
        | nil => exact Nat.zero_le _
        | cons c head =>
            obtain ⟨_, rfl⟩ := first
            obtain ⟨_, rfl⟩ := second
            exact absurd rfl (short _ _ _ _ rfl)

/-- How many items two lists have in common at their ends. -/
def sharedTail (as bs : List α) : Nat := sharedHead as.reverse bs.reverse

theorem le_sharedTail_iff {as bs : List α} {n : Nat}
    : n ≤ sharedTail as bs ↔ ∃ tail, tail.length = n ∧ tail <:+ as ∧ tail <:+ bs := by
  rw [sharedTail, le_sharedHead_iff]
  constructor
  · rintro ⟨head, length, first, second⟩
    refine ⟨head.reverse, by rw [List.length_reverse, length], ?_, ?_⟩
    · rwa [← List.reverse_prefix, List.reverse_reverse]
    · rwa [← List.reverse_prefix, List.reverse_reverse]
  · rintro ⟨tail, length, first, second⟩
    exact ⟨tail.reverse, by rw [List.length_reverse, length], List.reverse_prefix.mpr first,
      List.reverse_prefix.mpr second⟩

end Shared

-----------------------------------------------------------------------------------------
-- The item with the highest score
-----------------------------------------------------------------------------------------

variable {f : α → Nat} {items : List α} {a : α}

/-- One round of a loop that keeps an item and its score: only a higher score replaces them. -/
def keepHigher (f : α → Nat) (best : α × Nat) (item : α) : α × Nat :=
  if best.2 < f item then (item, f item) else best

/-- The loop keeps the first of the highest items, if it keeps any. By induction on the items from
the last one back.
-/
theorem foldl_keepHigher (best : α × Nat)
    : items.foldl (keepHigher f) best = (items.argmax f).elim best (keepHigher f best) := by
  induction items using List.reverseRecOn with
  | nil => rfl
  | append_singleton earlier a ih =>
      rw [List.foldl_append, List.foldl_cons, List.foldl_nil, ih, List.argmax_concat]
      cases earlier.argmax f with
      | none => rfl
      | some c =>
          by_cases higher : f c < f a
          · simp only [if_pos higher, Option.elim_some, keepHigher]
            split_ifs with above low <;> first | rfl | omega
          · simp only [if_neg higher, Option.elim_some, keepHigher]
            split_ifs with above low <;> first | rfl | omega

variable [DecidableEq α]

/-- An item that no other is higher than is found where it comes first. -/
theorem argmax_cons_highest (highest : ∀ b ∈ items, f b ≤ f a)
    : (a :: items).argmax f = some a := by
  refine List.argmax_eq_some_iff.mpr ⟨List.mem_cons_self, ?_, fun b _ _ => ?_⟩
  · intro b member
    rcases List.mem_cons.mp member with rfl | member
    · exact Nat.le_refl _
    · exact highest b member
  · rw [List.idxOf_cons_self]
    exact Nat.zero_le _

end LongestTail
