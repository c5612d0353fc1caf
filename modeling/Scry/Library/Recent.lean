import Mathlib.Data.List.Destutter
import Mathlib.Data.List.DropRight

/-! What is kept of a list that grows at its end: the elements that differ from the one kept
before them, and the last of those.
-/

namespace Recent

variable {α : Type} {R : α → α → Prop} [DecidableRel R] {l : List α} {a x : α} {most : Nat}

-----------------------------------------------------------------------------------------
-- Elements that differ from the one before
-----------------------------------------------------------------------------------------

/-- Another element is kept if it differs from the last one kept, by induction on those before
it.
-/
theorem destutter'_concat (a : α) (l : List α) (x : α)
    : (l ++ [x]).destutter' R a
      = if R ((l.destutter' R a).getLast (List.destutter'_ne_nil l R)) x
        then l.destutter' R a ++ [x] else l.destutter' R a := by
  induction l generalizing a with
  | nil => by_cases differs : R a x <;> simp [differs]
  | cons b rest ih =>
      by_cases differs : R a b
      · have last : ((b :: rest).destutter' R a).getLast (List.destutter'_ne_nil _ R)
            = (rest.destutter' R b).getLast (List.destutter'_ne_nil _ R) := by
          simp only [List.destutter'_cons_pos rest differs]
          exact List.getLast_cons (List.destutter'_ne_nil _ R)
        rw [List.cons_append, List.destutter'_cons_pos _ differs, ih b, last,
          List.destutter'_cons_pos rest differs]
        split <;> rfl
      · simp only [List.cons_append, List.destutter'_cons_neg _ differs, ih a]

theorem destutter_concat_of_rel (differs : ∀ a ∈ (l.destutter R).getLast?, R a x)
    : (l ++ [x]).destutter R = l.destutter R ++ [x] := by
  cases l with
  | nil => rfl
  | cons a rest =>
      rw [List.destutter_cons'] at differs ⊢
      rw [List.cons_append, List.destutter_cons', destutter'_concat,
        if_pos (differs _ (List.getLast?_eq_some_getLast (List.destutter'_ne_nil rest R)))]

theorem destutter_concat_of_not_rel (last : (l.destutter R).getLast? = some a) (same : ¬ R a x)
    : (l ++ [x]).destutter R = l.destutter R := by
  cases l with
  | nil => cases last
  | cons b rest =>
      rw [List.destutter_cons'] at last ⊢
      rw [List.getLast?_eq_some_getLast (List.destutter'_ne_nil rest R), Option.some.injEq] at last
      rw [List.cons_append, List.destutter_cons', destutter'_concat, last, if_neg same]

-----------------------------------------------------------------------------------------
-- The last elements
-----------------------------------------------------------------------------------------

theorem length_rtake (l : List α) (n : Nat) : (l.rtake n).length = min n l.length := by
  rw [List.rtake, List.length_drop]
  omega

theorem rtake_of_length_le (short : l.length ≤ most) : l.rtake most = l := by
  rw [List.rtake, Nat.sub_eq_zero_of_le short, List.drop_zero]

theorem getLast?_rtake_succ (l : List α) (n : Nat) : (l.rtake (n + 1)).getLast? = l.getLast? := by
  induction l using List.reverseRecOn with
  | nil => rw [List.rtake_nil]
  | append_singleton l x _ => simp

/-- To append to a list that gives up its first element when it is already longer than `most`. -/
def pushWithin (most : Nat) (l : List α) (x : α) : List α :=
  (if most < l.length then l.drop 1 else l) ++ [x]

/-- Such a list has the last elements of all that came, one more than `most` of them. -/
theorem pushWithin_rtake (most : Nat) (l : List α) (x : α)
    : pushWithin most (l.rtake (most + 1)) x = (l ++ [x]).rtake (most + 1) := by
  rw [pushWithin, List.rtake_concat_succ, length_rtake]
  congr 1
  split
  · have full : most + 1 ≤ l.length := by omega
    rw [List.rtake, List.drop_drop, List.rtake]
    congr 1
    omega
  · have short : l.length ≤ most := by omega
    rw [rtake_of_length_le short, rtake_of_length_le (Nat.le_succ_of_le short)]

end Recent
