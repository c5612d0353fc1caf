import Mathlib.Data.List.Basic

/-! Searching a list of places in order: where the first one that has a thing is also the first
one that has another.
-/

namespace Search

variable {α : Type} {p q : α → Bool} {places before after initial rest : List α} {place d : α}

/-- A place is the first one that has something, with the places before and after it. -/
structure First (p : α → Bool) (places before : List α) (place : α) (after : List α) : Prop where
  split : places = before ++ place :: after
  none_before : ∀ d ∈ before, p d = false
  has : p place = true

theorem First.find? (first : First p places before place after) : places.find? p = some place :=
  List.find?_eq_some_iff_append.mpr
    ⟨first.has, before, after, first.split, fun d mem => by rw [first.none_before d mem]; rfl⟩

theorem exists_first (found : places.find? p = some place)
    : ∃ before after, First p places before place after := by
  obtain ⟨has, before, after, split, none_before⟩ := List.find?_eq_some_iff_append.mp found
  exact ⟨before, after, split, fun d mem => Bool.not_eq_true' _ |>.mp (none_before d mem), has⟩

theorem First.not_mem_before (first : First p places before place after) : place ∉ before := by
  intro mem
  exact absurd first.has (by rw [first.none_before place mem]; exact Bool.false_ne_true)

/-- What is found of a list is found in any list that it begins. -/
theorem find?_initial (rest : List α) (found : initial.find? q = some d)
    : (initial ++ rest).find? q = some d := by
  rw [List.find?_append, found, Option.some_or]

/-- Only the first place with one thing is found for another exactly where no place before it has
that, and it has that if a place after it does.
-/
theorem First.only_iff (first : First p places before place after)
    : (∀ d, places.find? q = some d → d = place)
      ↔ (∀ d ∈ before, q d = false) ∧ ∀ d ∈ after, q d = true → q place = true := by
  rw [first.split]
  constructor
  · intro only
    constructor
    · intro d mem
      by_contra has
      obtain ⟨e, found⟩ := Option.isSome_iff_exists.mp
        (List.find?_isSome.mpr ⟨d, mem, (Bool.not_eq_false _).mp has⟩)
      obtain rfl := only e (find?_initial _ found)
      exact first.not_mem_before (List.mem_of_find?_eq_some found)
    · intro d mem has
      obtain ⟨e, found⟩ := Option.isSome_iff_exists.mp (List.find?_isSome.mpr
        ⟨d, List.mem_append_right before (List.mem_cons_of_mem place mem), has⟩)
      exact only e found ▸ List.find?_some found
  · rintro ⟨none_before, later⟩ d found
    have nothing : before.find? q = none :=
      List.find?_eq_none.mpr fun e mem => by rw [none_before e mem]; exact Bool.false_ne_true
    rw [List.find?_append, nothing, Option.none_or, List.find?_cons] at found
    split at found
    · exact (Option.some.inj found).symm
    next lacks =>
      have mem := List.mem_of_find?_eq_some found
      rw [later d mem (List.find?_some found)] at lacks
      cases lacks

/-- Of two splits of one list, one is at a place before the other's, or they are the same. -/
theorem split_cases {others following : List α}
    (same : others ++ d :: following = before ++ place :: after)
    : (others = before ∧ d = place) ∨ d ∈ before ∨ place ∈ others := by
  rcases List.append_eq_append_iff.mp same with ⟨more, rfl, at_d⟩ | ⟨more, rfl, at_place⟩
  · cases more with
    | nil => exact .inl ⟨(List.append_nil _).symm, (List.cons.inj at_d).1⟩
    | cons e more =>
        obtain rfl := (List.cons.inj at_d).1
        exact .inr (.inl (List.mem_append_right _ List.mem_cons_self))
  · cases more with
    | nil => exact .inl ⟨List.append_nil _, (List.cons.inj at_place).1.symm⟩
    | cons e more =>
        obtain rfl := (List.cons.inj at_place).1
        exact .inr (.inr (List.mem_append_right _ List.mem_cons_self))

/-- Where the first place with one thing has another, it is the first one with that in an
initial part of the places exactly where no place of this part before it has it.
-/
theorem First.initial_iff (first : First p places before place after)
    (whole : places = initial ++ rest) (has : q place = true)
    : (∀ d, initial.find? q = some d → d = place)
      ↔ ∀ d ∈ before, d ∈ initial → q d = false := by
  constructor
  · intro only d mem inside
    by_contra has_d
    obtain ⟨e, found⟩ := Option.isSome_iff_exists.mp
      (List.find?_isSome.mpr ⟨d, inside, (Bool.not_eq_false _).mp has_d⟩)
    obtain rfl := only e found
    obtain ⟨others, following, other⟩ := exists_first (find?_initial rest found)
    rcases split_cases (other.split.symm.trans (whole.symm.trans first.split)) with
      ⟨rfl, -⟩ | mem | mem
    · exact has_d (other.none_before d mem)
    · exact first.not_mem_before mem
    · exact other.not_mem_before mem
  · intro none_before d found
    obtain ⟨others, following, other⟩ := exists_first (find?_initial rest found)
    rcases split_cases (other.split.symm.trans (whole.symm.trans first.split)) with
      ⟨-, rfl⟩ | mem | mem
    · rfl
    · have lacks := none_before d mem (List.mem_of_find?_eq_some found)
      rw [other.has] at lacks
      cases lacks
    · have lacks := other.none_before place mem
      rw [has] at lacks
      cases lacks

end Search
