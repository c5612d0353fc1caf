import Mathlib.Data.List.Basic

/-! Loops over an array that change the first element with a property and stop there. -/

namespace FirstMatch

variable {α : Type} {p : α → Bool} {f : α → α} {items after : List α} {old : α}

/-- The first element with the property as it was, and the array with it changed; nothing where
there is none.
-/
def updateFirst (p : α → Bool) (f : α → α) : List α → Option (α × List α)
  | [] => none
  | a :: rest =>
      if p a then some (a, f a :: rest)
      else (updateFirst p f rest).map fun found => (found.1, a :: found.2)

/-- Where there is no such element, by induction on the array. -/
theorem updateFirst_eq_none : updateFirst p f items = none ↔ ∀ a ∈ items, p a = false := by
  induction items with
  | nil => simp [updateFirst]
  | cons a rest ih =>
      rw [updateFirst]
      by_cases holds : p a = true
      · simp [holds]
      · simp [holds, ih]

/-- The array around the changed element, by induction on it. -/
theorem updateFirst_split (found : updateFirst p f items = some (old, after))
    : ∃ front back, items = front ++ old :: back ∧ after = front ++ f old :: back
      ∧ p old = true ∧ ∀ a ∈ front, p a = false := by
  induction items generalizing after with
  | nil => exact nomatch found
  | cons a rest ih =>
      rw [updateFirst] at found
      by_cases holds : p a = true
      · rw [if_pos holds, Option.some.injEq, Prod.mk.injEq] at found
        obtain ⟨rfl, rfl⟩ := found
        exact ⟨[], rest, rfl, rfl, holds, nofun⟩
      · rw [if_neg holds, Option.map_eq_some_iff] at found
        obtain ⟨found, later, same⟩ := found
        obtain ⟨rfl, rfl⟩ := Prod.mk.inj same
        obtain ⟨front, back, whole, changed, isOld, before⟩ := ih later
        refine ⟨a :: front, back, by rw [whole]; rfl, by rw [changed]; rfl, isOld, ?_⟩
        intro b member
        rcases List.mem_cons.mp member with rfl | member
        · exact Bool.eq_false_iff.mpr holds
        · exact before b member

/-- The changed element is the one that a search finds. -/
theorem find?_of_updateFirst (found : updateFirst p f items = some (old, after))
    : items.find? p = some old := by
  obtain ⟨front, back, rfl, -, holds, before⟩ := updateFirst_split found
  rw [List.find?_append, List.find?_eq_none.mpr (by simpa using before), List.find?_cons, holds]
  rfl

-----------------------------------------------------------------------------------------
-- Free places filled one after another
-----------------------------------------------------------------------------------------

variable {free : α → Bool} {places : List α}

/-- Each item takes the first free place; an item that finds none is left out. -/
def fill (free : α → Bool) : List α → List α → List α
  | [], places => places
  | item :: rest, places =>
      match updateFirst free (fun _ => item) places with
      | none => fill free rest places
      | some (_, after) => fill free rest after

theorem fill_cons (item : α) (rest : List α)
    : fill free (item :: rest) places = fill free rest (fill free [item] places) := by
  rw [fill, fill]
  cases updateFirst free (fun _ => item) places with
  | none => rfl
  | some slots => rfl

/-- An item that takes a free place leaves one free place less. -/
theorem countP_fill_one (places : List α) {item : α} (taken : free item = false)
    : (fill free [item] places).countP free = places.countP free - 1 := by
  rw [fill]
  cases found : updateFirst free (fun _ => item) places with
  | none =>
      have none : places.countP free = 0 :=
        List.countP_eq_zero.mpr fun a member => by simp [updateFirst_eq_none.mp found a member]
      dsimp only [fill]
      rw [none]
  | some slots =>
      obtain ⟨old, after⟩ := slots
      obtain ⟨front, back, rfl, rfl, vacant, -⟩ := updateFirst_split found
      simp only [fill, List.countP_append, List.countP_cons, vacant, taken, if_true,
        Bool.false_eq_true, if_false]
      omega

/-- Without a free place nothing is put anywhere, by induction on the items. -/
theorem fill_of_full (full : ∀ a ∈ places, free a = false) : fill free items places = places := by
  induction items with
  | nil => rfl
  | cons item rest ih => rw [fill, updateFirst_eq_none.mpr full, ih]

/-- A place that is taken keeps what it has, by induction on the items. -/
theorem fill_getElem? {i : Nat} {a : α} (here : places[i]? = some a) (taken : free a = false)
    : (fill free items places)[i]? = some a := by
  induction items generalizing places with
  | nil => exact here
  | cons item rest ih =>
      rw [fill]
      cases found : updateFirst free (fun _ => item) places with
      | none => exact ih here
      | some slots =>
          obtain ⟨old, after⟩ := slots
          obtain ⟨front, back, rfl, rfl, vacant, -⟩ := updateFirst_split found
          refine ih ?_
          have apart : i ≠ front.length := by
            rintro rfl
            rw [List.getElem?_append_right (Nat.le_refl _), Nat.sub_self,
              List.getElem?_cons_zero, Option.some.injEq] at here
            exact absurd (here ▸ vacant) (by rw [taken]; decide)
          rcases Nat.lt_or_gt_of_ne apart with before | behind
          · rw [List.getElem?_append_left before] at here ⊢
            exact here
          · obtain ⟨j, rfl⟩ := Nat.exists_eq_add_of_lt behind
            rw [List.getElem?_append_right (by omega)] at here ⊢
            have one : front.length + j + 1 - front.length = j + 1 := by omega
            rw [one, List.getElem?_cons_succ] at here ⊢
            exact here

/-- What is in the taken places afterwards: what was there, and as many items as there were free
places. By induction on the items.
-/
theorem fill_perm (places : List α) (taken : ∀ item ∈ items, free item = false)
    : ((fill free items places).filter (!free ·)).Perm
        (places.filter (!free ·) ++ items.take (places.countP free)) := by
  induction items generalizing places with
  | nil => simp [fill]
  | cons item rest ih =>
      have isTaken := taken item List.mem_cons_self
      have others := fun a member => taken a (List.mem_cons_of_mem _ member)
      rw [fill]
      cases found : updateFirst free (fun _ => item) places with
      | none =>
          have full := updateFirst_eq_none.mp found
          have none : places.countP free = 0 :=
            List.countP_eq_zero.mpr fun a member => by simp [full a member]
          dsimp only
          rw [fill_of_full full, none, List.take_zero, List.append_nil]
      | some slots =>
          obtain ⟨old, after⟩ := slots
          obtain ⟨front, back, rfl, rfl, vacant, -⟩ := updateFirst_split found
          refine (ih _ others).trans ?_
          have one : (front ++ old :: back).countP free
              = (front ++ item :: back).countP free + 1 := by
            simp only [List.countP_append, List.countP_cons, vacant, isTaken, if_true,
              Bool.false_eq_true, if_false]
            omega
          rw [one, List.take_succ_cons]
          simp only [List.filter_append, List.filter_cons, vacant, isTaken, Bool.not_true,
            Bool.not_false, if_true, Bool.false_eq_true, if_false, List.append_assoc,
            List.cons_append]
          refine List.Perm.append_left _ ?_
          exact List.perm_middle.symm

theorem fill_length : (fill free items places).length = places.length := by
  induction items generalizing places with
  | nil => rfl
  | cons item rest ih =>
      rw [fill]
      cases found : updateFirst free (fun _ => item) places with
      | none => exact ih
      | some slots =>
          obtain ⟨old, after⟩ := slots
          obtain ⟨front, back, rfl, rfl, -, -⟩ := updateFirst_split found
          rw [ih]
          simp

end FirstMatch
