import Mathlib.Data.List.Basic
import Mathlib.Logic.Function.Basic
import Scry.Library.Traced

/-! Many components, each with a state of its own, and computations that work on one of them.
A component's part of a whole run is a run of its own, and nothing that is done to the others
shows in it.
-/

namespace Traced

variable {ι ε σ ω α γ : Type} [DecidableEq ι]

/-- A computation on one component, which marks its events as that component's. -/
def component (i : ι) (m : Traced ε σ ω α) : Traced ε (ι → σ) (ι × ω) α := fun states =>
  match m (states i) with
  | .error e => .error e
  | .ok (a, t, w) => .ok (a, Function.update states i t, w.map (Prod.mk i))

/-- What is marked as one component's. -/
def ofComponent (i : ι) (marked : List (ι × γ)) : List γ :=
  marked.filterMap fun item => if item.1 = i then some item.2 else none

/-- Calls of components, one after another. -/
def calls (body : ι → γ → Traced ε σ ω Unit) : List (ι × γ) → Traced ε (ι → σ) (ι × ω) Unit :=
  forEach fun call => component call.1 (body call.1 call.2)

variable {i j : ι} {states later : ι → σ} {marked : List (ι × ω)}

-----------------------------------------------------------------------------------------
-- Marks
-----------------------------------------------------------------------------------------

@[simp]
theorem ofComponent_append (first last : List (ι × γ))
    : ofComponent i (first ++ last) = ofComponent i first ++ ofComponent i last :=
  List.filterMap_append

@[simp]
theorem ofComponent_own (w : List γ) : ofComponent i (w.map (Prod.mk i)) = w := by
  induction w with
  | nil => rfl
  | cons e rest ih => simp [ofComponent]

theorem ofComponent_other (apart : i ≠ j) (w : List γ)
    : ofComponent j (w.map (Prod.mk i)) = [] := by
  simp [ofComponent, apart]

theorem mem_ofComponent {e : γ} {items : List (ι × γ)}
    : e ∈ ofComponent i items ↔ (i, e) ∈ items := by
  simp only [ofComponent, List.mem_filterMap, Prod.exists, Option.ite_none_right_eq_some,
    Option.some.injEq]
  constructor
  · rintro ⟨_, _, member, rfl, rfl⟩
    exact member
  · exact fun member => ⟨i, e, member, rfl, rfl⟩

-----------------------------------------------------------------------------------------
-- Runs
-----------------------------------------------------------------------------------------

/-- A completed computation of a component is one on its state; the others keep theirs. -/
theorem component_eq_ok {m : Traced ε σ ω α} {a : α}
    : component i m states = .ok (a, later, marked)
      ↔ ∃ t w,
          m (states i) = .ok (a, t, w)
            ∧ later = Function.update states i t
            ∧ marked = w.map (Prod.mk i) := by
  simp only [component]
  constructor
  · intro run
    split at run
    · cases run
    · rename_i a' t w own
      cases run
      exact ⟨t, w, own, rfl, rfl⟩
  · rintro ⟨t, w, own, rfl, rfl⟩
    simp only [own]

/-- Completed loops one after another. -/
theorem forEach_append {f : γ → Traced ε σ ω Unit} {first last : List γ} {s t u : σ}
    {w v : List ω} (early : forEach f first s = .ok ((), t, w))
    (late : forEach f last t = .ok ((), u, v))
    : forEach f (first ++ last) s = .ok ((), u, w ++ v) := by
  induction first generalizing s w with
  | nil =>
      cases early
      exact late
  | cons item rest ih =>
      obtain ⟨_, between, w', w'', head, tail, rfl⟩ := bind_eq_ok.mp early
      rw [List.append_assoc]
      exact bind_eq_ok.mpr ⟨(), between, w', w'' ++ v, head, ih tail, rfl⟩

/-- What a component goes through in a run is the run of the calls that are made to it. -/
theorem calls_project {body : ι → γ → Traced ε σ ω Unit} {list : List (ι × γ)}
    (run : calls body list states = .ok ((), later, marked)) (i : ι)
    : forEach (body i) (ofComponent i list) (states i)
        = .ok ((), later i, ofComponent i marked) := by
  induction list generalizing states marked with
  | nil =>
      cases run
      rfl
  | cons call rest ih =>
      obtain ⟨_, between, first, last, head, tail, rfl⟩ := bind_eq_ok.mp run
      obtain ⟨t, w, own, rfl, rfl⟩ := component_eq_ok.mp head
      have others := ih tail
      obtain ⟨j, item⟩ := call
      by_cases same : j = i
      · subst same
        rw [Function.update_self] at others
        rw [ofComponent_append, ofComponent_own]
        have listed : ofComponent j ((j, item) :: rest) = item :: ofComponent j rest := by
          simp [ofComponent]
        rw [listed]
        exact bind_eq_ok.mpr ⟨(), t, w, _, own, others, rfl⟩
      · rw [Function.update_of_ne (Ne.symm same)] at others
        rw [ofComponent_append, ofComponent_other same, List.nil_append]
        have listed : ofComponent i ((j, item) :: rest) = ofComponent i rest := by
          simp [ofComponent, same]
        rwa [listed]

end Traced
