import Mathlib.Order.Basic

/-! Stateful computations that may fault and record a trace of what they did.
The rules below turn a completed run into a chain of steps, and carry an invariant over the
state and the whole history along such a chain.
-/

/-- A computation over states `σ`: it faults with an `ε`, or returns a value, the new
state and the events it recorded, in order.
-/
def Traced (ε σ ω α : Type) := σ → Except ε (α × σ × List ω)

namespace Traced

variable {ε σ ω α β : Type}

-----------------------------------------------------------------------------------------
-- Primitive computations
-----------------------------------------------------------------------------------------

/-- Return a value without touching the state. -/
protected def pure (a : α) : Traced ε σ ω α := fun s => .ok (a, s, [])

/-- Run one computation, then the one chosen by its value; traces concatenate. -/
protected def bind (m : Traced ε σ ω α) (f : α → Traced ε σ ω β) : Traced ε σ ω β :=
  fun s =>
    match m s with
    | .error e => .error e
    | .ok (a, t, w) =>
        match f a t with
        | .error e => .error e
        | .ok (b, u, v) => .ok (b, u, w ++ v)

instance : Monad (Traced ε σ ω) where
  pure := Traced.pure
  bind := Traced.bind

/-- Read the state. -/
def get : Traced ε σ ω σ := fun s => .ok (s, s, [])

/-- Update the state. -/
def modify (f : σ → σ) : Traced ε σ ω Unit := fun s => .ok ((), f s, [])

/-- Record an event. -/
def emit (e : ω) : Traced ε σ ω Unit := fun s => .ok ((), s, [e])

/-- Stop with a fault. -/
def fault (e : ε) : Traced ε σ ω α := fun _ => .error e

/-- Run a computation and also return the events it recorded. -/
def listen (m : Traced ε σ ω α) : Traced ε σ ω (α × List ω) := fun s =>
  match m s with
  | .error e => .error e
  | .ok (a, t, w) => .ok ((a, w), t, w)

/-- Run a computation only under a condition. -/
def when (c : Prop) [Decidable c] (m : Traced ε σ ω Unit) : Traced ε σ ω Unit :=
  if c then m else pure ()

/-- Run a computation for each item of a list, in order. -/
def forEach (f : β → Traced ε σ ω Unit) : List β → Traced ε σ ω Unit
  | [] => pure ()
  | item :: rest => do
      f item
      forEach f rest

-----------------------------------------------------------------------------------------
-- Completed runs
-----------------------------------------------------------------------------------------

@[simp]
theorem pure_run (a : α) (s : σ) : (pure a : Traced ε σ ω α) s = .ok (a, s, []) := rfl

@[simp]
theorem get_run (s : σ) : (get : Traced ε σ ω σ) s = .ok (s, s, []) := rfl

@[simp]
theorem modify_run (f : σ → σ) (s : σ)
    : (modify f : Traced ε σ ω Unit) s = .ok ((), f s, []) := rfl

@[simp]
theorem emit_run (e : ω) (s : σ) : (emit e : Traced ε σ ω Unit) s = .ok ((), s, [e]) := rfl

@[simp]
theorem fault_run (e : ε) (s : σ) : (fault e : Traced ε σ ω α) s = .error e := rfl

/-- Sequencing after a completed first part continues from its state. -/
theorem bind_run_ok {m : Traced ε σ ω α} {f : α → Traced ε σ ω β} {s t : σ} {a : α}
    {w : List ω} (h : m s = .ok (a, t, w))
    : (m >>= f) s
      = match f a t with
        | .error e => .error e
        | .ok (b, u, v) => .ok (b, u, w ++ v) := by
  change Traced.bind m f s = _
  simp only [Traced.bind, h]

/-- A sequence completes exactly when both parts do, and its trace is their traces. -/
theorem bind_eq_ok {m : Traced ε σ ω α} {f : α → Traced ε σ ω β} {s u : σ} {b : β}
    {w : List ω}
    : (m >>= f) s = .ok (b, u, w)
      ↔ ∃ a t first last,
          m s = .ok (a, t, first) ∧ f a t = .ok (b, u, last) ∧ w = first ++ last := by
  change Traced.bind m f s = _ ↔ _
  simp only [Traced.bind]
  constructor
  · intro h
    split at h
    · cases h
    · rename_i a t first hm
      split at h
      · cases h
      · rename_i b' u' last hf
        cases h
        exact ⟨a, t, first, last, hm, hf, rfl⟩
  · rintro ⟨a, t, first, last, hm, hf, rfl⟩
    simp only [hm, hf]

@[simp]
theorem get_bind_run (f : σ → Traced ε σ ω β) (s : σ) : (get >>= f) s = f s s := by
  rw [bind_run_ok (get_run s)]
  cases f s s with
  | error e => rfl
  | ok r => rfl

@[simp]
theorem modify_bind_run (g : σ → σ) (f : Unit → Traced ε σ ω β) (s : σ)
    : (modify g >>= f) s = f () (g s) := by
  rw [bind_run_ok (modify_run g s)]
  cases f () (g s) with
  | error e => rfl
  | ok r => rfl

theorem when_pos {c : Prop} [Decidable c] (h : c) (m : Traced ε σ ω Unit) : when c m = m :=
  if_pos h

theorem when_neg {c : Prop} [Decidable c] (h : ¬ c) (m : Traced ε σ ω Unit)
    : when c m = pure () :=
  if_neg h

/-- A leading event is the head of the trace. -/
theorem emit_bind_run (e : ω) (f : Unit → Traced ε σ ω β) (s : σ)
    : (emit e >>= f) s
      = match f () s with
        | .error fault => .error fault
        | .ok (b, u, v) => .ok (b, u, e :: v) :=
  bind_run_ok (emit_run e s)

/-- A completed observed run is a completed run together with its own trace. -/
theorem listen_eq_ok {m : Traced ε σ ω α} {s t : σ} {a : α} {seen w : List ω}
    : listen m s = .ok ((a, seen), t, w) ↔ m s = .ok (a, t, w) ∧ seen = w := by
  simp only [listen]
  constructor
  · intro h
    split at h
    · cases h
    · rename_i hm
      cases h
      exact ⟨hm, rfl⟩
  · rintro ⟨hm, rfl⟩
    simp only [hm]

/-- A concrete run completes in a state and with a trace that pass a test. -/
def endsIn (run : Except ε (α × σ × List ω)) (test : σ → List ω → Bool) : Bool :=
  match run with
  | .error _ => false
  | .ok (_, t, w) => test t w

theorem exists_of_endsIn (run : Except ε (Unit × σ × List ω)) (test : σ → List ω → Bool)
    (h : endsIn run test = true)
    : ∃ t w, run = .ok ((), t, w) ∧ test t w = true := by
  cases run with
  | error e => cases h
  | ok r => exact ⟨r.2.1, r.2.2, rfl, h⟩

-----------------------------------------------------------------------------------------
-- Runs as chains of steps
-----------------------------------------------------------------------------------------

/-- States joined by steps one after another, with the events the steps recorded. -/
inductive Chain (step : σ → List ω → σ → Prop) : σ → List ω → σ → Prop
  | refl (s : σ) : Chain step s [] s
  | tail {s t u : σ} {w v : List ω} (steps : Chain step s w t) (last : step t v u)
    : Chain step s (w ++ v) u

variable {step : σ → List ω → σ → Prop}

theorem Chain.single {s t : σ} {w : List ω} (one : step s w t) : Chain step s w t := by
  simpa using (Chain.refl s).tail one

theorem Chain.trans {s t u : σ} {w v : List ω} (first : Chain step s w t)
    (second : Chain step t v u)
    : Chain step s (w ++ v) u := by
  induction second with
  | refl => simpa using first
  | tail _ last ih =>
      rw [← List.append_assoc]
      exact ih.tail last

/-- One step in front of a chain. -/
theorem Chain.head {s t u : σ} {w v : List ω} (one : step s w t) (rest : Chain step t v u)
    : Chain step s (w ++ v) u :=
  (Chain.single one).trans rest

/-- A chain of one kind of steps is a chain of a wider kind. -/
theorem Chain.mono {wider : σ → List ω → σ → Prop}
    (widen : ∀ s w t, step s w t → wider s w t) {s t : σ} {w : List ω}
    (chain : Chain step s w t)
    : Chain wider s w t := by
  induction chain with
  | refl => exact .refl s
  | tail _ last ih => exact ih.tail (widen _ _ _ last)

/-- What every step keeps while its events meet `C`, a chain keeps, by induction on the
steps; the invariant may look at the whole history.
-/
theorem Chain.invariant {C : ω → Prop} {I : List ω → σ → Prop}
    (keeps
      : ∀ h s w t, step s w t → (∀ e ∈ w, C e) → I h s → I (h ++ w) t)
    {s t : σ} {h w : List ω} (chain : Chain step s w t) (guard : ∀ e ∈ w, C e) (start : I h s)
    : I (h ++ w) t := by
  induction chain with
  | refl => simpa using start
  | tail _ last ih =>
      rw [← List.append_assoc]
      refine keeps _ _ _ _ last (fun e member => guard e (by simp [member])) ?_
      exact ih (fun e member => guard e (by simp [member]))

/-- Every completed run of the computation is a chain of steps. -/
def Stepwise (step : σ → List ω → σ → Prop) (m : Traced ε σ ω α) : Prop :=
  ∀ s a t w, m s = .ok (a, t, w) → Chain step s w t

theorem stepwise_pure (a : α) : Stepwise step (pure a : Traced ε σ ω α) := by
  intro s a' t w run
  cases run
  exact .refl s

theorem stepwise_get : Stepwise step (get : Traced ε σ ω σ) := by
  intro s a t w run
  cases run
  exact .refl s

theorem stepwise_fault (e : ε) : Stepwise step (fault e : Traced ε σ ω α) := by
  intro s a t w run
  cases run

theorem stepwise_emit {e : ω} (one : ∀ s, step s [e] s)
    : Stepwise step (emit e : Traced ε σ ω Unit) := by
  intro s a t w run
  cases run
  exact .single (one s)

theorem stepwise_modify {f : σ → σ} (one : ∀ s, step s [] (f s))
    : Stepwise step (modify f : Traced ε σ ω Unit) := by
  intro s a t w run
  cases run
  exact .single (one s)

theorem Stepwise.when {c : Prop} [Decidable c] {m : Traced ε σ ω Unit} (inner : Stepwise step m)
    : Stepwise step (when c m) := by
  by_cases h : c
  · rw [when_pos h]
    exact inner
  · rw [when_neg h]
    exact stepwise_pure ()

/-- Sequencing puts chains together. -/
theorem Stepwise.bind {m : Traced ε σ ω α} {f : α → Traced ε σ ω β} (first : Stepwise step m)
    (second : ∀ a, Stepwise step (f a))
    : Stepwise step (m >>= f) := by
  intro s b u w run
  obtain ⟨a, t, early, late, hm, hf, rfl⟩ := bind_eq_ok.mp run
  exact (first s a t early hm).trans (second a t b u late hf)

theorem Stepwise.listen {m : Traced ε σ ω α} (inner : Stepwise step m)
    : Stepwise step (listen m) := by
  rintro s ⟨a, seen⟩ t w run
  exact inner s a t w (listen_eq_ok.mp run).1

/-- A loop is stepwise when its body is, by induction on the items. -/
theorem Stepwise.forEach {f : β → Traced ε σ ω Unit} {items : List β}
    (body : ∀ item ∈ items, Stepwise step (f item))
    : Stepwise step (forEach f items) := by
  induction items with
  | nil => exact stepwise_pure ()
  | cons item rest ih =>
      refine (body item (by simp)).bind ?_
      exact fun _ => ih (fun other member => body other (by simp [member]))

end Traced
