import Mathlib.Order.Basic

/-! Machines that take one operation after another.
Which operations may come next can depend on the state they find, so that a property of the
runs that meet a condition is proved from what each permitted step preserves.
-/

namespace Machine

variable {σ ω : Type} {step : ω → σ → σ} {allowed wider : σ → ω → Prop} {start s t : σ}

/-- The states a machine comes to from `start` by operations that are each allowed in the
state they find.
-/
inductive Reaches (step : ω → σ → σ) (allowed : σ → ω → Prop) (start : σ) : σ → Prop
  | start : Reaches step allowed start start
  | step {s : σ} (reached : Reaches step allowed start s) (op : ω) (permitted : allowed s op)
    : Reaches step allowed start (step op s)

/-- What holds at the start and is kept by every permitted step holds in every state reached,
by induction on the run.
-/
theorem Reaches.invariant {I : σ → Prop} (reached : Reaches step allowed start s)
    (initial : I start) (keeps : ∀ s op, allowed s op → I s → I (step op s))
    : I s := by
  induction reached with
  | start => exact initial
  | step _ op permitted ih => exact keeps _ op permitted ih

/-- One run after another is a run. -/
theorem Reaches.trans (first : Reaches step allowed start s)
    (second : Reaches step allowed s t)
    : Reaches step allowed start t := by
  induction second with
  | start => exact first
  | step _ op permitted ih => exact ih.step op permitted

/-- Each operation of a list is allowed in the state the ones before it lead to. -/
def Permits (step : ω → σ → σ) (allowed : σ → ω → Prop) (s : σ) : List ω → Prop
  | [] => True
  | op :: rest => allowed s op ∧ Permits step allowed (step op s) rest

instance [∀ s op, Decidable (allowed s op)] (s : σ) (ops : List ω)
    : Decidable (Permits step allowed s ops) :=
  match ops with
  | [] => isTrue trivial
  | op :: rest =>
      have := instDecidablePermits (step op s) rest
      inferInstanceAs (Decidable (allowed s op ∧ Permits step allowed (step op s) rest))

/-- The state a list of operations leads to. -/
def exec (step : ω → σ → σ) (s : σ) : List ω → σ
  | [] => s
  | op :: rest => exec step (step op s) rest

theorem exec_eq_foldl (ops : List ω)
    : exec step s ops = ops.foldl (fun s op => step op s) s := by
  induction ops generalizing s with
  | nil => rfl
  | cons op rest ih => exact ih

theorem exec_append (first last : List ω)
    : exec step s (first ++ last) = exec step (exec step s first) last := by
  induction first generalizing s with
  | nil => rfl
  | cons op rest ih => exact ih

/-- A list of permitted operations is a run, by induction on the list. -/
theorem reaches_exec {ops : List ω} (permits : Permits step allowed s ops)
    : Reaches step allowed s (exec step s ops) := by
  induction ops generalizing s with
  | nil => exact .start
  | cons op rest ih => exact (Reaches.start.step op permits.1).trans (ih permits.2)

/-- What holds at the start and is kept by every operation holds after any list of them, by
induction on the list.
-/
theorem exec_invariant {I : σ → Prop} (initial : I s) (keeps : ∀ s op, I s → I (step op s))
    (ops : List ω)
    : I (exec step s ops) := by
  induction ops generalizing s with
  | nil => exact initial
  | cons op rest ih => exact ih (keeps s op initial)

/-- A property holds in the state before each operation of a list and after the last one. -/
def Always (step : ω → σ → σ) (I : σ → Prop) (s : σ) : List ω → Prop
  | [] => I s
  | op :: rest => I s ∧ Always step I (step op s) rest

/-- What holds throughout a list of operations, so does whatever follows from it. -/
theorem Always.mono {I J : σ → Prop} {ops : List ω} (always : Always step I s ops)
    (follows : ∀ s, I s → J s)
    : Always step J s ops := by
  induction ops generalizing s with
  | nil => exact follows s always
  | cons op rest ih => exact ⟨follows s always.1, ih always.2⟩

/-- What holds throughout a list of operations holds after any first part of it. -/
theorem Always.after {I : σ → Prop} {first last : List ω} (always : Always step I s (first ++ last))
    : I (exec step s first) := by
  induction first generalizing s with
  | nil =>
      cases last with
      | nil => exact always
      | cons op rest => exact always.1
  | cons op rest ih => exact ih always.2

/-- Two properties hold throughout where each of them does. -/
theorem always_and {I J : σ → Prop} {ops : List ω}
    : Always step (fun s => I s ∧ J s) s ops ↔ Always step I s ops ∧ Always step J s ops := by
  constructor
  · intro both
    exact ⟨both.mono fun _ => And.left, both.mono fun _ => And.right⟩
  · rintro ⟨first, second⟩
    induction ops generalizing s with
    | nil => exact ⟨first, second⟩
    | cons op rest ih => exact ⟨⟨first.1, second.1⟩, ih first.2 second.2⟩

/-- What holds at the start and is kept by every permitted step holds throughout a list of
permitted operations, by induction on the list.
-/
theorem always_of_permits {I : σ → Prop} {ops : List ω} (initial : I s)
    (keeps : ∀ s op, I s → allowed s op → I (step op s)) (permits : Permits step allowed s ops)
    : Always step I s ops := by
  induction ops generalizing s with
  | nil => exact initial
  | cons op rest ih => exact ⟨initial, ih (keeps s op initial permits.1) permits.2⟩

/-- Under an invariant that permitted operations keep, what it tells of each of them holds of a
whole list, by induction on the list.
-/
theorem Permits.mono_of_invariant {I : σ → Prop} {ops : List ω}
    (permits : Permits step allowed s ops) (initial : I s)
    (keeps : ∀ s op, I s → allowed s op → I (step op s))
    (tells : ∀ s op, I s → allowed s op → wider s op)
    : Permits step wider s ops := by
  induction ops generalizing s with
  | nil => trivial
  | cons op rest ih =>
      exact ⟨tells s op initial permits.1, ih permits.2 (keeps s op initial permits.1)⟩

/-- Under an invariant, what a step keeps exactly where it is allowed holds throughout a list of
operations exactly where each of them is allowed, by induction on the list.
-/
theorem always_iff_permits {W I : σ → Prop} {ops : List ω} (wellFormed : W s) (initial : I s)
    (keeps : ∀ s op, W s → W (step op s))
    (exact : ∀ s op, W s → I s → (I (step op s) ↔ allowed s op))
    : Always step I s ops ↔ Permits step allowed s ops := by
  induction ops generalizing s with
  | nil => exact iff_of_true initial trivial
  | cons op rest ih =>
      constructor
      · intro always
        have after : I (step op s) := by
          cases rest with
          | nil => exact always.2
          | cons next more => exact always.2.1
        exact ⟨(exact s op wellFormed initial).mp after,
          (ih (keeps s op wellFormed) after).mp always.2⟩
      · intro permits
        have after := (exact s op wellFormed initial).mpr permits.1
        exact ⟨initial, (ih (keeps s op wellFormed) after).mpr permits.2⟩

end Machine
