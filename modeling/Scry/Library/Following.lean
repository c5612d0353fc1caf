import Mathlib.Data.List.Forall2
import Scry.Library.Traced

/-! Two traced computations compared: one completes whenever the other does, in a like state and
with like events. The rules follow the computations' structure, so that two runs from like states
are compared step by step.
-/

namespace Traced

/-- What counts as alike, and the events the comparison is made under. -/
structure Comparison (σ ω : Type) where
  states : σ → σ → Prop
  events : ω → ω → Prop
  permits : ω → Prop

variable {ε σ ω α β γ δ ι κ : Type} {c : Comparison σ ω} {V : α → β → Prop} {W : γ → δ → Prop}

/-- Whenever `m` completes from `s` with permitted events, `n` completes from `t` with like ones,
in a like state and with a value that `V` relates.
-/
def Follows (c : Comparison σ ω) (V : α → β → Prop) (m : Traced ε σ ω α) (s : σ)
    (n : Traced ε σ ω β) (t : σ)
    : Prop :=
  ∀ a s' w, m s = .ok (a, s', w) → (∀ e ∈ w, c.permits e) →
    ∃ b t' v, n t = .ok (b, t', v) ∧ V a b ∧ c.states s' t' ∧ List.Forall₂ c.events w v

variable {s t : σ}

/-- Only what the computations do from these states is compared. -/
theorem Follows.of_runs {m m' : Traced ε σ ω α} {n n' : Traced ε σ ω β} {s' t' : σ}
    (left : m s = m' s') (right : n t = n' t') (inner : Follows c V m' s' n' t')
    : Follows c V m s n t := by
  simpa only [Follows, left, right] using inner

theorem follows_pure {a : α} {b : β} (values : V a b) (like : c.states s t)
    : Follows c V (pure a : Traced ε σ ω α) s (pure b) t := by
  intro a' s' w run _
  cases run
  exact ⟨b, t, [], rfl, values, like, .nil⟩

theorem follows_fault {e : ε} {n : Traced ε σ ω β}
    : Follows c V (fault e : Traced ε σ ω α) s n t := by
  intro a s' w run
  cases run

theorem Follows.bind {m : Traced ε σ ω α} {n : Traced ε σ ω β} {f : α → Traced ε σ ω γ}
    {g : β → Traced ε σ ω δ} (first : Follows c V m s n t)
    (rest : ∀ a b s' t', V a b → c.states s' t' → Follows c W (f a) s' (g b) t')
    : Follows c W (m >>= f) s (n >>= g) t := by
  intro a u w run permitted
  obtain ⟨x, s', early, late, hm, hf, rfl⟩ := bind_eq_ok.mp run
  obtain ⟨y, t', early', hn, values, like, events⟩ :=
    first x s' early hm fun e member => permitted e (List.mem_append_left _ member)
  obtain ⟨b, v, late', hg, values', like', events'⟩ :=
    rest x y s' t' values like a u late hf fun e member =>
      permitted e (List.mem_append_right _ member)
  exact ⟨b, v, early' ++ late', bind_eq_ok.mpr ⟨y, t', early', late', hn, hg, rfl⟩, values', like',
    List.rel_append events events'⟩

/-- After parts that are known to complete alike, what comes next is compared. -/
theorem follows_bind_ok {m : Traced ε σ ω α} {n : Traced ε σ ω β} {f : α → Traced ε σ ω γ}
    {g : β → Traced ε σ ω δ} {a : α} {b : β} {s' t' : σ} {w v : List ω}
    (left : m s = .ok (a, s', w)) (right : n t = .ok (b, t', v)) (events : List.Forall₂ c.events w v)
    (rest : Follows c W (f a) s' (g b) t')
    : Follows c W (m >>= f) s (n >>= g) t := by
  intro x u done run permitted
  obtain ⟨_, _, early, late, hm, hf, rfl⟩ := bind_eq_ok.mp run
  cases left.symm.trans hm
  obtain ⟨y, u', late', hg, values, like, events'⟩ :=
    rest x u late hf fun e member => permitted e (List.mem_append_right _ member)
  exact ⟨y, u', v ++ late', bind_eq_ok.mpr ⟨b, t', v, late', right, hg, rfl⟩, values, like,
    List.rel_append events events'⟩

theorem follows_get_bind {f : σ → Traced ε σ ω α} {g : σ → Traced ε σ ω β}
    (rest : Follows c V (f s) s (g t) t)
    : Follows c V (get >>= f) s (get >>= g) t := by
  simpa only [Follows, get_bind_run] using rest

theorem follows_modify_bind {f g : σ → σ} {m : Unit → Traced ε σ ω α} {n : Unit → Traced ε σ ω β}
    (rest : Follows c V (m ()) (f s) (n ()) (g t))
    : Follows c V (modify f >>= m) s (modify g >>= n) t := by
  simpa only [Follows, modify_bind_run] using rest

/-- What follows an event is compared under the assumption that the event is permitted. -/
theorem follows_emit_bind {e e' : ω} {m : Unit → Traced ε σ ω α} {n : Unit → Traced ε σ ω β}
    (events : c.events e e') (rest : c.permits e → Follows c V (m ()) s (n ()) t)
    : Follows c V (emit e >>= m) s (emit e' >>= n) t := by
  intro a s' w run permitted
  obtain ⟨_, _, early, late, head, hm, rfl⟩ := bind_eq_ok.mp run
  cases head
  obtain ⟨b, t', v, hn, values, like, tail⟩ :=
    rest (permitted e (by simp)) a s' late hm fun e member => permitted e (by simp [member])
  exact ⟨b, t', e' :: v, bind_eq_ok.mpr ⟨(), t, [e'], v, rfl, hn, rfl⟩, values, like,
    .cons events tail⟩

/-- Computations that yield nothing are compared by their states and events alone. -/
abbrev Tracks (c : Comparison σ ω) : Traced ε σ ω Unit → σ → Traced ε σ ω Unit → σ → Prop :=
  Follows c fun _ _ => True

theorem tracks_pure (like : c.states s t)
    : Tracks c (pure () : Traced ε σ ω Unit) s (pure ()) t :=
  follows_pure trivial like

theorem tracks_modify {f g : σ → σ} (like : c.states (f s) (g t))
    : Tracks c (modify f : Traced ε σ ω Unit) s (modify g) t := by
  intro a s' w run _
  cases run
  exact ⟨(), g t, [], rfl, trivial, like, .nil⟩

theorem tracks_emit {e e' : ω} (events : c.permits e → c.events e e') (like : c.states s t)
    : Tracks c (emit e : Traced ε σ ω Unit) s (emit e') t := by
  intro a s' w run permitted
  cases run
  exact ⟨(), t, [e'], rfl, trivial, like, .cons (events (permitted e (by simp))) .nil⟩

theorem Follows.ite {p q : Prop} [Decidable p] [Decidable q] {m m' : Traced ε σ ω α}
    {n n' : Traced ε σ ω β} (same : p ↔ q) (holds : p → Follows c V m s n t)
    (fails : ¬ p → Follows c V m' s n' t)
    : Follows c V (if p then m else m') s (if q then n else n') t := by
  by_cases test : p
  · rw [if_pos test, if_pos (same.mp test)]
    exact holds test
  · rw [if_neg test, if_neg fun other => test (same.mpr other)]
    exact fails test

theorem Follows.when {p q : Prop} [Decidable p] [Decidable q] {m n : Traced ε σ ω Unit}
    (same : p ↔ q) (like : c.states s t) (inner : p → Tracks c m s n t)
    : Tracks c (when p m) s (when q n) t :=
  .ite same inner fun _ => tracks_pure like

/-- Loops over like items are compared by their bodies, by induction on the items. -/
theorem Follows.forEach {items : List ι} {others : List κ} {I : ι → κ → Prop}
    {f : ι → Traced ε σ ω Unit} {g : κ → Traced ε σ ω Unit} (matched : List.Forall₂ I items others)
    (body : ∀ i j s' t', I i j → c.states s' t' → Tracks c (f i) s' (g j) t')
    (like : c.states s t)
    : Tracks c (forEach f items) s (forEach g others) t := by
  induction matched generalizing s t with
  | nil => exact tracks_pure like
  | cons pair _ ih =>
      refine (body _ _ s t pair like).bind ?_
      exact fun _ _ s' t' _ like' => ih like'

/-- An observed computation yields its own events as well. -/
theorem Follows.listen {m : Traced ε σ ω α} {n : Traced ε σ ω β} (inner : Follows c V m s n t)
    : Follows c (fun p q => V p.1 q.1 ∧ List.Forall₂ c.events p.2 q.2) (listen m) s (listen n)
        t := by
  rintro ⟨a, seen⟩ s' w run permitted
  obtain ⟨run, rfl⟩ := listen_eq_ok.mp run
  obtain ⟨b, t', v, hn, values, like, events⟩ := inner a s' seen run permitted
  exact ⟨(b, v), t', v, listen_eq_ok.mpr ⟨hn, rfl⟩, ⟨values, events⟩, like, events⟩

/-- Every event of the second run is like one of the first. -/
theorem exists_like {E : ω → ω → Prop} {w v : List ω} (events : List.Forall₂ E w v) {e' : ω}
    (member : e' ∈ v)
    : ∃ e ∈ w, E e e' := by
  induction events with
  | nil => cases member
  | cons like _ ih =>
      rcases List.mem_cons.mp member with rfl | later
      · exact ⟨_, List.mem_cons_self, like⟩
      · obtain ⟨e, found, alike⟩ := ih later
        exact ⟨e, List.mem_cons_of_mem _ found, alike⟩

end Traced
