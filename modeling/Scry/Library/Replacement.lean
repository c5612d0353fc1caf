import Mathlib.Data.List.Count
import Scry.Library.Rescan

/-! Placeholders that are replaced all at once. A search that goes on inside of what it puts in
comes to the same text if it passes every placeholder and nothing else; where nothing that is
put in could be taken for the beginning of a placeholder, it does so only then.
-/

namespace Rescan

namespace Pattern

variable {α : Type} [DecidableEq α] (p : Pattern α) (sub : List α → List α) (put : Rule α)

-----------------------------------------------------------------------------------------
-- Parts without placeholders
-----------------------------------------------------------------------------------------

/-- No placeholder begins in the first of two parts of a text. -/
def Free : List α → List α → Prop
  | [], _ => True
  | a :: t, v => p.digitsAt (a :: (t ++ v)) = none ∧ Free t v

variable {p} {w t v rest : List α} {f : Found α}

theorem free_iff : p.Free t v ↔ ∀ i < t.length, p.digitsAt ((t ++ v).drop i) = none := by
  induction t with
  | nil => exact iff_of_true trivial nofun
  | cons a t ih =>
      rw [Free, ih]
      constructor
      · rintro ⟨first, others⟩ i below
        cases i with
        | zero => exact first
        | succ i => exact others i (Nat.lt_of_succ_lt_succ below)
      · intro all
        exact ⟨all 0 (Nat.succ_pos _), fun i below => all (i + 1) (Nat.succ_lt_succ below)⟩

/-- What is found behind a free part is what is found without it. -/
theorem find_append (free : p.Free t v)
    : p.find (t ++ v) = (p.find v).map fun f => { f with before := t ++ f.before } := by
  induction t with
  | nil =>
      rw [List.nil_append]
      cases p.find v <;> rfl
  | cons a t ih =>
      rw [List.cons_append, find, free.1]
      dsimp only
      rw [ih free.2, Option.map_map]
      rfl

theorem find_eq_none_iff : p.find w = none ↔ p.Free w [] := by
  induction w with
  | nil => exact iff_of_true rfl trivial
  | cons a w ih =>
      rw [find, Free, List.append_nil]
      cases p.digitsAt (a :: w) with
      | some ds =>
          exact iff_of_false (Option.some_ne_none _) fun free => Option.some_ne_none _ free.1
      | none => rw [and_iff_right rfl, ← ih, Option.map_eq_none_iff]

/-- What is before the first placeholder is free. -/
theorem split_of_find (found : p.find w = some f)
    : w = f.before ++ (p.mark ++ f.digits ++ f.after)
      ∧ p.digitsAt (p.mark ++ f.digits ++ f.after) = some f.digits
      ∧ p.Free f.before (p.mark ++ f.digits ++ f.after) := by
  obtain ⟨whole, complete, first⟩ := find_eq_some.mp found
  have split : w = f.before ++ (p.mark ++ f.digits ++ f.after) := by
    rw [whole]
    simp only [List.append_assoc]
  exact ⟨split, digitsAt_eq_some.mpr ⟨f.after, rfl, complete⟩, free_iff.mpr (split ▸ first)⟩

theorem after_suffix (found : p.find w = some f) : f.after <:+ w := by
  obtain ⟨whole, -, -⟩ := split_of_find found
  rw [whole]
  exact (List.suffix_append _ _).trans (List.suffix_append _ _)

/-- Induction from placeholder to placeholder. -/
theorem found_induction {motive : List α → Prop} (last : ∀ w, p.find w = none → motive w)
    (next : ∀ w f, p.find w = some f → motive f.after → motive w) (w : List α) : motive w := by
  induction length : w.length using Nat.strong_induction_on generalizing w with
  | _ n ih =>
      cases found : p.find w with
      | none => exact last w found
      | some f =>
          obtain ⟨whole, -, -⟩ := split_of_find found
          refine next w f found (ih f.after.length ?_ f.after rfl)
          have marked := List.length_pos_iff.mpr p.marked
          have sizes := congrArg List.length whole
          simp only [List.length_append] at sizes
          omega

-----------------------------------------------------------------------------------------
-- Replacing at once
-----------------------------------------------------------------------------------------

variable (p) in
/-- The text with its placeholders replaced, behind what belongs to the one before. -/
def replaceFrom : Nat → List α → List α
  | _, [] => []
  | skip + 1, _ :: w => replaceFrom skip w
  | 0, a :: w =>
      match p.digitsAt (a :: w) with
      | some ds => sub ds ++ replaceFrom (p.mark.length + ds.length - 1) w
      | none => a :: replaceFrom 0 w

variable (p) in
/-- The text with its placeholders replaced. -/
def replaceAll (w : List α) : List α := p.replaceFrom sub 0 w

variable {sub put} {rounds : Nat}

theorem replaceFrom_eq (n : Nat) (w : List α)
    : p.replaceFrom sub n w = p.replaceAll sub (w.drop n) := by
  induction w generalizing n with
  | nil => cases n <;> rfl
  | cons a w ih =>
      cases n with
      | zero => rfl
      | succ n => exact ih n

theorem replaceAll_append (free : p.Free t v)
    : p.replaceAll sub (t ++ v) = t ++ p.replaceAll sub v := by
  induction t with
  | nil => rfl
  | cons a t ih =>
      rw [List.cons_append, replaceAll, replaceFrom, free.1]
      exact congrArg (a :: ·) (ih free.2)

theorem replaceAll_of_find_eq_none (none : p.find w = .none) : p.replaceAll sub w = w := by
  have free : p.replaceAll sub (w ++ []) = w ++ p.replaceAll sub [] :=
    replaceAll_append (find_eq_none_iff.mp none)
  simpa [replaceAll, replaceFrom] using free

theorem replaceAll_of_find (found : p.find w = some f)
    : p.replaceAll sub w = f.before ++ (sub f.digits ++ p.replaceAll sub f.after) := by
  obtain ⟨whole, here, free⟩ := split_of_find found
  rw [whole, replaceAll_append free]
  obtain ⟨a, mark, isMark⟩ := List.exists_cons_of_ne_nil p.marked
  have head : p.mark ++ f.digits ++ f.after = a :: (mark ++ f.digits ++ f.after) := by rw [isMark]; rfl
  have behind : (mark ++ f.digits ++ f.after).drop (p.mark.length + f.digits.length - 1)
      = f.after := by
    rw [isMark, List.length_cons, Nat.add_right_comm, Nat.add_sub_cancel, ← List.length_append,
      List.drop_left]
  rw [head] at here ⊢
  rw [replaceAll, replaceFrom, here]
  dsimp only
  rw [replaceFrom_eq, behind]

/-- Only what is put in for the placeholders of the text matters. -/
theorem replaceAll_congr {other : List α → List α}
    (same : ∀ x, x <:+ w → ∀ ds, p.digitsAt x = some ds → sub ds = other ds)
    : p.replaceAll sub w = p.replaceAll other w := by
  induction w using found_induction (p := p) with
  | last w none => rw [replaceAll_of_find_eq_none none, replaceAll_of_find_eq_none none]
  | next w f found ih =>
      obtain ⟨whole, here, -⟩ := split_of_find found
      have placeholder : sub f.digits = other f.digits :=
        same _ (whole ▸ List.suffix_append _ _) _ here
      rw [replaceAll_of_find found, replaceAll_of_find found, placeholder,
        ih fun x isEnd => same x (isEnd.trans (after_suffix found))]

-----------------------------------------------------------------------------------------
-- Searches that pass every placeholder
-----------------------------------------------------------------------------------------

variable (p put) in
/-- The search goes on behind a placeholder, except for parts in which none begins. -/
def Passes (f : Found α) : Prop :=
  match p.skip (put f.digits).2 ((put f.digits).1 ++ f.after) with
  | none => p.find f.after = none
  | some rest =>
      (∀ t, rest = t ++ f.after → p.Free t f.after) ∧ ∀ u, f.after = u ++ rest → p.Free u rest

variable (p put) in
/-- The search passes every placeholder of a text. -/
inductive Quiet : List α → Prop
  | last {w : List α} (none : p.find w = .none) : Quiet w
  | next {w : List α} {f : Found α} (found : p.find w = some f) (passes : p.Passes put f)
      (rest : Quiet f.after) : Quiet w

/-- The search goes on behind some of the text behind the placeholder. -/
theorem passes_of_after (skipped : p.skip (put f.digits).2 ((put f.digits).1 ++ f.after) = some rest)
    {u : List α} (behind : f.after = u ++ rest) (free : p.Free u rest)
    : p.Passes put f := by
  rw [Passes, skipped]
  refine ⟨fun t same => ?_, fun other same => ?_⟩
  · rw [behind, ← List.append_assoc] at same
    obtain ⟨rfl, -⟩ := List.append_eq_nil_iff.mp (List.self_eq_append_left.mp same)
    trivial
  · rw [behind] at same
    exact List.append_cancel_right same ▸ free

/-- The search goes on inside of what was put in. -/
theorem passes_of_before
    (skipped : p.skip (put f.digits).2 ((put f.digits).1 ++ f.after) = some rest)
    (behind : rest = t ++ f.after) (free : p.Free t f.after)
    : p.Passes put f := by
  rw [Passes, skipped]
  refine ⟨fun other same => ?_, fun u same => ?_⟩
  · rw [behind] at same
    exact List.append_cancel_right same ▸ free
  · rw [behind, ← List.append_assoc] at same
    obtain ⟨rfl, -⟩ := List.append_eq_nil_iff.mp (List.self_eq_append_left.mp same)
    trivial

/-- A round of a search that goes on. -/
theorem run_of_skip {x : List α} (found : p.find w = some f)
    (skipped : p.skip (put f.digits).2 ((put f.digits).1 ++ f.after) = some rest)
    (whole : (put f.digits).1 ++ f.after = x ++ rest)
    : p.run put (rounds + 1) w = (p.run put rounds rest).map fun done => f.before ++ x ++ done := by
  rw [run, found]
  dsimp only
  rw [skipped]
  dsimp only
  rw [whole, List.length_append, Nat.add_sub_cancel, List.take_left]

theorem run_append (free : p.Free t v)
    : p.run put rounds (t ++ v) = (p.run put rounds v).map (t ++ ·) := by
  cases rounds with
  | zero => rfl
  | succ rounds =>
      rw [run, run, find_append free]
      cases p.find v with
      | none => rfl
      | some f =>
          simp only [Option.map_some]
          cases p.skip (put f.digits).2 ((put f.digits).1 ++ f.after) with
          | none => simp
          | some rest =>
              simp only [Option.map_map]
              congr 1
              funext done
              simp

/-- The text of a search that passes every placeholder. By induction on the placeholders. -/
theorem run_of_quiet (quiet : p.Quiet put w)
    : ∃ rounds, p.run put rounds w = some (p.replaceAll (fun ds => (put ds).1) w) := by
  induction quiet with
  | last none => exact ⟨1, by rw [run, none, replaceAll_of_find_eq_none none]⟩
  | @next w f found passes _ ih =>
      obtain ⟨rounds, done⟩ := ih
      rw [replaceAll_of_find found]
      rw [Passes] at passes
      cases skipped : p.skip (put f.digits).2 ((put f.digits).1 ++ f.after) with
      | none =>
          rw [skipped] at passes
          refine ⟨1, ?_⟩
          rw [run, found]
          dsimp only
          rw [skipped, replaceAll_of_find_eq_none passes]
      | some rest =>
          rw [skipped] at passes
          refine ⟨rounds + 1, ?_⟩
          rcases List.suffix_or_suffix_of_suffix (skip_suffix skipped)
            (List.suffix_append (put f.digits).1 f.after) with ⟨u, behind⟩ | ⟨t, behind⟩
          · rw [← behind, run_append (passes.2 u behind.symm), Option.map_eq_some_iff] at done
            obtain ⟨others, isDone, both⟩ := done
            have whole : (put f.digits).1 ++ f.after = ((put f.digits).1 ++ u) ++ rest := by
              rw [← behind, List.append_assoc]
            rw [run_of_skip found skipped whole, isDone, ← behind, ← both]
            simp
          · obtain ⟨x, whole⟩ := skip_suffix skipped
            have parts : x ++ t = (put f.digits).1 := by
              rw [← behind, ← List.append_assoc] at whole
              exact List.append_cancel_right whole
            rw [run_of_skip found skipped whole.symm, ← behind, run_append (passes.1 t behind.symm),
              done, ← parts]
            simp

-----------------------------------------------------------------------------------------
-- Beginnings that are left
-----------------------------------------------------------------------------------------

variable (p) in
/-- An item that begins the mark and is nowhere else in a placeholder. -/
structure Heads (m : α) : Prop where
  first : ∃ others, p.mark = m :: others ∧ m ∉ others
  noDigit : p.isDigit m = false

variable (p) in
/-- How often an item begins no placeholder. -/
def bare (m : α) : List α → Nat
  | [] => 0
  | a :: w =>
      match p.digitsAt (a :: w) with
      | some _ => bare m w
      | none => bare m w + if a == m then 1 else 0

variable {m : α} {u : List α}

/-- A placeholder begins with the item. -/
theorem Heads.digitsAt_eq_none (heads : p.Heads m) {a : α} (other : a ≠ m)
    : p.digitsAt (a :: w) = none := by
  obtain ⟨others, mark, -⟩ := heads.first
  rw [Pattern.digitsAt_eq_none, mark]
  exact fun all => other (List.cons_prefix_cons.mp all.1).1.symm

theorem Heads.free (heads : p.Heads m) (absent : m ∉ t) : p.Free t v := by
  induction t with
  | nil => trivial
  | cons a t ih =>
      rw [List.mem_cons, not_or] at absent
      exact ⟨heads.digitsAt_eq_none fun same => absent.1 same.symm, ih absent.2⟩

omit [DecidableEq α] in
/-- Only the first item of a placeholder is the one that heads it. -/
theorem Heads.placeholder (heads : p.Heads m) {ds : List α} (complete : p.Complete ds v)
    : ∃ others, p.mark ++ ds ++ v = m :: (others ++ v) ∧ m ∉ others := by
  obtain ⟨others, mark, absent⟩ := heads.first
  refine ⟨others ++ ds, by rw [mark]; simp, ?_⟩
  rw [List.mem_append, not_or]
  refine ⟨absent, fun member => ?_⟩
  have digit := complete.digits m member
  rw [heads.noDigit] at digit
  exact Bool.false_ne_true digit

theorem bare_append_le (u v : List α) : p.bare m (u ++ v) ≤ u.count m + p.bare m v := by
  induction u with
  | nil => simp
  | cons a u ih =>
      rw [List.cons_append, bare, List.count_cons]
      cases p.digitsAt (a :: (u ++ v)) <;> dsimp only <;> omega

theorem bare_append (free : p.Free u v) : p.bare m (u ++ v) = u.count m + p.bare m v := by
  induction u with
  | nil => simp
  | cons a u ih =>
      rw [List.cons_append, bare, free.1, List.count_cons, ih free.2]
      dsimp only
      omega

/-- Where the item is as often left as it occurs, no placeholder begins. -/
theorem Heads.free_of_le_bare (heads : p.Heads m)
    (all : u.count m + p.bare m v ≤ p.bare m (u ++ v))
    : p.Free u v := by
  induction u with
  | nil => trivial
  | cons a u ih =>
      have rest := bare_append_le (p := p) (m := m) u v
      rw [List.cons_append, bare, List.count_cons] at all
      cases here : p.digitsAt (a :: (u ++ v)) with
      | some ds =>
          have same : a = m := by
            by_contra other
            rw [heads.digitsAt_eq_none other] at here
            exact nomatch here
          rw [here, same, beq_self_eq_true, if_pos rfl] at all
          dsimp only at all
          omega
      | none =>
          rw [here] at all
          dsimp only at all
          exact ⟨here, ih (by omega)⟩

theorem Heads.bare_of_find (heads : p.Heads m) (found : p.find w = some f)
    : p.bare m w = f.before.count m + p.bare m f.after := by
  obtain ⟨whole, here, free⟩ := split_of_find found
  obtain ⟨v, same, complete⟩ := digitsAt_eq_some.mp here
  obtain rfl := List.append_cancel_left same
  obtain ⟨others, placeholder, absent⟩ := heads.placeholder complete
  rw [placeholder] at here
  rw [whole, bare_append free, placeholder, bare, here, bare_append (heads.free absent),
    List.count_eq_zero_of_not_mem absent]
  simp

theorem bare_le_count (w : List α) : p.bare m w ≤ w.count m := by
  simpa [bare] using bare_append_le (p := p) (m := m) w []

/-- Where nothing is found, the item is left wherever it is, and only there. -/
theorem Heads.find_eq_none_of_le (heads : p.Heads m) (all : w.count m ≤ p.bare m w)
    : p.find w = none :=
  find_eq_none_iff.mpr (heads.free_of_le_bare (by simpa [bare] using all))

variable (p put) in
/-- Nothing that is put in for a placeholder of the text has the item. -/
def Clear (m : α) (w : List α) : Prop :=
  ∀ x, x <:+ w → ∀ ds, p.digitsAt x = some ds → m ∉ (put ds).1

theorem Clear.suffix (clear : p.Clear put m w) (behind : v <:+ w) : p.Clear put m v :=
  fun x isEnd => clear x (isEnd.trans behind)

theorem Clear.of_find (clear : p.Clear put m w) (found : p.find w = some f)
    : m ∉ (put f.digits).1 := by
  obtain ⟨whole, here, -⟩ := split_of_find found
  exact clear _ (whole ▸ List.suffix_append _ _) _ here

/-- In front of a clear text nothing is found in what lacks the item. -/
theorem Heads.clear_append (heads : p.Heads m) (absent : m ∉ t) (clear : p.Clear put m v)
    : p.Clear put m (t ++ v) := by
  induction t with
  | nil => exact clear
  | cons a t ih =>
      rw [List.mem_cons, not_or] at absent
      intro x isEnd ds here
      rcases List.suffix_cons_iff.mp isEnd with rfl | later
      · rw [heads.digitsAt_eq_none fun same => absent.1 same.symm] at here
        exact nomatch here
      · exact ih absent.2 x later ds here

theorem quiet_append_iff (free : p.Free t v) : p.Quiet put (t ++ v) ↔ p.Quiet put v := by
  have found := find_append free
  constructor
  · intro quiet
    cases quiet with
    | last none =>
        rw [found, Option.map_eq_none_iff] at none
        exact .last none
    | next some passes rest =>
        rw [found, Option.map_eq_some_iff] at some
        obtain ⟨f, isFound, rfl⟩ := some
        exact .next isFound passes rest
  · intro quiet
    cases quiet with
    | last none => exact .last (by rw [found, none]; rfl)
    | @next _ f isFound passes rest =>
        have first : p.find (t ++ v) = some { f with before := t ++ f.before } := by
          rw [found, isFound]
          rfl
        exact .next first passes rest

/-- A search leaves the item at least as often as it begins no placeholder, and not more often
only if it passes every placeholder. By induction on the rounds.
-/
theorem Heads.count_run (heads : p.Heads m) (clear : p.Clear put m w) {done : List α}
    (isDone : p.run put rounds w = some done)
    : p.bare m w ≤ done.count m ∧ (done.count m ≤ p.bare m w → p.Quiet put w) := by
  induction rounds generalizing w done with
  | zero => exact nomatch isDone
  | succ rounds ih =>
      cases found : p.find w with
      | none =>
          rw [run, found, Option.some.injEq] at isDone
          exact ⟨isDone ▸ bare_le_count w, fun _ => .last found⟩
      | some f =>
          have left := heads.bare_of_find found
          have absent := List.count_eq_zero_of_not_mem (clear.of_find found)
          have behind : p.Clear put m f.after := clear.suffix (after_suffix found)
          cases skipped : p.skip (put f.digits).2 ((put f.digits).1 ++ f.after) with
          | none =>
              rw [run, found] at isDone
              dsimp only at isDone
              rw [skipped, Option.some.injEq] at isDone
              have least := bare_le_count (p := p) (m := m) f.after
              rw [← isDone, left, List.count_append, List.count_append, absent]
              refine ⟨by omega, fun most => ?_⟩
              have none := heads.find_eq_none_of_le (w := f.after) (by omega)
              exact .next found (by rw [Passes, skipped]; exact none) (.last none)
          | some rest =>
              rcases List.suffix_or_suffix_of_suffix (skip_suffix skipped)
                (List.suffix_append (put f.digits).1 f.after) with ⟨u, parts⟩ | ⟨t, parts⟩
              · have whole : (put f.digits).1 ++ f.after = ((put f.digits).1 ++ u) ++ rest := by
                  rw [← parts, List.append_assoc]
                rw [run_of_skip found skipped whole, Option.map_eq_some_iff] at isDone
                obtain ⟨last, isLast, rfl⟩ := isDone
                have ends : rest <:+ f.after := parts ▸ List.suffix_append _ _
                obtain ⟨least, quiet⟩ := ih (behind.suffix ends) isLast
                have most := bare_append_le (p := p) (m := m) u rest
                rw [parts] at most
                rw [left, List.count_append, List.count_append, List.count_append, absent]
                refine ⟨by omega, fun few => ?_⟩
                have free : p.Free u rest := heads.free_of_le_bare (by rw [parts]; omega)
                exact .next found (passes_of_after skipped parts.symm free)
                  (parts ▸ (quiet_append_iff free).mpr (quiet (by omega)))
              · obtain ⟨x, whole⟩ := skip_suffix skipped
                have split : x ++ t = (put f.digits).1 := by
                  rw [← parts, ← List.append_assoc] at whole
                  exact List.append_cancel_right whole
                have lacks := clear.of_find found
                rw [← split, List.mem_append, not_or] at lacks
                have free : p.Free t f.after := heads.free lacks.2
                rw [run_of_skip found skipped whole.symm, Option.map_eq_some_iff] at isDone
                obtain ⟨last, isLast, rfl⟩ := isDone
                obtain ⟨least, quiet⟩ :=
                  ih (parts ▸ heads.clear_append lacks.2 behind) isLast
                rw [← parts, bare_append free, List.count_eq_zero_of_not_mem lacks.2] at least quiet
                rw [left, List.count_append, List.count_append,
                  List.count_eq_zero_of_not_mem lacks.1]
                refine ⟨by omega, fun few => ?_⟩
                exact .next found (passes_of_before skipped parts.symm free)
                  ((quiet_append_iff free).mp (quiet (by omega)))

/-- Replacing at once leaves the item where it begins no placeholder, if nothing that is put in
has it.
-/
theorem Heads.count_replaceAll (heads : p.Heads m)
    (clear : ∀ x, x <:+ w → ∀ ds, p.digitsAt x = some ds → m ∉ sub ds)
    : (p.replaceAll sub w).count m = p.bare m w := by
  induction w using found_induction (p := p) with
  | last w none =>
      rw [replaceAll_of_find_eq_none none]
      have whole := bare_append (m := m) (find_eq_none_iff.mp none)
      simpa [bare] using whole.symm
  | next w f found ih =>
      obtain ⟨whole, here, -⟩ := split_of_find found
      have absent : m ∉ sub f.digits := clear _ (whole ▸ List.suffix_append _ _) _ here
      rw [replaceAll_of_find found, List.count_append, List.count_append,
        List.count_eq_zero_of_not_mem absent, heads.bare_of_find found,
        ih fun x isEnd => clear x (isEnd.trans (after_suffix found)), Nat.zero_add]

/-- The search comes to the text with other things put in at once if and only if it passes every
placeholder, and what it puts in makes the same text.
-/
theorem Heads.run_eq_replaceAll_iff (heads : p.Heads m) (clear : p.Clear put m w)
    (others : ∀ x, x <:+ w → ∀ ds, p.digitsAt x = some ds → m ∉ sub ds)
    : (∃ rounds, p.run put rounds w = some (p.replaceAll sub w))
      ↔ p.Quiet put w ∧ p.replaceAll (fun ds => (put ds).1) w = p.replaceAll sub w := by
  constructor
  · rintro ⟨rounds, done⟩
    have quiet := (heads.count_run clear done).2 (Nat.le_of_eq (heads.count_replaceAll others))
    obtain ⟨more, isDone⟩ := run_of_quiet quiet
    exact ⟨quiet, run_unique isDone done⟩
  · rintro ⟨quiet, same⟩
    exact same ▸ run_of_quiet quiet

end Pattern

end Rescan
