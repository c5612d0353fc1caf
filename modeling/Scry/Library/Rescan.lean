import Mathlib.Data.List.Infix
import Mathlib.Data.Set.Finite.List
import Mathlib.Logic.Relation
import Mathlib.Order.Preorder.Finite

/-! Placeholders that are replaced in a text from left to right, where the search goes on inside
of what was put in. The search may meet the same placeholder again in what it brought; it ends
if and only if that does not happen.
-/

namespace Rescan

/-- Placeholders: a mark, and at least one and at most so many digits. A search begins at a unit
of the text, of which an item takes one or more.
-/
structure Pattern (α : Type) where
  mark : List α
  isDigit : α → Bool
  most : Nat
  width : α → Nat
  marked : mark ≠ []
  wide : ∀ a, 0 < width a

/-- A placeholder in a text. -/
structure Found (α : Type) where
  before : List α
  digits : List α
  after : List α

/-- What is put in the place of a placeholder with some digits, and how many units from the
placeholder's beginning on the search goes on.
-/
abbrev Rule (α : Type) := List α → List α × Nat

namespace Pattern

variable {α : Type} (p : Pattern α)

-----------------------------------------------------------------------------------------
-- Digits
-----------------------------------------------------------------------------------------

/-- The digits at the beginning of a text, up to so many. -/
def digitsOf : Nat → List α → List α
  | n + 1, a :: w => if p.isDigit a then a :: digitsOf n w else []
  | _, _ => []

/-- A text begins with a digit. -/
def startsDigit (w : List α) : Bool := w.head?.any p.isDigit

/-- Digits that a placeholder can have before some text. -/
structure Complete (ds v : List α) : Prop where
  nonempty : ds ≠ []
  digits : ∀ d ∈ ds, p.isDigit d = true
  short : ds.length ≤ p.most
  stops : ds.length < p.most → p.startsDigit v = false

variable {p} {n : Nat}

/-- By induction on the text. -/
theorem digitsOf_append (ds v : List α) (digits : ∀ d ∈ ds, p.isDigit d = true)
    (short : ds.length ≤ n) (stops : ds.length < n → p.startsDigit v = false)
    : p.digitsOf n (ds ++ v) = ds := by
  induction ds generalizing n with
  | nil =>
      cases v with
      | nil => cases n <;> rfl
      | cons a v =>
          cases n with
          | zero => rfl
          | succ n =>
              have other : p.isDigit a = false := stops (Nat.succ_pos n)
              rw [List.nil_append, digitsOf, other]
              rfl
  | cons d ds ih =>
      cases n with
      | zero => exact absurd short (Nat.not_succ_le_zero _)
      | succ n =>
          rw [List.cons_append, digitsOf, if_pos (digits d List.mem_cons_self),
            ih (fun e member => digits e (List.mem_cons_of_mem _ member))
              (Nat.le_of_succ_le_succ short) fun fewer => stops (Nat.succ_lt_succ fewer)]

/-- The digits of a text are a beginning of it that no digit can be added to. -/
theorem digitsOf_split (n : Nat) (w : List α)
    : ∃ v, w = p.digitsOf n w ++ v ∧ (∀ d ∈ p.digitsOf n w, p.isDigit d = true)
      ∧ (p.digitsOf n w).length ≤ n
      ∧ ((p.digitsOf n w).length < n → p.startsDigit v = false) := by
  induction w generalizing n with
  | nil => cases n <;> exact ⟨[], rfl, nofun, Nat.zero_le _, fun _ => rfl⟩
  | cons a w ih =>
      cases n with
      | zero => exact ⟨a :: w, rfl, nofun, Nat.le_refl _, nofun⟩
      | succ n =>
          rw [digitsOf]
          split_ifs with digit
          · obtain ⟨v, whole, digits, short, stops⟩ := ih n
            refine ⟨v, ?_, ?_, Nat.succ_le_succ short,
              fun fewer => stops (Nat.lt_of_succ_lt_succ fewer)⟩
            · rw [List.cons_append, ← whole]
            · intro d member
              rcases List.mem_cons.mp member with rfl | member
              · exact digit
              · exact digits d member
          · exact ⟨a :: w, rfl, nofun, Nat.zero_le _, fun _ => Bool.eq_false_iff.mpr digit⟩

theorem digitsOf_eq_nil (w : List α)
    : p.digitsOf n w = [] ↔ ¬ (0 < n ∧ p.startsDigit w = true) := by
  cases w with
  | nil => cases n <;> simp [digitsOf, startsDigit]
  | cons a w =>
      cases n with
      | zero => simp [digitsOf]
      | succ n => simp [digitsOf, startsDigit]

theorem startsDigit_append {v v' : List α} (alike : p.startsDigit v = p.startsDigit v') (t : List α)
    : p.startsDigit (t ++ v) = p.startsDigit (t ++ v') := by
  cases t with
  | nil => exact alike
  | cons a t => rfl

-----------------------------------------------------------------------------------------
-- Units
-----------------------------------------------------------------------------------------

/-- A text from a unit on; none inside of an item, and nothing behind the end. -/
def skip : Nat → List α → Option (List α)
  | 0, w => some w
  | _ + 1, [] => some []
  | n + 1, a :: w => if p.width a ≤ n + 1 then skip (n + 1 - p.width a) w else none

variable {w v t rest : List α} {k : Nat}

@[simp]
theorem skip_zero (w : List α) : p.skip 0 w = some w := by
  cases w <;> rfl

/-- What is left after a skip is an end of the text. -/
theorem skip_suffix (skipped : p.skip k w = some rest) : rest <:+ w := by
  induction w generalizing k with
  | nil => cases k <;> exact Option.some.inj skipped ▸ List.suffix_refl _
  | cons a w ih =>
      cases k with
      | zero => exact Option.some.inj skipped ▸ List.suffix_refl _
      | succ k =>
          rw [skip] at skipped
          split_ifs at skipped
          exact (ih skipped).trans (List.suffix_cons a w)

/-- A skip that ends before the end of a text ends there whatever is behind it. -/
theorem skip_append (skipped : p.skip k w = some rest) (left : rest ≠ [])
    : p.skip k (w ++ v) = some (rest ++ v) := by
  induction w generalizing k with
  | nil => cases k <;> exact absurd (Option.some.inj skipped).symm left
  | cons a w ih =>
      cases k with
      | zero => rw [← Option.some.inj skipped]; rfl
      | succ k =>
          rw [skip] at skipped
          split_ifs at skipped with fits
          rw [List.cons_append, skip, if_pos fits]
          exact ih skipped

theorem skip_of_append (skipped : p.skip k (w ++ v) = some (t ++ v)) (left : t ≠ [])
    : p.skip k w = some t := by
  induction w generalizing k with
  | nil =>
      have length := (skip_suffix skipped).length_le
      have some := List.length_pos_iff.mpr left
      simp only [List.nil_append, List.length_append] at length
      omega
  | cons a w ih =>
      cases k with
      | zero =>
          have same := Option.some.inj skipped
          rw [List.append_cancel_right_eq] at same
          rw [same, skip_zero]
      | succ k =>
          rw [List.cons_append, skip] at skipped
          split_ifs at skipped with fits
          rw [skip, if_pos fits]
          exact ih skipped

-----------------------------------------------------------------------------------------
-- Searches
-----------------------------------------------------------------------------------------

variable [DecidableEq α] (p) (put : Rule α)

/-- The digits of a placeholder that a text begins with. -/
def digitsAt (w : List α) : Option (List α) :=
  if p.mark <+: w then
    match p.digitsOf p.most (w.drop p.mark.length) with
    | [] => none
    | d :: ds => some (d :: ds)
  else none

/-- The first placeholder. -/
def find : List α → Option (Found α)
  | [] => none
  | a :: w =>
      match p.digitsAt (a :: w) with
      | some ds => some ⟨[], ds, (a :: w).drop (p.mark.length + ds.length)⟩
      | none => (find w).map fun f => { f with before := a :: f.before }

/-- The text that the next search is in. -/
def next (w : List α) : Option (List α) :=
  (p.find w).bind fun f => p.skip (put f.digits).2 ((put f.digits).1 ++ f.after)

/-- The text with its placeholders replaced, in so many rounds at most. A search that begins
inside of an item finds nothing.
-/
def run : Nat → List α → Option (List α)
  | 0, _ => none
  | rounds + 1, w =>
      match p.find w with
      | none => some w
      | some f =>
          let text := (put f.digits).1 ++ f.after
          match p.skip (put f.digits).2 text with
          | none => some (f.before ++ text)
          | some rest =>
              (run rounds rest).map fun done =>
                f.before ++ text.take (text.length - rest.length) ++ done

/-- The digits of the placeholders that the first rounds come to, in order. -/
def met : Nat → List α → List (List α)
  | 0, _ => []
  | rounds + 1, w =>
      match p.find w with
      | none => []
      | some f =>
          f.digits
            :: match p.skip (put f.digits).2 ((put f.digits).1 ++ f.after) with
              | none => []
              | some rest => met rounds rest

/-- The search ends. -/
def Ends (w : List α) : Prop := ∃ rounds, (p.run put rounds w).isSome

variable {p put} {v' : List α} {f : Found α} {rounds : Nat}

theorem digitsAt_eq_some {ds : List α}
    : p.digitsAt w = some ds ↔ ∃ v, w = p.mark ++ ds ++ v ∧ p.Complete ds v := by
  constructor
  · intro found
    rw [digitsAt] at found
    split_ifs at found with marked
    obtain ⟨rest, rfl⟩ := marked
    rw [List.drop_left] at found
    obtain ⟨v, whole, digits, short, stops⟩ := digitsOf_split (p := p) p.most rest
    cases isDigits : p.digitsOf p.most rest with
    | nil =>
        rw [isDigits] at found
        exact nomatch found
    | cons d others =>
        rw [isDigits] at found whole digits short stops
        obtain rfl := Option.some.inj found
        exact ⟨v, by rw [List.append_assoc, ← whole], List.cons_ne_nil _ _, digits, short, stops⟩
  · rintro ⟨v, rfl, complete⟩
    rw [digitsAt, if_pos ⟨ds ++ v, (List.append_assoc _ _ _).symm⟩, List.append_assoc,
      List.drop_left, digitsOf_append ds v complete.digits complete.short complete.stops]
    obtain ⟨d, others, rfl⟩ := List.exists_cons_of_ne_nil complete.nonempty
    rfl

/-- What is found is the first placeholder of the text. -/
theorem find_eq_some
    : p.find w = some f
      ↔ w = f.before ++ p.mark ++ f.digits ++ f.after ∧ p.Complete f.digits f.after
        ∧ ∀ i < f.before.length, p.digitsAt (w.drop i) = none := by
  induction w generalizing f with
  | nil =>
      rw [find]
      refine iff_of_false nofun ?_
      rintro ⟨whole, -, -⟩
      have empty := congrArg List.length whole
      have marked := List.length_pos_iff.mpr p.marked
      simp only [List.length_nil, List.length_append] at empty
      omega
  | cons a w ih =>
      rw [find]
      cases here : p.digitsAt (a :: w) with
      | some ds =>
          obtain ⟨v, whole, complete⟩ := digitsAt_eq_some.mp here
          have after : (a :: w).drop (p.mark.length + ds.length) = v := by
            rw [whole, ← List.length_append, List.drop_left]
          dsimp only
          rw [after, Option.some.injEq]
          constructor
          · rintro rfl
            exact ⟨whole, complete, nofun⟩
          · rintro ⟨split, other, none⟩
            cases front : f.before with
            | cons b front => 
                have first := none 0 (by rw [front]; exact Nat.succ_pos _)
                rw [List.drop_zero, here] at first
                exact nomatch first
            | nil =>
                rw [front, List.nil_append] at split
                have same := digitsAt_eq_some.mpr ⟨f.after, split, other⟩
                rw [here, Option.some.injEq] at same
                subst same
                rw [whole] at split
                have tail := List.append_cancel_left split
                rw [tail]
                obtain ⟨before, digits, others⟩ := f
                obtain rfl : before = [] := front
                rfl
      | none =>
          dsimp only
          rw [Option.map_eq_some_iff]
          constructor
          · rintro ⟨g, found, rfl⟩
            obtain ⟨whole, complete, none⟩ := ih.mp found
            refine ⟨by simp [whole], complete, fun i below => ?_⟩
            cases i with
            | zero => exact here
            | succ i => exact none i (Nat.lt_of_succ_lt_succ below)
          · rintro ⟨whole, complete, none⟩
            obtain ⟨before, digits, after⟩ := f
            cases before with
            | nil =>
                rw [digitsAt_eq_some.mpr ⟨after, whole, complete⟩] at here
                exact nomatch here
            | cons b before =>
                simp only [List.cons_append, List.cons.injEq] at whole
                obtain ⟨rfl, whole⟩ := whole
                refine ⟨⟨before, digits, after⟩, ih.mpr ⟨whole, complete, fun i below => ?_⟩, rfl⟩
                exact none (i + 1) (Nat.succ_lt_succ below)

theorem digitsAt_eq_none
    : p.digitsAt w = none
      ↔ ¬ (p.mark <+: w ∧ 0 < p.most ∧ p.startsDigit (w.drop p.mark.length) = true) := by
  rw [digitsAt]
  split_ifs with marked
  · rw [and_iff_right marked, ← digitsOf_eq_nil]
    cases p.digitsOf p.most (w.drop p.mark.length) <;> simp
  · exact iff_of_true rfl fun all => marked all.1

-----------------------------------------------------------------------------------------
-- Text behind what is looked at
-----------------------------------------------------------------------------------------

/-- Whether a text longer than the mark begins with a placeholder does not depend on what is
behind it.
-/
theorem digitsAt_append_eq_none (long : p.mark.length < t.length)
    (free : p.digitsAt (t ++ v) = none)
    : p.digitsAt (t ++ v') = none := by
  rw [digitsAt_eq_none] at free ⊢
  rintro ⟨marked, some, digit⟩
  refine free ⟨?_, some, ?_⟩
  · exact (List.prefix_of_prefix_length_le marked (List.prefix_append t v')
      (Nat.le_of_lt long)).trans (List.prefix_append t v)
  · rw [List.drop_append_of_le_length (Nat.le_of_lt long)] at digit ⊢
    cases front : t.drop p.mark.length with
    | nil => exact absurd (List.drop_eq_nil_iff.mp front) (Nat.not_le.mpr long)
    | cons a more =>
        rw [front] at digit
        exact digit

/-- A placeholder that lies before some text is found before any other text that goes on alike. -/
theorem find_append_congr {u ds t₂ : List α}
    (found : p.find (t ++ v) = some ⟨u, ds, t₂ ++ v⟩)
    (alike : p.startsDigit v = p.startsDigit v')
    : p.find (t ++ v') = some ⟨u, ds, t₂ ++ v'⟩ := by
  obtain ⟨whole, complete, none⟩ := find_eq_some.mp found
  dsimp only at whole complete none
  rw [← List.append_assoc, List.append_cancel_right_eq] at whole
  refine find_eq_some.mpr ⟨?_, ⟨complete.nonempty, complete.digits, complete.short, ?_⟩, ?_⟩
  · rw [whole, ← List.append_assoc]
  · intro fewer
    rw [← startsDigit_append alike]
    exact complete.stops fewer
  · intro i below
    have digits := List.length_pos_iff.mpr complete.nonempty
    have length := congrArg List.length whole
    simp only [List.length_append] at length
    dsimp only at below
    have first := none i below
    rw [List.drop_append_of_le_length (by omega)] at first ⊢
    exact digitsAt_append_eq_none (by rw [List.length_drop]; omega) first

-----------------------------------------------------------------------------------------
-- Rounds
-----------------------------------------------------------------------------------------

theorem next_eq_some
    : p.next put w = some rest
      ↔ ∃ f, p.find w = some f
        ∧ p.skip (put f.digits).2 ((put f.digits).1 ++ f.after) = some rest :=
  Option.bind_eq_some_iff

/-- A run ends after one more round than the run from the next text. -/
theorem run_succ_isSome
    : (p.run put (rounds + 1) w).isSome
      ↔ ∀ rest, p.next put w = some rest → (p.run put rounds rest).isSome := by
  rw [run, next]
  cases p.find w with
  | none => simp
  | some f =>
      simp only [Option.bind_some]
      cases p.skip (put f.digits).2 ((put f.digits).1 ++ f.after) with
      | none => simp
      | some rest => simp

/-- More rounds change nothing, by induction on the rounds. -/
theorem run_mono {more : Nat} {done : List α} (isDone : p.run put rounds w = some done)
    (enough : rounds ≤ more)
    : p.run put more w = some done := by
  induction rounds generalizing more w done with
  | zero => exact nomatch isDone
  | succ rounds ih =>
      obtain ⟨more, rfl⟩ := Nat.exists_eq_add_of_le' (Nat.le_trans (Nat.succ_pos rounds) enough)
      rw [run] at isDone ⊢
      cases found : p.find w with
      | none =>
          rw [found] at isDone
          exact isDone
      | some f =>
          rw [found] at isDone
          dsimp only at isDone ⊢
          cases skipped : p.skip (put f.digits).2 ((put f.digits).1 ++ f.after) with
          | none =>
              rw [skipped] at isDone
              exact isDone
          | some rest =>
              rw [skipped] at isDone
              dsimp only at isDone ⊢
              obtain ⟨last, isLast, rfl⟩ := Option.map_eq_some_iff.mp isDone
              rw [ih isLast (Nat.le_of_succ_le_succ enough)]
              rfl

theorem run_unique {others : Nat} {one other : List α} (first : p.run put rounds w = some one)
    (second : p.run put others w = some other)
    : one = other := by
  have both := run_mono first (Nat.le_max_left rounds others)
  rw [run_mono second (Nat.le_max_right rounds others)] at both
  exact (Option.some.inj both).symm

theorem run_isSome_mono {more : Nat} (done : (p.run put rounds w).isSome) (enough : rounds ≤ more)
    : (p.run put more w).isSome := by
  obtain ⟨last, isLast⟩ := Option.isSome_iff_exists.mp done
  exact Option.isSome_iff_exists.mpr ⟨last, run_mono isLast enough⟩

/-- The texts of a run. -/
abbrev Reaches (p : Pattern α) (put : Rule α) : List α → List α → Prop :=
  Relation.ReflTransGen fun w rest => p.next put w = some rest

/-- What is met is met in more rounds. By induction on the rounds. -/
theorem mem_met_mono {ds : List α} {more : Nat} (member : ds ∈ p.met put rounds w)
    (enough : rounds ≤ more)
    : ds ∈ p.met put more w := by
  induction rounds generalizing w more with
  | zero => exact nomatch member
  | succ rounds ih =>
      obtain ⟨more, rfl⟩ := Nat.exists_eq_succ_of_ne_zero (Nat.ne_zero_of_lt enough)
      rw [met] at member ⊢
      cases found : p.find w with
      | none =>
          rw [found] at member
          exact nomatch member
      | some f =>
          rw [found] at member
          rcases List.mem_cons.mp member with rfl | later
          · exact List.mem_cons_self
          · refine List.mem_cons_of_mem _ ?_
            cases after : p.skip (put f.digits).2 ((put f.digits).1 ++ f.after) with
            | none =>
                rw [after] at later
                exact nomatch later
            | some rest =>
                rw [after] at later
                exact ih later (Nat.le_of_succ_le_succ enough)

/-- What is met is what is found in the texts of a run. -/
theorem exists_mem_met_iff {ds : List α}
    : (∃ rounds, ds ∈ p.met put rounds w)
      ↔ ∃ x f, Reaches p put w x ∧ p.find x = some f ∧ f.digits = ds := by
  constructor
  · rintro ⟨rounds, member⟩
    induction rounds generalizing w with
    | zero => exact nomatch member
    | succ rounds ih =>
        rw [met] at member
        cases found : p.find w with
        | none =>
            rw [found] at member
            exact nomatch member
        | some f =>
            rw [found] at member
            rcases List.mem_cons.mp member with rfl | later
            · exact ⟨w, f, .refl, found, rfl⟩
            · cases after : p.skip (put f.digits).2 ((put f.digits).1 ++ f.after) with
              | none =>
                  rw [after] at later
                  exact nomatch later
              | some rest =>
                  rw [after] at later
                  obtain ⟨x, g, reaches, isFound, same⟩ := ih later
                  exact ⟨x, g, .head (next_eq_some.mpr ⟨f, found, after⟩) reaches, isFound, same⟩
  · rintro ⟨x, g, reaches, found, rfl⟩
    induction reaches using Relation.ReflTransGen.head_induction_on with
    | refl => exact ⟨1, by rw [met, found]; exact List.mem_cons_self⟩
    | head first _ ih =>
        obtain ⟨rounds, member⟩ := ih
        obtain ⟨f, isFound, after⟩ := next_eq_some.mp first
        refine ⟨rounds + 1, ?_⟩
        rw [met, isFound]
        dsimp only
        rw [after]
        exact List.mem_cons_of_mem _ member

/-- A run that ends needs no more rounds from a later text on. -/
theorem run_isSome_of_next (done : (p.run put rounds w).isSome)
    (after : p.next put w = some rest)
    : (p.run put rounds rest).isSome := by
  cases rounds with
  | zero => exact nomatch done
  | succ rounds => exact run_isSome_mono (run_succ_isSome.mp done rest after) (Nat.le_succ _)

theorem run_isSome_of_reaches (reaches : Reaches p put w rest)
    (done : (p.run put rounds w).isSome)
    : (p.run put rounds rest).isSome := by
  induction reaches with
  | refl => exact done
  | tail _ after ih => exact run_isSome_of_next ih after

/-- A run that does not end goes on with one that does not. -/
theorem exists_next (p : Pattern α) (put : Rule α) (w : List α) (never : ¬ p.Ends put w)
    : ∃ rest, p.next put w = some rest ∧ ¬ p.Ends put rest := by
  cases after : p.next put w with
  | none =>
      refine absurd ⟨1, run_succ_isSome.mpr fun rest some => ?_⟩ never
      rw [after] at some
      exact nomatch some
  | some rest =>
      refine ⟨rest, rfl, fun ⟨rounds, done⟩ => never ⟨rounds + 1, ?_⟩⟩
      refine run_succ_isSome.mpr fun other same => ?_
      rw [after, Option.some.injEq] at same
      exact same ▸ done

-----------------------------------------------------------------------------------------
-- Placeholders that bring themselves
-----------------------------------------------------------------------------------------

/-- A round that stays inside of a text: its placeholder and the place where the search goes on
both lie before what is behind the text.
-/
def Inside (p : Pattern α) (put : Rule α) (v t t' : List α) : Prop :=
  ∃ u ds more, p.find (t ++ v) = some ⟨u, ds, more ++ v⟩
    ∧ p.skip (put ds).2 ((put ds).1 ++ more) = some t' ∧ t' ≠ []

/-- A placeholder is met again inside of what it brings, with a digit behind it both times or
neither time.
-/
def Recurs (p : Pattern α) (put : Rule α) (f : Found α) : Prop :=
  ∃ brought, p.skip (put f.digits).2 (put f.digits).1 = some brought ∧ brought ≠ []
    ∧ ∃ t, Relation.ReflTransGen (Inside p put f.after) brought t
    ∧ ∃ u more, p.find (t ++ f.after) = some ⟨u, f.digits, more ++ f.after⟩
      ∧ p.startsDigit (more ++ f.after) = p.startsDigit f.after

/-- The search comes to a placeholder that is met again inside of what it brings. -/
def Loops (p : Pattern α) (put : Rule α) (w : List α) : Prop :=
  ∃ x f, Reaches p put w x ∧ p.find x = some f ∧ Recurs p put f

theorem Inside.next {t' : List α} (inside : Inside p put v t t')
    (alike : p.startsDigit v = p.startsDigit v')
    : p.next put (t ++ v') = some (t' ++ v') := by
  obtain ⟨u, ds, more, found, skipped, left⟩ := inside
  refine next_eq_some.mpr ⟨_, find_append_congr found alike, ?_⟩
  rw [← List.append_assoc]
  exact skip_append skipped left

theorem reaches_of_inside {t' : List α} (inside : Relation.ReflTransGen (Inside p put v) t t')
    (alike : p.startsDigit v = p.startsDigit v')
    : Reaches p put (t ++ v') (t' ++ v') := by
  induction inside with
  | refl => exact .refl
  | tail _ last ih => exact ih.tail (last.next alike)

/-- What a placeholder brings is searched before what is behind it. -/
theorem next_of_found {brought : List α} (found : p.find w = some f)
    (brings : p.skip (put f.digits).2 (put f.digits).1 = some brought) (some : brought ≠ [])
    : p.next put w = .some (brought ++ f.after) :=
  next_eq_some.mpr ⟨f, found, skip_append brings some⟩

/-- The search is back at the placeholder with more behind it, however often it has been. By
induction on the rounds.
-/
theorem run_eq_none_of_recurs {brought u more : List α}
    (brings : p.skip (put f.digits).2 (put f.digits).1 = some brought) (some : brought ≠ [])
    (inside : Relation.ReflTransGen (Inside p put f.after) brought t)
    (again : p.find (t ++ f.after) = .some ⟨u, f.digits, more ++ f.after⟩)
    (followed : p.startsDigit (more ++ f.after) = p.startsDigit f.after)
    (alike : p.startsDigit f.after = p.startsDigit v)
    : ¬ (p.run put rounds (brought ++ v)).isSome := by
  induction rounds generalizing v with
  | zero => exact nofun
  | succ rounds ih =>
      intro done
      have back := run_isSome_of_reaches (reaches_of_inside inside alike) done
      have found := find_append_congr again alike
      have after := next_of_found found brings some
      refine ih ?_ (run_succ_isSome.mp back _ after)
      rw [← startsDigit_append alike, followed]

theorem not_ends_of_loops (loops : Loops p put w) : ¬ p.Ends put w := by
  rintro ⟨rounds, done⟩
  obtain ⟨x, f, reaches, found, brought, brings, some, t, inside, u, more, again, followed⟩ := loops
  have after := next_of_found found brings some
  exact run_eq_none_of_recurs brings some inside again followed rfl
    (run_isSome_of_next (run_isSome_of_reaches reaches done) after)

-----------------------------------------------------------------------------------------
-- Runs without an end
-----------------------------------------------------------------------------------------

/-- The texts of a run that goes on, and the placeholders that are found in them. -/
structure Endless (p : Pattern α) (put : Rule α) (s : Nat → List α) (f : Nat → Found α) : Prop where
  found : ∀ n, p.find (s n) = some (f n)
  after
    : ∀ n, p.skip (put (f n).digits).2 ((put (f n).digits).1 ++ (f n).after) = some (s (n + 1))

namespace Endless

variable {s : Nat → List α} {f : Nat → Found α} {n m : Nat}

/-- How much of the text behind a placeholder is left in the next text. -/
def kept (s : Nat → List α) (f : Nat → Found α) (n : Nat) : Nat :=
  min (s (n + 1)).length (f n).after.length

/-- No later round leaves less. -/
def Stair (s : Nat → List α) (f : Nat → Found α) (n : Nat) : Prop :=
  ∀ m, n ≤ m → kept s f n ≤ kept s f m

theorem after_lt (endless : Endless p put s f) (n : Nat) : (f n).after.length < (s n).length := by
  obtain ⟨whole, -, -⟩ := find_eq_some.mp (endless.found n)
  have marked := List.length_pos_iff.mpr p.marked
  rw [whole]
  simp only [List.length_append]
  omega

theorem kept_lt (endless : Endless p put s f) (n : Nat) : kept s f n < (s n).length :=
  Nat.lt_of_le_of_lt (Nat.min_le_right _ _) (endless.after_lt n)

omit [DecidableEq α] in
/-- After every round there is one that no later one leaves less than. -/
theorem infinite_stairs (s : Nat → List α) (f : Nat → Found α) : {n | Stair s f n}.Infinite := by
  refine Set.infinite_of_forall_exists_gt fun start => ?_
  obtain ⟨n, above, least⟩ :=
    (measure (kept s f)).wf.has_min {n | start < n} ⟨start + 1, Nat.lt_succ_self _⟩
  exact ⟨n, fun m later => Nat.not_lt.mp (least m (Nat.lt_of_lt_of_le above later)), above⟩

/-- At such a round something is brought, before all that was behind the placeholder. -/
theorem brings (endless : Endless p put s f) (stair : Stair s f n)
    : ∃ brought, s (n + 1) = brought ++ (f n).after
      ∧ p.skip (put (f n).digits).2 (put (f n).digits).1 = some brought ∧ brought ≠ [] := by
  have after := endless.after n
  have longer : (f n).after.length < (s (n + 1)).length := by
    by_contra short
    have all : kept s f n = (s (n + 1)).length := Nat.min_eq_left (Nat.not_lt.mp short)
    exact Nat.not_lt.mpr (all ▸ stair (n + 1) (Nat.le_succ n)) (endless.kept_lt (n + 1))
  obtain ⟨brought, whole⟩ := List.suffix_of_suffix_length_le (List.suffix_append _ _)
    (skip_suffix after) (Nat.le_of_lt longer)
  have some : brought ≠ [] := by
    rintro rfl
    rw [← whole] at longer
    exact Nat.lt_irrefl _ longer
  rw [← whole] at after
  exact ⟨brought, whole.symm, skip_of_append after some, some⟩

theorem kept_eq (endless : Endless p put s f) (stair : Stair s f n)
    : kept s f n = (f n).after.length := by
  obtain ⟨brought, whole, -, -⟩ := endless.brings stair
  rw [kept, whole, List.length_append]
  exact Nat.min_eq_right (Nat.le_add_left _ _)

/-- A later placeholder lies before what is behind the one of a stair. -/
theorem after_of_stair (endless : Endless p put s f) (stair : Stair s f n) (later : n ≤ m)
    (whole : s m = t ++ (f n).after)
    : ∃ more, (f m).after = more ++ (f n).after := by
  have kept := Nat.le_trans (stair m later) (Nat.min_le_right _ _)
  rw [endless.kept_eq stair] at kept
  obtain ⟨split, -, -⟩ := find_eq_some.mp (endless.found m)
  have here : (f n).after <:+ s m := whole ▸ List.suffix_append _ _
  have there : (f m).after <:+ s m := split ▸ List.suffix_append _ _
  obtain ⟨more, same⟩ := List.suffix_of_suffix_length_le here there kept
  exact ⟨more, same.symm⟩

/-- From a stair on all rounds stay inside of what it brings. By induction on the rounds. -/
theorem stays_inside (endless : Endless p put s f) (stair : Stair s f n) {brought : List α}
    (whole : s (n + 1) = brought ++ (f n).after) (later : n + 1 ≤ m)
    : ∃ t, s m = t ++ (f n).after
      ∧ Relation.ReflTransGen (Inside p put (f n).after) brought t := by
  induction m, later using Nat.le_induction with
  | base => exact ⟨brought, whole, .refl⟩
  | succ m later ih =>
      obtain ⟨t, here, inside⟩ := ih
      have isLater : n ≤ m := Nat.le_of_succ_le later
      obtain ⟨more, behind⟩ := endless.after_of_stair stair isLater here
      have found := endless.found m
      have after := endless.after m
      have kept := Nat.le_trans (stair m isLater) (Nat.min_le_left _ _)
      rw [endless.kept_eq stair] at kept
      rw [behind, ← List.append_assoc] at after
      obtain ⟨t', next⟩ := List.suffix_of_suffix_length_le (List.suffix_append _ _)
        (skip_suffix after) kept
      have left : t' ≠ [] := by
        rintro rfl
        have lower := endless.kept_lt (m + 1)
        rw [← next, List.nil_append, ← endless.kept_eq stair] at lower
        exact Nat.not_lt.mpr (stair (m + 1) (Nat.le_succ_of_le isLater)) lower
      rw [← next] at after
      refine ⟨t', next.symm, inside.tail ⟨(f m).before, (f m).digits, more, ?_, ?_, left⟩⟩
      · rw [← here, found, ← behind]
      · exact skip_of_append after left

omit [DecidableEq α] in
/-- The digits of placeholders are finitely many where the digits are. -/
theorem finite_digits (few : {a | p.isDigit a = true}.Finite)
    : {ds : List α | (∀ d ∈ ds, p.isDigit d = true) ∧ ds.length ≤ p.most}.Finite := by
  have : Finite {a // p.isDigit a = true} := few.to_subtype
  refine ((List.finite_length_le {a // p.isDigit a = true} p.most).image
    (List.map Subtype.val)).subset ?_
  rintro ds ⟨digits, short⟩
  exact ⟨ds.attachWith _ digits, by simpa using short, by simp⟩

/-- Two stairs have the same placeholder, followed alike; the later one lies inside of what the
earlier one brings.
-/
theorem recurs (endless : Endless p put s f) (few : {a | p.isDigit a = true}.Finite)
    : ∃ n, Recurs p put (f n) := by
  obtain ⟨i, iStair, j, jStair, apart, same⟩ :=
    (infinite_stairs s f).exists_ne_map_eq_of_mapsTo
      (f := fun n => ((f n).digits, p.startsDigit (f n).after))
      (t := {ds | (∀ d ∈ ds, p.isDigit d = true) ∧ ds.length ≤ p.most} ×ˢ Set.univ)
      (fun n _ => by
        obtain ⟨-, complete, -⟩ := find_eq_some.mp (endless.found n)
        exact ⟨⟨complete.digits, complete.short⟩, trivial⟩)
      ((finite_digits few).prod Set.finite_univ)
  have earlier {n m : Nat} (stair : Stair s f n) (later : n < m)
      (same : ((f n).digits, p.startsDigit (f n).after)
        = ((f m).digits, p.startsDigit (f m).after))
      : Recurs p put (f n) := by
    obtain ⟨brought, whole, isBrought, some⟩ := endless.brings stair
    obtain ⟨t, here, inside⟩ := endless.stays_inside stair whole later
    obtain ⟨more, behind⟩ := endless.after_of_stair stair (Nat.le_of_lt later) here
    obtain ⟨digits, followed⟩ := Prod.mk.inj same
    refine ⟨brought, isBrought, some, t, inside, (f m).before, more, ?_, ?_⟩
    · rw [← here, endless.found m, digits, ← behind]
    · rw [← behind, followed]
  rcases Nat.lt_or_gt_of_ne apart with before | before
  · exact ⟨i, earlier iStair before same⟩
  · exact ⟨j, earlier jStair before same.symm⟩

end Endless

theorem loops_of_not_ends (few : {a | p.isDigit a = true}.Finite) (never : ¬ p.Ends put w)
    : Loops p put w := by
  choose! after isNext goesOn using exists_next p put
  have all (n : Nat) : ¬ p.Ends put (after^[n] w) := by
    induction n with
    | zero => exact never
    | succ n ih =>
        rw [Function.iterate_succ_apply']
        exact goesOn _ ih
  choose f found skipped using fun n => next_eq_some.mp (isNext _ (all n))
  have endless : Endless p put (fun n => after^[n] w) f :=
    ⟨found, fun n => by rw [skipped, Function.iterate_succ_apply']⟩
  have reaches (n : Nat) : Reaches p put w (after^[n] w) := by
    induction n with
    | zero => exact .refl
    | succ n ih =>
        rw [Function.iterate_succ_apply']
        exact ih.tail (isNext _ (all n))
  obtain ⟨n, recurs⟩ := endless.recurs few
  exact ⟨_, f n, reaches n, found n, recurs⟩

/-- The search ends if and only if it comes to no placeholder that is met again inside of what it
brings.
-/
theorem ends_iff (few : {a | p.isDigit a = true}.Finite) : p.Ends put w ↔ ¬ Loops p put w :=
  ⟨fun ends loops => not_ends_of_loops loops ends,
    fun none => by_contra fun never => none (loops_of_not_ends few never)⟩

end Pattern

end Rescan
