import Mathlib.Data.List.Basic
import Mathlib.Order.Basic

/-! The clock of the game. It is set by a packet, and moved on by the whole seconds between two
readings of the clock outside, times twenty; what is left of a second at a reading is lost.
-/

namespace Scry

structure TimeOfDayStruct where
  hour : UInt8
  minute : UInt8
  day : UInt8
  month : UInt8
  year : UInt16

/-- The second that a date and a time of day are, where they are valid: the dates of Qt. -/
abbrev Calendar := TimeOfDayStruct → Option Int

/-- The manager. The game's clock is in seconds, the other one in milliseconds; the timer has an
interval once it runs.
-/
structure DateTimeMgr where
  updateFrequency : Int32
  timer : Option Int32
  eqDateTime : Option Int
  refDateTime : Int
  deriving DecidableEq

namespace DateTimeMgr

/-- `secsTo`, stored in an `int`. -/
def secs (ref current : Int) : Int := (Int32.ofInt ((current - ref).tdiv 1000)).toInt

/-- A product that is an `int`. -/
def FitsInt (n : Int) : Prop := -2147483648 ≤ n ∧ n ≤ 2147483647

instance decidableFitsInt (n : Int) : Decidable (FitsInt n) := inferInstanceAs (Decidable (_ ∧ _))

/-- `timeOfDay`, at a reading of the clock. -/
def timeOfDay (calendar : Calendar) (tday : TimeOfDayStruct) (now : Int) (d : DateTimeMgr)
    : DateTimeMgr :=
  { d with
    refDateTime := now
    eqDateTime := calendar tday
    timer := some (d.timer.getD d.updateFrequency) }

/-- `update`, at a reading of the clock. It has no result where the product overflows. -/
def update (current : Int) (d : DateTimeMgr) : Option DateTimeMgr :=
  match d.eqDateTime with
  | none => some d
  | some eqDateTime =>
      if secs d.refDateTime current = 0 then some d
      else if FitsInt (secs d.refDateTime current * 20) then
        some
          { d with
            eqDateTime := some (eqDateTime + secs d.refDateTime current * 20)
            refDateTime := current }
      else none

/-- `setUpdateFrequency`. -/
def setUpdateFrequency (seconds : Int32) (current : Int) (d : DateTimeMgr) : Option DateTimeMgr :=
  let d := { d with updateFrequency := seconds * 1000 }
  match d.timer with
  | none => some d
  | some _ => (d.update current).map fun d => { d with timer := some d.updateFrequency }

/-- What makes the manager look at the clock. -/
inductive Op
  | timeout (current : Int)
  | updatedDateTime (current : Int)
  | setUpdateFrequency (seconds : Int32) (current : Int)

def Op.current : Op → Int
  | .timeout current => current
  | .updatedDateTime current => current
  | .setUpdateFrequency _ current => current

def Op.run (d : DateTimeMgr) : Op → Option DateTimeMgr
  | .timeout current => d.update current
  | .updatedDateTime current => d.update current
  | .setUpdateFrequency seconds current => d.setUpdateFrequency seconds current

/-- The manager after some updates. -/
def after (d : DateTimeMgr) (ops : List Op) : Option DateTimeMgr := ops.foldlM Op.run d

-----------------------------------------------------------------------------------------
-- What readings count and lose
-----------------------------------------------------------------------------------------

/-- The seconds that readings are counted for. -/
def counted (ref : Int) : List Int → Int
  | [] => 0
  | current :: later =>
      if secs ref current = 0 then counted ref later
      else secs ref current + counted current later

/-- The milliseconds that readings leave uncounted. -/
def uncounted (ref : Int) : List Int → Int
  | [] => 0
  | current :: later =>
      if secs ref current = 0 ∧ later ≠ [] then uncounted ref later
      else (current - ref - 1000 * secs ref current) + uncounted current later

/-- No step is so long that it overflows. -/
def Fits (ref : Int) : List Int → Prop
  | [] => True
  | current :: later =>
      if secs ref current = 0 then Fits ref later
      else FitsInt (secs ref current * 20) ∧ Fits current later

instance decidableFits : (ref : Int) → (readings : List Int) → Decidable (Fits ref readings)
  | _, [] => isTrue trivial
  | ref, current :: later =>
      have := decidableFits ref later
      have := decidableFits current later
      inferInstanceAs
        (Decidable
          (if secs ref current = 0 then Fits ref later
            else FitsInt (secs ref current * 20) ∧ Fits current later))

variable {calendar : Calendar} {tday : TimeOfDayStruct} {d : DateTimeMgr} {ref current last e : Int}
  {readings : List Int} {op : Op} {ops : List Op}

/-- What is counted and what is not make up the time, by induction on the readings. -/
theorem counted_add_uncounted (ref : Int) (some : readings ≠ [])
    : 1000 * counted ref readings + uncounted ref readings = readings.getLast some - ref := by
  induction readings generalizing ref with
  | nil => exact absurd rfl some
  | cons current later ih =>
      rw [counted, uncounted]
      cases later with
      | nil =>
          rw [List.getLast_singleton]
          by_cases short : secs ref current = 0
          · rw [if_pos short, if_neg fun both => both.2 rfl, counted, uncounted]
            omega
          · rw [if_neg short, if_neg fun both => both.2 rfl, counted, uncounted]
            omega
      | cons next more =>
          rw [List.getLast_cons (List.cons_ne_nil next more)]
          by_cases short : secs ref current = 0
          · rw [if_pos short, if_pos ⟨short, List.cons_ne_nil next more⟩]
            exact ih ref (List.cons_ne_nil next more)
          · rw [if_neg short, if_neg fun both => short both.1]
            have rest := ih current (List.cons_ne_nil next more)
            omega

/-- No more seconds are counted than went by. -/
theorem secs_le (forward : ref ≤ current) : 1000 * secs ref current ≤ current - ref := by
  have whole : 0 ≤ (current - ref).tdiv 1000 := Int.tdiv_nonneg (by omega) (by decide)
  have wrapped : secs ref current ≤ (current - ref).tdiv 1000 := by
    rw [secs, Int32.toInt_ofInt]
    change Int.bmod _ 4294967296 ≤ _
    rw [Int.bmod_def]
    split_ifs <;> omega
  have floor : 1000 * (current - ref).tdiv 1000 ≤ current - ref := by
    rw [Int.tdiv_eq_ediv_of_nonneg (by omega)]
    omega
  omega

theorem uncounted_nonneg (ordered : (ref :: readings).Pairwise (· ≤ ·))
    : 0 ≤ uncounted ref readings := by
  induction readings generalizing ref with
  | nil => exact Int.le_refl 0
  | cons current later ih =>
      rw [uncounted]
      obtain ⟨first, rest⟩ := List.pairwise_cons.mp ordered
      split_ifs
      · refine ih (List.pairwise_cons.mpr ⟨fun t member => ?_, (List.pairwise_cons.mp rest).2⟩)
        exact first t (List.mem_cons_of_mem _ member)
      · have step := secs_le (first current List.mem_cons_self)
        have more := ih rest
        omega

/-- The clock was set, to a second at a reading. -/
structure Runs (d : DateTimeMgr) (e ref : Int) : Prop where
  ticking : d.timer.isSome = true
  time : d.eqDateTime = some e
  reference : d.refDateTime = ref

/-- What a look at the clock comes to. -/
def LooksAt (e ref current : Int) (result : Option DateTimeMgr) : Prop :=
  if secs ref current = 0 then ∃ d, result = some d ∧ d.Runs e ref
  else if FitsInt (secs ref current * 20) then
    ∃ d, result = some d ∧ d.Runs (e + secs ref current * 20) current
  else result = none

theorem Runs.update (runs : d.Runs e ref) (current : Int)
    : LooksAt e ref current (d.update current) := by
  rw [LooksAt, DateTimeMgr.update, runs.time]
  dsimp only
  rw [runs.reference]
  split_ifs
  · exact ⟨d, rfl, runs⟩
  · exact ⟨_, rfl, runs.ticking, rfl, rfl⟩
  · rfl

theorem LooksAt.map {result : Option DateTimeMgr} {f : DateTimeMgr → DateTimeMgr}
    (look : LooksAt e ref current result)
    (keeps : ∀ d e ref, d.Runs e ref → (f d).Runs e ref)
    : LooksAt e ref current (result.map f) := by
  rw [LooksAt] at look ⊢
  split_ifs at look ⊢
  · obtain ⟨d, rfl, runs⟩ := look
    exact ⟨f d, rfl, keeps d e ref runs⟩
  · obtain ⟨d, rfl, runs⟩ := look
    exact ⟨f d, rfl, keeps d _ _ runs⟩
  · rw [look]
    rfl

/-- Whatever makes the manager look at the clock, it does so in the same way. -/
theorem Runs.run (runs : d.Runs e ref) (op : Op) : LooksAt e ref op.current (op.run d) := by
  cases op with
  | timeout current => exact runs.update current
  | updatedDateTime current => exact runs.update current
  | setUpdateFrequency seconds current =>
      obtain ⟨frequency, timer, time, reference⟩ := d
      cases timer with
      | none => exact absurd runs.ticking Bool.false_ne_true
      | some interval =>
          let d' : DateTimeMgr := ⟨seconds * 1000, some interval, time, reference⟩
          have runs' : d'.Runs e ref := ⟨rfl, runs.time, runs.reference⟩
          exact (runs'.update current).map fun d _ _ runs => ⟨rfl, runs.time, runs.reference⟩

/-- The game's clock after some looks: it has what was counted, unless a step overflowed. By
induction on the looks.
-/
theorem Runs.after_iff (runs : d.Runs e ref) {time : Int}
    : (∃ d', d.after ops = some d' ∧ d'.eqDateTime = some time)
      ↔ Fits ref (ops.map Op.current) ∧ time = e + 20 * counted ref (ops.map Op.current) := by
  induction ops generalizing d e ref with
  | nil =>
      have start : d.after [] = some d := rfl
      simp only [start, Option.some.injEq, exists_eq_left', runs.time, List.map_nil, Fits, counted,
        true_and]
      omega
  | cons op rest ih =>
      have first : d.after (op :: rest) = (op.run d).bind fun d => d.after rest := rfl
      have look := runs.run op
      rw [LooksAt] at look
      rw [first, List.map_cons, Fits, counted]
      by_cases short : secs ref op.current = 0
      · rw [if_pos short] at look ⊢
        obtain ⟨d', run, kept⟩ := look
        rw [run, Option.bind_some, ih kept, if_pos short]
      · rw [if_neg short] at look ⊢
        by_cases fits : FitsInt (secs ref op.current * 20)
        · rw [if_pos fits] at look
          obtain ⟨d', run, moved⟩ := look
          rw [run, Option.bind_some, ih moved, if_neg short, and_iff_right fits]
          refine and_congr_right fun _ => ?_
          omega
        · rw [if_neg fits] at look
          rw [look]
          refine iff_of_false ?_ fun both => fits both.1.1
          rintro ⟨d', run, -⟩
          exact Option.some_ne_none d' run.symm

/-- Without a valid time there is nothing to move on. -/
theorem after_invalid (invalid : d.eqDateTime = none) (ops : List Op)
    : ∃ d', d.after ops = some d' ∧ d'.eqDateTime = none := by
  induction ops generalizing d with
  | nil => exact ⟨d, rfl, invalid⟩
  | cons op rest ih =>
      have update (d : DateTimeMgr) (none : d.eqDateTime = .none) (current : Int)
          : d.update current = some d := by
        rw [DateTimeMgr.update, none]
      have first : d.after (op :: rest) = (op.run d).bind fun d => d.after rest := rfl
      rw [first]
      cases op with
      | timeout current =>
          rw [Op.run, update d invalid]
          exact ih invalid
      | updatedDateTime current =>
          rw [Op.run, update d invalid]
          exact ih invalid
      | setUpdateFrequency seconds current =>
          rw [Op.run, setUpdateFrequency]
          cases d.timer with
          | none => exact ih invalid
          | some _ =>
              rw [update]
              · exact ih invalid
              · exact invalid

-----------------------------------------------------------------------------------------
-- However often it is polled
-----------------------------------------------------------------------------------------

/-- The whole seconds from a reading to the last one. -/
def elapsed (now : Int) (readings : List Int) : Int := (readings.getLastD now - now) / 1000

/-- After a packet and some looks, the game's clock is what the packet said and twenty times the
whole seconds since then.
-/
def Exact (calendar : Calendar) (tday : TimeOfDayStruct) (now : Int) (d : DateTimeMgr)
    (ops : List Op) : Prop :=
  ∃ d', (d.timeOfDay calendar tday now).after ops = some d'
    ∧ d'.eqDateTime
      = (calendar tday).map (· + 20 * elapsed now (ops.map Op.current))

/-- The game's clock is exact if and only if no step overflows and the readings lose less than a
second in all.
-/
theorem exact_iff (calendar : Calendar) (tday : TimeOfDayStruct) (now : Int) (d : DateTimeMgr)
    (ops : List Op) (ordered : (now :: ops.map Op.current).Pairwise (· ≤ ·))
    : Exact calendar tday now d ops
      ↔ (calendar tday ≠ none →
          Fits now (ops.map Op.current) ∧ uncounted now (ops.map Op.current) < 1000) := by
  rw [Exact]
  cases synced : calendar tday with
  | none =>
      have invalid : (d.timeOfDay calendar tday now).eqDateTime = none := synced
      exact iff_of_true (after_invalid invalid ops) fun some => absurd rfl some
  | some e =>
      have runs : (d.timeOfDay calendar tday now).Runs e now := ⟨rfl, synced, rfl⟩
      rw [Option.map_some, runs.after_iff, forall_prop_of_true (Option.some_ne_none e)]
      refine and_congr_right fun _ => ?_
      have lost := uncounted_nonneg ordered
      cases readings : ops.map Op.current with
      | nil => simp [elapsed, counted, uncounted]
      | cons first later =>
          have whole := counted_add_uncounted now (List.cons_ne_nil first later)
          rw [readings] at lost
          have last := List.getLast?_eq_getLast_of_ne_nil (List.cons_ne_nil first later)
          rw [elapsed, List.getLastD_eq_getLast?, last, Option.getD_some]
          omega

/-- Polls after whole seconds, after a change of the interval and within a second. -/
theorem exact_iff_wholeSeconds
    : Exact (fun _ => some 0) ⟨1, 0, 1, 1, 3500⟩ 250 ⟨60000, none, none, 0⟩
        [.timeout 60250, .setUpdateFrequency 3 63250, .updatedDateTime 63900, .timeout 66249] :=
  (exact_iff _ _ _ _ _ (by decide)).mpr fun _ => by decide

/-- Two polls after a second and a half each lose a second. -/
theorem not_exact
    : ¬ ∀ (calendar : Calendar) (tday : TimeOfDayStruct) (now : Int) (d : DateTimeMgr)
        (ops : List Op), (now :: ops.map Op.current).Pairwise (· ≤ ·) →
          Exact calendar tday now d ops := by
  intro always
  obtain ⟨d, run, time⟩ := always (fun _ => some 0) ⟨1, 0, 1, 1, 3500⟩ 0 ⟨60000, none, none, 0⟩
    [.timeout 1500, .timeout 3000] (by decide)
  have polled
      : ((⟨60000, none, none, 0⟩ : DateTimeMgr).timeOfDay (fun _ => some 0) ⟨1, 0, 1, 1, 3500⟩ 0).after
          [.timeout 1500, .timeout 3000]
        = some ⟨60000, some 60000, some 40, 3000⟩ := by
    decide
  rw [polled, Option.some.injEq] at run
  subst run
  exact absurd time (by decide)

end DateTimeMgr

end Scry
